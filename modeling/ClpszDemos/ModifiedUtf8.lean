import ClpszDemos.ClassFileEncoding
import ClpszDemos.JavaText

/-!
# Strings of the constant pool

A `CONSTANT_Utf8` holds its code units in the modified UTF-8 of class files,
and `decodeMUTF8` takes the bytes as they are.  The two encodings differ in
U+0000, which the modified one writes in two bytes, and in the characters from
U+10000 on, of which it writes both surrogates.
-/

namespace ClpszDemos

namespace Jvm

namespace Classfile

open BigEndian JavaText

/-! ## The two encodings -/

/-- One code unit, with no byte that is zero. -/
def modifiedUnit (unit : UInt16) : List Byte :=
  let v := unit.toNat
  if 0 < v ∧ v < 0x80 then [BitVec.ofNat 8 v]
  else if v < 0x800 then
    [BitVec.ofNat 8 (0xc0 + v / 0x40), BitVec.ofNat 8 (0x80 + v % 0x40)]
  else
    [BitVec.ofNat 8 (0xe0 + v / 0x1000),
      BitVec.ofNat 8 (0x80 + v / 0x40 % 0x40), BitVec.ofNat 8 (0x80 + v % 0x40)]

def modifiedUtf8 (s : JString) : List Byte := s.flatMap modifiedUnit

def utf8Char (c : Char) : List Byte :=
  (String.utf8EncodeChar c).map UInt8.toBitVec

/-- Standard UTF-8 -/
def utf8 (chars : List Char) : List Byte := chars.flatMap utf8Char

/-- A `CONSTANT_Utf8` of the code units `s` -/
def utf8Entry (s : JString) : List Byte :=
  1#8 :: (count (modifiedUtf8 s).length ++ modifiedUtf8 s)

/-- `getUtf8` has `str` for the entry of `s`, wherever it is in a pool. -/
def Fetches (s : JString) (str : List Byte) : Prop :=
  ∀ rest, ∃ c, readConstantInfo (utf8Entry s ++ rest) = .ok (c, rest) ∧
    ∀ (cp : ConstantPool) (index : BitVec 16),
      cp[index.toNat]? = some (some c) → cp.getUtf8 index = .ok str

theorem fetches_iff {s : JString} {str : List Byte}
    (hlength : (modifiedUtf8 s).length ≤ 65535) :
    Fetches s str ↔ modifiedUtf8 s = str := by
  have hread : ∀ rest, readConstantInfo (utf8Entry s ++ rest) =
      .ok (.utf8 (modifiedUtf8 s), rest) := by
    have hrange : (ConstantInfo.utf8 (modifiedUtf8 s)).InRange :=
      Nat.lt_succ_of_le hlength
    exact append_of_reads (reads_readConstantInfo hrange)
  constructor
  · intro hfetches
    obtain ⟨c, hc, hutf8⟩ := hfetches []
    rw [hread []] at hc
    cases hc
    have hentry : NamedAt [some (.utf8 (modifiedUtf8 s))] 0 (modifiedUtf8 s) :=
      rfl
    have hstr := hutf8 _ 0 hentry
    rw [getUtf8_namedAt hentry] at hstr
    cases hstr
    rfl
  · intro hstr rest
    refine ⟨_, hread rest, ?_⟩
    intro cp index hentry
    rw [getUtf8_namedAt hentry, hstr]

/-! ## Bytes of the modified encoding -/

theorem modifiedUnit_bounds {unit : UInt16} {byte : Byte}
    (hbyte : byte ∈ modifiedUnit unit) :
    0 < byte.toNat ∧ byte.toNat < 0xf0 := by
  have hunit : unit.toNat < 0x10000 := unit.toNat_lt
  unfold modifiedUnit at hbyte
  dsimp only at hbyte
  split_ifs at hbyte with hone htwo
  · simp only [List.mem_singleton] at hbyte
    rw [hbyte, BitVec.toNat_ofNat]
    omega
  · simp only [List.mem_cons, List.not_mem_nil, or_false] at hbyte
    rcases hbyte with rfl | rfl
    · rw [BitVec.toNat_ofNat]
      omega
    · rw [BitVec.toNat_ofNat]
      omega
  · simp only [List.mem_cons, List.not_mem_nil, or_false] at hbyte
    rcases hbyte with rfl | rfl | rfl
    · rw [BitVec.toNat_ofNat]
      omega
    · rw [BitVec.toNat_ofNat]
      omega
    · rw [BitVec.toNat_ofNat]
      omega

theorem modifiedUtf8_bounds {s : JString} {byte : Byte}
    (hbyte : byte ∈ modifiedUtf8 s) : 0 < byte.toNat ∧ byte.toNat < 0xf0 := by
  obtain ⟨unit, _, hunit⟩ := List.mem_flatMap.mp hbyte
  exact modifiedUnit_bounds hunit

/-- In standard UTF-8, U+0000 is a zero byte, and four bytes begin with one
from 0xf0 on. -/
theorem exists_byte_utf8Char {c : Char}
    (hc : ¬(c.toNat ≠ 0 ∧ c.toNat < 0x10000)) :
    ∃ byte ∈ utf8Char c, byte.toNat = 0 ∨ 0xf0 ≤ byte.toNat := by
  by_cases hzero : c.toNat = 0
  · refine ⟨0, ?_, Or.inl rfl⟩
    have hval : c.val.toNat = 0 := hzero
    unfold utf8Char String.utf8EncodeChar
    simp [hval]
  · have hlarge : 0x10000 ≤ c.val.toNat := by
      have hnot : ¬c.toNat < 0x10000 := fun hlt => hc ⟨hzero, hlt⟩
      exact Nat.le_of_not_lt hnot
    refine ⟨BitVec.ofNat 8 (c.val.toNat / 262144 % 8 + 0xf0), ?_, Or.inr ?_⟩
    · unfold utf8Char String.utf8EncodeChar
      dsimp only
      rw [if_neg (by omega), if_neg (by omega), if_neg (by omega)]
      exact List.mem_cons_self
    · rw [BitVec.toNat_ofNat]
      omega

/-! ## Where the encodings agree -/

theorem modifiedUtf8_utf16 {c : Char}
    (hc : c.toNat ≠ 0 ∧ c.toNat < 0x10000) :
    modifiedUtf8 (utf16 c) = utf8Char c := by
  obtain ⟨hzero, hlt⟩ := hc
  have hunit : (c.toNat.toUInt16).toNat = c.val.toNat := by
    show c.toNat % 65536 = c.val.toNat
    exact Nat.mod_eq_of_lt hlt
  have hpos : c.val.toNat ≠ 0 := hzero
  have hval : c.val.toNat < 0x10000 := hlt
  unfold modifiedUtf8 utf16
  rw [if_pos hlt, List.flatMap_singleton]
  unfold modifiedUnit utf8Char String.utf8EncodeChar
  rw [hunit]
  generalize c.val.toNat = v at hpos hval
  dsimp only
  by_cases hone : v < 0x80
  · rw [if_pos ⟨by omega, hone⟩, if_pos (by omega)]
    rfl
  · rw [if_neg fun h => hone h.2, if_neg (show ¬v ≤ 0x7f by omega)]
    by_cases htwo : v < 0x800
    · have hmod : v / 64 % 32 + 192 = 192 + v / 64 := by omega
      rw [if_pos htwo, if_pos (show v ≤ 0x7ff by omega), hmod, Nat.add_comm (v % 64)]
      rfl
    · have hmod : v / 4096 % 16 + 224 = 224 + v / 4096 := by omega
      rw [if_neg htwo, if_neg (show ¬v ≤ 0x7ff by omega),
        if_pos (show v ≤ 0xffff by omega), hmod,
        Nat.add_comm (v / 64 % 64), Nat.add_comm (v % 64)]
      rfl

theorem modifiedUtf8_flatMap (chars : List Char) :
    modifiedUtf8 (chars.flatMap utf16) =
      chars.flatMap fun c => modifiedUtf8 (utf16 c) := by
  unfold modifiedUtf8
  rw [List.flatMap_assoc]

theorem modifiedUtf8_eq_utf8_iff (chars : List Char) :
    modifiedUtf8 (chars.flatMap utf16) = utf8 chars ↔
      ∀ c ∈ chars, c.toNat ≠ 0 ∧ c.toNat < 0x10000 := by
  constructor
  · intro heq c hc
    by_contra hchar
    obtain ⟨byte, hbyte, hout⟩ := exists_byte_utf8Char hchar
    have hmem : byte ∈ modifiedUtf8 (chars.flatMap utf16) := by
      rw [heq]
      exact List.mem_flatMap.mpr ⟨c, hc, hbyte⟩
    have hbounds := modifiedUtf8_bounds hmem
    omega
  · intro hchars
    rw [modifiedUtf8_flatMap]
    unfold utf8
    rw [List.flatMap_def, List.flatMap_def]
    congr 1
    apply List.map_congr_left
    intro c hc
    exact modifiedUtf8_utf16 (hchars c hc)

/-- `getUtf8` has the standard encoding of the strings without U+0000 and
without surrogates, and of no others. -/
theorem fetches_utf8_iff {chars : List Char}
    (hlength : (modifiedUtf8 (chars.flatMap utf16)).length ≤ 65535) :
    Fetches (chars.flatMap utf16) (utf8 chars) ↔
      ∀ c ∈ chars, c.toNat ≠ 0 ∧ c.toNat < 0x10000 :=
  (fetches_iff hlength).trans (modifiedUtf8_eq_utf8_iff chars)

theorem fetches_utf8_accented :
    Fetches (['a', Char.ofNat 0xe9, Char.ofNat 0x4e2d].flatMap utf16)
      (utf8 ['a', Char.ofNat 0xe9, Char.ofNat 0x4e2d]) := by
  apply (fetches_utf8_iff (by decide)).mpr
  intro c hc
  simp only [List.mem_cons, List.not_mem_nil, or_false] at hc
  rcases hc with rfl | rfl | rfl
  · exact ⟨by decide, by decide⟩
  · exact ⟨by decide, by decide⟩
  · exact ⟨by decide, by decide⟩

/-- U+1F600, which the pool holds as two surrogates of three bytes each -/
theorem not_fetches_utf8 :
    ¬ ∀ chars : List Char,
      (modifiedUtf8 (chars.flatMap utf16)).length ≤ 65535 →
      Fetches (chars.flatMap utf16) (utf8 chars) := by
  intro hall
  have hlength : (modifiedUtf8 ([Char.ofNat 0x1f600].flatMap utf16)).length ≤ 65535 := by
    decide
  have heq := (fetches_iff hlength).mp (hall [Char.ofNat 0x1f600] hlength)
  exact absurd heq (by decide)

end Classfile

end Jvm

end ClpszDemos
