import ClpszDemos.CJsonGrammar
import ClpszDemos.CJsonParser
import ClpszDemos.ProgramLogic

/-!
# Strings in `parse_string`

The first loop counts the bytes up to the closing quote, an escaped pair as one;
the second one writes at most one byte for each byte counted.  An escape with
its digits takes at least as many as the UTF-8 bytes that it stands for, so the
buffer is large enough for every string of a JSON text, and it ends up with the
bytes that the string stands for.
-/

namespace ClpszDemos

namespace CJson

open CString OutBuffer JavaText

/-! ## UTF-8 -/

theorem trail_eq (b : UInt8) : (b ||| 0x80) &&& 0xBF = b &&& 0x3f ||| 0x80 := by
  have hall : ∀ n : Fin 256, (UInt8.ofNat n ||| 0x80) &&& 0xBF =
      UInt8.ofNat n &&& 0x3f ||| 0x80 := by
    decide +kernel
  have hb := hall ⟨b.toNat, b.toNat_lt⟩
  rwa [UInt8.ofNat_toNat] at hb

/-- Bits above those of the mark are zero already. -/
theorem lead_eq (b mask mark : UInt8)
    (hmask : (mask, mark) ∈ [((0x1f : UInt8), (0xc0 : UInt8)), (0x0f, 0xe0),
      (0x07, 0xf0)]) (hb : b ≤ mask) : b ||| mark = b &&& mask ||| mark := by
  have hand : b &&& mask = b := by
    have hall : ∀ n : Fin 32, ∀ mask ∈ [(0x1f : UInt8), 0x0f, 0x07],
        UInt8.ofNat n ≤ mask → UInt8.ofNat n &&& mask = UInt8.ofNat n := by
      decide +kernel
    have hmem : mask ∈ [(0x1f : UInt8), 0x0f, 0x07] := by
      simp only [List.mem_cons, Prod.mk.injEq, List.not_mem_nil, or_false] at hmask ⊢
      exact hmask.imp And.left (Or.imp And.left And.left)
    have hlt : b.toNat < 32 := by
      have hle : mask ≤ 0x1f := by
        simp only [List.mem_cons, List.not_mem_nil, or_false] at hmem
        rcases hmem with rfl | rfl | rfl <;> decide
      exact Nat.lt_succ_of_le (UInt8.le_iff_toNat_le.mp (UInt8.le_trans hb hle))
    have hb' := hall ⟨b.toNat, hlt⟩ mask hmem
    rw [UInt8.ofNat_toNat] at hb'
    exact hb' hb
  rw [hand]

theorem shiftRight_shiftRight (uc : UInt32) :
    uc >>> 6 >>> 6 = uc >>> 12 ∧ uc >>> 6 >>> 6 >>> 6 = uc >>> 18 := by
  constructor
  · rw [← UInt32.toNat_inj]
    simp [UInt32.toNat_shiftRight, ← Nat.shiftRight_add]
  · rw [← UInt32.toNat_inj]
    simp [UInt32.toNat_shiftRight, ← Nat.shiftRight_add]

theorem toUInt8_shiftRight_le {uc : UInt32} (k bound : ℕ) (hk : k < 32)
    (hbound : bound < 256) (huc : uc.toNat < (bound + 1) * 2 ^ k) :
    (uc >>> UInt32.ofNat k).toUInt8 ≤ UInt8.ofNat bound := by
  have hk' : (UInt32.ofNat k).toNat % 32 = k := by
    rw [UInt32.toNat_ofNat']
    omega
  have hquot : uc.toNat / 2 ^ k < bound + 1 :=
    Nat.div_lt_of_lt_mul (by rwa [Nat.mul_comm])
  rw [UInt8.le_iff_toNat_le, UInt32.toNat_toUInt8, UInt32.toNat_shiftRight, hk',
    Nat.shiftRight_eq_div_pow, UInt8.toNat_ofNat']
  generalize uc.toNat / 2 ^ k = quotient at hquot ⊢
  omega

theorem toNat_val_lt (c : Char) : c.val.toNat < 0x110000 := by
  rcases c.valid with hlow | ⟨-, hhigh⟩
  · have hlow' : c.val.toNat < 0xD800 := hlow
    omega
  · exact hhigh

theorem utf8Bytes_eq (c : Char) :
    utf8Bytes c.val = String.utf8EncodeChar c := by
  have hmax := toNat_val_lt c
  rw [String.utf8EncodeChar_eq_utf8EncodeCharFast]
  unfold utf8Bytes String.utf8EncodeCharFast
  generalize c.val = uc at hmax
  obtain ⟨h12, h18⟩ := shiftRight_shiftRight uc
  dsimp only
  rw [h18, h12]
  by_cases hone : uc.toNat < 0x80
  · rw [if_pos (UInt32.lt_iff_toNat_lt.mpr hone),
      if_pos (UInt32.le_iff_toNat_le.mpr (Nat.le_of_lt_succ hone))]
    show [(uc ||| 0).toUInt8] = [uc.toUInt8]
    rw [UInt32.or_zero]
  rw [if_neg (mt UInt32.lt_iff_toNat_lt.mp hone),
    if_neg (show ¬uc ≤ 0x7f from fun h =>
      hone (Nat.lt_succ_of_le (UInt32.le_iff_toNat_le.mp h)))]
  by_cases htwo : uc.toNat < 0x800
  · have hlead := toUInt8_shiftRight_le 6 0x1f (by norm_num)
      (by norm_num) htwo
    rw [if_pos (UInt32.lt_iff_toNat_lt.mpr htwo),
      if_pos (UInt32.le_iff_toNat_le.mpr (Nat.le_of_lt_succ htwo)),
      UInt32.toUInt8_or, UInt32.toUInt8_and, UInt32.toUInt8_or]
    exact congrArg₂ List.cons (lead_eq _ _ _ (by decide) hlead)
      (congrArg₂ List.cons (trail_eq _) rfl)
  rw [if_neg (mt UInt32.lt_iff_toNat_lt.mp htwo),
    if_neg (show ¬uc ≤ 0x7ff from fun h =>
      htwo (Nat.lt_succ_of_le (UInt32.le_iff_toNat_le.mp h)))]
  by_cases hthree : uc.toNat < 0x10000
  · have hlead := toUInt8_shiftRight_le 12 0x0f (by norm_num)
      (by norm_num) hthree
    rw [if_pos (UInt32.lt_iff_toNat_lt.mpr hthree),
      if_pos (UInt32.le_iff_toNat_le.mpr (Nat.le_of_lt_succ hthree))]
    simp only [UInt32.toUInt8_or, UInt32.toUInt8_and]
    exact congrArg₂ List.cons (lead_eq _ _ _ (by decide) hlead)
      (congrArg₂ List.cons (trail_eq _) (congrArg₂ List.cons (trail_eq _) rfl))
  · have hlead := toUInt8_shiftRight_le 18 0x07 (by norm_num)
      (by norm_num) (show uc.toNat < (0x07 + 1) * 2 ^ 18 by omega)
    rw [if_neg (mt UInt32.lt_iff_toNat_lt.mp hthree),
      if_neg (show ¬uc ≤ 0xffff from fun h =>
        hthree (Nat.lt_succ_of_le (UInt32.le_iff_toNat_le.mp h)))]
    simp only [UInt32.toUInt8_or, UInt32.toUInt8_and]
    exact congrArg₂ List.cons (lead_eq _ _ _ (by decide) hlead)
      (congrArg₂ List.cons (trail_eq _) (congrArg₂ List.cons (trail_eq _)
        (congrArg₂ List.cons (trail_eq _) rfl)))

/-! ## Hexadecimal digits -/

theorem hexValue_lt {c : UInt8} {h : ℕ} (hc : hexValue c = some h) : h < 16 := by
  have hall : ∀ n : Fin 256, ∀ h ∈ hexValue (UInt8.ofNat n), h < 16 := by
    decide +kernel
  have hc' := hall ⟨c.toNat, c.toNat_lt⟩ h
  rw [UInt8.ofNat_toNat] at hc'
  exact hc' hc

theorem hexDigit_eq (c : UInt8) : hexDigit c = (hexValue c).map UInt32.ofNat := by
  have hall : ∀ n : Fin 256, hexDigit (UInt8.ofNat n) =
      (hexValue (UInt8.ofNat n)).map UInt32.ofNat := by
    decide +kernel
  have hc := hall ⟨c.toNat, c.toNat_lt⟩
  rwa [UInt8.ofNat_toNat] at hc

theorem shiftLeft_four_add (h i : ℕ) (hh : h < 0x1000) :
    UInt32.ofNat h <<< 4 + UInt32.ofNat i = UInt32.ofNat (h * 16 + i) := by
  have hshift : (UInt32.ofNat h <<< 4).toNat = h * 16 := by
    rw [UInt32.toNat_shiftLeft, UInt32.toNat_ofNat']
    show (h % 2 ^ 32) <<< 4 % 2 ^ 32 = h * 16
    rw [Nat.shiftLeft_eq]
    omega
  rw [← UInt32.toNat_inj, UInt32.toNat_add, hshift, UInt32.toNat_ofNat',
    UInt32.toNat_ofNat']
  omega

/-- Four digits, whatever stands behind them -/
theorem parseHex4_digits {a b c d : UInt8} {h i j k : ℕ}
    (ha : hexValue a = some h) (hb : hexValue b = some i)
    (hc : hexValue c = some j) (hd : hexValue d = some k) (rest : CString) :
    parseHex4 (a :: b :: c :: d :: rest) =
      UInt32.ofNat (((h * 16 + i) * 16 + j) * 16 + k) := by
  have hh := hexValue_lt ha
  have hi := hexValue_lt hb
  have hj := hexValue_lt hc
  have hfirst : UInt32.ofNat h <<< 4 + UInt32.ofNat i =
      UInt32.ofNat (h * 16 + i) := shiftLeft_four_add h i (by omega)
  have hsecond : UInt32.ofNat (h * 16 + i) <<< 4 + UInt32.ofNat j =
      UInt32.ofNat ((h * 16 + i) * 16 + j) :=
    shiftLeft_four_add _ j (by omega)
  have hthird : UInt32.ofNat ((h * 16 + i) * 16 + j) <<< 4 + UInt32.ofNat k =
      UInt32.ofNat (((h * 16 + i) * 16 + j) * 16 + k) :=
    shiftLeft_four_add _ k (by omega)
  unfold parseHex4
  simp only [deref_cons, List.drop_succ_cons, List.drop_zero, hexDigit_eq, ha,
    hb, hc, hd, Option.map_some, Option.bind_eq_bind, Option.bind_some,
    Option.pure_def, Option.getD_some, hfirst, hsecond, hthird]

/-! ## The two loops -/

def IsPlain (c : UInt8) : Prop := c ≠ 0 ∧ c ≠ byte '"' ∧ c ≠ byte '\\'

theorem hexValue_plain {c : UInt8} {h : ℕ} (hc : hexValue c = some h) :
    IsPlain c := by
  have hall : ∀ n : Fin 256, (hexValue (UInt8.ofNat n)).isSome →
      UInt8.ofNat n ≠ 0 ∧ UInt8.ofNat n ≠ byte '"' ∧
        UInt8.ofNat n ≠ byte '\\' := by
    decide +kernel
  have hc' := hall ⟨c.toNat, c.toNat_lt⟩
  rw [UInt8.ofNat_toNat] at hc'
  exact hc' (by rw [hc]; rfl)

/-- The rounds of the second loop from one pointer to another, and what they
write -/
inductive Rounds : CString → List UInt8 → CString → Prop
  | done (ptr : CString) : Rounds ptr [] ptr
  | round {ptr middle rest : CString} {written more : List UInt8}
      (hquote : deref ptr ≠ byte '"') (hnul : deref ptr ≠ 0)
      (hround : stringRound ptr = .ok (written, middle))
      (hmore : Rounds middle more rest) : Rounds ptr (written ++ more) rest

theorem advance_suffix {n : ℕ} {ptr rest : CString}
    (h : advance n ptr = .ok rest) : rest <:+ ptr := by
  rw [(advance_eq_ok_iff.mp h).2]
  exact List.drop_suffix n ptr

theorem unicodeEscape_suffix {ptr rest : CString} {written : List UInt8}
    (h : unicodeEscape ptr = .ok (written, rest)) : rest <:+ ptr := by
  unfold unicodeEscape at h
  obtain ⟨behind, hbehind, h⟩ := except_bind_eq_ok h
  have hsuffix := advance_suffix hbehind
  split_ifs at h
  · cases h
    exact hsuffix
  · obtain ⟨first, -, h⟩ := except_bind_eq_ok h
    split_ifs at h
    · cases h
      exact hsuffix
    · obtain ⟨second, -, h⟩ := except_bind_eq_ok h
      split_ifs at h
      · cases h
        exact hsuffix
      · obtain ⟨last, hlast, h⟩ := except_bind_eq_ok h
        have hsuffix' := (advance_suffix hlast).trans hsuffix
        split_ifs at h
        · cases h
          exact hsuffix'
        · cases h
          exact hsuffix'
  · cases h
    exact hsuffix

theorem escape_suffix {ptr rest : CString} {written : List UInt8}
    (h : escape ptr = .ok (written, rest)) : rest <:+ ptr := by
  unfold escape at h
  split_ifs at h
  all_goals first
    | exact unicodeEscape_suffix h
    | cases h
      exact List.suffix_refl ptr

theorem stringRound_suffix {ptr rest : CString} {written : List UInt8}
    (h : stringRound ptr = .ok (written, rest)) :
    rest <:+ ptr ∧ rest.length < ptr.length := by
  have hnext : ∀ {ptr rest : CString}, advance 1 ptr = .ok rest →
      rest <:+ ptr ∧ rest.length < ptr.length := by
    intro ptr rest hadvance
    obtain ⟨hlen, rfl⟩ := advance_eq_ok_iff.mp hadvance
    refine ⟨List.drop_suffix 1 ptr, ?_⟩
    rw [List.length_drop]
    omega
  unfold stringRound at h
  split_ifs at h with hback
  · obtain ⟨tail, htail, hrest⟩ := except_bind_eq_ok h
    cases hrest
    exact hnext htail
  · obtain ⟨first, hfirst, h⟩ := except_bind_eq_ok h
    obtain ⟨⟨code, behind⟩, hescape, h⟩ := except_bind_eq_ok h
    obtain ⟨last, hlast, h⟩ := except_bind_eq_ok h
    cases h
    have hsuffix := escape_suffix hescape
    exact ⟨(hnext hlast).1.trans (hsuffix.trans (hnext hfirst).1),
      (hnext hlast).2.trans (lt_of_le_of_lt hsuffix.length_le (hnext hfirst).2)⟩

theorem stringLoop_rounds {ptr rest : CString} {written : List UInt8}
    (hrounds : Rounds ptr written rest)
    (hstop : deref rest = byte '"' ∨ deref rest = 0) {fuel : ℕ}
    (hfuel : ptr.length < fuel) {out : OutBuffer}
    (hroom : out.bytes.length + written.length < out.size) :
    ∃ out', stringLoop fuel ptr out = .ok (rest, out') ∧
      out'.size = out.size ∧ out'.bytes = out.bytes ++ written := by
  induction hrounds generalizing fuel out with
  | done ptr =>
      obtain ⟨fuel, rfl⟩ := Nat.exists_eq_add_one_of_ne_zero
        (Nat.ne_of_gt (Nat.zero_lt_of_lt hfuel))
      refine ⟨out, ?_, rfl, (List.append_nil _).symm⟩
      unfold stringLoop
      rw [if_pos hstop]
  | @round ptr middle rest first more hquote hnul hround hmore ih =>
      obtain ⟨fuel, rfl⟩ := Nat.exists_eq_add_one_of_ne_zero
        (Nat.ne_of_gt (Nat.zero_lt_of_lt hfuel))
      rw [List.length_append] at hroom
      have hshorter := (stringRound_suffix hround).2
      obtain ⟨middleOut, hwrite, hsize, hbytes⟩ := appends_write first out
        (by omega)
      obtain ⟨out', hloop, hsize', hbytes'⟩ := ih hstop
        (show middle.length < fuel by omega)
        (show middleOut.bytes.length + more.length < middleOut.size by
          rw [hbytes, hsize, List.length_append]
          omega)
      refine ⟨out', ?_, hsize'.trans hsize, ?_⟩
      · unfold stringLoop
        rw [if_neg (not_or.mpr ⟨hquote, hnul⟩), hround]
        show orTrap (write first out) >>= stringLoop fuel middle = _
        rw [hwrite]
        exact hloop
      · rw [hbytes', hbytes, List.append_assoc]

/-- What the first loop counts, if nothing wraps -/
def countedLength : CString → Except Trap ℕ
  | [] => .ok 0
  | c :: ptr =>
      if c = byte '"' ∨ c = 0 then .ok 0
      else if c = byte '\\' then
        match ptr with
        | [] => .error .bounds
        | _ :: ptr => (· + 1) <$> countedLength ptr
      else (· + 1) <$> countedLength ptr

theorem countedLength_plain {c : UInt8} (hplain : IsPlain c) (ptr : CString) :
    countedLength (c :: ptr) = (· + 1) <$> countedLength ptr := by
  conv_lhs => unfold countedLength
  rw [if_neg (not_or.mpr ⟨hplain.2.1, hplain.1⟩), if_neg hplain.2.2]

theorem countedLength_backslash (c : UInt8) (ptr : CString) :
    countedLength (byte '\\' :: c :: ptr) = (· + 1) <$> countedLength ptr := by
  conv_lhs => unfold countedLength
  rw [if_neg (by decide), if_pos rfl]

theorem exists_of_map_eq_ok {counted : Except Trap ℕ} {count : ℕ}
    (h : (· + 1) <$> counted = .ok count) :
    ∃ n, counted = .ok n ∧ count = n + 1 := by
  cases counted with
  | error trap => cases h
  | ok n =>
      cases h
      exact ⟨n, rfl, rfl⟩

/-- The loop counts up to `2^32 - 1`. -/
theorem stringLength_ofNat {ptr : CString} {count : ℕ}
    (hcount : countedLength ptr = .ok count) (n : ℕ) (hn : n + count < 2 ^ 32) :
    stringLength (BitVec.ofNat 32 n) ptr = .ok (BitVec.ofNat 32 (n + count)) := by
  have hone : ∀ n, BitVec.ofNat 32 n + 1 = BitVec.ofNat 32 (n + 1) :=
    fun n => ofNat_add_ofNat n 1
  fun_induction countedLength ptr generalizing n count with
  | case1 =>
      cases hcount
      rfl
  | case2 c ptr hstop =>
      cases hcount
      unfold stringLength
      rw [if_pos hstop]
      rfl
  | case3 => cases hcount
  | case4 _ c ptr ih =>
      obtain ⟨more, hmore, rfl⟩ := exists_of_map_eq_ok hcount
      unfold stringLength
      rw [if_neg (by decide), hone,
        if_neg (ofNat_ne_zero (Nat.succ_pos n) (by omega)), if_pos rfl]
      dsimp only
      rw [ih hmore (n + 1) (by omega), Nat.add_assoc, Nat.add_comm 1]
  | case5 c ptr hstop hback ih =>
      obtain ⟨more, hmore, rfl⟩ := exists_of_map_eq_ok hcount
      unfold stringLength
      rw [if_neg hstop, hone,
        if_neg (ofNat_ne_zero (Nat.succ_pos n) (by omega)), if_neg hback,
        ih hmore (n + 1) (by omega), Nat.add_assoc, Nat.add_comm 1]

theorem countedLength_le {ptr : CString} {count : ℕ}
    (hcount : countedLength ptr = .ok count) : count ≤ ptr.length := by
  fun_induction countedLength ptr generalizing count with
  | case1 =>
      cases hcount
      exact le_rfl
  | case2 c ptr hstop =>
      cases hcount
      exact Nat.zero_le _
  | case3 => cases hcount
  | case4 _ c ptr ih =>
      obtain ⟨more, hmore, rfl⟩ := exists_of_map_eq_ok hcount
      have hle := ih hmore
      simp only [List.length_cons]
      omega
  | case5 c ptr hstop hback ih =>
      obtain ⟨more, hmore, rfl⟩ := exists_of_map_eq_ok hcount
      have hle := ih hmore
      rw [List.length_cons]
      omega

theorem stringRound_plain {c : UInt8} (hplain : IsPlain c) (ptr : CString) :
    stringRound (c :: ptr) = .ok ([c], ptr) := by
  unfold stringRound
  rw [if_pos (show deref (c :: ptr) ≠ byte '\\' from hplain.2.2), advance_cons,
    advance_zero]
  rfl

/-- An escape whose last byte is passed in the same round -/
theorem stringRound_escape {first last : UInt8} {ptr rest : CString}
    {written : List UInt8}
    (hescape : escape (first :: ptr) = .ok (written, last :: rest)) :
    stringRound (byte '\\' :: first :: ptr) = .ok (written, rest) := by
  unfold stringRound
  rw [if_neg (show ¬deref (byte '\\' :: first :: ptr) ≠ byte '\\' from
    not_not.mpr rfl), advance_cons, advance_zero]
  show escape (first :: ptr) >>= _ = _
  rw [hescape]
  show (advance 1 (last :: rest) >>= fun ptr => Except.ok (written, ptr)) = _
  rw [advance_cons, advance_zero]
  rfl

theorem escape_letter {c b : UInt8} (hletter : (c, b) ∈ letterEscapes)
    (ptr : CString) : escape (c :: ptr) = .ok ([b], c :: ptr) := by
  simp only [letterEscapes, List.mem_cons, Prod.mk.injEq, List.not_mem_nil,
    or_false] at hletter
  rcases hletter with ⟨rfl, rfl⟩ | ⟨rfl, rfl⟩ | ⟨rfl, rfl⟩ | ⟨rfl, rfl⟩ |
    ⟨rfl, rfl⟩ <;> rfl

theorem escape_same {c : UInt8} (hsame : c ∈ [byte '"', byte '\\', byte '/'])
    (ptr : CString) : escape (c :: ptr) = .ok ([c], c :: ptr) := by
  simp only [List.mem_cons, List.not_mem_nil, or_false] at hsame
  rcases hsame with rfl | rfl | rfl <;> rfl

/-! ## Characters beyond one byte -/

theorem escape_unicode (ptr : CString) :
    escape (byte 'u' :: ptr) = unicodeEscape (byte 'u' :: ptr) := rfl

theorem char_toNat_toUInt32 (c : Char) : UInt32.ofNat c.toNat = c.val :=
  UInt32.ofNat_toNat

/-- No character is a surrogate. -/
theorem not_surrogate (c : Char) :
    ¬(0xD800 ≤ c.val.toNat ∧ c.val.toNat ≤ 0xDFFF) := by
  rcases c.valid with hlow | ⟨hhigh, -⟩
  · have hlow' : c.val.toNat < 0xD800 := hlow
    omega
  · have hhigh' : 0xDFFF < c.val.toNat := hhigh
    omega

theorem unicodeEscape_bmp {c : Char} (hnul : c ≠ '\x00')
    (hbmp : c.toNat < 0x10000) {a b d e : UInt8} (ptr : CString)
    (hhex : parseHex4 (a :: b :: d :: e :: ptr) = UInt32.ofNat c.toNat) :
    unicodeEscape (byte 'u' :: a :: b :: d :: e :: ptr) =
      .ok (String.utf8EncodeChar c, e :: ptr) := by
  have hval : c.val.toNat < 0x10000 := hbmp
  have hnot := not_surrogate c
  have hzero : c.val ≠ 0 := by
    intro hzero
    exact hnul (Char.ext hzero)
  have hlow : ¬((0xDC00 ≤ c.val ∧ c.val ≤ 0xDFFF) ∨ c.val = 0) := by
    rintro (⟨hle, hge⟩ | hzero')
    · rw [UInt32.le_iff_toNat_le] at hle hge
      exact hnot ⟨le_trans (by decide) hle, hge⟩
    · exact hzero hzero'
  have hhigh : ¬(0xD800 ≤ c.val ∧ c.val ≤ 0xDBFF) := by
    rintro ⟨hle, hge⟩
    rw [UInt32.le_iff_toNat_le] at hle hge
    exact hnot ⟨hle, le_trans hge (by decide)⟩
  unfold unicodeEscape
  simp only [List.drop_succ_cons, List.drop_zero, advance_cons, advance_zero]
  rw [hhex, char_toNat_toUInt32]
  show (if (0xDC00 ≤ c.val ∧ c.val ≤ 0xDFFF) ∨ c.val = 0 then _
    else if 0xD800 ≤ c.val ∧ c.val ≤ 0xDBFF then _ else _) = _
  rw [if_neg hlow, if_neg hhigh, utf8Bytes_eq]
  rfl

/-- The two surrogates put together -/
theorem surrogates_eq {c : Char} (hlarge : 0x10000 ≤ c.toNat) {high low : UInt32}
    (hhi : high.toNat = 0xD800 + (c.toNat - 0x10000) / 0x400)
    (hlo : low.toNat = 0xDC00 + (c.toNat - 0x10000) % 0x400) :
    (0x10000 : UInt32) + ((((high &&& 0x3FF) <<< 10 : UInt32)) |||
      (low &&& 0x3FF)) = c.val := by
  have hmax : c.toNat < 0x110000 := toNat_val_lt c
  have hhigh : (high &&& 0x3FF).toNat = (c.toNat - 0x10000) / 0x400 := by
    rw [UInt32.toNat_and, hhi]
    show (0xD800 + (c.toNat - 0x10000) / 0x400) &&& 2 ^ 10 - 1 = _
    rw [Nat.and_two_pow_sub_one_eq_mod]
    omega
  have hlow : (low &&& 0x3FF).toNat = (c.toNat - 0x10000) % 0x400 := by
    rw [UInt32.toNat_and, hlo]
    show (0xDC00 + (c.toNat - 0x10000) % 0x400) &&& 2 ^ 10 - 1 = _
    rw [Nat.and_two_pow_sub_one_eq_mod]
    omega
  have hshift : ((high &&& 0x3FF) <<< 10).toNat =
      ((c.toNat - 0x10000) / 0x400) <<< 10 := by
    rw [UInt32.toNat_shiftLeft, hhigh]
    show ((c.toNat - 0x10000) / 0x400) <<< 10 % 2 ^ 32 = _
    rw [Nat.shiftLeft_eq]
    omega
  have hor : (((high &&& 0x3FF) <<< 10) ||| (low &&& 0x3FF)).toNat =
      c.toNat - 0x10000 := by
    rw [UInt32.toNat_or, hshift, hlow,
      ← Nat.shiftLeft_add_eq_or_of_lt (Nat.mod_lt _ (by norm_num)),
      Nat.shiftLeft_eq]
    omega
  rw [← UInt32.toNat_inj, UInt32.toNat_add, hor]
  show (0x10000 + (c.toNat - 0x10000)) % 2 ^ 32 = c.toNat
  omega

theorem unicodeEscape_surrogates {c : Char} (hlarge : 0x10000 ≤ c.toNat)
    {a b d e a' b' d' e' : UInt8} {high low : UInt32} (ptr : CString)
    (hhi : high.toNat = 0xD800 + (c.toNat - 0x10000) / 0x400)
    (hlo : low.toNat = 0xDC00 + (c.toNat - 0x10000) % 0x400)
    (hfirst : ∀ rest, parseHex4 (a :: b :: d :: e :: rest) = high)
    (hsecond : ∀ rest, parseHex4 (a' :: b' :: d' :: e' :: rest) = low) :
    unicodeEscape (byte 'u' :: a :: b :: d :: e :: byte '\\' :: byte 'u' ::
        a' :: b' :: d' :: e' :: ptr) =
      .ok (String.utf8EncodeChar c, e' :: ptr) := by
  have hmax : c.toNat < 0x110000 := toNat_val_lt c
  have hnot : ¬((0xDC00 ≤ high ∧ high ≤ 0xDFFF) ∨ high = 0) := by
    rintro (⟨hle, -⟩ | hzero)
    · rw [UInt32.le_iff_toNat_le, hhi] at hle
      have hle' : 0xDC00 ≤ 0xD800 + (c.toNat - 0x10000) / 0x400 := hle
      omega
    · rw [hzero] at hhi
      have hhi' : 0 = 0xD800 + (c.toNat - 0x10000) / 0x400 := hhi
      omega
  have hhigh : 0xD800 ≤ high ∧ high ≤ 0xDBFF := by
    rw [UInt32.le_iff_toNat_le, UInt32.le_iff_toNat_le, hhi]
    show 0xD800 ≤ 0xD800 + (c.toNat - 0x10000) / 0x400 ∧
      0xD800 + (c.toNat - 0x10000) / 0x400 ≤ 0xDBFF
    omega
  have hlow : ¬(low < 0xDC00 ∨ low > 0xDFFF) := by
    rw [gt_iff_lt, UInt32.lt_iff_toNat_lt, UInt32.lt_iff_toNat_lt, hlo]
    show ¬(0xDC00 + (c.toNat - 0x10000) % 0x400 < 0xDC00 ∨
      0xDFFF < 0xDC00 + (c.toNat - 0x10000) % 0x400)
    omega
  have hbytes := utf8Bytes_eq c
  rw [← surrogates_eq hlarge hhi hlo] at hbytes
  unfold unicodeEscape
  simp only [List.drop_succ_cons, List.drop_zero, advance_cons, advance_zero]
  rw [hfirst]
  show (if (0xDC00 ≤ high ∧ high ≤ 0xDFFF) ∨ high = 0 then _
    else if 0xD800 ≤ high ∧ high ≤ 0xDBFF then _ else _) = _
  rw [if_neg hnot, if_pos hhigh]
  show (if parseHex4 (a' :: b' :: d' :: e' :: ptr) < 0xDC00 ∨
      parseHex4 (a' :: b' :: d' :: e' :: ptr) > 0xDFFF then _ else _) = _
  rw [hsecond, if_neg hlow]
  show Except.ok (utf8Bytes ((0x10000 : UInt32) +
    (((high &&& 0x3FF) <<< 10 : UInt32) |||
      (parseHex4 (a' :: b' :: d' :: e' :: ptr) &&& 0x3FF))), e' :: ptr) = _
  rw [hsecond, hbytes]

/-- The escape of one code unit: its value, and what the first loop counts -/
theorem unitEscape_inv {unit : UInt16} {text : CString}
    (hunit : UnitEscape unit text) :
    ∃ a b d e, text = [byte '\\', byte 'u', a, b, d, e] ∧
      (∀ ptr, parseHex4 (a :: b :: d :: e :: ptr) = UInt32.ofNat unit.toNat) ∧
      ∀ ptr, countedLength (text ++ ptr) = (· + 5) <$> countedLength ptr := by
  cases hunit with
  | @mk a b d e h i j k ha hb hd he =>
      have hh := hexValue_lt ha
      have hi := hexValue_lt hb
      have hj := hexValue_lt hd
      have hk := hexValue_lt he
      refine ⟨a, b, d, e, rfl, fun ptr => ?_, fun ptr => ?_⟩
      · rw [parseHex4_digits ha hb hd he, UInt16.toNat_ofNat', Nat.mod_eq_of_lt]
        omega
      · show countedLength (byte '\\' :: byte 'u' :: a :: b :: d :: e :: ptr) = _
        rw [countedLength_backslash, countedLength_plain (hexValue_plain ha),
          countedLength_plain (hexValue_plain hb),
          countedLength_plain (hexValue_plain hd),
          countedLength_plain (hexValue_plain he)]
        simp only [Functor.map_map, Nat.add_assoc]

theorem utf16_surrogates {c : Char} (hlarge : 0x10000 ≤ c.toNat) :
    ∃ high low : UInt16, utf16 c = [high, low] ∧
      high.toNat = 0xD800 + (c.toNat - 0x10000) / 0x400 ∧
      low.toNat = 0xDC00 + (c.toNat - 0x10000) % 0x400 := by
  have hmax : c.toNat < 0x110000 := toNat_val_lt c
  refine ⟨_, _, if_neg (Nat.not_lt.mpr hlarge), ?_, ?_⟩
  · rw [UInt16.toNat_ofNat']
    omega
  · rw [UInt16.toNat_ofNat']
    omega

/-- A character that is written as escapes: the round reads all of them, and
the first loop counts at least as much as the round writes. -/
theorem character_round {c : Char} (hnul : c ≠ '\x00') {text : CString}
    (hunits : UnitEscapes (utf16 c) text) :
    text.head? = some (byte '\\') ∧
      (∀ ptr, stringRound (text ++ ptr) = .ok (String.utf8EncodeChar c, ptr)) ∧
      ∃ k, (String.utf8EncodeChar c).length ≤ k ∧ k ≤ text.length ∧
        ∀ ptr, countedLength (text ++ ptr) = (· + k) <$> countedLength ptr := by
  have hmax : c.toNat < 0x110000 := toNat_val_lt c
  have hsize : (String.utf8EncodeChar c).length ≤ 4 := by
    rw [String.length_utf8EncodeChar]
    exact c.utf8Size_le_four
  by_cases hbmp : c.toNat < 0x10000
  · have hutf16 : utf16 c = [c.toNat.toUInt16] := if_pos hbmp
    rw [hutf16] at hunits
    cases hunits with
    | cons hunit hnil =>
        cases hnil
        obtain ⟨a, b, d, e, rfl, hhex, hlength⟩ := unitEscape_inv hunit
        refine ⟨rfl, fun ptr => ?_, 5, le_trans hsize (by norm_num),
          Nat.le_succ 5, hlength⟩
        apply stringRound_escape
        rw [escape_unicode]
        apply unicodeEscape_bmp hnul hbmp
        rw [hhex]
        congr 1
        exact Nat.mod_eq_of_lt hbmp
  · obtain ⟨high, low, hutf16, hhi, hlo⟩ := utf16_surrogates (Nat.le_of_not_lt hbmp)
    rw [hutf16] at hunits
    cases hunits with
    | cons hhigh hrest =>
        cases hrest with
        | cons hlow hnil =>
            cases hnil
            obtain ⟨a, b, d, e, rfl, hhex, hlength⟩ := unitEscape_inv hhigh
            obtain ⟨a', b', d', e', rfl, hhex', hlength'⟩ := unitEscape_inv hlow
            have hunit : ∀ unit : UInt16,
                (UInt32.ofNat unit.toNat).toNat = unit.toNat := by
              intro unit
              have hlt := unit.toNat_lt
              rw [UInt32.toNat_ofNat']
              omega
            refine ⟨rfl, fun ptr => ?_, 10, le_trans hsize (by norm_num),
              show 10 ≤ 12 by norm_num, fun ptr => ?_⟩
            · apply stringRound_escape
              rw [escape_unicode]
              exact unicodeEscape_surrogates (Nat.le_of_not_lt hbmp) ptr
                ((hunit high).trans hhi) ((hunit low).trans hlo) hhex hhex'
            · have hboth := hlength (byte '\\' :: byte 'u' :: a' :: b' :: d' ::
                e' :: ptr)
              have hsecond : countedLength (byte '\\' :: byte 'u' :: a' :: b' ::
                d' :: e' :: ptr) = (· + 5) <$> countedLength ptr := hlength' ptr
              rw [hsecond, Functor.map_map] at hboth
              exact hboth

/-! ## Units that are lost -/

section Lost

variable {unit next : UInt16} {a b d e a' b' d' e' : UInt8} {ptr : CString}

theorem toNat_ofNat_unit (unit : UInt16) :
    (UInt32.ofNat unit.toNat).toNat = unit.toNat := by
  have hlt := unit.toNat_lt
  rw [UInt32.toNat_ofNat']
  omega

theorem isLow_iff (unit : UInt16) :
    IsLow unit ↔ 0xDC00 ≤ UInt32.ofNat unit.toNat ∧
      UInt32.ofNat unit.toNat ≤ 0xDFFF := by
  unfold IsLow
  rw [UInt32.le_iff_toNat_le, UInt32.le_iff_toNat_le, toNat_ofNat_unit,
    UInt16.le_iff_toNat_le, UInt16.le_iff_toNat_le]
  rfl

theorem isHigh_iff (unit : UInt16) :
    IsHigh unit ↔ 0xD800 ≤ UInt32.ofNat unit.toNat ∧
      UInt32.ofNat unit.toNat ≤ 0xDBFF := by
  unfold IsHigh
  rw [UInt32.le_iff_toNat_le, UInt32.le_iff_toNat_le, toNat_ofNat_unit,
    UInt16.le_iff_toNat_le, UInt16.le_iff_toNat_le]
  rfl

/-- A high surrogate passes the first test. -/
theorem not_invalid (hhigh : IsHigh unit) :
    ¬((0xDC00 ≤ UInt32.ofNat unit.toNat ∧ UInt32.ofNat unit.toNat ≤ 0xDFFF) ∨
      UInt32.ofNat unit.toNat = 0) := by
  obtain ⟨hge, hle⟩ := (isHigh_iff unit).mp hhigh
  rintro (⟨hlow, -⟩ | hzero)
  · exact absurd (UInt32.le_trans hlow hle) (by decide)
  · rw [hzero] at hge
    exact absurd hge (by decide)

theorem unicodeEscape_invalid (hunit : IsLow unit ∨ unit = 0)
    (hhex : parseHex4 (a :: b :: d :: e :: ptr) = UInt32.ofNat unit.toNat) :
    unicodeEscape (byte 'u' :: a :: b :: d :: e :: ptr) = .ok ([], e :: ptr) := by
  have hinvalid : (0xDC00 ≤ UInt32.ofNat unit.toNat ∧
      UInt32.ofNat unit.toNat ≤ 0xDFFF) ∨ UInt32.ofNat unit.toNat = 0 := by
    rcases hunit with hlow | rfl
    · exact Or.inl ((isLow_iff unit).mp hlow)
    · exact Or.inr rfl
  unfold unicodeEscape
  simp only [List.drop_succ_cons, List.drop_zero, advance_cons, advance_zero]
  rw [hhex]
  exact if_pos hinvalid

theorem unicodeEscape_high (hhigh : IsHigh unit)
    (hhex : parseHex4 (a :: b :: d :: e :: ptr) = UInt32.ofNat unit.toNat)
    (hptr : deref ptr = byte '\\' → deref (ptr.drop 1) ≠ byte 'u') :
    unicodeEscape (byte 'u' :: a :: b :: d :: e :: ptr) = .ok ([], e :: ptr) := by
  have hfirst : read 1 (e :: ptr) = .ok (deref ptr) := read_eq_ok (by simp)
  unfold unicodeEscape
  simp only [List.drop_succ_cons, List.drop_zero, advance_cons, advance_zero]
  rw [hhex]
  refine (if_neg (not_invalid hhigh)).trans
    ((if_pos ((isHigh_iff unit).mp hhigh)).trans ?_)
  rw [hfirst]
  by_cases hback : deref ptr = byte '\\'
  · have hcons := eq_cons_of_deref_ne (show deref ptr ≠ 0 by rw [hback]; decide)
    have hsecond : read 2 (e :: ptr) = .ok (deref (ptr.drop 1)) := by
      rw [hcons]
      exact read_eq_ok (by simp)
    refine (if_neg (not_not.mpr hback)).trans ?_
    rw [hsecond]
    exact if_pos (hptr hback)
  · exact if_pos hback

theorem unicodeEscape_two_lost (hhigh : IsHigh unit) (hnext : ¬IsLow next)
    (hhex : ∀ rest, parseHex4 (a :: b :: d :: e :: rest) =
      UInt32.ofNat unit.toNat)
    (hhex' : ∀ rest, parseHex4 (a' :: b' :: d' :: e' :: rest) =
      UInt32.ofNat next.toNat) :
    unicodeEscape (byte 'u' :: a :: b :: d :: e :: byte '\\' :: byte 'u' ::
      a' :: b' :: d' :: e' :: ptr) = .ok ([], e' :: ptr) := by
  have hlow : UInt32.ofNat next.toNat < 0xDC00 ∨
      UInt32.ofNat next.toNat > 0xDFFF := by
    rw [isLow_iff, not_and_or, UInt32.not_le, UInt32.not_le] at hnext
    exact hnext
  unfold unicodeEscape
  simp only [List.drop_succ_cons, List.drop_zero, advance_cons, advance_zero]
  rw [hhex]
  refine (if_neg (not_invalid hhigh)).trans
    ((if_pos ((isHigh_iff unit).mp hhigh)).trans ?_)
  show (if parseHex4 (a' :: b' :: d' :: e' :: ptr) < 0xDC00 ∨
    parseHex4 (a' :: b' :: d' :: e' :: ptr) > 0xDFFF then _ else _) = _
  rw [hhex']
  exact if_pos hlow

/-- What is behind a string that does not go on with `\u` does not either. -/
theorem deref_of_not_escape {raw : CString}
    (hraw : ¬[byte '\\', byte 'u'] <+: raw) (rest : CString) :
    deref (raw ++ byte '"' :: rest) = byte '\\' →
      deref ((raw ++ byte '"' :: rest).drop 1) ≠ byte 'u' := by
  rcases raw with _ | ⟨first, _ | ⟨second, raw⟩⟩
  · intro hback
    exact absurd hback (show ¬byte '"' = byte '\\' by decide)
  · intro _
    exact show byte '"' ≠ byte 'u' by decide
  · intro hback hu
    obtain rfl : first = byte '\\' := hback
    obtain rfl : second = byte 'u' := hu
    exact hraw ⟨raw, rfl⟩

/-- Units that are lost: the round passes them and writes nothing. -/
theorem lost_round {units : JString} {text raw : CString}
    (hlost : Lost raw units) (hunits : UnitEscapes units text) :
    text.head? = some (byte '\\') ∧
      (∀ rest, stringRound (text ++ (raw ++ byte '"' :: rest)) =
        .ok ([], raw ++ byte '"' :: rest)) ∧
      ∃ k, k ≤ text.length ∧
        ∀ ptr, countedLength (text ++ ptr) = (· + k) <$> countedLength ptr := by
  have hone : ∀ {unit : UInt16} {text : CString}, UnitEscapes [unit] text →
      (∀ {a b d e : UInt8} {rest : CString},
        (∀ ptr, parseHex4 (a :: b :: d :: e :: ptr) = UInt32.ofNat unit.toNat) →
        unicodeEscape (byte 'u' :: a :: b :: d :: e :: (raw ++ byte '"' :: rest)) =
          .ok ([], e :: (raw ++ byte '"' :: rest))) →
      text.head? = some (byte '\\') ∧
        (∀ rest, stringRound (text ++ (raw ++ byte '"' :: rest)) =
          .ok ([], raw ++ byte '"' :: rest)) ∧
        ∃ k, k ≤ text.length ∧
          ∀ ptr, countedLength (text ++ ptr) = (· + k) <$> countedLength ptr := by
    intro unit text hunits hescape
    cases hunits with
    | cons hunit hnil =>
        cases hnil
        obtain ⟨a, b, d, e, rfl, hhex, hlength⟩ := unitEscape_inv hunit
        refine ⟨rfl, fun rest => ?_, 5, show 5 ≤ 6 by norm_num, hlength⟩
        apply stringRound_escape
        rw [escape_unicode]
        exact hescape hhex
  cases hlost with
  | nul =>
      exact hone hunits fun hhex => unicodeEscape_invalid (Or.inr rfl) (hhex _)
  | low hlow =>
      exact hone hunits fun hhex => unicodeEscape_invalid (Or.inl hlow) (hhex _)
  | high hhigh hraw =>
      exact hone hunits fun hhex => unicodeEscape_high hhigh (hhex _)
        (deref_of_not_escape hraw _)
  | two hhigh hnext =>
      cases hunits with
      | cons hunit hrest =>
          cases hrest with
          | cons hunit' hnil =>
              cases hnil
              obtain ⟨a, b, d, e, rfl, hhex, hlength⟩ := unitEscape_inv hunit
              obtain ⟨a', b', d', e', rfl, hhex', hlength'⟩ :=
                unitEscape_inv hunit'
              refine ⟨rfl, fun rest => ?_, 10, show 10 ≤ 12 by norm_num,
                fun ptr => ?_⟩
              · apply stringRound_escape
                rw [escape_unicode]
                exact unicodeEscape_two_lost hhigh hnext hhex hhex'
              · have hboth := hlength (byte '\\' :: byte 'u' :: a' :: b' :: d' ::
                  e' :: ptr)
                have hsecond : countedLength (byte '\\' :: byte 'u' :: a' :: b' ::
                  d' :: e' :: ptr) = (· + 5) <$> countedLength ptr := hlength' ptr
                rw [hsecond, Functor.map_map] at hboth
                exact hboth

end Lost

/-! ## The strings of JSON -/

theorem stringText_rounds {raw bytes : CString} (hstring : StringText raw bytes)
    (rest : CString) :
    Rounds (raw ++ byte '"' :: rest) bytes (byte '"' :: rest) := by
  induction hstring with
  | nil => exact .done _
  | @plain c raw bytes hnul hquote hback hrest ih =>
      show Rounds (c :: (raw ++ byte '"' :: rest)) ([c] ++ bytes) _
      exact .round hquote hnul (stringRound_plain ⟨hnul, hquote, hback⟩ _) ih
  | @letter c b raw bytes hletter hrest ih =>
      show Rounds (byte '\\' :: c :: (raw ++ byte '"' :: rest)) ([b] ++ bytes) _
      exact .round (show byte '\\' ≠ byte '"' by decide)
        (show byte '\\' ≠ 0 by decide)
        (stringRound_escape (escape_letter hletter _)) ih
  | @same c raw bytes hsame hrest ih =>
      show Rounds (byte '\\' :: c :: (raw ++ byte '"' :: rest)) ([c] ++ bytes) _
      exact .round (show byte '\\' ≠ byte '"' by decide)
        (show byte '\\' ≠ 0 by decide)
        (stringRound_escape (escape_same hsame _)) ih
  | @character c text raw bytes hnul hunits hrest ih =>
      obtain ⟨hhead, hround, -⟩ := character_round hnul hunits
      have hderef : deref (text ++ raw ++ byte '"' :: rest) = byte '\\' := by
        obtain ⟨tail, rfl⟩ : ∃ tail, text = byte '\\' :: tail :=
          ⟨text.tail, List.eq_cons_of_mem_head? hhead⟩
        rfl
      rw [List.append_assoc] at hderef ⊢
      exact .round (by rw [hderef]; decide) (by rw [hderef]; decide)
        (hround _) ih
  | @lost units text raw bytes hlost hunits hrest ih =>
      obtain ⟨hhead, hround, -⟩ := lost_round hlost hunits
      have hderef : deref (text ++ (raw ++ byte '"' :: rest)) = byte '\\' := by
        obtain ⟨tail, rfl⟩ : ∃ tail, text = byte '\\' :: tail :=
          ⟨text.tail, List.eq_cons_of_mem_head? hhead⟩
        rfl
      rw [List.append_assoc]
      exact .round (by rw [hderef]; decide) (by rw [hderef]; decide)
        (hround rest) ih

theorem stringText_length {raw bytes : CString} (hstring : StringText raw bytes)
    (rest : CString) :
    ∃ len, countedLength (raw ++ byte '"' :: rest) = .ok len ∧
      bytes.length ≤ len ∧ len ≤ raw.length := by
  induction hstring with
  | nil =>
      refine ⟨0, ?_, le_rfl, le_rfl⟩
      rw [List.nil_append]
      unfold countedLength
      rw [if_pos (Or.inl rfl)]
  | @plain c raw bytes hnul hquote hback hrest ih =>
      obtain ⟨len, hlen, hle, hmost⟩ := ih
      refine ⟨len + 1, ?_, Nat.succ_le_succ hle, Nat.succ_le_succ hmost⟩
      rw [List.cons_append, countedLength_plain ⟨hnul, hquote, hback⟩, hlen]
      rfl
  | @letter c b raw bytes hletter hrest ih =>
      obtain ⟨len, hlen, hle, hmost⟩ := ih
      refine ⟨len + 1, ?_, Nat.succ_le_succ hle, ?_⟩
      · rw [List.cons_append, List.cons_append, countedLength_backslash, hlen]
        rfl
      · exact (Nat.succ_le_succ hmost).trans (Nat.le_succ _)
  | @same c raw bytes hsame hrest ih =>
      obtain ⟨len, hlen, hle, hmost⟩ := ih
      refine ⟨len + 1, ?_, Nat.succ_le_succ hle, ?_⟩
      · rw [List.cons_append, List.cons_append, countedLength_backslash, hlen]
        rfl
      · exact (Nat.succ_le_succ hmost).trans (Nat.le_succ _)
  | @character c text raw bytes hnul hunits hrest ih =>
      obtain ⟨len, hlen, hle, hmost⟩ := ih
      obtain ⟨-, -, k, hk, hshort, hcount⟩ := character_round hnul hunits
      refine ⟨len + k, ?_, ?_, ?_⟩
      · rw [List.append_assoc, hcount, hlen]
        rfl
      · rw [List.length_append]
        omega
      · rw [List.length_append]
        omega
  | @lost units text raw bytes hlost hunits hrest ih =>
      obtain ⟨len, hlen, hle, hmost⟩ := ih
      obtain ⟨-, -, k, hshort, hcount⟩ := lost_round hlost hunits
      refine ⟨len + k, ?_, ?_, ?_⟩
      · rw [List.append_assoc, hcount, hlen]
        rfl
      · omega
      · rw [List.length_append]
        omega

variable {δ : Type}

/-- A string whose loops agree is parsed up to the byte that ends it, if its
length fits an `int`. -/
theorem parseString_rounds {raw rest written : CString} {len : ℕ}
    (hlength : countedLength raw = .ok len) (hint : len + 1 < 2 ^ 31)
    (hrounds : Rounds raw written rest)
    (hstop : deref rest = byte '"' ∨ deref rest = 0)
    (hle : written.length ≤ len) (item : Fields δ) :
    parseString item (byte '"' :: raw) =
      .ok ({ item with
        valuestring := some written
        type := typeString },
        if deref rest = byte '"' then rest.drop 1 else rest) := by
  have hfuel : raw.length < (byte '"' :: raw).length + 1 := by
    rw [List.length_cons]
    omega
  have hmalloc : (malloc (len + 1)).bytes.length + written.length <
      (malloc (len + 1)).size := by
    show 0 + written.length < len + 1
    omega
  obtain ⟨out, hloop, hsize, hbytes⟩ :=
    stringLoop_rounds hrounds hstop hfuel hmalloc
  have hout : out.bytes = written := hbytes
  have hroom : out.bytes.length < out.size := by
    rw [hout, hsize]
    exact Nat.lt_succ_of_le hle
  have hfinish : out.finish = .ok written := by
    unfold finish put
    rw [dif_pos hroom]
    show Except.ok out.bytes = _
    rw [hout]
  have hcount : stringLength 0 raw = .ok (BitVec.ofNat 32 len) := by
    have h := stringLength_ofNat hlength 0 (by omega)
    rwa [Nat.zero_add] at h
  have hbuffer : sizeOfInt (BitVec.ofNat 32 len + 1) = len + 1 :=
    (congrArg sizeOfInt (ofNat_add_ofNat len 1)).trans (sizeOfInt_ofNat hint)
  unfold parseString
  rw [if_neg (show ¬deref (byte '"' :: raw) ≠ byte '"' from not_not.mpr rfl)]
  show orTrap (stringLength 0 raw) >>= _ = _
  rw [hcount]
  show stringLoop _ raw (malloc (sizeOfInt (BitVec.ofNat 32 len + 1))) >>= _ = _
  rw [hbuffer, hloop]
  show orTrap out.finish >>= _ = _
  rw [hfinish]
  rfl

/-- A string of JSON is parsed to the bytes that it stands for. -/
theorem parseString_quoted {raw bytes : CString} (hstring : StringText raw bytes)
    (hshort : raw.length + 1 < 2 ^ 31) (item : Fields δ) (rest : CString) :
    parseString item (quoted raw ++ rest) =
      .ok ({ item with
        valuestring := some bytes
        type := typeString }, rest) := by
  obtain ⟨len, hlength, hle, hmost⟩ := stringText_length hstring rest
  have htext : quoted raw ++ rest = byte '"' :: (raw ++ byte '"' :: rest) := by
    unfold quoted
    rw [List.cons_append, List.append_assoc, List.singleton_append]
  rw [htext, parseString_rounds hlength (by omega)
    (stringText_rounds hstring rest) (Or.inl rfl) hle]
  rfl

end CJson

end ClpszDemos
