import ClpszDemos.ByteMemory

/-!
# Strings and output buffers of a C program

A pointer into a string is the bytes from there to the end of the string's
block, without the NUL that ends the block.  The pointer that has come to the
end still reads that NUL, and reading behind it is a trap.  An output buffer
is written from its beginning on; writing behind its end is a trap.
-/

namespace ClpszDemos

abbrev CString : Type := List UInt8

namespace CString

/-- `*ptr` -/
def deref (ptr : CString) : UInt8 := ptr.headD 0

/-- `ptr + n`, when something is read there -/
def advance (n : ℕ) (ptr : CString) : Except Trap CString :=
  if n ≤ ptr.length then .ok (ptr.drop n) else .error .bounds

/-- `ptr[i]` -/
def read (i : ℕ) (ptr : CString) : Except Trap UInt8 :=
  deref <$> advance i ptr

@[simp] theorem deref_nil : deref [] = 0 := rfl

@[simp] theorem deref_cons (byte : UInt8) (ptr : CString) :
    deref (byte :: ptr) = byte := rfl

@[simp] theorem advance_zero (ptr : CString) : advance 0 ptr = .ok ptr := rfl

@[simp] theorem advance_cons (n : ℕ) (byte : UInt8) (ptr : CString) :
    advance (n + 1) (byte :: ptr) = advance n ptr := by
  simp [advance]

theorem advance_eq_ok_iff {n : ℕ} {ptr rest : CString} :
    advance n ptr = .ok rest ↔ n ≤ ptr.length ∧ rest = ptr.drop n := by
  unfold advance
  by_cases hn : n ≤ ptr.length
  · rw [if_pos hn]
    simp [hn, eq_comm]
  · rw [if_neg hn]
    simp [hn]

theorem read_eq_ok {i : ℕ} {ptr : CString} (hi : i ≤ ptr.length) :
    read i ptr = .ok (deref (ptr.drop i)) := by
  unfold read advance
  rw [if_pos hi]
  rfl

theorem ne_nil_of_deref_ne {ptr : CString} (hne : deref ptr ≠ 0) :
    ptr ≠ [] := by
  rintro rfl
  exact hne rfl

theorem eq_cons_of_deref_ne {ptr : CString} (hne : deref ptr ≠ 0) :
    ptr = deref ptr :: ptr.drop 1 := by
  cases ptr with
  | nil => exact absurd rfl hne
  | cons byte ptr => rfl

end CString

/-! ## Sizes -/

/-- An `int` as a `size_t`: the sign is extended. -/
def sizeOfInt (n : BitVec 32) : ℕ := (n.signExtend 64).toNat

theorem ofNat_add_ofNat (m n : ℕ) :
    BitVec.ofNat 32 m + BitVec.ofNat 32 n = BitVec.ofNat 32 (m + n) :=
  (BitVec.ofNat_add m n).symm

theorem ofNat_ne_zero {n : ℕ} (hpos : 0 < n) (hn : n < 2 ^ 32) :
    BitVec.ofNat 32 n ≠ 0 := by
  intro hzero
  have hnat : n % 2 ^ 32 = 0 := by
    rw [← BitVec.toNat_ofNat]
    exact congrArg BitVec.toNat hzero
  omega

theorem sizeOfInt_ofNat {n : ℕ} (hn : n < 2 ^ 31) :
    sizeOfInt (BitVec.ofNat 32 n) = n := by
  have hnat : (BitVec.ofNat 32 n).toNat = n := by
    rw [BitVec.toNat_ofNat]
    omega
  have hpositive : (BitVec.ofNat 32 n).msb = false := by
    rw [BitVec.msb_eq_decide, hnat]
    exact decide_eq_false (by omega)
  unfold sizeOfInt
  rw [BitVec.signExtend_eq_setWidth_of_msb_false hpositive, BitVec.toNat_setWidth,
    hnat]
  omega

/-! ## Output buffers -/

structure OutBuffer where
  size : ℕ
  bytes : List UInt8
  fits : bytes.length ≤ size

namespace OutBuffer

def malloc (size : ℕ) : OutBuffer where
  size := size
  bytes := []
  fits := Nat.zero_le size

/-- `*ptr++ = byte` -/
def put (byte : UInt8) (out : OutBuffer) : Except Trap OutBuffer :=
  if h : out.bytes.length < out.size then
    .ok { out with
      bytes := out.bytes ++ [byte]
      fits := by rw [List.length_append]; exact h }
  else .error .bounds

def write : List UInt8 → OutBuffer → Except Trap OutBuffer
  | [], out => .ok out
  | byte :: text, out => do
      let out ← put byte out
      write text out

/-- `*ptr = 0`, with `ptr` left where it is -/
def terminate (out : OutBuffer) : Except Trap OutBuffer := do
  let _ ← put 0 out
  return out

/-- `strcpy(ptr, text); ptr += strlen(text);` -/
def strcpy (text : List UInt8) (out : OutBuffer) : Except Trap OutBuffer := do
  let out ← write text out
  terminate out

def onlyIf (condition : Bool) (writer : OutBuffer → Except Trap OutBuffer)
    (out : OutBuffer) : Except Trap OutBuffer :=
  if condition then writer out else .ok out

/-- What was written, after the NUL is put behind it -/
def finish (out : OutBuffer) : Except Trap CString := do
  let _ ← put 0 out
  return out.bytes

/-! ### Writers that fit -/

/-- The writer puts this text into every buffer that has room for it and a NUL
behind it. -/
def Appends (writer : OutBuffer → Except Trap OutBuffer)
    (text : List UInt8) : Prop :=
  ∀ out : OutBuffer, out.bytes.length + text.length < out.size →
    ∃ out', writer out = .ok out' ∧ out'.size = out.size ∧
      out'.bytes = out.bytes ++ text

theorem appends_pure : Appends .ok [] := by
  intro out hroom
  exact ⟨out, rfl, rfl, (List.append_nil out.bytes).symm⟩

theorem appends_put (byte : UInt8) : Appends (put byte) [byte] := by
  intro out hroom
  have hlt : out.bytes.length < out.size := by
    rw [List.length_singleton] at hroom
    omega
  unfold put
  rw [dif_pos hlt]
  exact ⟨_, rfl, rfl, rfl⟩

theorem Appends.bind {first second : OutBuffer → Except Trap OutBuffer}
    {text text' : List UInt8} (hfirst : Appends first text)
    (hsecond : Appends second text') :
    Appends (fun out => first out >>= second) (text ++ text') := by
  intro out hroom
  rw [List.length_append] at hroom
  obtain ⟨middle, hmiddle, hsize, hbytes⟩ := hfirst out (by omega)
  have hroom' : middle.bytes.length + text'.length < middle.size := by
    rw [hbytes, hsize, List.length_append]
    omega
  obtain ⟨out', hout, hsize', hbytes'⟩ := hsecond middle hroom'
  refine ⟨out', ?_, ?_, ?_⟩
  · show first out >>= second = Except.ok out'
    rw [hmiddle]
    exact hout
  · rw [hsize', hsize]
  · rw [hbytes', hbytes, List.append_assoc]

theorem appends_write (text : List UInt8) : Appends (write text) text := by
  induction text with
  | nil => exact appends_pure
  | cons byte text ih => exact (appends_put byte).bind ih

theorem appends_terminate : Appends terminate [] := by
  intro out hroom
  have hlt : out.bytes.length < out.size := hroom
  refine ⟨out, ?_, rfl, (List.append_nil out.bytes).symm⟩
  unfold terminate put
  rw [dif_pos hlt]
  rfl

theorem appends_strcpy (text : List UInt8) : Appends (strcpy text) text := by
  have h := (appends_write text).bind appends_terminate
  rw [List.append_nil] at h
  exact h

theorem Appends.onlyIf {writer : OutBuffer → Except Trap OutBuffer}
    {text : List UInt8} (h : Appends writer text) (condition : Bool) :
    Appends (onlyIf condition writer) (if condition then text else []) := by
  cases condition with
  | false => exact appends_pure
  | true => exact h

/-- A fresh buffer with room for the text and its NUL ends up with the text. -/
theorem Appends.finish_malloc {writer : OutBuffer → Except Trap OutBuffer}
    {text : List UInt8} (h : Appends writer text) (size : ℕ)
    (hsize : text.length < size) :
    (do let out ← writer (malloc size); finish out) = .ok text := by
  have hroom : (malloc size).bytes.length + text.length <
      (malloc size).size := by
    show 0 + text.length < size
    omega
  obtain ⟨out, hout, hsize', hbytes⟩ := h (malloc size) hroom
  have hbytes' : out.bytes = text := hbytes
  have hlt : out.bytes.length < out.size := by
    rw [hbytes', hsize']
    exact hsize
  rw [hout]
  show finish out = .ok text
  unfold finish put
  rw [dif_pos hlt]
  show Except.ok out.bytes = .ok text
  rw [hbytes']

end OutBuffer

end ClpszDemos
