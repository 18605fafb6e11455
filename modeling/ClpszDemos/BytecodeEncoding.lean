import Mathlib.Data.BitVec
import ClpszDemos.JvmInstruction

/-!
# The bytecode format and its decoder

The encoding of the JVM specification: an opcode, then the operands, where a
switch first pads to a multiple of four counted from the start of the method.
The specification does not say what the padding bytes are, and an encoding
here may have any.  `decode` undoes this encoding at every address.
-/

namespace ClpszDemos

namespace Jvm

open BigEndian BytecodeReader

/-! ## The format -/

def ValueType.rank : ValueType → ℕ
  | .int => 0
  | .long => 1
  | .float => 2
  | .double => 3
  | .ref => 4

def NumType.rank : NumType → ℕ
  | .int => 0
  | .long => 1
  | .float => 2
  | .double => 3

def IntType.rank : IntType → ℕ
  | .int => 0
  | .long => 1

def ArithOp.rank : ArithOp → ℕ
  | .add => 0
  | .sub => 1
  | .mul => 2
  | .div => 3
  | .rem => 4

def ShiftOp.rank : ShiftOp → ℕ
  | .shl => 0
  | .shr => 1
  | .ushr => 2

def BitOp.rank : BitOp → ℕ
  | .and => 0
  | .or => 1
  | .xor => 2

def Cond.rank : Cond → ℕ
  | .eq => 0
  | .ne => 1
  | .lt => 2
  | .ge => 3
  | .gt => 4
  | .le => 5

def Conversion.rank : Conversion → ℕ
  | .i2l => 0
  | .i2f => 1
  | .i2d => 2
  | .l2i => 3
  | .l2f => 4
  | .l2d => 5
  | .f2i => 6
  | .f2l => 7
  | .f2d => 8
  | .d2i => 9
  | .d2l => 10
  | .d2f => 11
  | .i2b => 12
  | .i2c => 13
  | .i2s => 14

def IndexInstruction.opcode : IndexInstruction → ℕ
  | .load type _ => 0x15 + type.rank
  | .store type _ => 0x36 + type.rank
  | .iinc _ _ => 0x84

namespace Instruction

/-- The opcode table of the specification.  A family has consecutive opcodes,
in the order of its types, operators or constants. -/
def opcodeNumber : Instruction → ℕ
  | nop => 0x00
  | aconst_null => 0x01
  | iconst_m1 => 0x02
  | iconst_0 => 0x03
  | iconst_1 => 0x04
  | iconst_2 => 0x05
  | iconst_3 => 0x06
  | iconst_4 => 0x07
  | iconst_5 => 0x08
  | lconst_0 => 0x09
  | lconst_1 => 0x0a
  | fconst_0 => 0x0b
  | fconst_1 => 0x0c
  | fconst_2 => 0x0d
  | dconst_0 => 0x0e
  | dconst_1 => 0x0f
  | bipush _ => 0x10
  | sipush _ => 0x11
  | .index instruction => instruction.opcode
  | loadN type n => 0x1a + 4 * type.rank + n
  | storeN type n => 0x3b + 4 * type.rank + n
  | pop => 0x57
  | pop2 => 0x58
  | dup => 0x59
  | dup_x1 => 0x5a
  | dup_x2 => 0x5b
  | dup2 => 0x5c
  | dup2_x1 => 0x5d
  | dup2_x2 => 0x5e
  | swap => 0x5f
  | arith op type => 0x60 + 4 * op.rank + type.rank
  | neg type => 0x74 + type.rank
  | shift op type => 0x78 + 2 * op.rank + type.rank
  | bit op type => 0x7e + 2 * op.rank + type.rank
  | convert conversion => 0x85 + conversion.rank
  | lcmp => 0x94
  | fcmp gFlag => 0x95 + gFlag.toNat
  | dcmp gFlag => 0x97 + gFlag.toNat
  | ifCond cond _ => 0x99 + cond.rank
  | ifIcmp cond _ => 0x9f + cond.rank
  | ifAcmp equal _ => if equal then 0xa5 else 0xa6
  | goto _ => 0xa7
  | tableSwitch _ _ _ _ => 0xaa
  | lookupSwitch _ _ _ => 0xab
  | wide _ => 0xc4
  | ifNull null _ => if null then 0xc6 else 0xc7
  | goto_w _ => 0xc8

def opcode (inst : Instruction) : Byte := BitVec.ofNat 8 inst.opcodeNumber

/-- The operands after a one-byte opcode. -/
def indexOperands : IndexInstruction → List Byte
  | .load _ i => [BitVec.ofNat 8 i]
  | .store _ i => [BitVec.ofNat 8 i]
  | .iinc i const => [BitVec.ofNat 8 i, const.setWidth 8]

/-- What follows `wide`: the modified opcode and its widened operands. -/
def wideOperands (instruction : IndexInstruction) : List Byte :=
  BitVec.ofNat 8 instruction.opcode ::
    match instruction with
    | .load _ i => bytes16 (BitVec.ofNat 16 i)
    | .store _ i => bytes16 (BitVec.ofNat 16 i)
    | .iinc i const =>
        bytes16 (BitVec.ofNat 16 i) ++ bytes16 (const.setWidth 16)

def offsetBytes (offset : ℤ) : List Byte := bytes16 (BitVec.ofInt 16 offset)

def operands (padding : List Byte) : Instruction → List Byte
  | bipush val => [val]
  | sipush val => bytes16 val
  | .index instruction => indexOperands instruction
  | ifCond _ offset => offsetBytes offset
  | ifIcmp _ offset => offsetBytes offset
  | ifAcmp _ offset => offsetBytes offset
  | goto offset => offsetBytes offset
  | ifNull _ offset => offsetBytes offset
  | goto_w offset => bytes32 (BitVec.ofInt 32 offset)
  | tableSwitch defaultOffset low high jumpOffsets =>
      padding ++ (bytes32 defaultOffset ++ (bytes32 low ++
        (bytes32 high ++ jumpOffsets.flatMap bytes32)))
  | lookupSwitch defaultOffset npairs matchOffsets =>
      padding ++ (bytes32 defaultOffset ++ (bytes32 npairs ++
        matchOffsets.flatMap bytes32))
  | wide (some instruction) => wideOperands instruction
  | _ => []

def OffsetInRange (bits : ℕ) (offset : ℤ) : Prop :=
  -2 ^ (bits - 1) ≤ offset ∧ offset < 2 ^ (bits - 1)

/-- Index operands of one byte, or of two after `wide`. -/
def IndexInRange (bytes : ℕ) : IndexInstruction → Prop
  | .load _ i => i < 256 ^ bytes
  | .store _ i => i < 256 ^ bytes
  | .iinc i const =>
      i < 256 ^ bytes ∧ OffsetInRange (8 * bytes) const.toInt

/-- Operands in the ranges of the specification.  `wide` has an instruction to
modify, and a switch has the table that its bounds announce. -/
def InRange : Instruction → Prop
  | .index instruction => IndexInRange 1 instruction
  | ifCond _ offset => OffsetInRange 16 offset
  | ifIcmp _ offset => OffsetInRange 16 offset
  | ifAcmp _ offset => OffsetInRange 16 offset
  | goto offset => OffsetInRange 16 offset
  | ifNull _ offset => OffsetInRange 16 offset
  | goto_w offset => OffsetInRange 32 offset
  | tableSwitch _ low high jumpOffsets =>
      low.toInt ≤ high.toInt ∧
        (jumpOffsets.length : ℤ) = high.toInt - low.toInt + 1
  | lookupSwitch _ npairs matchOffsets =>
      0 ≤ npairs.toInt ∧ (matchOffsets.length : ℤ) = npairs.toInt * 2
  | wide modifiedInstruction =>
      ∃ instruction, modifiedInstruction = some instruction ∧
        IndexInRange 2 instruction
  | _ => True

/-- The table has fewer than `2 ^ 31` entries; a match and its offset are two. -/
def TableBounded : Instruction → Prop
  | tableSwitch _ _ _ jumpOffsets => jumpOffsets.length < 2 ^ 31
  | lookupSwitch _ _ matchOffsets => matchOffsets.length < 2 ^ 31
  | _ => True

def encode (padding : List Byte) (inst : Instruction) : List Byte :=
  inst.opcode :: inst.operands padding

/-- The operands of an instruction at `pc` begin at `pc + 1`. -/
def paddingLength (pc : ℕ) : ℕ := 3 - pc % 4

/-- `bytes` encode `inst` at address `pc` of a method. -/
def Encodes (pc : ℕ) (inst : Instruction) (bytes : List Byte) : Prop :=
  inst.InRange ∧
    ∃ padding : List Byte,
      padding.length = paddingLength pc ∧ bytes = inst.encode padding

def sizeAt (pc : ℕ) (inst : Instruction) : ℕ :=
  (inst.encode (List.replicate (paddingLength pc) 0)).length

/-- `code` is `insts` one after another, the first at address `pc`. -/
inductive Assembles : ℕ → List Instruction → List Byte → Prop
  | nil {pc : ℕ} : Assembles pc [] []
  | cons {pc : ℕ} {inst : Instruction} {insts : List Instruction}
      {bytes code : List Byte} (head : Encodes pc inst bytes)
      (tail : Assembles (pc + inst.sizeAt pc) insts code) :
      Assembles pc (inst :: insts) (bytes ++ code)

/-- The address of the `k`-th instruction, or of the end of the code. -/
def addressFrom : ℕ → List Instruction → ℕ → ℕ
  | pc, _, 0 => pc
  | pc, [], _ + 1 => pc
  | pc, inst :: insts, k + 1 => addressFrom (pc + inst.sizeAt pc) insts k

abbrev address (insts : List Instruction) (k : ℕ) : ℕ := addressFrom 0 insts k

theorem length_operands {padding padding' : List Byte}
    (hlength : padding.length = padding'.length) (inst : Instruction) :
    (inst.operands padding).length = (inst.operands padding').length := by
  cases inst with
  | wide modifiedInstruction =>
      cases modifiedInstruction <;> rfl
  | _ => simp [operands, hlength]

theorem Encodes.length_eq {pc : ℕ} {inst : Instruction} {bytes : List Byte}
    (hencodes : Encodes pc inst bytes) : bytes.length = inst.sizeAt pc := by
  obtain ⟨_, padding, hpadding, rfl⟩ := hencodes
  have hlength : padding.length = (List.replicate (paddingLength pc)
      (0 : Byte)).length := by
    rw [hpadding, List.length_replicate]
  unfold sizeAt encode
  rw [List.length_cons, List.length_cons, length_operands hlength inst]

/-! ## The reader hands out the code -/

theorem next?_eq_some {code : List Byte} {pc : ℕ} {byte : Byte}
    (hbyte : code[pc]? = some byte) :
    next? ⟨code, pc⟩ = some (byte, ⟨code, (pc + 1 : ℕ)⟩) := by
  have hnonneg : ¬ (pc : ℤ) < 0 := by omega
  simp [next?, hnonneg, hbyte]

theorem getElem?_of_prefix_drop {code bytes : List Byte} {pc : ℕ} {byte : Byte}
    (hbytes : byte :: bytes <+: code.drop pc) : code[pc]? = some byte := by
  obtain ⟨rest, hrest⟩ := hbytes
  have hhead : (code.drop pc)[0]? = some byte := by
    rw [← hrest]
    rfl
  simpa using hhead

theorem prefix_drop_succ {code bytes : List Byte} {pc : ℕ} {byte : Byte}
    (hbytes : byte :: bytes <+: code.drop pc) :
    bytes <+: code.drop (pc + 1) := by
  obtain ⟨rest, hrest⟩ := hbytes
  have hdrop : (code.drop pc).drop 1 = bytes ++ rest := by
    rw [← hrest]
    rfl
  rw [List.drop_drop] at hdrop
  exact ⟨rest, hdrop.symm⟩

theorem supplies_code {code bytes : List Byte} {pc : ℕ}
    (hbytes : bytes <+: code.drop pc) :
    Supplies (⟨code, pc⟩ : BytecodeReader) bytes
      ⟨code, (pc + bytes.length : ℕ)⟩ := by
  induction bytes generalizing pc with
  | nil => simp
  | cons byte bytes ih =>
      have hnext := next?_eq_some (getElem?_of_prefix_drop hbytes)
      have hsupplies := ih (prefix_drop_succ hbytes)
      have hlength : pc + (byte :: bytes).length = pc + 1 + bytes.length := by
        simp only [List.length_cons]
        omega
      rw [hlength]
      exact ⟨_, hnext, hsupplies⟩

theorem reads_readUint8 (byte : Byte) : Reads readUint8 [byte] byte := by
  intro s t hsupplies
  obtain ⟨u, hnext, hu⟩ := hsupplies
  have hut : u = t := hu
  have hself : s.next? = some (byte, u) := hnext
  simp only [readUint8, hself, hut]

theorem reads_readUint16 (value : BitVec 16) :
    Reads readUint16 (bytes16 value) value := by
  have hjoin : Reads (pure (join16 (value.extractLsb' 8 8)
      (value.extractLsb' 0 8)) : Fetch (BitVec 16)) [] value := by
    rw [join16_extract]
    exact Reads.pure value
  exact Reads.bind (reads_readUint8 _) (Reads.bind (reads_readUint8 _) hjoin)

theorem reads_readInt32 (value : BitVec 32) :
    Reads readInt32 (bytes32 value) value := by
  have hjoin : Reads (pure (join32 (value.extractLsb' 24 8)
      (value.extractLsb' 16 8) (value.extractLsb' 8 8)
      (value.extractLsb' 0 8)) : Fetch (BitVec 32)) [] value := by
    rw [join32_extract]
    exact Reads.pure value
  exact Reads.bind (reads_readUint8 _) (Reads.bind (reads_readUint8 _)
    (Reads.bind (reads_readUint8 _) (Reads.bind (reads_readUint8 _) hjoin)))

theorem reads_readInt32s {n : BitVec 32} {ints : List (BitVec 32)}
    (hlength : n.toInt = ints.length) :
    Reads (readInt32s n) (ints.flatMap bytes32) ints := by
  have hnonneg : ¬ n.toInt < 0 := by omega
  have htoNat : n.toInt.toNat = ints.length := by omega
  have hmany : Reads (readMany readInt32 ints.length)
      (ints.flatMap bytes32) ints :=
    Reads.many fun value _ => reads_readInt32 value
  unfold readInt32s
  rw [if_neg hnonneg, htoNat]
  exact hmany

/-! ## Padding -/

theorem skipPaddingRounds_succ (rounds : ℕ) (reader : BytecodeReader) :
    skipPaddingRounds (rounds + 1) reader =
      if reader.pc % 4 ≠ 0 then
        (readUint8 >>= fun _ => skipPaddingRounds rounds) reader
      else .ok ((), reader) := by
  show (if reader.pc % 4 ≠ 0 then _ else _ : Fetch Unit) reader = _
  by_cases hpadding : reader.pc % 4 ≠ 0
  · rw [if_pos hpadding, if_pos hpadding]
  · rw [if_neg hpadding, if_neg hpadding]
    rfl

theorem skipPaddingRounds_aligned {reader : BytecodeReader} (rounds : ℕ)
    (haligned : reader.pc % 4 = 0) :
    skipPaddingRounds rounds reader = .ok ((), reader) := by
  cases rounds with
  | zero => rfl
  | succ rounds =>
      rw [skipPaddingRounds_succ, if_neg (not_not.mpr haligned)]

theorem skipPaddingRounds_step {reader next : BytecodeReader} {byte : Byte}
    (rounds : ℕ) (hpadding : reader.pc % 4 ≠ 0)
    (hnext : reader.next? = some (byte, next)) :
    skipPaddingRounds (rounds + 1) reader = skipPaddingRounds rounds next := by
  have hread : readUint8 reader = .ok (byte, next) := by
    simp only [readUint8, hnext]
  rw [skipPaddingRounds_succ, if_pos hpadding]
  show (do let (_, s') ← readUint8 reader; skipPaddingRounds rounds s') = _
  rw [hread]
  rfl

theorem pc_next {reader next : BytecodeReader} {byte : Byte}
    (hnext : reader.next? = some (byte, next)) :
    next.pc = reader.pc + 1 := by
  unfold next? at hnext
  by_cases hneg : reader.pc < 0
  · simp [hneg] at hnext
  · simp only [hneg, if_false, Option.map_eq_some_iff, Prod.mk.injEq] at hnext
    obtain ⟨_, _, _, hreader⟩ := hnext
    rw [← hreader]

/-- Fewer than four bytes up to the next multiple of four are skipped. -/
theorem skipPaddingRounds_supplies {padding : List Byte}
    {reader t : BytecodeReader} {rounds : ℕ}
    (hrounds : padding.length ≤ rounds) (hlength : padding.length < 4)
    (haligned : (reader.pc + padding.length) % 4 = 0)
    (hsupplies : Supplies reader padding t) :
    skipPaddingRounds rounds reader = .ok ((), t) := by
  induction padding generalizing reader rounds with
  | nil =>
      have hreader : reader = t := hsupplies
      rw [← hreader]
      apply skipPaddingRounds_aligned
      simpa using haligned
  | cons byte padding ih =>
      obtain ⟨next, hnext, htail⟩ := hsupplies
      have hpc : next.pc = reader.pc + 1 := pc_next hnext
      simp only [List.length_cons] at hrounds hlength haligned
      have hpadding : reader.pc % 4 ≠ 0 := by
        omega
      obtain ⟨rest, rfl⟩ : ∃ rest, rounds = rest + 1 :=
        ⟨rounds - 1, by omega⟩
      rw [skipPaddingRounds_step rest hpadding hnext]
      apply ih
      · omega
      · omega
      · rw [hpc]
        push_cast at haligned ⊢
        omega
      · exact htail

/-- What `SkipPadding` skips, from whatever position it starts. -/
theorem skipPadding_skips {reader t : BytecodeReader}
    (hskip : skipPadding reader = .ok ((), t)) :
    ∃ padding : List Byte, Supplies reader padding t ∧
      (padding.length : ℤ) = (-reader.pc) % 4 := by
  have hrounds : ∀ (rounds : ℕ) (reader : BytecodeReader),
      (-reader.pc) % 4 ≤ rounds →
      skipPaddingRounds rounds reader = .ok ((), t) →
      ∃ padding : List Byte, Supplies reader padding t ∧
        (padding.length : ℤ) = (-reader.pc) % 4 := by
    intro rounds
    induction rounds with
    | zero =>
        intro reader hle hrun
        have hreader : reader = t := by
          have hpair : Except.ok (ε := GoPanic) ((), reader) = .ok ((), t) :=
            hrun
          simpa using hpair
        exact ⟨[], hreader, by simp; omega⟩
    | succ rounds ih =>
        intro reader hle hrun
        by_cases hpadding : reader.pc % 4 = 0
        · rw [skipPaddingRounds_aligned _ hpadding] at hrun
          simp only [Except.ok.injEq, Prod.mk.injEq, true_and] at hrun
          exact ⟨[], hrun, by simp; omega⟩
        · cases hnext : reader.next? with
          | none =>
              have hread : readUint8 reader = .error .indexOutOfRange := by
                simp only [readUint8, hnext]
              have herror : skipPaddingRounds (rounds + 1) reader =
                  .error .indexOutOfRange := by
                rw [skipPaddingRounds_succ, if_pos hpadding]
                show (do
                  let (_, s') ← readUint8 reader
                  skipPaddingRounds rounds s') = _
                rw [hread]
                rfl
              rw [herror] at hrun
              cases hrun
          | some pair =>
              obtain ⟨byte, next⟩ := pair
              have hpc : next.pc = reader.pc + 1 := pc_next hnext
              rw [skipPaddingRounds_step rounds hpadding hnext] at hrun
              obtain ⟨padding, hsupplies, hlength⟩ :=
                ih next (by omega) hrun
              refine ⟨byte :: padding, ⟨next, hnext, hsupplies⟩, ?_⟩
              rw [List.length_cons]
              push_cast
              omega
  apply hrounds 3 reader _ hskip
  omega

theorem skipPadding_supplies {padding : List Byte} {code : List Byte} {pc : ℕ}
    {t : BytecodeReader} (hlength : padding.length = paddingLength pc)
    (hsupplies :
      Supplies (⟨code, (pc + 1 : ℕ)⟩ : BytecodeReader) padding t) :
    skipPadding ⟨code, (pc + 1 : ℕ)⟩ = .ok ((), t) := by
  unfold paddingLength at hlength
  have haligned : (((pc + 1 : ℕ) : ℤ) + padding.length) % 4 = 0 := by
    push_cast
    omega
  exact skipPaddingRounds_supplies (by omega) (by omega) haligned hsupplies

/-! ## Operands -/

theorem toInt_ofInt_inRange {bits : ℕ} {offset : ℤ} (hbits : 0 < bits)
    (hrange : OffsetInRange bits offset) :
    (BitVec.ofInt bits offset).toInt = offset := by
  obtain ⟨hlow, hhigh⟩ := hrange
  rw [BitVec.toInt_ofInt]
  obtain ⟨half, rfl⟩ : ∃ half, bits = half + 1 := ⟨bits - 1, by omega⟩
  have hpow : (2 : ℤ) ^ (half + 1) = 2 * 2 ^ half := by ring
  simp only [Nat.add_sub_cancel] at hlow hhigh
  apply Int.bmod_eq_of_le
  · push_cast
    omega
  · push_cast
    omega

theorem signExtend_setWidth {bytes : ℕ} {const : BitVec 32}
    (hbytes : bytes = 1 ∨ bytes = 2)
    (hrange : OffsetInRange (8 * bytes) const.toInt) :
    (const.setWidth (8 * bytes)).signExtend 32 = const := by
  obtain ⟨hlow, hhigh⟩ := hrange
  have hconst : const.toInt = Int.bmod const.toNat (2 ^ 32) :=
    BitVec.toInt_eq_toNat_bmod const
  have hbound : const.toNat < 2 ^ 32 := const.isLt
  apply BitVec.eq_of_toInt_eq
  rw [BitVec.toInt_signExtend_of_le (by omega), BitVec.toInt_setWidth]
  rcases hbytes with rfl | rfl
  all_goals
    simp only [Int.bmod] at *
    norm_num at *
    split_ifs at * <;> omega

theorem reads_fetchOffset {offset : ℤ} (hrange : OffsetInRange 16 offset) :
    Reads fetchOffset (offsetBytes offset) offset := by
  have hreads := (reads_readUint16 (BitVec.ofInt 16 offset)).map BitVec.toInt
  rw [toInt_ofInt_inRange (by omega) hrange] at hreads
  exact hreads

theorem reads_fetchIndex8 {i : ℕ} (hrange : i < 256 ^ 1) :
    Reads fetchIndex8 [BitVec.ofNat 8 i] i := by
  have hreads := (reads_readUint8 (BitVec.ofNat 8 i)).map BitVec.toNat
  have htoNat : (BitVec.ofNat 8 i).toNat = i := Nat.mod_eq_of_lt hrange
  rw [htoNat] at hreads
  exact hreads

theorem reads_fetchIndex16 {i : ℕ} (hrange : i < 256 ^ 2) :
    Reads fetchIndex16 (bytes16 (BitVec.ofNat 16 i)) i := by
  have hreads := (reads_readUint16 (BitVec.ofNat 16 i)).map BitVec.toNat
  have htoNat : (BitVec.ofNat 16 i).toNat = i := Nat.mod_eq_of_lt hrange
  rw [htoNat] at hreads
  exact hreads

theorem reads_indexOperands {instruction : IndexInstruction}
    (hrange : IndexInRange 1 instruction) :
    Reads (fetchOperands (.index instruction)) (indexOperands instruction)
      (.index instruction) := by
  cases instruction with
  | load type i => exact (reads_fetchIndex8 hrange).map _
  | store type i => exact (reads_fetchIndex8 hrange).map _
  | iinc i const =>
      have hconst : Reads (pure (iinc i
          ((const.setWidth 8).signExtend 32)) : Fetch Instruction) []
          (iinc i const) := by
        rw [signExtend_setWidth (.inl rfl) hrange.2]
        exact Reads.pure _
      exact Reads.bind (reads_fetchIndex8 hrange.1)
        (Reads.bind (reads_readUint8 _) hconst)

/-- The switch of `WIDE` on the opcode of an instruction it can modify. -/
theorem wideModified_opcode (instruction : IndexInstruction) :
    wideModified (BitVec.ofNat 8 instruction.opcode) =
      match instruction with
      | .load type _ => wideLoad type
      | .store type _ => wideStore type
      | .iinc _ _ => wideIinc := by
  cases instruction with
  | load type i => cases type <;> rfl
  | store type i => cases type <;> rfl
  | iinc i const => rfl

theorem reads_wideOperands {instruction : IndexInstruction}
    (hrange : IndexInRange 2 instruction) :
    Reads wideFetch (wideOperands instruction) (wide (some instruction)) := by
  have hmodified := wideModified_opcode instruction
  cases instruction with
  | load type i =>
      have hload : Reads (wideModified (BitVec.ofNat 8
          (IndexInstruction.load type i).opcode))
          (bytes16 (BitVec.ofNat 16 i)) (wide (some (.load type i))) := by
        rw [hmodified]
        exact (reads_fetchIndex16 hrange).map
          fun index => wide (some (.load type index))
      exact Reads.bind (reads_readUint8 _) hload
  | store type i =>
      have hstore : Reads (wideModified (BitVec.ofNat 8
          (IndexInstruction.store type i).opcode))
          (bytes16 (BitVec.ofNat 16 i)) (wide (some (.store type i))) := by
        rw [hmodified]
        exact (reads_fetchIndex16 hrange).map
          fun index => wide (some (.store type index))
      exact Reads.bind (reads_readUint8 _) hstore
  | iinc i const =>
      have hconst : Reads (pure (wide (some (.iinc i
          ((const.setWidth 16).signExtend 32)))) : Fetch Instruction) []
          (wide (some (.iinc i const))) := by
        rw [signExtend_setWidth (.inr rfl) hrange.2]
        exact Reads.pure _
      have hiinc : Reads (wideModified (BitVec.ofNat 8
          (IndexInstruction.iinc i const).opcode))
          (bytes16 (BitVec.ofNat 16 i) ++ bytes16 (const.setWidth 16))
          (wide (some (.iinc i const))) := by
        rw [hmodified]
        exact Reads.bind (reads_fetchIndex16 hrange.1)
          (Reads.bind (reads_readUint16 (const.setWidth 16)) hconst)
      exact Reads.bind (reads_readUint8 _) hiinc

/-! ## Decoding -/

/-- Instructions whose operands lie at the same place at every address. -/
def Unpadded : Instruction → Prop
  | tableSwitch _ _ _ _ => False
  | lookupSwitch _ _ _ => False
  | _ => True

theorem reads_operands {inst : Instruction} (padding : List Byte)
    (hrange : inst.InRange) (hunpadded : inst.Unpadded) :
    Reads (fetchOperands inst) (inst.operands padding) inst := by
  cases inst with
  | bipush val => exact (reads_readUint8 val).map bipush
  | sipush val => exact (reads_readUint16 val).map sipush
  | index instruction => exact reads_indexOperands hrange
  | ifCond cond offset => exact (reads_fetchOffset hrange).map (ifCond cond)
  | ifIcmp cond offset => exact (reads_fetchOffset hrange).map (ifIcmp cond)
  | ifAcmp equal offset => exact (reads_fetchOffset hrange).map (ifAcmp equal)
  | goto offset => exact (reads_fetchOffset hrange).map goto
  | ifNull null offset => exact (reads_fetchOffset hrange).map (ifNull null)
  | goto_w offset =>
      have hreads := (reads_readInt32 (BitVec.ofInt 32 offset)).map
        fun value => goto_w value.toInt
      rw [toInt_ofInt_inRange (by omega) hrange] at hreads
      exact hreads
  | tableSwitch defaultOffset low high jumpOffsets => exact hunpadded.elim
  | lookupSwitch defaultOffset npairs matchOffsets => exact hunpadded.elim
  | wide modifiedInstruction =>
      obtain ⟨instruction, rfl, hinstruction⟩ := hrange
      exact reads_wideOperands hinstruction
  | _ => exact Reads.pure _

/-- The count `high - low + 1` of the code, which wraps around. -/
theorem jumpOffsetsCount_toInt (low high : BitVec 32) :
    (high - low + 1).toInt =
      Int.bmod (high.toInt - low.toInt + 1) (2 ^ 32) := by
  have hone : (1 : BitVec 32).toInt = 1 := by decide
  rw [BitVec.toInt_add, BitVec.toInt_sub, hone, Int.bmod_add_bmod]

theorem matchOffsetsCount_toInt (npairs : BitVec 32) :
    (npairs * 2).toInt = Int.bmod (npairs.toInt * 2) (2 ^ 32) := by
  have htwo : (2 : BitVec 32).toInt = 2 := by decide
  rw [BitVec.toInt_mul, htwo]

theorem jumpOffsetsCount_eq {low high : BitVec 32} {count : ℕ}
    (hcount : (count : ℤ) = high.toInt - low.toInt + 1)
    (hbounded : count < 2 ^ 31) : (high - low + 1).toInt = count := by
  rw [jumpOffsetsCount_toInt, ← hcount]
  apply Int.bmod_eq_of_le
  · omega
  · omega

theorem matchOffsetsCount_eq {npairs : BitVec 32} {count : ℕ}
    (hcount : (count : ℤ) = npairs.toInt * 2) (hbounded : count < 2 ^ 31) :
    (npairs * 2).toInt = count := by
  rw [matchOffsetsCount_toInt, ← hcount]
  apply Int.bmod_eq_of_le
  · omega
  · omega

theorem reads_tableSwitch {defaultOffset low high : BitVec 32}
    {jumpOffsets : List (BitVec 32)}
    (hcount : (high - low + 1).toInt = jumpOffsets.length) :
    Reads (do
        let defaultOffset ← readInt32
        let low ← readInt32
        let high ← readInt32
        let jumpOffsets ← readInt32s (high - low + 1)
        return tableSwitch defaultOffset low high jumpOffsets)
      (bytes32 defaultOffset ++ (bytes32 low ++
        (bytes32 high ++ jumpOffsets.flatMap bytes32)))
      (tableSwitch defaultOffset low high jumpOffsets) := by
  have hints := (reads_readInt32s hcount).map
    (tableSwitch defaultOffset low high)
  exact Reads.bind (reads_readInt32 _) (Reads.bind (reads_readInt32 _)
    (Reads.bind (reads_readInt32 _) hints))

theorem reads_lookupSwitch {defaultOffset npairs : BitVec 32}
    {matchOffsets : List (BitVec 32)}
    (hcount : (npairs * 2).toInt = matchOffsets.length) :
    Reads (do
        let defaultOffset ← readInt32
        let npairs ← readInt32
        let matchOffsets ← readInt32s (npairs * 2)
        return lookupSwitch defaultOffset npairs matchOffsets)
      (bytes32 defaultOffset ++ (bytes32 npairs ++
        matchOffsets.flatMap bytes32))
      (lookupSwitch defaultOffset npairs matchOffsets) := by
  have hints := (reads_readInt32s hcount).map
    (lookupSwitch defaultOffset npairs)
  exact Reads.bind (reads_readInt32 _) (Reads.bind (reads_readInt32 _) hints)

theorem tableSwitchFetch_supplies {code padding : List Byte} {pc : ℕ}
    {defaultOffset low high : BitVec 32} {jumpOffsets : List (BitVec 32)}
    {t : BytecodeReader}
    (hcount : (high - low + 1).toInt = jumpOffsets.length)
    (hlength : padding.length = paddingLength pc)
    (hsupplies : Supplies (⟨code, (pc + 1 : ℕ)⟩ : BytecodeReader)
      ((tableSwitch defaultOffset low high jumpOffsets).operands padding) t) :
    tableSwitchFetch ⟨code, (pc + 1 : ℕ)⟩ =
      .ok (tableSwitch defaultOffset low high jumpOffsets, t) := by
  obtain ⟨u, hpadding, hrest⟩ := supplies_append.mp hsupplies
  have hskip := skipPadding_supplies hlength hpadding
  have htable := reads_tableSwitch hcount _ _ hrest
  show (do
    let (_, s') ← skipPadding ⟨code, (pc + 1 : ℕ)⟩
    _) = _
  rw [hskip]
  exact htable

theorem lookupSwitchFetch_supplies {code padding : List Byte} {pc : ℕ}
    {defaultOffset npairs : BitVec 32} {matchOffsets : List (BitVec 32)}
    {t : BytecodeReader}
    (hcount : (npairs * 2).toInt = matchOffsets.length)
    (hlength : padding.length = paddingLength pc)
    (hsupplies : Supplies (⟨code, (pc + 1 : ℕ)⟩ : BytecodeReader)
      ((lookupSwitch defaultOffset npairs matchOffsets).operands padding) t) :
    lookupSwitchFetch ⟨code, (pc + 1 : ℕ)⟩ =
      .ok (lookupSwitch defaultOffset npairs matchOffsets, t) := by
  obtain ⟨u, hpadding, hrest⟩ := supplies_append.mp hsupplies
  have hskip := skipPadding_supplies hlength hpadding
  have htable := reads_lookupSwitch hcount _ _ hrest
  show (do
    let (_, s') ← skipPadding ⟨code, (pc + 1 : ℕ)⟩
    _) = _
  rw [hskip]
  exact htable

/-- `FetchOperands` behind the opcode at address `pc`. -/
theorem fetchOperands_supplies {code : List Byte} {pc : ℕ} {inst : Instruction}
    {padding : List Byte} {t : BytecodeReader} (hrange : inst.InRange)
    (hbounded : inst.TableBounded) (hlength : padding.length = paddingLength pc)
    (hsupplies : Supplies (⟨code, (pc + 1 : ℕ)⟩ : BytecodeReader)
      (inst.operands padding) t) :
    fetchOperands inst ⟨code, (pc + 1 : ℕ)⟩ = .ok (inst, t) := by
  by_cases hunpadded : inst.Unpadded
  · exact reads_operands padding hrange hunpadded _ _ hsupplies
  cases inst with
  | tableSwitch defaultOffset low high jumpOffsets =>
      have hcount := jumpOffsetsCount_eq hrange.2 hbounded
      exact tableSwitchFetch_supplies hcount hlength hsupplies
  | lookupSwitch defaultOffset npairs matchOffsets =>
      have hcount := matchOffsetsCount_eq hrange.2 hbounded
      exact lookupSwitchFetch_supplies hcount hlength hsupplies
  | _ => exact (hunpadded trivial).elim

/-- What `newInstruction` makes of the opcode of `inst` differs from `inst` in
operands only, which `fetchOperands` does not look at. -/
theorem newInstruction_opcode (inst : Instruction) :
    ∃ new, newInstruction inst.opcode = .ok new ∧
      fetchOperands new = fetchOperands inst := by
  cases inst with
  | index instruction =>
      cases instruction with
      | load type i => cases type <;> exact ⟨_, rfl, rfl⟩
      | store type i => cases type <;> exact ⟨_, rfl, rfl⟩
      | iinc i const => exact ⟨_, rfl, rfl⟩
  | loadN type n => cases type <;> fin_cases n <;> exact ⟨_, rfl, rfl⟩
  | storeN type n => cases type <;> fin_cases n <;> exact ⟨_, rfl, rfl⟩
  | arith op type => cases op <;> cases type <;> exact ⟨_, rfl, rfl⟩
  | neg type => cases type <;> exact ⟨_, rfl, rfl⟩
  | shift op type => cases op <;> cases type <;> exact ⟨_, rfl, rfl⟩
  | bit op type => cases op <;> cases type <;> exact ⟨_, rfl, rfl⟩
  | convert conversion => cases conversion <;> exact ⟨_, rfl, rfl⟩
  | fcmp gFlag => cases gFlag <;> exact ⟨_, rfl, rfl⟩
  | dcmp gFlag => cases gFlag <;> exact ⟨_, rfl, rfl⟩
  | ifCond cond offset => cases cond <;> exact ⟨_, rfl, rfl⟩
  | ifIcmp cond offset => cases cond <;> exact ⟨_, rfl, rfl⟩
  | ifAcmp equal offset => cases equal <;> exact ⟨_, rfl, rfl⟩
  | ifNull null offset => cases null <;> exact ⟨_, rfl, rfl⟩
  | _ => exact ⟨_, rfl, rfl⟩

/-- One byte of the code is the opcode of `inst`, and `decode` goes on with the
operands of `inst`. -/
theorem decode_opcode {code operands : List Byte} {pc : ℕ} {inst : Instruction}
    (hbytes : inst.opcode :: operands <+: code.drop pc) :
    decode ⟨code, pc⟩ = fetchOperands inst ⟨code, (pc + 1 : ℕ)⟩ := by
  have hcode := getElem?_of_prefix_drop hbytes
  have hread : readUint8 ⟨code, pc⟩ =
      .ok (inst.opcode, ⟨code, (pc + 1 : ℕ)⟩) := by
    simp only [readUint8, next?_eq_some hcode]
  obtain ⟨new, hnew, hfetch⟩ := newInstruction_opcode inst
  show (do
    let (opcode, s') ← readUint8 ⟨code, pc⟩
    (do
      let inst ← liftM (newInstruction opcode)
      fetchOperands inst : Fetch Instruction) s') = _
  rw [hread]
  show (do
    let (new, s') ← (liftM (newInstruction inst.opcode) : Fetch Instruction)
      ⟨code, (pc + 1 : ℕ)⟩
    fetchOperands new s') = _
  rw [hnew, ← hfetch]
  rfl

theorem supplies_operands {code operands : List Byte} {pc : ℕ} {opcode : Byte}
    (hbytes : opcode :: operands <+: code.drop pc) :
    Supplies (⟨code, (pc + 1 : ℕ)⟩ : BytecodeReader) operands
      ⟨code, (pc + (opcode :: operands).length : ℕ)⟩ := by
  have hlength : pc + (opcode :: operands).length =
      pc + 1 + operands.length := by
    simp only [List.length_cons]
    omega
  rw [hlength]
  exact supplies_code (prefix_drop_succ hbytes)

/-- Where the code holds an encoding of `inst`, `decode` gives `inst` back and
leaves the reader behind it. -/
theorem decode_encodes {code bytes : List Byte} {pc : ℕ} {inst : Instruction}
    (hencodes : Encodes pc inst bytes) (hbounded : inst.TableBounded)
    (hbytes : bytes <+: code.drop pc) :
    decode ⟨code, pc⟩ = .ok (inst, ⟨code, (pc + inst.sizeAt pc : ℕ)⟩) := by
  have hsize : bytes.length = inst.sizeAt pc := hencodes.length_eq
  obtain ⟨hrange, padding, hlength, rfl⟩ := hencodes
  have hoperands := supplies_operands hbytes
  rw [decode_opcode hbytes, ← hsize]
  exact fetchOperands_supplies hrange hbounded hlength hoperands

/-! ## Assembled code -/

theorem decode_assembles {pc : ℕ} {insts : List Instruction}
    {before code : List Byte} (hassembles : Assembles pc insts code)
    (hbounded : ∀ inst ∈ insts, inst.TableBounded)
    (hbefore : before.length = pc) {k : ℕ} (hk : k < insts.length) :
    decode ⟨before ++ code, addressFrom pc insts k⟩ =
      .ok (insts[k], ⟨before ++ code, addressFrom pc insts (k + 1)⟩) := by
  induction hassembles generalizing before k with
  | nil => simp at hk
  | @cons pc inst insts bytes code head tail ih =>
      cases k with
      | zero =>
          have hbytes : bytes <+: (before ++ (bytes ++ code)).drop pc := by
            rw [← hbefore, List.drop_left]
            exact List.prefix_append bytes code
          have hinst : inst.TableBounded := hbounded inst List.mem_cons_self
          have hdecode := decode_encodes head hinst hbytes
          cases insts <;> exact hdecode
      | succ k =>
          have hlength : (before ++ bytes).length = pc + inst.sizeAt pc := by
            rw [List.length_append, hbefore, head.length_eq]
          have htail := ih (fun i hi => hbounded i (List.mem_cons_of_mem _ hi))
            hlength (Nat.lt_of_succ_lt_succ hk)
          rw [List.append_assoc] at htail
          exact htail

/-- At the address of every instruction of an assembled method, `decode` gives
the instruction back with the address of the next one, provided that no switch
table has `2 ^ 31` entries. -/
theorem bytecode_roundtrip {insts : List Instruction} {code : List Byte}
    (hassembles : Assembles 0 insts code)
    (hbounded : ∀ inst ∈ insts, inst.TableBounded) {k : ℕ}
    (hk : k < insts.length) :
    decode ⟨code, address insts k⟩ =
      .ok (insts[k], ⟨code, address insts (k + 1)⟩) := by
  have hdecode : decode ⟨[] ++ code, addressFrom 0 insts k⟩ =
      .ok (insts[k], ⟨[] ++ code, addressFrom 0 insts (k + 1)⟩) :=
    decode_assembles hassembles hbounded rfl hk
  exact hdecode

/-- A `tableswitch` at address 9 with two bytes of padding, and a
`lookupswitch` at address 32 with three. -/
def switches : List Instruction :=
  [iload_1, wide (some (.iinc 300 (-2))), bipush (-1),
    tableSwitch 20 1 2 [8, -4], lookupSwitch 0 1 [7, -9], goto_w (-5)]

def switchesCode : List Byte :=
  [0x1b] ++ ([0xc4, 0x84, 0x01, 0x2c, 0xff, 0xfe] ++ ([0x10, 0xff] ++
    ([0xaa, 0x01, 0x02, 0, 0, 0, 20, 0, 0, 0, 1, 0, 0, 0, 2,
      0, 0, 0, 8, 0xff, 0xff, 0xff, 0xfc] ++
    ([0xab, 0, 0, 0, 0, 0, 0, 0, 0, 0, 0, 1, 0, 0, 0, 7,
      0xff, 0xff, 0xff, 0xf7] ++ ([0xc8, 0xff, 0xff, 0xff, 0xfb] ++ [])))))

theorem switches_assembles : Assembles 0 switches switchesCode :=
  .cons ⟨trivial, [0, 0, 0], rfl, rfl⟩
    (.cons ⟨⟨_, rfl, by decide, by decide, by decide⟩, [0, 0], rfl, rfl⟩
      (.cons ⟨trivial, [], rfl, rfl⟩
        (.cons ⟨⟨by decide, by decide⟩, [0x01, 0x02], rfl, rfl⟩
          (.cons ⟨⟨by decide, by decide⟩, [0, 0, 0], rfl, rfl⟩
            (.cons ⟨⟨by decide, by decide⟩, [0, 0, 0], rfl, rfl⟩ .nil)))))

theorem bytecode_roundtrip_switches :
    decode ⟨switchesCode, 9⟩ =
      .ok (tableSwitch 20 1 2 [8, -4], ⟨switchesCode, 32⟩) := by
  have hbounded : ∀ inst ∈ switches, inst.TableBounded := by
    simp [switches, TableBounded]
  have hk : 3 < switches.length := by decide
  exact bytecode_roundtrip switches_assembles hbounded hk

/-- `npairs * 2` that wraps around to a negative length makes `make` panic. -/
theorem decode_lookupSwitch_wraps {code bytes : List Byte} {pc : ℕ}
    {defaultOffset npairs : BitVec 32} {matchOffsets : List (BitVec 32)}
    (hencodes :
      Encodes pc (lookupSwitch defaultOffset npairs matchOffsets) bytes)
    (hwraps : (npairs * 2).toInt < 0) (hbytes : bytes <+: code.drop pc) :
    decode ⟨code, pc⟩ = .error .makeLength := by
  obtain ⟨_, padding, hlength, rfl⟩ := hencodes
  rw [decode_opcode hbytes]
  obtain ⟨u, hpadding, hrest⟩ :=
    supplies_append.mp (supplies_operands hbytes)
  obtain ⟨v, hdefault, hrest⟩ := supplies_append.mp hrest
  obtain ⟨w, hnpairs, _⟩ := supplies_append.mp hrest
  have hskip := skipPadding_supplies hlength hpadding
  have hdefault := reads_readInt32 defaultOffset u v hdefault
  have hnpairs := reads_readInt32 npairs v w hnpairs
  show (do
    let (_, s') ← skipPadding ⟨code, (pc + 1 : ℕ)⟩
    _) = _
  rw [hskip]
  show (do
    let (_, s') ← readInt32 u
    _) = _
  rw [hdefault]
  show (do
    let (_, s') ← readInt32 v
    _) = _
  rw [hnpairs]
  show (do
    let (_, s') ← readInt32s (npairs * 2) w
    _) = _
  unfold readInt32s
  rw [if_pos hwraps]
  rfl

/-- A `lookupswitch` with `2 ^ 30` pairs. -/
def wrappingSwitch : Instruction :=
  lookupSwitch 0 (2 ^ 30) (List.replicate (2 ^ 31) 0)

theorem not_bytecode_roundtrip :
    ¬ ∀ (insts : List Instruction) (code : List Byte),
      Assembles 0 insts code → ∀ (k : ℕ) (hk : k < insts.length),
        decode ⟨code, address insts k⟩ =
          .ok (insts[k], ⟨code, address insts (k + 1)⟩) := by
  intro hdecodes
  have hnpairs : (2 ^ 30 : BitVec 32).toInt = 2 ^ 30 := by decide
  have hwraps : ((2 ^ 30 : BitVec 32) * 2).toInt < 0 := by decide
  have hencodes : Encodes 0 wrappingSwitch (wrappingSwitch.encode [0, 0, 0]) := by
    have hcount : ((List.replicate (2 ^ 31) (0 : BitVec 32)).length : ℤ) =
        (2 ^ 30 : BitVec 32).toInt * 2 := by
      rw [List.length_replicate, hnpairs]
      norm_num
    exact ⟨⟨by decide, hcount⟩, [0, 0, 0], rfl, rfl⟩
  have hassembles : Assembles 0 [wrappingSwitch]
      (wrappingSwitch.encode [0, 0, 0] ++ []) := .cons hencodes .nil
  have hdecode := hdecodes _ _ hassembles 0 (by simp)
  rw [List.append_nil] at hdecode
  have hpanics := decode_lookupSwitch_wraps hencodes hwraps
    (List.prefix_refl (wrappingSwitch.encode [0, 0, 0]))
  have hboth := hpanics.symm.trans hdecode
  cases hboth

end Instruction

end Jvm

end ClpszDemos
