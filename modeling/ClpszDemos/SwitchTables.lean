import ClpszDemos.DecoderSoundness
import ClpszDemos.InterpreterSimulation
import ClpszDemos.SortedSearch

/-!
# Switches as they are fetched

The tables of `TABLE_SWITCH` and `LOOKUP_SWITCH` are followed back to the words
of the code they were read from, and `Execute` is compared with the selection
that those words describe, also where the counts wrap around.
-/

namespace ClpszDemos

namespace Jvm

open BigEndian BytecodeReader Instruction

/-! ## Words of the code -/

/-- Where the words of a switch begin whose operands are read from `pc`. -/
def switchWords (pc : ℤ) : ℤ := pc + (-pc) % 4

theorem wordAt_flatMap {code : List Byte} {position : ℕ}
    {words : List (BitVec 32)} (hwords : words.flatMap bytes32 <+: code.drop position)
    {i : ℕ} {word : BitVec 32} (hword : words[i]? = some word) :
    wordAt code ((position + 4 * i : ℕ) : ℤ) = some word := by
  induction words generalizing position i with
  | nil => simp at hword
  | cons first words ih =>
      rw [List.flatMap_cons] at hwords
      cases i with
      | zero =>
          rw [List.getElem?_cons_zero] at hword
          rw [← Option.some.inj hword]
          exact wordAt_of_bytes hwords
      | succ i =>
          rw [List.getElem?_cons_succ] at hword
          have hrest := ih (prefix_drop_append hwords) hword
          rw [length_bytes32] at hrest
          have hposition : position + 4 * (i + 1) = position + 4 + 4 * i := by
            omega
          rw [hposition]
          exact hrest

/-- A reader that skips the padding hands out the words behind it. -/
theorem wordAt_of_supplies {code padding : List Byte} {pc : ℤ}
    {words : List (BitVec 32)} {t : BytecodeReader}
    (hlength : (padding.length : ℤ) = (-pc) % 4)
    (hsupplies : Supplies (⟨code, pc⟩ : BytecodeReader)
      (padding ++ words.flatMap bytes32) t)
    {i : ℕ} {word : BitVec 32} (hword : words[i]? = some word) :
    wordAt code (switchWords pc + 4 * i) = some word := by
  obtain ⟨byte, bytes, hbytes⟩ : ∃ byte bytes,
      padding ++ words.flatMap bytes32 = byte :: bytes := by
    cases words with
    | nil => simp at hword
    | cons first words =>
        cases padding with
        | nil => exact ⟨_, _, rfl⟩
        | cons byte padding => exact ⟨_, _, rfl⟩
  have hposition := hsupplies
  rw [hbytes] at hposition
  obtain ⟨n, hn⟩ := position_of_supplies hposition
  obtain rfl : pc = n := congrArg BytecodeReader.pc hn
  have hwords := prefix_drop_append (supplies_code_iff.mp hsupplies).1
  have hfound := wordAt_flatMap hwords hword
  have hstart : switchWords n + 4 * i =
      ((n + padding.length + 4 * i : ℕ) : ℤ) := by
    unfold switchWords
    push_cast
    omega
  rw [hstart]
  exact hfound

/-- What is known of a table that was fetched from `pc`. -/
structure TableFetched (code : List Byte) (pc : ℤ)
    (defaultOffset low high : BitVec 32) (jumpOffsets : List (BitVec 32)) :
    Prop where
  count : (high - low + 1).toInt = jumpOffsets.length
  default_at : wordAt code (switchWords pc) = some defaultOffset
  low_at : wordAt code (switchWords pc + 4) = some low
  high_at : wordAt code (switchWords pc + 8) = some high
  offset_at : ∀ (i : ℕ) (offset : BitVec 32), jumpOffsets[i]? = some offset →
    wordAt code (switchWords pc + 12 + 4 * i) = some offset

theorem tableSwitchFetch_words {code : List Byte} {pc : ℤ} {inst : Instruction}
    {t : BytecodeReader}
    (hfetch : Instruction.tableSwitchFetch ⟨code, pc⟩ = .ok (inst, t)) :
    ∃ defaultOffset low high jumpOffsets,
      inst = .tableSwitch defaultOffset low high jumpOffsets ∧
      TableFetched code pc defaultOffset low high jumpOffsets := by
  obtain ⟨padding, defaultOffset, low, high, jumpOffsets, hlength, rfl, hcount,
    hsupplies⟩ := Instruction.tableSwitchFetch_eq_ok hfetch
  have hwords {i : ℕ} {word : BitVec 32}
      (hword : (defaultOffset :: low :: high :: jumpOffsets)[i]? = some word) :
      wordAt code (switchWords pc + 4 * i) = some word :=
    wordAt_of_supplies hlength hsupplies hword
  refine ⟨defaultOffset, low, high, jumpOffsets, rfl, hcount, ?_, ?_, ?_, ?_⟩
  · simpa using hwords (i := 0) rfl
  · simpa using hwords (i := 1) rfl
  · simpa using hwords (i := 2) rfl
  · intro i offset hoffset
    have hword := hwords (i := i + 3) hoffset
    have hposition : switchWords pc + 12 + 4 * i =
        switchWords pc + 4 * (i + 3 : ℕ) := by
      push_cast
      omega
    rw [hposition]
    exact hword

/-! ## Execution -/

/-- `Execute` of a switch, after its key was popped. -/
def jumpBy (frame after : Frame) (offset : BitVec 32) : Unit × Frame :=
  ((), { after with nextPc := frame.thread.pc + offset.toInt })

theorem jumpBy_injective (frame after : Frame) :
    Function.Injective (jumpBy frame after) := by
  intro offset offset' heq
  have hnext : (jumpBy frame after offset).2.nextPc =
      (jumpBy frame after offset').2.nextPc := by rw [heq]
  unfold jumpBy at hnext
  apply BitVec.eq_of_toInt_eq
  simpa using hnext

theorem popInt_thread {frame after : Frame} {key : BitVec 32}
    (hkey : onStack OperandStack.popInt frame = .ok (key, after)) :
    after.thread = frame.thread := by
  unfold onStack zoom at hkey
  cases hpop : frame.operandStack.popInt with
  | ok result =>
      rw [hpop] at hkey
      cases hkey
      rfl
  | error panic =>
      rw [hpop] at hkey
      cases hkey

/-- Both switches pop a key, select an offset and branch. -/
theorem popped_branch (select : BitVec 32 → Except GoPanic (BitVec 32))
    {frame after : Frame} {key : BitVec 32}
    (hkey : onStack OperandStack.popInt frame = .ok (key, after)) :
    (do
      let key ← onStack OperandStack.popInt
      let offset ← liftM (select key)
      branch offset.toInt : Exec) frame =
    (select key).map (jumpBy frame after) := by
  have hthread := popInt_thread hkey
  show (onStack OperandStack.popInt frame >>= fun p => _) = _
  rw [hkey]
  show (liftM (select key) >>=
    fun offset : BitVec 32 => branch offset.toInt) after = _
  unfold jumpBy
  rw [← hthread]
  cases select key with
  | ok offset => rfl
  | error panic => rfl

/-! ## `TABLE_SWITCH` -/

/-- The offset for a key in a table of the code, as the words of the code give
it. -/
def TableOffset (code : List Byte) (base : ℤ) (key offset : BitVec 32) :
    Prop :=
  ∃ low high, wordAt code (base + 4) = some low ∧
    wordAt code (base + 8) = some high ∧
    wordAt code (if low.toInt ≤ key.toInt ∧ key.toInt ≤ high.toInt
      then base + 12 + 4 * (key.toInt - low.toInt) else base) = some offset

/-- A table for every `int32`: `high - low + 1` is 0 then. -/
def FullTable (code : List Byte) (base : ℤ) : Prop :=
  wordAt code (base + 4) = some (BitVec.intMin 32) ∧
    wordAt code (base + 8) = some (BitVec.intMax 32)

section Table

variable {code : List Byte} {pc : ℤ} {defaultOffset low high key : BitVec 32}
  {jumpOffsets : List (BitVec 32)}

theorem tableSwitchOffset_inside (hlow : low.toInt ≤ key.toInt)
    (hhigh : key.toInt ≤ high.toInt) :
    tableSwitchOffset defaultOffset low high jumpOffsets key =
      offsetAt jumpOffsets (key - low).toInt := by
  unfold tableSwitchOffset
  rw [if_pos]
  exact ⟨by simpa [BitVec.sle] using hlow, by simpa [BitVec.sle] using hhigh⟩

theorem tableSwitchOffset_outside
    (houtside : ¬ (low.toInt ≤ key.toInt ∧ key.toInt ≤ high.toInt)) :
    tableSwitchOffset defaultOffset low high jumpOffsets key =
      .ok defaultOffset := by
  unfold tableSwitchOffset
  rw [if_neg]
  simpa [BitVec.sle] using houtside

theorem offsetAt_of_lt {offsets : List (BitVec 32)} {i : ℕ}
    (hlt : i < offsets.length) :
    ∃ offset, offsets[i]? = some offset ∧ offsetAt offsets i = .ok offset := by
  have hget := List.getElem?_eq_getElem hlt
  refine ⟨offsets[i], hget, ?_⟩
  have hnonneg : ¬ (i : ℤ) < 0 := by omega
  unfold offsetAt
  rw [if_neg hnonneg, Int.toNat_natCast, hget]

namespace TableFetched

variable (htable : TableFetched code pc defaultOffset low high jumpOffsets)

include htable

theorem full_iff : FullTable code (switchWords pc) ↔
    high.toInt - low.toInt + 1 = 2 ^ 32 := by
  have hlow := offsetInRange_toInt low
  have hhigh := offsetInRange_toInt high
  unfold OffsetInRange at hlow hhigh
  have hmin : (BitVec.intMin 32).toInt = -2 ^ 31 := by decide
  have hmax : (BitVec.intMax 32).toInt = 2 ^ 31 - 1 := by decide
  unfold FullTable
  rw [htable.low_at, htable.high_at]
  constructor
  · rintro ⟨hl, hh⟩
    rw [Option.some.inj hl, Option.some.inj hh, hmin, hmax]
    norm_num
  · intro hfull
    constructor
    · congr 1
      apply BitVec.eq_of_toInt_eq
      omega
    · congr 1
      apply BitVec.eq_of_toInt_eq
      omega

/-- A key between the bounds, in a table that is not full, has an entry. -/
theorem inside (hlow : low.toInt ≤ key.toInt) (hhigh : key.toInt ≤ high.toInt)
    (hfull : high.toInt - low.toInt + 1 ≠ 2 ^ 32) :
    ∃ i : ℕ, i < jumpOffsets.length ∧ key.toInt - low.toInt = i ∧
      (key - low).toInt = i := by
  have hlowBounds := offsetInRange_toInt low
  have hhighBounds := offsetInRange_toInt high
  unfold OffsetInRange at hlowBounds hhighBounds
  have hcount := htable.count
  rw [jumpOffsetsCount_toInt] at hcount
  have hsmall : high.toInt - low.toInt + 1 < 2 ^ 31 := by
    by_contra hlarge
    have hwraps := bmod_of_large (not_lt.mp hlarge) (by omega)
    omega
  have hexact : Int.bmod (high.toInt - low.toInt + 1) (2 ^ 32) =
      high.toInt - low.toInt + 1 := by
    apply Int.bmod_eq_of_le
    · omega
    · omega
  obtain ⟨i, hi⟩ := Int.eq_ofNat_of_zero_le
    (show 0 ≤ key.toInt - low.toInt by omega)
  refine ⟨i, by omega, hi, ?_⟩
  rw [BitVec.toInt_sub, hi]
  apply Int.bmod_eq_of_le
  · omega
  · omega

/-- The selection of `Execute` and that of the words of the code. -/
theorem selects_iff :
    (∃ offset, TableOffset code (switchWords pc) key offset ∧
      tableSwitchOffset defaultOffset low high jumpOffsets key = .ok offset) ↔
    ¬ FullTable code (switchWords pc) := by
  rw [htable.full_iff]
  by_cases hinside : low.toInt ≤ key.toInt ∧ key.toInt ≤ high.toInt
  · rw [tableSwitchOffset_inside hinside.1 hinside.2]
    constructor
    · rintro ⟨offset, _, hoffset⟩ hfull
      have hcount := htable.count
      rw [jumpOffsetsCount_toInt, hfull] at hcount
      have hwrapped : Int.bmod (2 ^ 32) (2 ^ 32) = 0 := by decide
      have hempty : jumpOffsets = [] := by
        apply List.length_eq_zero_iff.mp
        omega
      rw [hempty] at hoffset
      unfold offsetAt at hoffset
      split at hoffset
      · cases hoffset
      · cases hoffset
    · intro hfull
      obtain ⟨i, hlt, hposition, hindex⟩ :=
        htable.inside hinside.1 hinside.2 hfull
      obtain ⟨offset, hget, hoffset⟩ := offsetAt_of_lt hlt
      refine ⟨offset, ⟨low, high, htable.low_at, htable.high_at, ?_⟩, ?_⟩
      · rw [if_pos hinside, hposition]
        exact htable.offset_at i offset hget
      · rw [hindex]
        exact hoffset
  · rw [tableSwitchOffset_outside hinside]
    have hlowBounds := offsetInRange_toInt low
    have hhighBounds := offsetInRange_toInt high
    have hkeyBounds := offsetInRange_toInt key
    unfold OffsetInRange at hlowBounds hhighBounds hkeyBounds
    constructor
    · rintro _ hfull
      omega
    · intro _
      refine ⟨defaultOffset, ⟨low, high, htable.low_at, htable.high_at, ?_⟩,
        rfl⟩
      rw [if_neg hinside]
      exact htable.default_at

end TableFetched

/-- `Execute` of a table that was fetched selects what the code says for the
key, except in a table for every `int32`. -/
theorem tableSwitch_selects_iff (unit : FloatUnit) {inst : Instruction}
    {t : BytecodeReader} {frame after : Frame}
    (hfetch : tableSwitchFetch ⟨code, pc⟩ = .ok (inst, t))
    (hkey : onStack OperandStack.popInt frame = .ok (key, after)) :
    (∃ offset, TableOffset code (switchWords pc) key offset ∧
      inst.execute unit frame = .ok (jumpBy frame after offset)) ↔
    ¬ FullTable code (switchWords pc) := by
  obtain ⟨defaultOffset, low, high, jumpOffsets, rfl, htable⟩ :=
    tableSwitchFetch_words hfetch
  have hrun : (Instruction.tableSwitch defaultOffset low high
      jumpOffsets).execute unit frame =
      (tableSwitchOffset defaultOffset low high jumpOffsets key).map
        (jumpBy frame after) := popped_branch _ hkey
  rw [hrun, ← @TableFetched.selects_iff _ _ _ _ _ key _ htable]
  constructor
  · rintro ⟨offset, hoffset, hjump⟩
    cases hselect : tableSwitchOffset defaultOffset low high jumpOffsets key with
    | error panic =>
        rw [hselect] at hjump
        cases hjump
    | ok selected =>
        rw [hselect] at hjump
        have hsame := jumpBy_injective frame after (Except.ok.inj hjump)
        exact ⟨offset, hoffset, by rw [hsame]⟩
  · rintro ⟨offset, hoffset, hselect⟩
    rw [hselect]
    exact ⟨offset, hoffset, rfl⟩

end Table

/-- A frame with one `int` on its operand stack. -/
def keyFrame (key : BitVec 32) : Frame :=
  { newFrame ⟨0⟩ 0 1 with
    operandStack := ⟨1, [{ (default : Slot) with num := key }], Nat.le_refl 1⟩ }

theorem popInt_keyFrame (key : BitVec 32) :
    ∃ after, onStack OperandStack.popInt (keyFrame key) = .ok (key, after) :=
  ⟨_, rfl⟩

/-- The words of a table for 1 and 2. -/
def smallTableCode : List Byte :=
  [0, 0, 0, 20, 0, 0, 0, 1, 0, 0, 0, 2, 0, 0, 0, 8, 0xff, 0xff, 0xff, 0xfc]

theorem tableSwitch_selects_second :
    ∃ after offset, TableOffset smallTableCode (switchWords 0) 2 offset ∧
      (Instruction.tableSwitch 20 1 2 [8, -4]).execute integerUnit
        (keyFrame 2) = .ok (jumpBy (keyFrame 2) after offset) := by
  obtain ⟨after, hkey⟩ := popInt_keyFrame 2
  have hfetch : tableSwitchFetch ⟨smallTableCode, 0⟩ =
      .ok (.tableSwitch 20 1 2 [8, -4], ⟨smallTableCode, 20⟩) := by
    decide +kernel
  have hlow : wordAt smallTableCode (switchWords 0 + 4) = some 1 := rfl
  have hsmall : ¬ FullTable smallTableCode (switchWords 0) := by
    rintro ⟨hmin, _⟩
    rw [hlow] at hmin
    exact absurd hmin (by decide)
  have hselects := (tableSwitch_selects_iff integerUnit hfetch hkey).mpr hsmall
  exact ⟨after, hselects⟩

/-- The words of a table for every `int32`: its number of offsets is 0. -/
def fullTableCode : List Byte :=
  [0, 0, 0, 0, 0x80, 0, 0, 0, 0x7f, 0xff, 0xff, 0xff]

/-- Every key is out of the range of the table of `fullTableCode`. -/
theorem not_tableSwitch_selects :
    ¬ ∀ (unit : FloatUnit) (code : List Byte) (pc : ℤ) (inst : Instruction)
      (t : BytecodeReader) (frame after : Frame) (key : BitVec 32),
      tableSwitchFetch ⟨code, pc⟩ = .ok (inst, t) →
      onStack OperandStack.popInt frame = .ok (key, after) →
      ∃ offset, TableOffset code (switchWords pc) key offset ∧
        inst.execute unit frame = .ok (jumpBy frame after offset) := by
  intro hselects
  have hfetch : tableSwitchFetch ⟨fullTableCode, 0⟩ =
      .ok (.tableSwitch 0 (BitVec.intMin 32) (BitVec.intMax 32) [],
        ⟨fullTableCode, 12⟩) := rfl
  obtain ⟨after, hkey⟩ := popInt_keyFrame 0
  obtain ⟨offset, _, hjump⟩ :=
    hselects integerUnit _ _ _ _ _ _ _ hfetch hkey
  have hpanics : (Instruction.tableSwitch 0 (BitVec.intMin 32)
      (BitVec.intMax 32) []).execute integerUnit (keyFrame 0) =
      .error .indexOutOfRange := rfl
  rw [hpanics] at hjump
  cases hjump

/-! ## `LOOKUP_SWITCH` -/

/-- The `for` loop of `LOOKUP_SWITCH.Execute` from `i` on, round by round; `i`
and its bound are of type `int32`. -/
inductive LookupFor (defaultOffset npairs key : BitVec 32)
    (matchOffsets : List (BitVec 32)) :
    BitVec 32 → Except GoPanic (BitVec 32) → Prop
  | done {i : BitVec 32} :
      ¬ i.slt (npairs * 2) →
      LookupFor defaultOffset npairs key matchOffsets i (.ok defaultOffset)
  | panics {i : BitVec 32} {panic : GoPanic} :
      i.slt (npairs * 2) → offsetAt matchOffsets i.toInt = .error panic →
      LookupFor defaultOffset npairs key matchOffsets i (.error panic)
  | found {i : BitVec 32} :
      i.slt (npairs * 2) → offsetAt matchOffsets i.toInt = .ok key →
      LookupFor defaultOffset npairs key matchOffsets i
        (offsetAt matchOffsets (i + 1).toInt)
  | next {i found : BitVec 32} {result : Except GoPanic (BitVec 32)} :
      i.slt (npairs * 2) → offsetAt matchOffsets i.toInt = .ok found →
      found ≠ key →
      LookupFor defaultOffset npairs key matchOffsets (i + 2) result →
      LookupFor defaultOffset npairs key matchOffsets i result

/-- The pairs of a match and its offset. -/
def matchPairs : List (BitVec 32) → List (BitVec 32 × BitVec 32)
  | found :: offset :: rest => (found, offset) :: matchPairs rest
  | _ => []

/-- The pairs with the matches as the numbers they stand for. -/
def signedPairs (matchOffsets : List (BitVec 32)) : List (ℤ × BitVec 32) :=
  (matchPairs matchOffsets).map fun pair => (pair.1.toInt, pair.2)

/-- What is known of pairs that were fetched from `pc`. -/
structure LookupFetched (code : List Byte) (pc : ℤ)
    (defaultOffset npairs : BitVec 32) (matchOffsets : List (BitVec 32)) :
    Prop where
  count : (npairs * 2).toInt = matchOffsets.length
  default_at : wordAt code (switchWords pc) = some defaultOffset
  npairs_at : wordAt code (switchWords pc + 4) = some npairs
  offset_at : ∀ (i : ℕ) (word : BitVec 32), matchOffsets[i]? = some word →
    wordAt code (switchWords pc + 8 + 4 * i) = some word

section Lookup

variable {code : List Byte} {pc : ℤ} {defaultOffset npairs key : BitVec 32}
  {matchOffsets : List (BitVec 32)}

theorem lookupSwitchFetch_words {inst : Instruction} {t : BytecodeReader}
    (hfetch : lookupSwitchFetch ⟨code, pc⟩ = .ok (inst, t)) :
    ∃ defaultOffset npairs matchOffsets,
      inst = .lookupSwitch defaultOffset npairs matchOffsets ∧
      LookupFetched code pc defaultOffset npairs matchOffsets := by
  obtain ⟨padding, defaultOffset, npairs, matchOffsets, hlength, rfl, hcount,
    hsupplies⟩ := lookupSwitchFetch_eq_ok hfetch
  have hwords {i : ℕ} {word : BitVec 32}
      (hword : (defaultOffset :: npairs :: matchOffsets)[i]? = some word) :
      wordAt code (switchWords pc + 4 * i) = some word :=
    wordAt_of_supplies hlength hsupplies hword
  refine ⟨defaultOffset, npairs, matchOffsets, rfl, hcount, ?_, ?_, ?_⟩
  · simpa using hwords (i := 0) rfl
  · simpa using hwords (i := 1) rfl
  · intro i word hword
    have hfound := hwords (i := i + 2) hword
    have hposition : switchWords pc + 8 + 4 * i =
        switchWords pc + 4 * (i + 2 : ℕ) := by
      push_cast
      omega
    rw [hposition]
    exact hfound

/-- A doubled `int32` is even, also when it wraps around. -/
theorem LookupFetched.even
    (hlookup : LookupFetched code pc defaultOffset npairs matchOffsets) :
    ∃ rounds, matchOffsets.length = 2 * rounds := by
  have hcount := hlookup.count
  have htwo : (2 : BitVec 32).toNat = 2 := rfl
  rw [BitVec.toInt_eq_toNat_cond, BitVec.toNat_mul, htwo] at hcount
  refine ⟨matchOffsets.length / 2, ?_⟩
  split at hcount
  · omega
  · omega

/-- All words behind the head are in pairs. -/
theorem flatMap_matchPairs {rounds : ℕ}
    (hlength : matchOffsets.length = 2 * rounds) :
    (matchPairs matchOffsets).flatMap (fun pair => [pair.1, pair.2]) =
      matchOffsets := by
  fun_induction matchPairs matchOffsets generalizing rounds with
  | case1 found offset rest ih =>
      simp only [List.length_cons] at hlength
      have hrest := @ih (rounds - 1) (by omega)
      rw [List.flatMap_cons, hrest]
      rfl
  | case2 words hwords =>
      cases words with
      | nil => rfl
      | cons first rest =>
          cases rest with
          | nil =>
              simp only [List.length_singleton] at hlength
              omega
          | cons second rest => exact absurd rfl (hwords first second rest)

theorem lookupOffset_eq (defaultOffset key : BitVec 32)
    (matchOffsets : List (BitVec 32)) :
    Reference.lookupOffset defaultOffset key matchOffsets =
      ((matchPairs matchOffsets).lookup key).getD defaultOffset := by
  fun_induction matchPairs matchOffsets with
  | case1 found offset rest ih =>
      unfold Reference.lookupOffset
      by_cases hkey : found = key
      · rw [if_pos hkey, ← hkey, List.lookup_cons_self]
        rfl
      · have hne : (key == found) = false :=
          beq_eq_false_iff_ne.mpr (Ne.symm hkey)
        rw [if_neg hkey, List.lookup_cons, hne]
        exact ih
  | case2 words hwords =>
      unfold Reference.lookupOffset
      split
      · exact absurd rfl (hwords _ _ _)
      · rfl

theorem lookup_signedPairs (matchOffsets : List (BitVec 32))
    (key : BitVec 32) :
    (signedPairs matchOffsets).lookup key.toInt =
      (matchPairs matchOffsets).lookup key := by
  unfold signedPairs
  induction matchPairs matchOffsets with
  | nil => rfl
  | cons pair pairs ih =>
      have hbeq : (key.toInt == pair.1.toInt) = (key == pair.1) := by
        rw [Bool.eq_iff_iff, beq_iff_eq, beq_iff_eq, BitVec.toInt_inj]
      rw [List.map_cons, List.lookup_cons, List.lookup_cons, hbeq, ih]

/-! ### The loop -/

theorem slt_iff {i bound : BitVec 32} :
    i.slt bound = true ↔ i.toInt < bound.toInt := by
  simp [BitVec.slt]

/-- `i += k` does not wrap around below the bound. -/
theorem toInt_add_of_le {i k : BitVec 32} {n : ℕ} (hsum : i.toInt + k.toInt = n)
    (hle : n < 2 ^ 31) : (i + k).toInt = n := by
  rw [BitVec.toInt_add, hsum]
  apply Int.bmod_eq_of_le
  · omega
  · omega

/-- The loop ends with the default offset behind the last pair. -/
theorem lookupFor_exit {i : BitVec 32} (hexit : ¬ i.slt (npairs * 2))
    (result : Except GoPanic (BitVec 32)) :
    LookupFor defaultOffset npairs key matchOffsets i result ↔
      result = .ok defaultOffset := by
  constructor
  · intro hloop
    cases hloop with
    | done => rfl
    | panics hlt => exact absurd hlt hexit
    | found hlt => exact absurd hlt hexit
    | next hlt => exact absurd hlt hexit
  · rintro rfl
    exact .done hexit

/-- One round of the loop, at a match that is there. -/
theorem lookupFor_round {i found : BitVec 32} (hlt : i.slt (npairs * 2))
    (hfound : offsetAt matchOffsets i.toInt = .ok found)
    (result : Except GoPanic (BitVec 32)) :
    LookupFor defaultOffset npairs key matchOffsets i result ↔
      if found = key then result = offsetAt matchOffsets (i + 1).toInt
      else LookupFor defaultOffset npairs key matchOffsets (i + 2) result := by
  constructor
  · intro hloop
    cases hloop with
    | done hexit => exact absurd hlt hexit
    | panics _ hpanic =>
        rw [hfound] at hpanic
        cases hpanic
    | found _ hkey =>
        rw [hfound] at hkey
        rw [if_pos (Except.ok.inj hkey)]
    | next _ hother hne hrest =>
        rw [hfound] at hother
        rw [← Except.ok.inj hother] at hne
        rw [if_neg hne]
        exact hrest
  · intro hround
    by_cases hkey : found = key
    · rw [if_pos hkey] at hround
      rw [hkey] at hfound
      rw [hround]
      exact .found hlt hfound
    · rw [if_neg hkey] at hround
      exact .next hlt hfound hkey hround

/-- The loop from `i` on; the words before `i` were looked at already. -/
theorem lookupFor_iff {rounds : ℕ} {before pairs : List (BitVec 32)}
    {i : BitVec 32} (hindex : i.toInt = before.length)
    (hcount : (npairs * 2).toInt = (before ++ pairs).length)
    (hlength : pairs.length = 2 * rounds)
    (result : Except GoPanic (BitVec 32)) :
    LookupFor defaultOffset npairs key (before ++ pairs) i result ↔
      result = .ok (Reference.lookupOffset defaultOffset key pairs) := by
  induction rounds generalizing before pairs i with
  | zero =>
      have hnil : pairs = [] := List.length_eq_zero_iff.mp hlength
      subst hnil
      have hexit : ¬ i.slt (npairs * 2) := by
        rw [slt_iff, hindex, hcount]
        simp
      exact lookupFor_exit hexit result
  | succ rounds ih =>
      obtain ⟨found, offset, rest, rfl⟩ :
          ∃ found offset rest, pairs = found :: offset :: rest := by
        cases pairs with
        | nil => simp at hlength
        | cons found pairs =>
            cases pairs with
            | nil =>
                simp only [List.length_singleton] at hlength
                omega
            | cons offset rest => exact ⟨found, offset, rest, rfl⟩
      have hbound := (offsetInRange_toInt (npairs * 2)).2
      rw [hcount] at hbound
      simp only [List.length_append, List.length_cons] at hbound hlength
      have hlt : i.slt (npairs * 2) := by
        rw [slt_iff, hindex, hcount]
        simp only [List.length_append, List.length_cons]
        omega
      have hfound : offsetAt (before ++ found :: offset :: rest) i.toInt =
          .ok found := by
        rw [hindex]
        exact offsetAt_append
      have hone : (i + 1).toInt = (before.length + 1 : ℕ) := by
        apply toInt_add_of_le
        · rw [hindex]
          rfl
        · omega
      have htwo : (i + 2).toInt = (before ++ [found, offset]).length := by
        rw [List.length_append]
        apply toInt_add_of_le
        · rw [hindex]
          rfl
        · simp only [List.length_cons, List.length_nil]
          omega
      have happend : before ++ found :: offset :: rest =
          before ++ [found, offset] ++ rest := by simp
      have hcount' : (npairs * 2).toInt =
          (before ++ [found, offset] ++ rest).length := by
        rw [← happend]
        exact hcount
      rw [lookupFor_round hlt hfound, hone]
      unfold Reference.lookupOffset
      by_cases hkey : found = key
      · have hoffset : offsetAt (before ++ found :: offset :: rest)
            ((before.length + 1 : ℕ) : ℤ) = .ok offset := offsetAt_append_succ
        rw [if_pos hkey, if_pos hkey, hoffset]
      · rw [if_neg hkey, if_neg hkey, happend]
        exact ih htwo hcount' (by omega)

/-- `Execute` of pairs that were fetched ends, for every key, with a branch by
the offset of the first match, or by the default.  In sorted pairs, this is
what a binary search finds. -/
theorem lookupSwitch_selects {inst : Instruction} {t : BytecodeReader}
    (hfetch : lookupSwitchFetch ⟨code, pc⟩ = .ok (inst, t)) :
    ∃ defaultOffset npairs matchOffsets,
      inst = .lookupSwitch defaultOffset npairs matchOffsets ∧
      LookupFetched code pc defaultOffset npairs matchOffsets ∧
      (matchPairs matchOffsets).flatMap (fun pair => [pair.1, pair.2]) =
        matchOffsets ∧
      ∀ (unit : FloatUnit) (frame after : Frame) (key offset : BitVec 32),
        onStack OperandStack.popInt frame = .ok (key, after) →
        offset = ((matchPairs matchOffsets).lookup key).getD defaultOffset →
        (∀ result, LookupFor defaultOffset npairs key matchOffsets 0 result ↔
          result = .ok offset) ∧
        inst.execute unit frame = .ok (jumpBy frame after offset) ∧
        (SortedByKey (signedPairs matchOffsets) →
          offset = (binarySearch (signedPairs matchOffsets) key.toInt 0
            (signedPairs matchOffsets).length).getD defaultOffset) := by
  obtain ⟨defaultOffset, npairs, matchOffsets, rfl, hlookup⟩ :=
    lookupSwitchFetch_words hfetch
  obtain ⟨rounds, hlength⟩ := hlookup.even
  refine ⟨defaultOffset, npairs, matchOffsets, rfl, hlookup,
    flatMap_matchPairs hlength, ?_⟩
  rintro unit frame after key offset hkey rfl
  have hrounds : matchOffsets.length =
      2 * (((npairs * 2).toInt + 1) / 2).toNat := by
    rw [hlookup.count, hlength]
    omega
  have hselect : lookupSwitchLoop defaultOffset key matchOffsets 0
      (((npairs * 2).toInt + 1) / 2).toNat =
        .ok (Reference.lookupOffset defaultOffset key matchOffsets) :=
    lookupSwitchLoop_eq defaultOffset key [] matchOffsets _ hrounds
  rw [← lookupOffset_eq]
  refine ⟨?_, ?_, ?_⟩
  · intro result
    have hzero : (0 : BitVec 32).toInt = ([] : List (BitVec 32)).length := rfl
    exact lookupFor_iff hzero hlookup.count hlength result
  · have hrun : (Instruction.lookupSwitch defaultOffset npairs
        matchOffsets).execute unit frame =
        (lookupSwitchLoop defaultOffset key matchOffsets 0
          (((npairs * 2).toInt + 1) / 2).toNat).map (jumpBy frame after) :=
      popped_branch _ hkey
    rw [hrun, hselect]
    rfl
  · intro hsorted
    rw [binarySearch_eq_lookup hsorted, lookup_signedPairs, lookupOffset_eq]

end Lookup

/-- The words of one pair; the number of pairs is `1 - 2 ^ 31`, which is 2 when
it is doubled. -/
def wrappedPairCode : List Byte :=
  [0, 0, 0, 0, 0x80, 0, 0, 1, 0, 0, 0, 7, 0xff, 0xff, 0xff, 0xf7]

theorem lookupSwitch_selects_wrapped :
    ∃ after, (Instruction.lookupSwitch 0 0x80000001 [7, -9]).execute integerUnit
      (keyFrame 7) = .ok (jumpBy (keyFrame 7) after (-9)) := by
  obtain ⟨after, hkey⟩ := popInt_keyFrame 7
  have hfetch : lookupSwitchFetch ⟨wrappedPairCode, 0⟩ =
      .ok (.lookupSwitch 0 0x80000001 [7, -9], ⟨wrappedPairCode, 16⟩) := by
    decide +kernel
  obtain ⟨_, _, _, hinst, _, _, hselects⟩ := lookupSwitch_selects hfetch
  cases hinst
  have hselected := hselects integerUnit (keyFrame 7) after 7 (-9) hkey rfl
  exact ⟨after, hselected.2.1⟩

end Jvm

end ClpszDemos
