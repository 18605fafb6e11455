import ClpszDemos.InterpreterSimulation

/-!
# Integer division, remainder and shifts

What `Execute` of `idiv`, `irem`, `ishl`, `ishr` and `iushr` and of their long
forms leaves on the operand stack, in exact integers.  A `long` is given by its
two slots, of which the upper one is the signed half.
-/

namespace ClpszDemos

namespace Jvm

open BigEndian OperandStack

/-! ## Division -/

/-- Division towards zero of numbers of `w` bits, whose quotient is outside the
word in one case. -/
structure DividesTo (w : ℕ) (v1 v2 q r : ℤ) : Prop where
  overflow : v1 = -2 ^ (w - 1) → v2 = -1 → q = -2 ^ (w - 1) ∧ r = 0
  exact_of_not : ¬(v1 = -2 ^ (w - 1) ∧ v2 = -1) →
    v1 = q * v2 + r ∧ |r| < |v2| ∧ (r = 0 ∨ r.sign = v1.sign)

theorem abs_tmod_lt (v1 : ℤ) {v2 : ℤ} (hv2 : v2 ≠ 0) :
    |v1.tmod v2| < |v2| := by
  have hpos : 0 < v2.natAbs := Int.natAbs_pos.mpr hv2
  rw [Int.abs_eq_natAbs, Int.abs_eq_natAbs, Int.natAbs_tmod]
  exact_mod_cast Nat.mod_lt v1.natAbs hpos

theorem sign_tmod_cases (v1 v2 : ℤ) :
    v1.tmod v2 = 0 ∨ (v1.tmod v2).sign = v1.sign := by
  by_cases hdvd : v2 ∣ v1
  · left
    exact Int.tmod_eq_zero_of_dvd hdvd
  · right
    rw [Int.sign_tmod, if_neg hdvd]

section Words

variable {w : ℕ}

theorem toInt_eq_neg_one_iff (hw : 0 < w) {val : BitVec w} :
    val.toInt = -1 ↔ val = -1#w := by
  have hneg : (-1#w).toInt = -1 := by
    rw [BitVec.neg_one_eq_allOnes, BitVec.toInt_allOnes, if_pos hw]
  rw [← BitVec.toInt_inj, hneg]

theorem toInt_eq_intMin_iff (hw : 0 < w) {val : BitVec w} :
    val.toInt = -2 ^ (w - 1) ↔ val = BitVec.intMin w := by
  rw [← BitVec.toInt_inj, BitVec.toInt_intMin_of_pos hw]

theorem dividesTo_sdiv (hw : 0 < w) (v1 : BitVec w) {v2 : BitVec w}
    (hv2 : v2 ≠ 0) :
    DividesTo w v1.toInt v2.toInt (v1.sdiv v2).toInt (v1.srem v2).toInt := by
  have hnonzero : v2.toInt ≠ 0 := fun hzero => hv2 (toInt_eq_zero_iff.mp hzero)
  constructor
  · intro h1 h2
    constructor
    · rw [(toInt_eq_intMin_iff hw).mp h1, (toInt_eq_neg_one_iff hw).mp h2,
        BitVec.intMin_sdiv_neg_one, BitVec.toInt_intMin_of_pos hw]
    · rw [BitVec.toInt_srem, h2]
      exact Int.tmod_eq_zero_of_dvd (Int.neg_dvd.mpr (one_dvd _))
  · intro hnot
    have hquotient : (v1.sdiv v2).toInt = v1.toInt.tdiv v2.toInt := by
      apply BitVec.toInt_sdiv_of_ne_or_ne
      by_cases h1 : v1 = BitVec.intMin w
      · right
        intro h2
        exact hnot ⟨(toInt_eq_intMin_iff hw).mpr h1,
          (toInt_eq_neg_one_iff hw).mpr h2⟩
      · left
        exact h1
    rw [hquotient, BitVec.toInt_srem]
    refine ⟨?_, abs_tmod_lt _ hnonzero, sign_tmod_cases _ _⟩
    rw [Int.mul_comm, Int.mul_tdiv_add_tmod]

/-! ## Shifts -/

/-- A shift of a signed number of `w` bits with the unsigned value `u1`, by a
count of any sign.  The result is also given with its unsigned value. -/
def ShiftsTo (w : ℕ) (op : ShiftOp) (v1 : ℤ) (u1 : ℕ) (v2 : ℤ) (v : ℤ)
    (u : ℕ) : Prop :=
  let s := (v2 % w).toNat
  match op with
  | .shl => v = (v1 * 2 ^ s).bmod (2 ^ w)
  | .shr => v = ⌊(v1 : ℚ) / 2 ^ s⌋
  | .ushr => (u : ℤ) = ⌊(u1 : ℚ) / 2 ^ s⌋

theorem floor_div_two_pow (v : ℤ) (s : ℕ) : ⌊(v : ℚ) / 2 ^ s⌋ = v / 2 ^ s := by
  have hcast : ((2 ^ s : ℕ) : ℚ) = 2 ^ s := by push_cast; rfl
  rw [← hcast, Rat.floor_intCast_div_natCast]
  push_cast
  rfl

theorem shiftsTo_shiftBy {mask : BitVec 32} (op : ShiftOp) (v1 : BitVec w)
    (v2 : BitVec 32) (hmask : (v2 &&& mask).toNat = (v2.toInt % w).toNat) :
    ShiftsTo w op v1.toInt v1.toNat v2.toInt (shiftBy mask op v1 v2).toInt
      (shiftBy mask op v1 v2).toNat := by
  cases op with
  | shl =>
      show (v1 <<< (v2 &&& mask).toNat).toInt = _
      rw [← hmask, ← ofInt_shiftLeft, BitVec.toInt_ofInt]
  | shr =>
      show (v1.sshiftRight (v2 &&& mask).toNat).toInt = _
      rw [← hmask, floor_div_two_pow, BitVec.toInt_sshiftRight,
        Int.shiftRight_eq_div_pow]
      push_cast
      rfl
  | ushr =>
      show ((v1 >>> (v2 &&& mask).toNat).toNat : ℤ) = _
      have hfloor := floor_div_two_pow v1.toNat (v2 &&& mask).toNat
      rw [← hmask, BitVec.toNat_ushiftRight, Nat.shiftRight_eq_div_pow]
      push_cast at hfloor ⊢
      exact hfloor.symm

end Words

/-- A count below 2^32 has the same remainder with and without its sign. -/
theorem toInt_emod_eq (val : BitVec 32) {m : ℕ}
    (hm : (m : ℤ) ∣ ((2 ^ 32 : ℕ) : ℤ)) :
    val.toInt % m = (val.toNat % m : ℕ) := by
  calc
    val.toInt % m = val.toInt % (2 ^ 32 : ℕ) % m :=
      (Int.emod_emod_of_dvd _ hm).symm
    _ = (val.toNat : ℤ) % (2 ^ 32 : ℕ) % m := by
      rw [BitVec.toInt_eq_toNat_bmod, Int.bmod_emod]
    _ = (val.toNat % m : ℕ) := by
      rw [Int.emod_emod_of_dvd _ hm]
      rfl

theorem mask32_eq (val : BitVec 32) :
    (val &&& 0x1f).toNat = (val.toInt % (32 : ℕ)).toNat := by
  rw [toNat_and_mask32, toInt_emod_eq val (by decide), Int.toNat_natCast]

theorem mask64_eq (val : BitVec 32) :
    (val &&& 0x3f).toNat = (val.toInt % (64 : ℕ)).toNat := by
  rw [toNat_and_mask64, toInt_emod_eq val (by decide), Int.toNat_natCast]

/-! ## The slots of a `long` -/

def longValue (high low : BitVec 32) : ℤ := high.toInt * 2 ^ 32 + low.toNat

def unsignedLong (high low : BitVec 32) : ℕ := high.toNat * 2 ^ 32 + low.toNat

theorem join64_eq_append (high low : BitVec 32) :
    join64 high low = high ++ low := by
  apply BitVec.eq_of_getLsbD_eq
  intro i hi
  simp only [join64, BitVec.getLsbD_or, BitVec.getLsbD_shiftLeft,
    BitVec.getLsbD_setWidth, BitVec.getLsbD_append]
  grind

theorem toInt_join64 (high low : BitVec 32) :
    (join64 high low).toInt = longValue high low := by
  rw [join64_eq_append, BitVec.toInt_append, longValue, Int.mul_comm]
  rfl

theorem toNat_join64 (high low : BitVec 32) :
    (join64 high low).toNat = unsignedLong high low := by
  rw [join64_eq_append, BitVec.toNat_append,
    ← Nat.shiftLeft_add_eq_or_of_lt low.isLt, Nat.shiftLeft_eq, unsignedLong]

/-! ## Instructions -/

/-- On every frame with the slots `before` on top of its operand stack, the
instruction ends normally with `after` in their place. -/
def Replaces (unit : FloatUnit) (inst : Instruction)
    (before after : List (BitVec 32)) : Prop :=
  ∀ (frame : Frame) (cap : ℕ) (halves : List Half),
    Holds cap (before.map .num ++ halves) frame.operandStack →
    ∃ stack, inst.execute unit frame =
        .ok ((), { frame with operandStack := stack }) ∧
      Holds cap (after.map .num ++ halves) stack

theorem replaces_of_triple {unit : FloatUnit} {inst : Instruction}
    {m : StackM Unit} {before after : List (BitVec 32)}
    (hinst : inst.execute unit = onStack m)
    (htriple : ∀ cap halves,
      (after.map Half.num ++ halves).length ≤ cap →
      Triple (Holds cap (before.map .num ++ halves)) m
        (fun _ => Holds cap (after.map .num ++ halves)) (fun _ => False))
    (hlength : after.length ≤ before.length) :
    Replaces unit inst before after := by
  intro frame cap halves hholds
  have hsize := hholds.size_eq
  have hle := frame.operandStack.size_le
  have hroom : (after.map Half.num ++ halves).length ≤ cap := by
    rw [hholds.capacity] at hle
    simp only [List.length_append, List.length_map] at hsize ⊢
    omega
  have hends := htriple cap halves hroom frame.operandStack hholds
  rw [hinst]
  unfold onStack zoom
  cases hm : m frame.operandStack with
  | ok result =>
      rw [hm] at hends
      exact ⟨result.2, rfl, hends⟩
  | error panic =>
      rw [hm] at hends
      exact hends.elim

section Results

variable {w : ℕ} {value : BitVec w → Value} {pop : StackM (BitVec w)}
  {push : BitVec w → StackM Unit} {slots : BitVec w → List (BitVec 32)}
  {unit : FloatUnit} {inst : Instruction}

theorem replaces_division (hpop : Pops pop value) (hpush : Pushes push value)
    (hslots : ∀ v, (value v).halves = (slots v).map .num)
    {result : BitVec w → BitVec w → BitVec w}
    (hinst : inst.execute unit = onStack (division pop result push))
    {k : ℕ} (hlength : ∀ v, (slots v).length = k) (v1 : BitVec w)
    {v2 : BitVec w} (hv2 : v2 ≠ 0) :
    Replaces unit inst (slots v2 ++ slots v1) (slots (result v1 v2)) := by
  apply replaces_of_triple hinst
  · intro cap halves hroom
    rw [List.map_append, List.append_assoc, ← hslots, ← hslots, ← hslots]
    rw [← hslots] at hroom
    exact division_triple hpop hpush result hv2 hroom
  · rw [List.length_append, hlength, hlength, hlength]
    omega

theorem replaces_shift (hpop : Pops pop value) (hpush : Pushes push value)
    (hslots : ∀ v, (value v).halves = (slots v).map .num)
    {result : BitVec w → BitVec 32 → BitVec w}
    (hinst : inst.execute unit = onStack (binary popInt pop result push))
    {k : ℕ} (hlength : ∀ v, (slots v).length = k) (v1 : BitVec w)
    (v2 : BitVec 32) :
    Replaces unit inst (v2 :: slots v1) (slots (result v1 v2)) := by
  apply replaces_of_triple hinst
  · intro cap halves hroom
    rw [List.map_cons, List.cons_append, ← hslots, ← hslots]
    rw [← hslots] at hroom
    exact binary_triple pops_int hpop hpush result hroom
  · rw [List.length_cons, hlength, hlength]
    omega

end Results

/-- The slots of a `long`, the upper one first -/
def longSlots (val : BitVec 64) : List (BitVec 32) :=
  [val.extractLsb' 32 32, val.extractLsb' 0 32]

theorem longSlots_join64 (high low : BitVec 32) :
    longSlots (join64 high low) = [high, low] := by
  have happend : high ++ low = join64 high low := (join64_eq_append _ _).symm
  have hhigh : (join64 high low).extractLsb' 32 32 = high := by
    rw [← happend]
    exact BitVec.extractLsb'_append_eq_left
  have hlow : (join64 high low).extractLsb' 0 32 = low := by
    rw [← happend]
    exact BitVec.extractLsb'_append_eq_right
  rw [longSlots, hhigh, hlow]

section Instructions

variable {unit : FloatUnit} {inst : Instruction}

theorem replaces_intDivision {result : BitVec 32 → BitVec 32 → BitVec 32}
    (hinst : inst.execute unit = onStack (division popInt result pushInt))
    (v1 : BitVec 32) {v2 : BitVec 32} (hv2 : v2 ≠ 0) :
    Replaces unit inst [v2, v1] [result v1 v2] :=
  @replaces_division 32 .int _ _ (fun v => [v]) _ _ pops_int pushes_int
    (fun _ => rfl) result hinst 1 (fun _ => rfl) v1 v2 hv2

theorem replaces_longDivision {result : BitVec 64 → BitVec 64 → BitVec 64}
    (hinst : inst.execute unit = onStack (division popLong result pushLong))
    (high1 low1 high2 low2 : BitVec 32) (hv2 : join64 high2 low2 ≠ 0) :
    Replaces unit inst [high2, low2, high1, low1]
      (longSlots (result (join64 high1 low1) (join64 high2 low2))) := by
  have hreplaces := @replaces_division 64 .long _ _ longSlots _ _ pops_long
    pushes_long (fun _ => rfl) result hinst 2 (fun _ => rfl)
    (join64 high1 low1) (join64 high2 low2) hv2
  rw [longSlots_join64, longSlots_join64] at hreplaces
  exact hreplaces

theorem replaces_intShift (op : ShiftOp) (v1 v2 : BitVec 32) :
    Replaces unit (.shift op .int) [v2, v1] [shiftBy 0x1f op v1 v2] := by
  have hinst : (Instruction.shift op .int).execute unit =
      onStack (binary popInt popInt (shiftBy 0x1f op) pushInt) := rfl
  exact @replaces_shift 32 .int _ _ (fun v => [v]) _ _ pops_int pushes_int
    (fun _ => rfl) _ hinst 1 (fun _ => rfl) v1 v2

theorem replaces_longShift (op : ShiftOp) (high1 low1 v2 : BitVec 32) :
    Replaces unit (.shift op .long) [v2, high1, low1]
      (longSlots (shiftBy 0x3f op (join64 high1 low1) v2)) := by
  have hinst : (Instruction.shift op .long).execute unit =
      onStack (binary popInt popLong (shiftBy 0x3f op) pushLong) := rfl
  have hreplaces := @replaces_shift 64 .long _ _ longSlots _ _ pops_long
    pushes_long (fun _ => rfl) _ hinst 2 (fun _ => rfl) (join64 high1 low1) v2
  rw [longSlots_join64] at hreplaces
  exact hreplaces

end Instructions

theorem longValue_longSlots (val : BitVec 64) :
    longValue (val.extractLsb' 32 32) (val.extractLsb' 0 32) = val.toInt := by
  rw [← toInt_join64, join64_extract]

theorem unsignedLong_longSlots (val : BitVec 64) :
    unsignedLong (val.extractLsb' 32 32) (val.extractLsb' 0 32) = val.toNat := by
  rw [← toNat_join64, join64_extract]

/-- The integer instructions are exact up to the word size, and the long forms
take and leave both slots of their operands. -/
theorem integer_arithmetic (unit : FloatUnit) :
    (∀ v1 v2 : BitVec 32, v2 ≠ 0 → ∃ q r,
      Replaces unit .idiv [v2, v1] [q] ∧ Replaces unit .irem [v2, v1] [r] ∧
      DividesTo 32 v1.toInt v2.toInt q.toInt r.toInt) ∧
    (∀ high1 low1 high2 low2 : BitVec 32, longValue high2 low2 ≠ 0 →
      ∃ highQ lowQ highR lowR,
        Replaces unit .ldiv [high2, low2, high1, low1] [highQ, lowQ] ∧
        Replaces unit .lrem [high2, low2, high1, low1] [highR, lowR] ∧
        DividesTo 64 (longValue high1 low1) (longValue high2 low2)
          (longValue highQ lowQ) (longValue highR lowR)) ∧
    (∀ (op : ShiftOp) (v1 v2 : BitVec 32), ∃ v,
      Replaces unit (.shift op .int) [v2, v1] [v] ∧
      ShiftsTo 32 op v1.toInt v1.toNat v2.toInt v.toInt v.toNat) ∧
    ∀ (op : ShiftOp) (high1 low1 v2 : BitVec 32), ∃ high low,
      Replaces unit (.shift op .long) [v2, high1, low1] [high, low] ∧
      ShiftsTo 64 op (longValue high1 low1) (unsignedLong high1 low1) v2.toInt
        (longValue high low) (unsignedLong high low) := by
  refine ⟨?_, ?_, ?_, ?_⟩
  · intro v1 v2 hv2
    have hexact := dividesTo_sdiv (by decide) v1 hv2
    exact ⟨_, _, replaces_intDivision rfl v1 hv2,
      replaces_intDivision rfl v1 hv2, hexact⟩
  · intro high1 low1 high2 low2 hvalue
    have hv2 : join64 high2 low2 ≠ 0 := by
      intro hzero
      rw [← toInt_join64, hzero] at hvalue
      exact hvalue rfl
    have hexact := dividesTo_sdiv (by decide) (join64 high1 low1) hv2
    rw [toInt_join64, toInt_join64, ← longValue_longSlots,
      ← longValue_longSlots] at hexact
    exact ⟨_, _, _, _, replaces_longDivision rfl high1 low1 high2 low2 hv2,
      replaces_longDivision rfl high1 low1 high2 low2 hv2, hexact⟩
  · intro op v1 v2
    have hexact := shiftsTo_shiftBy op v1 v2 (mask32_eq v2)
    exact ⟨_, replaces_intShift op v1 v2, hexact⟩
  · intro op high1 low1 v2
    have hexact := shiftsTo_shiftBy op (join64 high1 low1) v2 (mask64_eq v2)
    rw [toInt_join64, toNat_join64, ← longValue_longSlots,
      ← unsignedLong_longSlots] at hexact
    exact ⟨_, _, replaces_longShift op high1 low1 v2, hexact⟩

/-- The smallest `long` divided by -1 -/
theorem integer_arithmetic_smallest : ∃ highQ lowQ highR lowR,
    Replaces integerUnit .ldiv [-1, -1, 0x80000000, 0] [highQ, lowQ] ∧
    Replaces integerUnit .lrem [-1, -1, 0x80000000, 0] [highR, lowR] ∧
    DividesTo 64 (longValue 0x80000000 0) (longValue (-1) (-1))
      (longValue highQ lowQ) (longValue highR lowR) :=
  (integer_arithmetic integerUnit).2.1 0x80000000 0 (-1) (-1) (by decide)

end Jvm

end ClpszDemos
