import ClpszDemos.JvmReference

/-!
# The interpreter simulates the reference machine

A frame represents a state of the reference machine when its slots show the
state's typed values; the halves of the slots that their types do not use are
left over from earlier instructions.  One round of `loop` takes a frame that
represents a state to one that represents the next state.
-/

namespace ClpszDemos

namespace Jvm

open OperandStack

/-! ## Machine integers and integers -/

theorem toInt_eq_zero_iff {w : ℕ} {val : BitVec w} :
    val.toInt = 0 ↔ val = 0 := by
  rw [← BitVec.toInt_inj]
  simp

theorem ofInt_sub {w : ℕ} (v1 v2 : BitVec w) :
    BitVec.ofInt w (v1.toInt - v2.toInt) = v1 - v2 := by
  apply BitVec.eq_of_toInt_eq
  rw [BitVec.toInt_ofInt, BitVec.toInt_sub]

theorem ofInt_tdiv {w : ℕ} (v1 v2 : BitVec w) :
    BitVec.ofInt w (v1.toInt.tdiv v2.toInt) = v1.sdiv v2 := by
  apply BitVec.eq_of_toInt_eq
  rw [BitVec.toInt_ofInt, BitVec.toInt_sdiv]

theorem ofInt_tmod {w : ℕ} (v1 v2 : BitVec w) :
    BitVec.ofInt w (v1.toInt.tmod v2.toInt) = v1.srem v2 := by
  rw [← BitVec.toInt_srem, BitVec.ofInt_toInt]

theorem ofInt_two_pow {w n : ℕ} :
    BitVec.ofInt w (2 ^ n) = BitVec.twoPow w n := by
  apply BitVec.eq_of_toNat_eq
  have hcast :
      (2 : ℤ) ^ n % ((2 ^ w : ℕ) : ℤ) = ((2 ^ n % 2 ^ w : ℕ) : ℤ) := by
    push_cast
    rfl
  rw [BitVec.toNat_ofInt, BitVec.toNat_twoPow, hcast, Int.toNat_natCast]

theorem ofInt_shiftLeft {w n : ℕ} (val : BitVec w) :
    BitVec.ofInt w (val.toInt * 2 ^ n) = val <<< n := by
  rw [BitVec.ofInt_mul, BitVec.ofInt_toInt, BitVec.shiftLeft_eq_mul_twoPow,
    ofInt_two_pow]

theorem ofInt_sshiftRight {w n : ℕ} (val : BitVec w) :
    BitVec.ofInt w (val.toInt / 2 ^ n) = val.sshiftRight n := by
  have hdiv : val.toInt / 2 ^ n = (val.sshiftRight n).toInt := by
    rw [BitVec.toInt_sshiftRight, Int.shiftRight_eq_div_pow]
    push_cast
    rfl
  rw [hdiv, BitVec.ofInt_toInt]

theorem ofNat_ushiftRight {w n : ℕ} (val : BitVec w) :
    BitVec.ofNat w (val.toNat / 2 ^ n) = val >>> n := by
  apply BitVec.eq_of_toNat_eq
  rw [BitVec.toNat_ushiftRight, Nat.shiftRight_eq_div_pow, BitVec.toNat_ofNat]
  apply Nat.mod_eq_of_lt
  exact lt_of_le_of_lt (Nat.div_le_self _ _) val.isLt

theorem ofInt_setWidth {w u : ℕ} (hle : w ≤ u) (val : BitVec u) :
    BitVec.ofInt w val.toInt = val.setWidth w := by
  apply BitVec.eq_of_toInt_eq
  rw [BitVec.toInt_ofInt, BitVec.toInt_setWidth, BitVec.toInt_eq_toNat_bmod]
  apply Int.bmod_bmod_of_dvd
  exact_mod_cast Nat.pow_dvd_pow 2 hle

theorem ofInt_bmod {w : ℕ} (hle : w ≤ 32) (val : BitVec 32) :
    BitVec.ofInt 32 (val.toInt.bmod (2 ^ w)) =
      (val.setWidth w).signExtend 32 := by
  have hdvd : ((2 ^ w : ℕ) : ℤ) ∣ ((2 ^ 32 : ℕ) : ℤ) := by
    exact_mod_cast Nat.pow_dvd_pow 2 hle
  have hbmod : val.toInt.bmod (2 ^ w) = (val.setWidth w).toInt := by
    rw [BitVec.toInt_setWidth, BitVec.toInt_eq_toNat_bmod]
    exact Int.bmod_bmod_of_dvd (by exact_mod_cast hdvd)
  rw [hbmod]
  rfl

theorem ofInt_emod (val : BitVec 32) :
    BitVec.ofInt 32 (val.toInt % 2 ^ 16) = (val.setWidth 16).setWidth 32 := by
  apply BitVec.eq_of_toNat_eq
  rw [BitVec.toNat_ofInt, BitVec.toNat_setWidth, BitVec.toNat_setWidth]
  have hbmod := BitVec.toInt_eq_toNat_bmod val
  have hlt := val.isLt
  simp only [Int.bmod] at hbmod
  norm_num at *
  split_ifs at hbmod <;> omega

theorem toNat_and_mask32 (val : BitVec 32) :
    (val &&& 0x1f).toNat = val.toNat % 32 := by
  rw [BitVec.toNat_and]
  exact Nat.and_two_pow_sub_one_eq_mod val.toNat 5

theorem toNat_and_mask64 (val : BitVec 32) :
    (val &&& 0x3f).toNat = val.toNat % 64 := by
  rw [BitVec.toNat_and]
  exact Nat.and_two_pow_sub_one_eq_mod val.toNat 6

theorem shift_eq_shiftBy {w : ℕ} {mask : BitVec 32} (op : ShiftOp)
    (v1 : BitVec w) (v2 : BitVec 32)
    (hmask : (v2 &&& mask).toNat = v2.toNat % w) :
    Reference.shift op v1 v2 = shiftBy mask op v1 v2 := by
  cases op with
  | shl =>
      unfold Reference.shift shiftBy
      rw [← hmask]
      exact ofInt_shiftLeft v1
  | shr =>
      unfold Reference.shift shiftBy
      rw [← hmask]
      exact ofInt_sshiftRight v1
  | ushr =>
      unfold Reference.shift shiftBy
      rw [← hmask]
      exact ofNat_ushiftRight v1

theorem bit_eq_bitwise {w : ℕ} (op : BitOp) (v1 v2 : BitVec w) :
    Reference.bit op v1 v2 = bitwise op v1 v2 := by
  cases op <;> rfl

theorem neg_eq {w : ℕ} (val : BitVec w) : Reference.neg val = -val := by
  unfold Reference.neg
  rw [BitVec.ofInt_neg, BitVec.ofInt_toInt]

theorem lcmp_eq (v1 v2 : BitVec 64) : Reference.lcmp v1 v2 = lcmp v1 v2 := by
  unfold Reference.lcmp lcmp
  simp [BitVec.slt, BitVec.toInt_inj]

theorem test_eq (cond : Cond) (v1 v2 : BitVec 32) :
    Reference.test cond v1.toInt v2.toInt = cond.test v1 v2 := by
  cases cond with
  | eq =>
      simp only [Reference.test, Cond.test, BitVec.toInt_inj]
      exact (beq_eq_decide v1 v2).symm
  | ne =>
      simp only [Reference.test, Cond.test, ne_eq, BitVec.toInt_inj, bne,
        beq_eq_decide, decide_not]
  | lt => rfl
  | ge => rfl
  | gt => rfl
  | le => rfl

/-! ## Frames that represent states -/

def halvesOf (stack : List Value) : List Half := stack.flatMap Value.halves

theorem length_halves (value : Value) : value.halves.length = value.category := by
  cases value <;> rfl

theorem length_halvesOf (stack : List Value) :
    (halvesOf stack).length = Reference.depth stack := by
  induction stack with
  | nil => rfl
  | cons value stack ih =>
      have hcons : halvesOf (value :: stack) = value.halves ++ halvesOf stack :=
        rfl
      rw [hcons, List.length_append, length_halves, ih]
      rfl

/-- The variables from `index` on show `halves`, the lower index first. -/
def ShowsAt (vars : LocalVars) (index : ℕ) (halves : List Half) : Prop :=
  ∀ (k : ℕ) (half : Half), halves[k]? = some half →
    ∃ slot, vars[index + k]? = some slot ∧ slot.Shows half

structure ShowsLocals (maxLocals : ℕ) (locals : Reference.Locals)
    (vars : LocalVars) : Prop where
  length_eq : vars.length = maxLocals
  shows_at : ∀ (index : ℕ) (value : Value), locals index = some value →
    ShowsAt vars index value.halves.reverse

structure Represents (limits : Limits) (state : Reference.State)
    (frame : Frame) : Prop where
  next_pc : frame.nextPc = state.pc
  holds_stack :
    Holds limits.maxStack (halvesOf state.stack) frame.operandStack
  shows_locals : ShowsLocals limits.maxLocals state.locals frame.localVars

/-- `thread.SetPC(pc)` was called for the instruction that is executing. -/
structure During (limits : Limits) (pc : ℤ) (state : Reference.State)
    (frame : Frame) : Prop extends Represents limits state frame where
  thread_pc : frame.thread.pc = pc

open Reference (State Outcome)

def Meets (limits : Limits) (pc : ℤ) (outcome : Outcome) :
    Unit → Frame → Prop :=
  fun _ frame => ∃ next, outcome = .next next ∧ During limits pc next frame

def Raises (outcome : Outcome) : GoPanic → Prop :=
  fun panic => outcome = .arithmeticException ∧ panic = .divideByZero

section Frames

variable {limits : Limits} {pc : ℤ} {state : State} {E : GoPanic → Prop}

theorem onStack_triple {α : Type} {m : StackM α} {Q : α → Prop}
    {stack : List Value}
    (htriple : Triple (Holds limits.maxStack (halvesOf state.stack)) m
      (fun a part => Q a ∧ Holds limits.maxStack (halvesOf stack) part) E) :
    Triple (During limits pc state) (onStack m)
      (fun a frame => Q a ∧ During limits pc { state with stack := stack } frame)
      E := by
  apply htriple.zoom
  · intro frame hduring
    exact hduring.holds_stack
  · rintro frame a part hduring ⟨hQ, hholds⟩
    exact ⟨hQ, ⟨hduring.next_pc, hholds, hduring.shows_locals⟩,
      hduring.thread_pc⟩

/-- A stack program that leaves the values `stack`. -/
theorem onStack_meets {m : StackM Unit} {stack : List Value}
    (htriple : Triple (Holds limits.maxStack (halvesOf state.stack)) m
      (fun _ => Holds limits.maxStack (halvesOf stack)) E) :
    Triple (During limits pc state) (onStack m)
      (Meets limits pc (.next { state with stack := stack })) E := by
  have hunit : Triple (Holds limits.maxStack (halvesOf state.stack)) m
      (fun _ part => True ∧ Holds limits.maxStack (halvesOf stack) part) E :=
    htriple.post fun _ _ hholds => ⟨trivial, hholds⟩
  apply (onStack_triple hunit).post
  rintro _ frame ⟨_, hduring⟩
  exact ⟨_, rfl, hduring⟩

theorem onStack_raises {m : StackM Unit}
    (htriple : Triple (Holds limits.maxStack (halvesOf state.stack)) m
      (fun _ _ => False) (· = .divideByZero)) :
    Triple (During limits pc state) (onStack m)
      (Meets limits pc .arithmeticException) (Raises .arithmeticException) := by
  have hfalse : Triple (Holds limits.maxStack (halvesOf state.stack)) m
      (fun _ part => False ∧ Holds limits.maxStack (halvesOf []) part)
      (· = .divideByZero) :=
    htriple.post fun _ _ hfalse => hfalse.elim
  apply (onStack_triple hfalse).mono
  · exact fun _ h => h
  · exact fun _ _ h => h.1.elim
  · exact fun _ h => ⟨rfl, h⟩

/-- A typed pop from a stack with that value on top. -/
theorem onStack_pop {α : Type} {pop : StackM α} {value : α → Value}
    (hpop : Pops pop value) {v : α} {stack : List Value}
    (hstack : state.stack = value v :: stack) :
    Triple (During limits pc state) (onStack pop)
      (fun a frame => a = v ∧ During limits pc { state with stack := stack } frame)
      E := by
  apply onStack_triple
  rw [hstack]
  exact hpop _ _ _ v

/-- What a pushed value needs of the limits. -/
theorem room_of_fits {value : Value} {stack : List Value}
    (hfits : ({ state with stack := stack }.push value).Fits limits) :
    (value.halves ++ halvesOf stack).length ≤ limits.maxStack := by
  have hlength := length_halvesOf (value :: stack)
  have hdepth : Reference.depth (value :: stack) ≤ limits.maxStack := hfits
  have hcons : halvesOf (value :: stack) = value.halves ++ halvesOf stack := rfl
  rw [← hcons, hlength]
  exact hdepth

theorem push_meets {α : Type} {push : α → StackM Unit} {value : α → Value}
    (hpush : Pushes push value) {v : α}
    (hfits : (state.push (value v)).Fits limits) :
    Triple (During limits pc state) (onStack (push v))
      (Meets limits pc (state.push (value v))) E := by
  apply onStack_meets
  exact hpush _ _ _ v (room_of_fits hfits)

variable {α β γ : Type} {a : α → Value} {b : β → Value} {c : γ → Value}
variable {stack : List Value}

theorem unary_meets {pop : StackM α} {push : γ → StackM Unit}
    (hpop : Pops pop a) (hpush : Pushes push c) {result : α → γ} {v : α}
    (hstack : state.stack = a v :: stack)
    (hfits : ({ state with stack := stack }.push (c (result v))).Fits limits) :
    Triple (During limits pc state) (onStack (unary pop result push))
      (Meets limits pc ({ state with stack := stack }.push (c (result v)))) E := by
  apply onStack_meets
  rw [hstack]
  exact unary_triple hpop hpush result (room_of_fits hfits)

theorem binary_meets {popRight : StackM β} {popLeft : StackM α}
    {push : γ → StackM Unit} (hright : Pops popRight b) (hleft : Pops popLeft a)
    (hpush : Pushes push c) {result : α → β → γ} {v1 : α} {v2 : β}
    (hstack : state.stack = b v2 :: a v1 :: stack)
    (hfits :
      ({ state with stack := stack }.push (c (result v1 v2))).Fits limits) :
    Triple (During limits pc state)
      (onStack (binary popRight popLeft result push))
      (Meets limits pc
        ({ state with stack := stack }.push (c (result v1 v2)))) E := by
  apply onStack_meets
  rw [hstack]
  exact binary_triple hright hleft hpush result (room_of_fits hfits)

variable {w : ℕ} {value : BitVec w → Value} {pop : StackM (BitVec w)}
variable {push : BitVec w → StackM Unit} {v1 v2 : BitVec w}

/-- A division against its result in the reference machine. -/
theorem division_meets (hpop : Pops pop value) (hpush : Pushes push value)
    {result : BitVec w → BitVec w → BitVec w} {expected : Option (BitVec w)}
    (hexpected : expected = if v2 = 0 then none else some (result v1 v2))
    (hstack : state.stack = value v2 :: value v1 :: stack)
    (hfits : (Reference.pushResult { state with stack := stack } value
      expected).Fits limits) :
    Triple (During limits pc state) (onStack (division pop result push))
      (Meets limits pc (Reference.pushResult { state with stack := stack } value
        expected))
      (Raises (Reference.pushResult { state with stack := stack } value
        expected)) := by
  by_cases hzero : v2 = 0
  · rw [if_pos hzero] at hexpected
    subst hexpected
    apply onStack_raises
    rw [hstack]
    exact division_zero_triple hpop result hzero
  · rw [if_neg hzero] at hexpected
    subst hexpected
    apply onStack_meets
    rw [hstack]
    exact division_triple hpop hpush result hzero (room_of_fits hfits)

/-- `IADD`, ..., `LREM`, for one of the two types. -/
def intArith (pop : StackM (BitVec w)) (push : BitVec w → StackM Unit) :
    ArithOp → StackM Unit
  | .add => binary pop pop (· + ·) push
  | .sub => binary pop pop (· - ·) push
  | .mul => binary pop pop (· * ·) push
  | .div => division pop BitVec.sdiv push
  | .rem => division pop BitVec.srem push

theorem arith_int (unit : FloatUnit) (op : ArithOp) :
    arith unit op .int = intArith popInt pushInt op := by
  cases op <;> rfl

theorem arith_long (unit : FloatUnit) (op : ArithOp) :
    arith unit op .long = intArith popLong pushLong op := by
  cases op <;> rfl

theorem intArith_meets (hpop : Pops pop value) (hpush : Pushes push value)
    (op : ArithOp) (hstack : state.stack = value v2 :: value v1 :: stack)
    (hfits : (Reference.pushResult { state with stack := stack } value
      (Reference.arith op v1 v2)).Fits limits) :
    Triple (During limits pc state) (onStack (intArith pop push op))
      (Meets limits pc (Reference.pushResult { state with stack := stack } value
        (Reference.arith op v1 v2)))
      (Raises (Reference.pushResult { state with stack := stack } value
        (Reference.arith op v1 v2))) := by
  cases op with
  | add =>
      have hresult : Reference.arith .add v1 v2 = some (v1 + v2) := by
        simp only [Reference.arith, BitVec.ofInt_add, BitVec.ofInt_toInt]
      rw [hresult] at hfits ⊢
      exact binary_meets hpop hpop hpush hstack hfits
  | sub =>
      have hresult : Reference.arith .sub v1 v2 = some (v1 - v2) := by
        simp only [Reference.arith, ofInt_sub]
      rw [hresult] at hfits ⊢
      exact binary_meets hpop hpop hpush hstack hfits
  | mul =>
      have hresult : Reference.arith .mul v1 v2 = some (v1 * v2) := by
        simp only [Reference.arith, BitVec.ofInt_mul, BitVec.ofInt_toInt]
      rw [hresult] at hfits ⊢
      exact binary_meets hpop hpop hpush hstack hfits
  | div =>
      have hresult : Reference.arith .div v1 v2 =
          if v2 = 0 then none else some (v1.sdiv v2) := by
        simp only [Reference.arith, toInt_eq_zero_iff, ofInt_tdiv]
      exact division_meets hpop hpush hresult hstack hfits
  | rem =>
      have hresult : Reference.arith .rem v1 v2 =
          if v2 = 0 then none else some (v1.srem v2) := by
        simp only [Reference.arith, toInt_eq_zero_iff, ofInt_tmod]
      exact division_meets hpop hpush hresult hstack hfits

end Frames

/-! ## Local variables -/

theorem ShowsAt.slot {vars : LocalVars} {index : ℕ} {halves : List Half}
    (hshows : ShowsAt vars index halves) {k : ℕ} {half : Half}
    (hhalf : halves[k]? = some half) :
    ∃ slot, vars.slot (index + k) = .ok slot ∧ slot.Shows half := by
  obtain ⟨slot, hslot, hhalf⟩ := hshows k half hhalf
  have hread : vars.slot (index + k) = .ok slot := by
    simp only [LocalVars.slot, hslot]
  exact ⟨slot, hread, hhalf⟩

theorem ShowsAt.getInt {vars : LocalVars} {index : ℕ} {halves : List Half}
    (hshows : ShowsAt vars index halves) {k : ℕ} {val : BitVec 32}
    (hhalf : halves[k]? = some (.num val)) :
    vars.getInt (index + k) = .ok val := by
  obtain ⟨slot, hread, hnum⟩ := hshows.slot hhalf
  have hval : slot.num = val := hnum
  unfold LocalVars.getInt
  rw [hread, ← hval]
  rfl

theorem ShowsAt.getLong {vars : LocalVars} {index : ℕ} {val : BitVec 64}
    (hshows : ShowsAt vars index (Value.long val).halves.reverse) :
    vars.getLong index = .ok val := by
  have hlow : vars.getInt index = .ok (val.extractLsb' 0 32) :=
    hshows.getInt (k := 0) rfl
  have hhigh : vars.getInt (index + 1) = .ok (val.extractLsb' 32 32) :=
    hshows.getInt (k := 1) rfl
  unfold LocalVars.getLong
  rw [hlow, hhigh]
  show Except.ok (BigEndian.join64 _ _) = _
  rw [BigEndian.join64_extract]

theorem ShowsAt.getRef {vars : LocalVars} {index : ℕ} {ref : Ref}
    (hshows : ShowsAt vars index (Value.ref ref).halves.reverse) :
    vars.getRef index = .ok ref := by
  obtain ⟨slot, hread, href⟩ := hshows.slot (k := 0) rfl
  have hval : slot.ref = ref := href
  unfold LocalVars.getRef
  have hread' : vars.slot index = .ok slot := hread
  rw [hread', ← hval]
  rfl

theorem update_eq {vars : LocalVars} {index : ℕ} {f : Slot → Slot}
    (hindex : index < vars.length) :
    vars.update index f = .ok (vars.set index (f vars[index])) := by
  have hread : vars.slot index = .ok vars[index] := by
    simp only [LocalVars.slot, List.getElem?_eq_getElem hindex]
  unfold LocalVars.update
  rw [hread]
  rfl

/-- A store changes the slots of the stored value only. -/
structure Stores (vars vars' : LocalVars) (index : ℕ) (value : Value) :
    Prop where
  length_eq : vars'.length = vars.length
  shows_value : ShowsAt vars' index value.halves.reverse
  frame : ∀ i, i ≠ index → (value.category = 2 → i ≠ index + 1) →
    vars'[i]? = vars[i]?

theorem length_halves_reverse {value : Value} {k : ℕ} {half : Half}
    (hhalf : value.halves.reverse[k]? = some half) : k < value.category := by
  have hlt : k < value.halves.reverse.length :=
    (List.getElem?_eq_some_iff.mp hhalf).1
  rw [List.length_reverse, length_halves] at hlt
  exact hlt

theorem category_le_two (value : Value) : value.category ≤ 2 := by
  cases value <;> simp [Value.category, Value.type, ValueType.category]

/-- Values elsewhere are shown as before, unless the store took one of their
slots. -/
theorem Stores.shows_locals {maxLocals : ℕ} {locals : Reference.Locals}
    {vars vars' : LocalVars} {index : ℕ} {value : Value}
    (hstores : Stores vars vars' index value)
    (hshows : ShowsLocals maxLocals locals vars) :
    ShowsLocals maxLocals (locals.store index value) vars' := by
  constructor
  · rw [hstores.length_eq, hshows.length_eq]
  · intro j other hother
    unfold Reference.Locals.store at hother
    by_cases hindex : j = index
    · rw [if_pos hindex, Option.some.injEq] at hother
      rw [hindex, ← hother]
      exact hstores.shows_value
    · rw [if_neg hindex] at hother
      by_cases hupper : j = index + 1 ∧ value.category = 2
      · rw [if_pos hupper] at hother
        cases hother
      rw [if_neg hupper] at hother
      by_cases hlower :
          j + 1 = index ∧ (locals j).map Value.category = some 2
      · rw [if_pos hlower] at hother
        cases hother
      rw [if_neg hlower] at hother
      intro k half hhalf
      obtain ⟨slot, hslot, hslotShows⟩ :=
        hshows.shows_at j other hother k half hhalf
      have hk : k < other.category := length_halves_reverse hhalf
      have hcategory : other.category ≤ 2 := category_le_two other
      have hlower' : j + 1 = index → other.category ≠ 2 := by
        intro hj htwo
        apply hlower
        rw [hother, Option.map_some, htwo]
        exact ⟨hj, rfl⟩
      have hsame : vars'[j + k]? = vars[j + k]? := by
        apply hstores.frame
        · intro heq
          apply hlower'
          · omega
          · omega
        · intro htwo heq
          apply hupper
          exact ⟨by omega, htwo⟩
      rw [← hsame] at hslot
      exact ⟨slot, hslot, hslotShows⟩

theorem stores_one {vars : LocalVars} {index : ℕ} {value : Value} {half : Half}
    {slot : Slot} (hindex : index < vars.length) (hhalves : value.halves = [half])
    (hshows : slot.Shows half) :
    Stores vars (vars.set index slot) index value := by
  constructor
  · exact List.length_set
  · intro k h hh
    rw [hhalves] at hh
    cases k with
    | zero =>
        have hhalf : half = h := by simpa using hh
        rw [← hhalf]
        exact ⟨slot, by simp [hindex], hshows⟩
    | succ k => simp at hh
  · intro i hi _
    rw [List.getElem?_set_ne (Ne.symm hi)]

theorem stores_two {vars : LocalVars} {index : ℕ} {value : Value}
    {low high : Half} {slotLow slotHigh : Slot}
    (hindex : index + 1 < vars.length) (hhalves : value.halves = [high, low])
    (hlow : slotLow.Shows low) (hhigh : slotHigh.Shows high) :
    Stores vars ((vars.set index slotLow).set (index + 1) slotHigh) index
      value := by
  have hcategory : value.category = 2 := by
    rw [← length_halves, hhalves]
    rfl
  constructor
  · rw [List.length_set, List.length_set]
  · intro k h hh
    rw [hhalves] at hh
    have hone : index < vars.length := by omega
    rcases k with _ | _ | k
    · have hhalf : low = h := by simpa using hh
      rw [← hhalf]
      exact ⟨slotLow, by simp [hone], hlow⟩
    · have hhalf : high = h := by simpa using hh
      rw [← hhalf]
      exact ⟨slotHigh, by simp [hindex], hhigh⟩
    · simp at hh
  · intro i hi hnext
    rw [List.getElem?_set_ne (Ne.symm (hnext hcategory)),
      List.getElem?_set_ne (Ne.symm hi)]

theorem setInt_eq {vars : LocalVars} {index : ℕ} (val : BitVec 32)
    (hindex : index < vars.length) :
    ∃ slot : Slot, slot.num = val ∧
      vars.setInt index val = .ok (vars.set index slot) :=
  ⟨{ vars[index] with num := val }, rfl, update_eq hindex⟩

theorem setInt_stores {vars : LocalVars} {index : ℕ} {value : Value}
    {val : BitVec 32} (hhalves : value.halves = [.num val])
    (hindex : index < vars.length) :
    ∃ vars', vars.setInt index val = .ok vars' ∧
      Stores vars vars' index value := by
  obtain ⟨slot, hnum, hset⟩ := setInt_eq val hindex
  exact ⟨_, hset, stores_one hindex hhalves hnum⟩

theorem setRef_stores {vars : LocalVars} {index : ℕ} {ref : Ref}
    (hindex : index < vars.length) :
    ∃ vars', vars.setRef index ref = .ok vars' ∧
      Stores vars vars' index (.ref ref) := by
  have hset : vars.setRef index ref =
      .ok (vars.set index { vars[index] with ref := ref }) :=
    update_eq hindex
  have hshows : ({ vars[index] with ref := ref } : Slot).Shows (.ref ref) := rfl
  exact ⟨_, hset, stores_one hindex rfl hshows⟩

theorem setLong_stores {vars : LocalVars} {index : ℕ} {value : Value}
    {val : BitVec 64}
    (hhalves : value.halves =
      [.num (val.extractLsb' 32 32), .num (val.extractLsb' 0 32)])
    (hindex : index + 1 < vars.length) :
    ∃ vars', vars.setLong index val = .ok vars' ∧
      Stores vars vars' index value := by
  have hone : index < vars.length := by omega
  obtain ⟨slotLow, hnumLow, hsetLow⟩ := setInt_eq (val.setWidth 32) hone
  have hlength : index + 1 < (vars.set index slotLow).length := by
    rw [List.length_set]
    exact hindex
  obtain ⟨slotHigh, hnumHigh, hsetHigh⟩ :=
    setInt_eq ((val.sshiftRight 32).setWidth 32) hlength
  have hset : vars.setLong index val =
      .ok ((vars.set index slotLow).set (index + 1) slotHigh) := by
    unfold LocalVars.setLong
    rw [hsetLow]
    exact hsetHigh
  have hlow : slotLow.num = val.extractLsb' 0 32 := by
    rw [hnumLow, setWidth_low]
  have hhigh : slotHigh.num = val.extractLsb' 32 32 := by
    rw [hnumHigh, setWidth_high]
  exact ⟨_, hset, stores_two hindex hhalves hlow hhigh⟩

section LocalAccess

variable {limits : Limits} {pc : ℤ} {state : State} {E : GoPanic → Prop}

theorem readLocal_triple {α : Type} {read : LocalVars → Except GoPanic α} {v : α}
    (hread : ∀ vars, ShowsLocals limits.maxLocals state.locals vars →
      read vars = .ok v) :
    Triple (During limits pc state) (readLocal read)
      (fun a frame => a = v ∧ During limits pc state frame) E := by
  intro frame hduring
  have hv : read frame.localVars = .ok v := hread _ hduring.shows_locals
  unfold readLocal
  rw [hv]
  exact ⟨rfl, hduring⟩

theorem writeLocal_meets {write : LocalVars → Except GoPanic LocalVars}
    {index : ℕ} {value : Value}
    (hwrite : ∀ vars : LocalVars, vars.length = limits.maxLocals →
      ∃ vars', write vars = .ok vars' ∧ Stores vars vars' index value) :
    Triple (During limits pc state) (writeLocal write)
      (Meets limits pc (.next
        { state with locals := state.locals.store index value })) E := by
  intro frame hduring
  obtain ⟨vars', hvars', hstores⟩ :=
    hwrite frame.localVars hduring.shows_locals.length_eq
  have hlocals := hstores.shows_locals hduring.shows_locals
  unfold writeLocal
  rw [hvars']
  exact ⟨_, rfl, ⟨hduring.next_pc, hduring.holds_stack, hlocals⟩,
    hduring.thread_pc⟩

/-- A variable that is read with the type it has is pushed. -/
theorem read_push_meets {α : Type} {read : LocalVars → Except GoPanic α}
    {push : α → StackM Unit} {value : α → Value} (hpush : Pushes push value)
    {v : α}
    (hread : ∀ vars, ShowsLocals limits.maxLocals state.locals vars →
      read vars = .ok v)
    (hfits : (state.push (value v)).Fits limits) :
    Triple (During limits pc state)
      (do
        let a ← readLocal read
        onStack (push a))
      (Meets limits pc (state.push (value v))) E :=
  (readLocal_triple hread).bind_value (push_meets hpush hfits)

theorem load_meets {type : ValueType} {index : ℕ} {outcome : Outcome}
    (hload : Reference.load state type index = some outcome)
    (hfits : outcome.Fits limits) :
    Triple (During limits pc state) (load type index)
      (Meets limits pc outcome) E := by
  unfold Reference.load at hload
  simp only [Option.bind_eq_bind, Option.bind_eq_some_iff] at hload
  obtain ⟨value, hlocal, hvalue⟩ := hload
  by_cases htype : value.type = type
  · rw [if_pos htype, Option.some.injEq] at hvalue
    subst hvalue htype
    have hshows : ∀ vars, ShowsLocals limits.maxLocals state.locals vars →
        ShowsAt vars index value.halves.reverse :=
      fun vars hvars => hvars.shows_at index value hlocal
    cases value with
    | int val =>
        exact read_push_meets pushes_int
          (fun vars hvars => (hshows vars hvars).getInt (k := 0) rfl) hfits
    | long val =>
        exact read_push_meets pushes_long
          (fun vars hvars => (hshows vars hvars).getLong) hfits
    | float bits =>
        exact read_push_meets pushes_float
          (fun vars hvars => (hshows vars hvars).getInt (k := 0) rfl) hfits
    | double bits =>
        exact read_push_meets pushes_double
          (fun vars hvars => (hshows vars hvars).getLong) hfits
    | ref r =>
        exact read_push_meets pushes_ref
          (fun vars hvars => (hshows vars hvars).getRef) hfits
  · rw [if_neg htype] at hvalue
    cases hvalue

/-- A value is popped with its type and written to its variable. -/
theorem pop_write_meets {α : Type} {pop : StackM α} {value : α → Value}
    {write : α → LocalVars → Except GoPanic LocalVars} (hpop : Pops pop value)
    {v : α} {index : ℕ} {stack : List Value}
    (hstack : state.stack = value v :: stack)
    (hwrite : ∀ vars : LocalVars, vars.length = limits.maxLocals →
      ∃ vars', write v vars = .ok vars' ∧ Stores vars vars' index (value v)) :
    Triple (During limits pc state)
      (do
        let a ← onStack pop
        writeLocal (write a))
      (Meets limits pc (.next { state with
        stack := stack
        locals := state.locals.store index (value v) })) E :=
  (onStack_pop hpop hstack).bind_value (writeLocal_meets hwrite)

theorem popType_eq_some {type : ValueType} {stack rest : List Value}
    {value : Value} :
    Reference.popType type stack = some (value, rest) ↔
      stack = value :: rest ∧ value.type = type := by
  unfold Reference.popType
  split <;> grind

theorem store_meets {type : ValueType} {index : ℕ} {outcome : Outcome}
    (hstore : Reference.store limits state type index = some outcome) :
    Triple (During limits pc state) (store type index)
      (Meets limits pc outcome) E := by
  unfold Reference.store at hstore
  simp only [Option.bind_eq_bind, Option.bind_eq_some_iff, Prod.exists] at hstore
  obtain ⟨value, stack, hpop, hvalue⟩ := hstore
  by_cases hroom : index + value.category ≤ limits.maxLocals
  · rw [if_pos hroom, Option.some.injEq] at hvalue
    subst hvalue
    obtain ⟨hstack, htype⟩ := popType_eq_some.mp hpop
    subst htype
    cases value with
    | int val =>
        apply pop_write_meets pops_int hstack
        intro vars hvars
        exact setInt_stores rfl (by rw [hvars]; exact hroom)
    | long val =>
        apply pop_write_meets pops_long hstack
        intro vars hvars
        exact setLong_stores rfl (by rw [hvars]; exact hroom)
    | float bits =>
        apply pop_write_meets pops_float hstack
        intro vars hvars
        exact setInt_stores rfl (by rw [hvars]; exact hroom)
    | double bits =>
        apply pop_write_meets pops_double hstack
        intro vars hvars
        exact setLong_stores rfl (by rw [hvars]; exact hroom)
    | ref r =>
        apply pop_write_meets pops_ref hstack
        intro vars hvars
        exact setRef_stores (by rw [hvars]; exact hroom)
  · rw [if_neg hroom] at hvalue
    cases hvalue

theorem popInt_eq_some {stack rest : List Value} {val : BitVec 32} :
    Reference.popInt stack = some (val, rest) ↔ stack = .int val :: rest := by
  unfold Reference.popInt
  split <;> simp_all

theorem popLong_eq_some {stack rest : List Value} {val : BitVec 64} :
    Reference.popLong stack = some (val, rest) ↔ stack = .long val :: rest := by
  unfold Reference.popLong
  split <;> simp_all

theorem popRef_eq_some {stack rest : List Value} {ref : Ref} :
    Reference.popRef stack = some (ref, rest) ↔ stack = .ref ref :: rest := by
  unfold Reference.popRef
  split <;> simp_all

theorem iinc_meets {index : ℕ} {const : BitVec 32} {outcome : Outcome}
    (hiinc : Reference.iinc state index const = some outcome) :
    Triple (During limits pc state) (iinc index const)
      (Meets limits pc outcome) E := by
  unfold Reference.iinc at hiinc
  simp only [Option.bind_eq_bind, Option.bind_eq_some_iff, Prod.exists,
    popInt_eq_some, List.cons.injEq, Option.some.injEq] at hiinc
  obtain ⟨value, hlocal, val, _, ⟨rfl, _⟩, rfl⟩ := hiinc
  rw [BitVec.ofInt_add, BitVec.ofInt_toInt, BitVec.ofInt_toInt]
  have hshows : ∀ vars, ShowsLocals limits.maxLocals state.locals vars →
      vars.getInt index = .ok val :=
    fun vars hvars => (hvars.shows_at index _ hlocal).getInt (k := 0) rfl
  apply (readLocal_triple hshows).bind_value
  intro frame hduring
  have hindex : index < frame.localVars.length := by
    obtain ⟨slot, hslot, _⟩ :=
      hduring.shows_locals.shows_at index _ hlocal 0 (.num val) rfl
    exact (List.getElem?_eq_some_iff.mp hslot).1
  apply writeLocal_meets _ frame hduring
  intro vars hvars
  apply setInt_stores rfl
  rw [hvars, ← hduring.shows_locals.length_eq]
  exact hindex

theorem executeIndex_meets {instruction : IndexInstruction} {outcome : Outcome}
    (hexecute :
      Reference.executeIndex limits state instruction = some outcome)
    (hfits : outcome.Fits limits) :
    Triple (During limits pc state) instruction.execute
      (Meets limits pc outcome) E := by
  cases instruction with
  | load type index => exact load_meets hexecute hfits
  | store type index => exact store_meets hexecute
  | iinc index const => exact iinc_meets hexecute

end LocalAccess

/-! ## Stack instructions -/

/-- What a stack instruction does to slots, whatever values they are part of. -/
def Rearranges (inst : Instruction) (before after : List Half) : Prop :=
  match inst with
  | .pop => ∃ h1 rest, before = h1 :: rest ∧ after = rest
  | .pop2 => ∃ h1 h2 rest, before = h1 :: h2 :: rest ∧ after = rest
  | .dup => ∃ h1 rest, before = h1 :: rest ∧ after = h1 :: h1 :: rest
  | .dup_x1 => ∃ h1 h2 rest,
      before = h1 :: h2 :: rest ∧ after = h1 :: h2 :: h1 :: rest
  | .dup_x2 => ∃ h1 h2 h3 rest,
      before = h1 :: h2 :: h3 :: rest ∧ after = h1 :: h2 :: h3 :: h1 :: rest
  | .dup2 => ∃ h1 h2 rest,
      before = h1 :: h2 :: rest ∧ after = h1 :: h2 :: h1 :: h2 :: rest
  | .dup2_x1 => ∃ h1 h2 h3 rest,
      before = h1 :: h2 :: h3 :: rest ∧
        after = h1 :: h2 :: h3 :: h1 :: h2 :: rest
  | .dup2_x2 => ∃ h1 h2 h3 h4 rest,
      before = h1 :: h2 :: h3 :: h4 :: rest ∧
        after = h1 :: h2 :: h3 :: h4 :: h1 :: h2 :: rest
  | .swap => ∃ h1 h2 rest, before = h1 :: h2 :: rest ∧ after = h2 :: h1 :: rest
  | _ => False

theorem halves_of_category_one {value : Value} (hone : value.category = 1) :
    ∃ h1, value.halves = [h1] := by
  have hlength : value.halves.length = 1 := by rw [length_halves, hone]
  exact List.length_eq_one_iff.mp hlength

theorem halves_of_category_two {value : Value} (htwo : value.category = 2) :
    ∃ h1 h2, value.halves = [h1, h2] := by
  have hlength : value.halves.length = 2 := by rw [length_halves, htwo]
  exact List.length_eq_two.mp hlength

theorem apply_eq_some {α : Type} {category : α → ℕ} {form : Reference.Form}
    {stack after : List α} (happly : form.apply category stack = some after) :
    ∃ operands rest, stack = operands ++ rest ∧
      operands.map category = form.categories ∧
      after = form.order.filterMap (operands[·]?) ++ rest := by
  unfold Reference.Form.apply at happly
  by_cases hcategories :
      (stack.take form.categories.length).map category = form.categories
  · rw [if_pos hcategories, Option.some.injEq] at happly
    exact ⟨_, _, (List.take_append_drop _ _).symm, hcategories, happly.symm⟩
  · rw [if_neg hcategories] at happly
    cases happly

/-- The operands of a form, with their halves by category. -/
def OperandHalves : List ℕ → List Value → Prop
  | [], operands => operands = []
  | 1 :: categories, operands =>
      ∃ value h1 rest, operands = value :: rest ∧ value.halves = [h1] ∧
        OperandHalves categories rest
  | _ :: categories, operands =>
      ∃ value h1 h2 rest, operands = value :: rest ∧ value.halves = [h1, h2] ∧
        OperandHalves categories rest

theorem operandHalves_of_map {categories : List ℕ} {operands : List Value}
    (hmap : operands.map Value.category = categories) :
    OperandHalves categories operands := by
  induction categories generalizing operands with
  | nil => exact List.map_eq_nil_iff.mp hmap
  | cons category categories ih =>
      obtain ⟨value, rest, rfl, hcategory, hrest⟩ :=
        List.map_eq_cons_iff.mp hmap
      by_cases hone : value.category = 1
      · have hcategory' : category = 1 := by omega
        obtain ⟨h1, hhalves⟩ := halves_of_category_one hone
        subst hcategory'
        exact ⟨value, h1, rest, rfl, hhalves, ih hrest⟩
      · have htwo : value.category = 2 := by
          have hle := category_le_two value
          have hpos : 0 < value.category := by
            cases value <;>
              simp [Value.category, Value.type, ValueType.category]
          omega
        have hcategory' : category = 2 := by omega
        obtain ⟨h1, h2, hhalves⟩ := halves_of_category_two htwo
        subst hcategory'
        exact ⟨value, h1, h2, rest, rfl, hhalves, ih hrest⟩

theorem rearranges_of_shuffle {inst : Instruction} {stack after : List Value}
    (hshuffle : Reference.shuffle Value.category inst stack = some after) :
    Rearranges inst (halvesOf stack) (halvesOf after) := by
  obtain ⟨form, hform, happly⟩ := List.exists_of_findSome?_eq_some hshuffle
  obtain ⟨operands, rest, rfl, hmap, rfl⟩ := apply_eq_some happly
  have hhalves := operandHalves_of_map hmap
  unfold Reference.forms at hform
  cases inst
  all_goals simp only [List.mem_cons, List.not_mem_nil, or_false] at hform
  case pop =>
    subst hform
    obtain ⟨v1, h1, _, rfl, e1, rfl⟩ := hhalves
    simp [Rearranges, halvesOf, e1]
  case pop2 =>
    rcases hform with rfl | rfl
    · obtain ⟨v1, h1, _, rfl, e1, v2, h2, _, rfl, e2, rfl⟩ := hhalves
      simp [Rearranges, halvesOf, e1, e2]
    · obtain ⟨v1, h1, h2, _, rfl, e1, rfl⟩ := hhalves
      simp [Rearranges, halvesOf, e1]
  case dup =>
    subst hform
    obtain ⟨v1, h1, _, rfl, e1, rfl⟩ := hhalves
    simp [Rearranges, halvesOf, e1]
  case dup_x1 =>
    subst hform
    obtain ⟨v1, h1, _, rfl, e1, v2, h2, _, rfl, e2, rfl⟩ := hhalves
    simp [Rearranges, halvesOf, e1, e2]
  case dup_x2 =>
    rcases hform with rfl | rfl
    · obtain ⟨v1, h1, _, rfl, e1, v2, h2, _, rfl, e2, v3, h3, _, rfl, e3, rfl⟩ := hhalves
      simp [Rearranges, halvesOf, e1, e2, e3]
    · obtain ⟨v1, h1, _, rfl, e1, v2, h2, h3, _, rfl, e2, rfl⟩ := hhalves
      simp [Rearranges, halvesOf, e1, e2]
  case dup2 =>
    rcases hform with rfl | rfl
    · obtain ⟨v1, h1, _, rfl, e1, v2, h2, _, rfl, e2, rfl⟩ := hhalves
      simp [Rearranges, halvesOf, e1, e2]
    · obtain ⟨v1, h1, h2, _, rfl, e1, rfl⟩ := hhalves
      simp [Rearranges, halvesOf, e1]
  case dup2_x1 =>
    rcases hform with rfl | rfl
    · obtain ⟨v1, h1, _, rfl, e1, v2, h2, _, rfl, e2, v3, h3, _, rfl, e3, rfl⟩ := hhalves
      simp [Rearranges, halvesOf, e1, e2, e3]
    · obtain ⟨v1, h1, h2, _, rfl, e1, v2, h3, _, rfl, e2, rfl⟩ := hhalves
      simp [Rearranges, halvesOf, e1, e2]
  case dup2_x2 =>
    rcases hform with rfl | rfl | rfl | rfl
    · obtain ⟨v1, h1, _, rfl, e1, v2, h2, _, rfl, e2, v3, h3, _, rfl, e3, v4, h4, _, rfl, e4, rfl⟩ := hhalves
      simp [Rearranges, halvesOf, e1, e2, e3, e4]
    · obtain ⟨v1, h1, h2, _, rfl, e1, v2, h3, _, rfl, e2, v3, h4, _, rfl, e3, rfl⟩ := hhalves
      simp [Rearranges, halvesOf, e1, e2, e3]
    · obtain ⟨v1, h1, _, rfl, e1, v2, h2, _, rfl, e2, v3, h3, h4, _, rfl, e3, rfl⟩ := hhalves
      simp [Rearranges, halvesOf, e1, e2, e3]
    · obtain ⟨v1, h1, h2, _, rfl, e1, v2, h3, h4, _, rfl, e2, rfl⟩ := hhalves
      simp [Rearranges, halvesOf, e1, e2]
  case swap =>
    subst hform
    obtain ⟨v1, h1, _, rfl, e1, v2, h2, _, rfl, e2, rfl⟩ := hhalves
    simp [Rearranges, halvesOf, e1, e2]

section Execute

variable {limits : Limits} {pc : ℤ} {state : State} {E : GoPanic → Prop}
variable (unit : FloatUnit)

theorem rearranges_meets {inst : Instruction} {stack : List Value}
    (hrearranges : Rearranges inst (halvesOf state.stack) (halvesOf stack))
    (hdepth : Reference.depth stack ≤ limits.maxStack) :
    Triple (During limits pc state) (inst.execute unit)
      (Meets limits pc (.next { state with stack := stack })) E := by
  rw [← length_halvesOf] at hdepth
  cases inst
  case pop =>
    obtain ⟨h1, rest, hbefore, hafter⟩ := hrearranges
    apply onStack_meets
    rw [hbefore, hafter]
    exact pop1_triple
  case pop2 =>
    obtain ⟨h1, h2, rest, hbefore, hafter⟩ := hrearranges
    apply onStack_meets
    rw [hbefore, hafter]
    exact pop2_triple
  case dup =>
    obtain ⟨h1, rest, hbefore, hafter⟩ := hrearranges
    apply onStack_meets
    rw [hafter] at hdepth
    rw [hbefore, hafter]
    exact dup_triple hdepth
  case dup_x1 =>
    obtain ⟨h1, h2, rest, hbefore, hafter⟩ := hrearranges
    apply onStack_meets
    rw [hafter] at hdepth
    rw [hbefore, hafter]
    exact dup_x1_triple hdepth
  case dup_x2 =>
    obtain ⟨h1, h2, h3, rest, hbefore, hafter⟩ := hrearranges
    apply onStack_meets
    rw [hafter] at hdepth
    rw [hbefore, hafter]
    exact dup_x2_triple hdepth
  case dup2 =>
    obtain ⟨h1, h2, rest, hbefore, hafter⟩ := hrearranges
    apply onStack_meets
    rw [hafter] at hdepth
    rw [hbefore, hafter]
    exact dup2_triple hdepth
  case dup2_x1 =>
    obtain ⟨h1, h2, h3, rest, hbefore, hafter⟩ := hrearranges
    apply onStack_meets
    rw [hafter] at hdepth
    rw [hbefore, hafter]
    exact dup2_x1_triple hdepth
  case dup2_x2 =>
    obtain ⟨h1, h2, h3, h4, rest, hbefore, hafter⟩ := hrearranges
    apply onStack_meets
    rw [hafter] at hdepth
    rw [hbefore, hafter]
    exact dup2_x2_triple hdepth
  case swap =>
    obtain ⟨h1, h2, rest, hbefore, hafter⟩ := hrearranges
    apply onStack_meets
    rw [hafter] at hdepth
    rw [hbefore, hafter]
    exact swap_triple hdepth
  all_goals exact False.elim hrearranges

/-! ## Branches -/

theorem branch_meets (offset : ℤ) :
    Triple (During limits pc state) (branch offset)
      (Meets limits pc (.next (state.branch pc offset))) E := by
  intro frame hduring
  have hnext : frame.thread.pc + offset = (state.branch pc offset).pc := by
    rw [hduring.thread_pc]
    rfl
  exact ⟨_, rfl, ⟨hnext, hduring.holds_stack, hduring.shows_locals⟩,
    hduring.thread_pc⟩

theorem branchIf_meets {taken expected : Bool} (offset : ℤ)
    (htaken : expected = taken) :
    Triple (During limits pc state) (branchIf taken offset)
      (Meets limits pc (.next (state.branchIf expected pc offset))) E := by
  subst htaken
  cases expected with
  | true => exact branch_meets offset
  | false => exact Triple.pure fun frame hduring => ⟨_, rfl, hduring⟩

theorem ifCond_meets {cond : Cond} {offset : ℤ} {val : BitVec 32}
    {stack : List Value} (hstack : state.stack = .int val :: stack) :
    Triple (During limits pc state) (ifCond cond offset)
      (Meets limits pc (.next ({ state with stack := stack }.branchIf
        (Reference.test cond val.toInt 0) pc offset))) E := by
  apply (onStack_pop pops_int hstack).bind_value
  exact branchIf_meets offset (test_eq cond val 0)

theorem ifIcmp_meets {cond : Cond} {offset : ℤ} {v1 v2 : BitVec 32}
    {stack : List Value} (hstack : state.stack = .int v2 :: .int v1 :: stack) :
    Triple (During limits pc state) (ifIcmp cond offset)
      (Meets limits pc (.next ({ state with stack := stack }.branchIf
        (Reference.test cond v1.toInt v2.toInt) pc offset))) E := by
  apply (onStack_pop pops_int hstack).bind_value
  apply (onStack_pop pops_int rfl).bind_value
  exact branchIf_meets offset (test_eq cond v1 v2)

theorem ifAcmp_meets {equal : Bool} {offset : ℤ} {ref1 ref2 : Ref}
    {stack : List Value}
    (hstack : state.stack = .ref ref2 :: .ref ref1 :: stack) :
    Triple (During limits pc state) (ifAcmp equal offset)
      (Meets limits pc (.next ({ state with stack := stack }.branchIf
        (if equal then ref1 = ref2 else ref1 ≠ ref2) pc offset))) E := by
  apply (onStack_pop pops_ref hstack).bind_value
  apply (onStack_pop pops_ref rfl).bind_value
  apply branchIf_meets offset
  cases equal <;> grind

theorem ifNull_meets {null : Bool} {offset : ℤ} {ref : Ref}
    {stack : List Value} (hstack : state.stack = .ref ref :: stack) :
    Triple (During limits pc state) (ifNull null offset)
      (Meets limits pc (.next ({ state with stack := stack }.branchIf
        (if null then ref = none else ref ≠ none) pc offset))) E := by
  apply (onStack_pop pops_ref hstack).bind_value
  apply branchIf_meets offset
  cases null <;> cases ref <;> rfl

/-! ## Switches -/

/-- With a table inside the `int32` range, `index - low` does not wrap. -/
theorem tableSwitchOffset_eq {defaultOffset low high index offset : BitVec 32}
    {jumpOffsets : List (BitVec 32)}
    (hlength : (jumpOffsets.length : ℤ) = high.toInt - low.toInt + 1)
    (hbounded : jumpOffsets.length < 2 ^ 31)
    (hoffset : Reference.tableOffset defaultOffset low high jumpOffsets index =
      some offset) :
    tableSwitchOffset defaultOffset low high jumpOffsets index = .ok offset := by
  unfold Reference.tableOffset at hoffset
  unfold tableSwitchOffset
  have hlow : low.sle index = true ↔ low.toInt ≤ index.toInt := by
    simp [BitVec.sle]
  have hhigh : index.sle high = true ↔ index.toInt ≤ high.toInt := by
    simp [BitVec.sle]
  simp only [hlow, hhigh]
  by_cases hinside : low.toInt ≤ index.toInt ∧ index.toInt ≤ high.toInt
  · rw [if_pos hinside] at hoffset ⊢
    obtain ⟨hle, hge⟩ := hinside
    have hdiff : (index - low).toInt = index.toInt - low.toInt := by
      rw [BitVec.toInt_sub]
      apply Int.bmod_eq_of_le
      · omega
      · omega
    have hnonneg : ¬ index.toInt - low.toInt < 0 := by omega
    unfold offsetAt
    rw [hdiff, if_neg hnonneg, hoffset]
  · rw [if_neg hinside] at hoffset ⊢
    rw [Option.some.inj hoffset]

theorem offsetAt_append {before after : List (BitVec 32)} {offset : BitVec 32} :
    offsetAt (before ++ offset :: after) (before.length : ℕ) = .ok offset := by
  have hnonneg : ¬ ((before.length : ℕ) : ℤ) < 0 := by omega
  unfold offsetAt
  rw [if_neg hnonneg]
  simp

theorem offsetAt_append_succ {before after : List (BitVec 32)}
    {found offset : BitVec 32} :
    offsetAt (before ++ found :: offset :: after)
      ((before.length : ℕ) + 1) = .ok offset := by
  have happend : before ++ found :: offset :: after =
      (before ++ [found]) ++ offset :: after := by simp
  have hlen : ((before.length : ℕ) : ℤ) + 1 =
      ((before ++ [found]).length : ℕ) := by simp
  rw [happend, hlen]
  exact offsetAt_append

/-- The loop over the rest of the pairs; `before` was looked at already. -/
theorem lookupSwitchLoop_eq (defaultOffset key : BitVec 32)
    (before pairs : List (BitVec 32)) (rounds : ℕ)
    (hlength : pairs.length = 2 * rounds) :
    lookupSwitchLoop defaultOffset key (before ++ pairs) before.length rounds =
      .ok (Reference.lookupOffset defaultOffset key pairs) := by
  induction rounds generalizing before pairs with
  | zero =>
      have hnil : pairs = [] := List.length_eq_zero_iff.mp hlength
      rw [hnil]
      rfl
  | succ rounds ih =>
      obtain ⟨found, offset, rest, rfl⟩ :
          ∃ found offset rest, pairs = found :: offset :: rest := by
        match pairs, hlength with
        | found :: offset :: rest, _ => exact ⟨found, offset, rest, rfl⟩
      have hfound : offsetAt (before ++ found :: offset :: rest)
          (before.length : ℕ) = .ok found := offsetAt_append
      have hoffset : offsetAt (before ++ found :: offset :: rest)
          ((before.length : ℕ) + 1) = .ok offset := offsetAt_append_succ
      unfold lookupSwitchLoop Reference.lookupOffset
      rw [hfound]
      by_cases hkey : found = key
      · rw [if_pos hkey]
        show (if found = key then _ else _) = _
        rw [if_pos hkey, hoffset]
      · rw [if_neg hkey]
        show (if found = key then _ else _) = _
        rw [if_neg hkey]
        have hrest : rest.length = 2 * rounds := by
          simp only [List.length_cons] at hlength
          omega
        have htail := ih (before ++ [found, offset]) rest hrest
        have happend : before ++ [found, offset] ++ rest =
            before ++ found :: offset :: rest := by simp
        have hlen : (before ++ [found, offset]).length = before.length + 2 := by
          simp
        rw [happend, hlen] at htail
        exact htail

theorem tableSwitch_meets {defaultOffset low high index offset : BitVec 32}
    {jumpOffsets : List (BitVec 32)} {stack : List Value}
    (hrange : (Instruction.tableSwitch defaultOffset low high
      jumpOffsets).InRange)
    (hbounded : jumpOffsets.length < 2 ^ 31)
    (hstack : state.stack = .int index :: stack)
    (hoffset : Reference.tableOffset defaultOffset low high jumpOffsets index =
      some offset) :
    Triple (During limits pc state) (tableSwitch defaultOffset low high jumpOffsets)
      (Meets limits pc (.next
        ({ state with stack := stack }.branch pc offset.toInt))) E := by
  have hcode := tableSwitchOffset_eq hrange.2 hbounded hoffset
  apply (onStack_pop pops_int hstack).bind_value
  rw [hcode]
  exact branch_meets offset.toInt

/-- The loop of `LOOKUP_SWITCH` has a round for every pair. -/
theorem lookupSwitch_rounds {defaultOffset npairs : BitVec 32}
    {matchOffsets : List (BitVec 32)}
    (hrange : (Instruction.lookupSwitch defaultOffset npairs
      matchOffsets).InRange)
    (hbounded : matchOffsets.length < 2 ^ 31) :
    matchOffsets.length = 2 * (((npairs * 2).toInt + 1) / 2).toNat := by
  have heven := hrange.2
  have hcount := Instruction.matchOffsetsCount_eq hrange.2 hbounded
  rw [hcount]
  omega

theorem lookupSwitch_meets {defaultOffset npairs key : BitVec 32}
    {matchOffsets : List (BitVec 32)} {stack : List Value}
    (hrange : (Instruction.lookupSwitch defaultOffset npairs
      matchOffsets).InRange)
    (hbounded : matchOffsets.length < 2 ^ 31)
    (hstack : state.stack = .int key :: stack) :
    Triple (During limits pc state)
      (lookupSwitch defaultOffset npairs matchOffsets)
      (Meets limits pc (.next ({ state with stack := stack }.branch pc
        (Reference.lookupOffset defaultOffset key matchOffsets).toInt))) E := by
  have hrounds := lookupSwitch_rounds hrange hbounded
  have hcode : lookupSwitchLoop defaultOffset key matchOffsets 0
      (((npairs * 2).toInt + 1) / 2).toNat =
        .ok (Reference.lookupOffset defaultOffset key matchOffsets) :=
    lookupSwitchLoop_eq defaultOffset key [] matchOffsets _ hrounds
  apply (onStack_pop pops_int hstack).bind_value
  rw [hcode]
  exact branch_meets _

/-! ## One instruction -/

theorem convert_meets {conversion : Conversion} {value result : Value}
    {stack : List Value}
    (hconvert : Reference.convert conversion value = some result)
    (hstack : state.stack = value :: stack)
    (hfits : ({ state with stack := stack }.push result).Fits limits) :
    Triple (During limits pc state) (onStack (convert unit conversion))
      (Meets limits pc ({ state with stack := stack }.push result)) E := by
  unfold Reference.convert at hconvert
  split at hconvert
  · cases hconvert
    exact unary_meets pops_int pushes_long hstack hfits
  · rw [ofInt_setWidth (by omega)] at hconvert
    cases hconvert
    exact unary_meets pops_long pushes_int hstack hfits
  · rw [ofInt_bmod (by omega)] at hconvert
    cases hconvert
    exact unary_meets pops_int pushes_int hstack hfits
  · rw [ofInt_emod] at hconvert
    cases hconvert
    exact unary_meets pops_int pushes_int hstack hfits
  · rw [ofInt_bmod (by omega)] at hconvert
    cases hconvert
    exact unary_meets pops_int pushes_int hstack hfits
  · cases hconvert

theorem execute_arith {op : ArithOp} {type : NumType}
    {outcome : Outcome}
    (hexecute : Reference.executeArith state op type = some outcome)
    (hfits : outcome.Fits limits) :
    Triple (During limits pc state) (Instruction.execute unit (.arith op type))
      (Meets limits pc outcome) (Raises outcome) := by
  cases type with
  | int =>
      simp only [Reference.executeArith, Option.bind_eq_bind,
        Option.bind_eq_some_iff, Prod.exists, popInt_eq_some,
        Option.some.injEq] at hexecute
      obtain ⟨v2, _, hstack, v1, stack, rfl, rfl⟩ := hexecute
      show Triple _ (onStack (arith unit op .int)) _ _
      rw [arith_int]
      exact intArith_meets pops_int pushes_int op hstack hfits
  | long =>
      simp only [Reference.executeArith, Option.bind_eq_bind,
        Option.bind_eq_some_iff, Prod.exists, popLong_eq_some,
        Option.some.injEq] at hexecute
      obtain ⟨v2, _, hstack, v1, stack, rfl, rfl⟩ := hexecute
      show Triple _ (onStack (arith unit op .long)) _ _
      rw [arith_long]
      exact intArith_meets pops_long pushes_long op hstack hfits
  | float => cases hexecute
  | double => cases hexecute

theorem execute_neg {type : NumType} {outcome : Outcome}
    (hexecute : Reference.executeNeg state type = some outcome)
    (hfits : outcome.Fits limits) :
    Triple (During limits pc state) (Instruction.execute unit (.neg type))
      (Meets limits pc outcome) (Raises outcome) := by
  cases type with
  | int =>
      simp only [Reference.executeNeg, Option.bind_eq_bind,
        Option.bind_eq_some_iff, Prod.exists, popInt_eq_some,
        Option.some.injEq, neg_eq] at hexecute
      obtain ⟨val, stack, hstack, rfl⟩ := hexecute
      exact unary_meets pops_int pushes_int hstack hfits
  | long =>
      simp only [Reference.executeNeg, Option.bind_eq_bind,
        Option.bind_eq_some_iff, Prod.exists, popLong_eq_some,
        Option.some.injEq, neg_eq] at hexecute
      obtain ⟨val, stack, hstack, rfl⟩ := hexecute
      exact unary_meets pops_long pushes_long hstack hfits
  | float => cases hexecute
  | double => cases hexecute

theorem execute_shift {op : ShiftOp} {type : IntType}
    {outcome : Outcome}
    (hexecute : Reference.executeShift state op type = some outcome)
    (hfits : outcome.Fits limits) :
    Triple (During limits pc state) (Instruction.execute unit (.shift op type))
      (Meets limits pc outcome) (Raises outcome) := by
  cases type with
  | int =>
      simp only [Reference.executeShift, Option.bind_eq_bind,
        Option.bind_eq_some_iff, Prod.exists, popInt_eq_some,
        Option.some.injEq] at hexecute
      obtain ⟨v2, _, hstack, v1, stack, rfl, rfl⟩ := hexecute
      rw [shift_eq_shiftBy op v1 v2 (toNat_and_mask32 v2)] at hfits ⊢
      exact binary_meets pops_int pops_int pushes_int hstack hfits
  | long =>
      simp only [Reference.executeShift, Option.bind_eq_bind,
        Option.bind_eq_some_iff, Prod.exists, popInt_eq_some, popLong_eq_some,
        Option.some.injEq] at hexecute
      obtain ⟨v2, _, hstack, v1, stack, rfl, rfl⟩ := hexecute
      rw [shift_eq_shiftBy op v1 v2 (toNat_and_mask64 v2)] at hfits ⊢
      exact binary_meets pops_int pops_long pushes_long hstack hfits

theorem execute_bit {op : BitOp} {type : IntType}
    {outcome : Outcome}
    (hexecute : Reference.executeBit state op type = some outcome)
    (hfits : outcome.Fits limits) :
    Triple (During limits pc state) (Instruction.execute unit (.bit op type))
      (Meets limits pc outcome) (Raises outcome) := by
  cases type with
  | int =>
      simp only [Reference.executeBit, Option.bind_eq_bind,
        Option.bind_eq_some_iff, Prod.exists, popInt_eq_some,
        Option.some.injEq, bit_eq_bitwise] at hexecute
      obtain ⟨v2, _, hstack, v1, stack, rfl, rfl⟩ := hexecute
      exact binary_meets pops_int pops_int pushes_int hstack hfits
  | long =>
      simp only [Reference.executeBit, Option.bind_eq_bind,
        Option.bind_eq_some_iff, Prod.exists, popLong_eq_some,
        Option.some.injEq, bit_eq_bitwise] at hexecute
      obtain ⟨v2, _, hstack, v1, stack, rfl, rfl⟩ := hexecute
      exact binary_meets pops_long pops_long pushes_long hstack hfits

theorem execute_convert {conversion : Conversion}
    {outcome : Outcome}
    (hexecute : Reference.executeConvert state conversion = some outcome)
    (hfits : outcome.Fits limits) :
    Triple (During limits pc state) (Instruction.execute unit (.convert conversion))
      (Meets limits pc outcome) (Raises outcome) := by
  cases hstack : state.stack with
  | nil => simp [Reference.executeConvert, hstack] at hexecute
  | cons value stack =>
      simp only [Reference.executeConvert, hstack, List.head?_cons,
        Option.map_some, List.tail_cons, Option.bind_eq_bind,
        Option.bind_some, Option.bind_eq_some_iff,
        Option.some.injEq] at hexecute
      obtain ⟨result, hconvert, rfl⟩ := hexecute
      exact convert_meets unit hconvert hstack hfits

theorem execute_lcmp {outcome : Outcome}
    (hexecute : Reference.executeLcmp state = some outcome)
    (hfits : outcome.Fits limits) :
    Triple (During limits pc state) (Instruction.execute unit .lcmp)
      (Meets limits pc outcome) (Raises outcome) := by
  simp only [Reference.executeLcmp, Option.bind_eq_bind,
    Option.bind_eq_some_iff, Prod.exists, popLong_eq_some,
    Option.some.injEq, lcmp_eq] at hexecute
  obtain ⟨v2, _, hstack, v1, stack, rfl, rfl⟩ := hexecute
  exact binary_meets pops_long pops_long pushes_int hstack hfits

theorem execute_ifCond {cond : Cond} {offset : ℤ}
    {outcome : Outcome}
    (hexecute : Reference.executeIfCond pc state cond offset = some outcome) :
    Triple (During limits pc state) (Instruction.execute unit (.ifCond cond offset))
      (Meets limits pc outcome) (Raises outcome) := by
  simp only [Reference.executeIfCond, Option.bind_eq_bind,
    Option.bind_eq_some_iff, Prod.exists, popInt_eq_some,
    Option.some.injEq] at hexecute
  obtain ⟨val, stack, hstack, rfl⟩ := hexecute
  exact ifCond_meets hstack

theorem execute_ifIcmp {cond : Cond} {offset : ℤ}
    {outcome : Outcome}
    (hexecute : Reference.executeIfIcmp pc state cond offset = some outcome) :
    Triple (During limits pc state) (Instruction.execute unit (.ifIcmp cond offset))
      (Meets limits pc outcome) (Raises outcome) := by
  simp only [Reference.executeIfIcmp, Option.bind_eq_bind,
    Option.bind_eq_some_iff, Prod.exists, popInt_eq_some,
    Option.some.injEq] at hexecute
  obtain ⟨v2, _, hstack, v1, stack, rfl, rfl⟩ := hexecute
  exact ifIcmp_meets hstack

theorem execute_ifAcmp {equal : Bool} {offset : ℤ}
    {outcome : Outcome}
    (hexecute : Reference.executeIfAcmp pc state equal offset = some outcome) :
    Triple (During limits pc state) (Instruction.execute unit (.ifAcmp equal offset))
      (Meets limits pc outcome) (Raises outcome) := by
  simp only [Reference.executeIfAcmp, Option.bind_eq_bind,
    Option.bind_eq_some_iff, Prod.exists, popRef_eq_some,
    Option.some.injEq] at hexecute
  obtain ⟨ref2, _, hstack, ref1, stack, rfl, rfl⟩ := hexecute
  exact ifAcmp_meets hstack

theorem execute_ifNull {null : Bool} {offset : ℤ}
    {outcome : Outcome}
    (hexecute : Reference.executeIfNull pc state null offset = some outcome) :
    Triple (During limits pc state) (Instruction.execute unit (.ifNull null offset))
      (Meets limits pc outcome) (Raises outcome) := by
  simp only [Reference.executeIfNull, Option.bind_eq_bind,
    Option.bind_eq_some_iff, Prod.exists, popRef_eq_some,
    Option.some.injEq] at hexecute
  obtain ⟨ref, stack, hstack, rfl⟩ := hexecute
  exact ifNull_meets hstack

theorem execute_tableSwitch {defaultOffset low high : BitVec 32}
    {jumpOffsets : List (BitVec 32)} {outcome : Outcome}
    (hrange : (Instruction.tableSwitch defaultOffset low high
      jumpOffsets).InRange)
    (hbounded : jumpOffsets.length < 2 ^ 31)
    (hexecute : Reference.executeTableSwitch pc state defaultOffset low high
      jumpOffsets = some outcome) :
    Triple (During limits pc state) (tableSwitch defaultOffset low high jumpOffsets)
      (Meets limits pc outcome) (Raises outcome) := by
  simp only [Reference.executeTableSwitch, Option.bind_eq_bind,
    Option.bind_eq_some_iff, Prod.exists, popInt_eq_some,
    Option.some.injEq] at hexecute
  obtain ⟨index, stack, hstack, offset, hoffset, rfl⟩ := hexecute
  exact tableSwitch_meets hrange hbounded hstack hoffset

theorem execute_lookupSwitch {defaultOffset npairs : BitVec 32}
    {matchOffsets : List (BitVec 32)} {outcome : Outcome}
    (hrange : (Instruction.lookupSwitch defaultOffset npairs
      matchOffsets).InRange)
    (hbounded : matchOffsets.length < 2 ^ 31)
    (hexecute : Reference.executeLookupSwitch pc state defaultOffset
      matchOffsets = some outcome) :
    Triple (During limits pc state)
      (lookupSwitch defaultOffset npairs matchOffsets)
      (Meets limits pc outcome) (Raises outcome) := by
  simp only [Reference.executeLookupSwitch, Option.bind_eq_bind,
    Option.bind_eq_some_iff, Prod.exists, popInt_eq_some,
    Option.some.injEq] at hexecute
  obtain ⟨key, stack, hstack, rfl⟩ := hexecute
  exact lookupSwitch_meets hrange hbounded hstack

/-- `POP`, ..., `SWAP`; other instructions have no form. -/
theorem execute_shuffle {inst : Instruction} {outcome : Outcome}
    (hexecute : Reference.executeShuffle state inst = some outcome)
    (hfits : outcome.Fits limits) :
    Triple (During limits pc state) (inst.execute unit)
      (Meets limits pc outcome) (Raises outcome) := by
  simp only [Reference.executeShuffle, Option.bind_eq_bind,
    Option.bind_eq_some_iff, Option.some.injEq] at hexecute
  obtain ⟨stack, hstack, rfl⟩ := hexecute
  exact rearranges_meets unit (rearranges_of_shuffle hstack) hfits

/-- An instruction that is well typed and fits does what the reference machine
does. -/
theorem execute_meets {inst : Instruction} {outcome : Outcome}
    (hrange : inst.InRange) (hbounded : inst.TableBounded)
    (hexecute : Reference.execute limits pc inst state = some outcome)
    (hfits : outcome.Fits limits) :
    Triple (During limits pc state) (inst.execute unit)
      (Meets limits pc outcome) (Raises outcome) := by
  cases inst with
  | nop =>
      cases hexecute
      exact Triple.pure fun frame hduring => ⟨_, rfl, hduring⟩
  | aconst_null =>
      cases hexecute
      exact push_meets pushes_ref hfits
  | iconst_m1 | iconst_0 | iconst_1 | iconst_2 | iconst_3 | iconst_4
  | iconst_5 =>
      cases hexecute
      exact push_meets pushes_int hfits
  | dconst_0 | dconst_1 =>
      cases hexecute
      exact push_meets pushes_double hfits
  | bipush val | sipush val =>
      cases hexecute
      exact push_meets pushes_int hfits
  | index instruction => exact executeIndex_meets hexecute hfits
  | loadN type n => exact load_meets hexecute hfits
  | storeN type n => exact store_meets hexecute
  | arith op type => exact execute_arith unit hexecute hfits
  | neg type => exact execute_neg unit hexecute hfits
  | shift op type => exact execute_shift unit hexecute hfits
  | bit op type => exact execute_bit unit hexecute hfits
  | convert conversion => exact execute_convert unit hexecute hfits
  | lcmp => exact execute_lcmp unit hexecute hfits
  | ifCond cond offset => exact execute_ifCond unit hexecute
  | ifIcmp cond offset => exact execute_ifIcmp unit hexecute
  | ifAcmp equal offset => exact execute_ifAcmp unit hexecute
  | ifNull null offset => exact execute_ifNull unit hexecute
  | goto offset | goto_w offset =>
      cases hexecute
      exact branch_meets offset
  | tableSwitch defaultOffset low high jumpOffsets =>
      exact execute_tableSwitch hrange hbounded hexecute
  | lookupSwitch defaultOffset npairs matchOffsets =>
      exact execute_lookupSwitch hrange hbounded hexecute
  | wide modifiedInstruction =>
      obtain ⟨instruction, rfl, _⟩ := hrange
      exact executeIndex_meets hexecute hfits
  | pop | pop2 | dup | dup_x1 | dup_x2 | dup2 | dup2_x1 | dup2_x2 | swap =>
      exact execute_shuffle unit hexecute hfits
  | lconst_0 | lconst_1 | fconst_0 | fconst_1 | fconst_2 => cases hexecute
  | fcmp gFlag | dcmp gFlag => cases hexecute

end Execute

/-! ## Rounds and runs -/

/-- A table inside the code has a length that `int32` can count. -/
theorem tableBounded_of_at {code : Bytecode} {pc : ℕ} {inst : Instruction}
    (hat : Reference.InstructionAt code pc inst) : inst.TableBounded := by
  obtain ⟨bytes, ⟨_, padding, _, rfl⟩, hbytes⟩ := hat
  have hlength : (inst.encode padding).length ≤ code.bytes.length := by
    have hdrop := hbytes.length_le
    rw [List.length_drop] at hdrop
    omega
  have hcode := code.length_lt
  cases inst with
  | tableSwitch defaultOffset low high jumpOffsets =>
      simp only [Instruction.encode, Instruction.operands, List.length_cons,
        List.length_append, BigEndian.length_flatMap_bytes32] at hlength
      show jumpOffsets.length < 2 ^ 31
      omega
  | lookupSwitch defaultOffset npairs matchOffsets =>
      simp only [Instruction.encode, Instruction.operands, List.length_cons,
        List.length_append, BigEndian.length_flatMap_bytes32] at hlength
      show matchOffsets.length < 2 ^ 31
      omega
  | _ => trivial

/-- The result of a round against the outcome of a step. -/
def Simulates (limits : Limits) (outcome : Outcome)
    (result : Except GoPanic Frame) : Prop :=
  match outcome with
  | .next state => ∃ frame, result = .ok frame ∧ Represents limits state frame
  | .arithmeticException => result = .error .divideByZero

section Rounds

variable (unit : FloatUnit) {limits : Limits} {code : Bytecode}

theorem loopRound_decoded {frame : Frame} {pc : ℕ} {inst : Instruction}
    (hpc : frame.nextPc = pc) (hat : Reference.InstructionAt code pc inst) :
    loopRound unit code.bytes frame =
      match inst.execute unit { frame with
          thread := ⟨pc⟩
          nextPc := (pc + inst.sizeAt pc : ℕ) } with
      | .ok (_, after) => .ok after
      | .error panic => .error panic := by
  have hbounded := tableBounded_of_at hat
  obtain ⟨bytes, hencodes, hbytes⟩ := hat
  have hdecode := Instruction.decode_encodes hencodes hbounded hbytes
  exact loopRound_of_decode unit hpc hdecode

theorem loopRound_simulates {state : State} {frame : Frame} {pc : ℕ}
    {inst : Instruction} {outcome : Outcome}
    (hrepresents : Represents limits state frame)
    (hstep : Reference.Step limits code state pc inst outcome) :
    Simulates limits outcome (loopRound unit code.bytes frame) := by
  have hpc : frame.nextPc = pc := by
    rw [hrepresents.next_pc, hstep.at_pc]
  rw [loopRound_decoded unit hpc hstep.instruction]
  have hbounded := tableBounded_of_at hstep.instruction
  obtain ⟨bytes, ⟨hrange, _⟩, _⟩ := hstep.instruction
  have hduring : During limits pc
      { state with pc := (pc + inst.sizeAt pc : ℕ) }
      { frame with
        thread := ⟨pc⟩
        nextPc := (pc + inst.sizeAt pc : ℕ) } :=
    ⟨⟨rfl, hrepresents.holds_stack, hrepresents.shows_locals⟩, rfl⟩
  have hends := execute_meets unit hrange hbounded hstep.executes hstep.fits
    _ hduring
  cases hresult : inst.execute unit { frame with
      thread := ⟨pc⟩
      nextPc := (pc + inst.sizeAt pc : ℕ) } with
  | ok result =>
      rw [hresult] at hends
      obtain ⟨next, rfl, hnext⟩ := hends
      exact ⟨result.2, rfl, hnext.toRepresents⟩
  | error panic =>
      rw [hresult] at hends
      obtain ⟨rfl, rfl⟩ := hends
      rfl

theorem loop_simulates {n : ℕ} {state last : State} {frame : Frame}
    (hrepresents : Represents limits state frame)
    (hrun : Reference.Run limits code n state last) :
    ∃ frame', loop unit code.bytes n frame = .ok frame' ∧
      Represents limits last frame' := by
  induction hrun generalizing frame with
  | refl => exact ⟨frame, rfl, hrepresents⟩
  | @step n _ _ _ _ _ head tail ih =>
      obtain ⟨after, hround, hafter⟩ :=
        loopRound_simulates unit hrepresents head
      obtain ⟨frame', hloop, hframe'⟩ := ih hafter
      have hsucc : loop unit code.bytes (n + 1) frame = .ok frame' := by
        unfold loop
        rw [hround]
        exact hloop
      exact ⟨frame', hsucc, hframe'⟩

end Rounds

/-- A run of the reference machine from a state that the frame represents is
followed by as many rounds of `loop`, and wherever the reference machine has a
next step, one more round raises the same exception or reaches a frame that
represents the state after it. -/
theorem interpreter_simulation (unit : FloatUnit) {limits : Limits}
    {code : Bytecode} {n : ℕ} {state last : State} {frame : Frame}
    (hrepresents : Represents limits state frame)
    (hrun : Reference.Run limits code n state last) :
    ∃ frame', loop unit code.bytes n frame = .ok frame' ∧
      Represents limits last frame' ∧
      ∀ (pc : ℕ) (inst : Instruction) (outcome : Outcome),
        Reference.Step limits code last pc inst outcome →
        Simulates limits outcome (loopRound unit code.bytes frame') := by
  obtain ⟨frame', hloop, hframe'⟩ := loop_simulates unit hrepresents hrun
  have hnext : ∀ (pc : ℕ) (inst : Instruction) (outcome : Outcome),
      Reference.Step limits code last pc inst outcome →
      Simulates limits outcome (loopRound unit code.bytes frame') :=
    fun pc inst outcome hstep => loopRound_simulates unit hframe' hstep
  exact ⟨frame', hloop, hframe', hnext⟩

/-! ## The frame that `interpret` makes -/

def initialState : State where
  pc := 0
  stack := []
  locals := fun _ => none

theorem represents_newFrame (limits : Limits) :
    Represents limits initialState
      (newFrame ⟨0⟩ limits.maxLocals limits.maxStack) := by
  constructor
  · rfl
  · have hcapacity :
        (newOperandStack limits.maxStack).slots.length = limits.maxStack :=
      List.length_replicate
    exact ⟨hcapacity, .nil⟩
  · constructor
    · exact List.length_replicate
    · intro index value hnone
      cases hnone

/-- A unit for methods that compute with integers only. -/
def integerUnit : FloatUnit where
  float32Neg := fun _ => 0
  float32Add := fun _ _ => 0
  float32Sub := fun _ _ => 0
  float32Mul := fun _ _ => 0
  float32Div := fun _ _ => 0
  float32Compare := fun _ _ => none
  float64Neg := fun _ => 0
  float64Add := fun _ _ => 0
  float64Sub := fun _ _ => 0
  float64Mul := fun _ _ => 0
  float64Div := fun _ _ => 0
  float64Mod := fun _ _ => 0
  float64Compare := fun _ _ => none
  int32ToFloat32 := fun _ => 0
  int32ToFloat64 := fun _ => 0
  int64ToFloat32 := fun _ => 0
  int64ToFloat64 := fun _ => 0
  float32ToInt32 := fun _ => 0
  float32ToInt64 := fun _ => 0
  float32ToFloat64 := fun _ => 0
  float64ToInt32 := fun _ => 0
  float64ToInt64 := fun _ => 0
  float64ToFloat32 := fun _ => 0

/-- `bipush -7, bipush 2, idiv` -/
def quotient : Bytecode where
  bytes := [0x10, 0xf9, 0x10, 0x02, 0x6c]
  length_lt := by decide

theorem quotient_run : Reference.Run ⟨2, 0⟩ quotient 2 initialState
    ⟨4, [.int 2, .int (-7)], fun _ => none⟩ := by
  have hfirst : Reference.Step ⟨2, 0⟩ quotient initialState 0 (.bipush (-7))
      (.next ⟨2, [.int (-7)], fun _ => none⟩) :=
    ⟨rfl, ⟨[0x10, 0xf9], ⟨trivial, [0, 0, 0], rfl, rfl⟩, by decide⟩, rfl,
      by decide⟩
  have hsecond : Reference.Step ⟨2, 0⟩ quotient
      ⟨2, [.int (-7)], fun _ => none⟩ 2 (.bipush 2)
      (.next ⟨4, [.int 2, .int (-7)], fun _ => none⟩) :=
    ⟨rfl, ⟨[0x10, 0x02], ⟨trivial, [0], rfl, rfl⟩, by decide⟩, rfl,
      by decide⟩
  exact .step hfirst (.step hsecond .refl)

theorem interpreter_simulation_quotient :
    ∃ frame', loop integerUnit quotient.bytes 2 (newFrame ⟨0⟩ 0 2) =
        .ok frame' ∧
      Represents ⟨2, 0⟩ ⟨4, [.int 2, .int (-7)], fun _ => none⟩ frame' ∧
      Simulates ⟨2, 0⟩ (.next ⟨5, [.int (-3)], fun _ => none⟩)
        (loopRound integerUnit quotient.bytes frame') := by
  obtain ⟨frame', hloop, hframe', hnext⟩ :=
    interpreter_simulation integerUnit (represents_newFrame ⟨2, 0⟩) quotient_run
  have hdiv : Reference.Step ⟨2, 0⟩ quotient
      ⟨4, [.int 2, .int (-7)], fun _ => none⟩ 4 (.arith .div .int)
      (.next ⟨5, [.int (-3)], fun _ => none⟩) :=
    ⟨rfl, ⟨[0x6c], ⟨trivial, [0, 0, 0], rfl, rfl⟩, by decide⟩, rfl, by decide⟩
  exact ⟨frame', hloop, hframe', hnext _ _ _ hdiv⟩

end Jvm

end ClpszDemos
