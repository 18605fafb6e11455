import ClpszDemos.InterpreterSimulation

/-!
# Stack depths

The specification gives every instruction the types it pops and pushes, and
with them the number of slots by which it changes the operand stack.  The
instructions of the interpreter keep to these numbers except for five, which
push a value of the wrong type; in a run that executes none of the five the
depth at each address is the one that the typing of the method assigns.
-/

namespace ClpszDemos

namespace Jvm

open OperandStack

/-! ## Types of operands -/

def typeDepth (types : List ValueType) : ℕ :=
  (types.map ValueType.category).sum

/-- The types popped and the types pushed, the top of the stack first. -/
structure Signature where
  pops : List ValueType
  pushes : List ValueType

def NumType.valueType : NumType → ValueType
  | .int => .int
  | .long => .long
  | .float => .float
  | .double => .double

def IntType.valueType : IntType → ValueType
  | .int => .int
  | .long => .long

def Conversion.signature : Conversion → Signature
  | .i2l => ⟨[.int], [.long]⟩
  | .i2f => ⟨[.int], [.float]⟩
  | .i2d => ⟨[.int], [.double]⟩
  | .l2i => ⟨[.long], [.int]⟩
  | .l2f => ⟨[.long], [.float]⟩
  | .l2d => ⟨[.long], [.double]⟩
  | .f2i => ⟨[.float], [.int]⟩
  | .f2l => ⟨[.float], [.long]⟩
  | .f2d => ⟨[.float], [.double]⟩
  | .d2i => ⟨[.double], [.int]⟩
  | .d2l => ⟨[.double], [.long]⟩
  | .d2f => ⟨[.double], [.float]⟩
  | .i2b => ⟨[.int], [.int]⟩
  | .i2c => ⟨[.int], [.int]⟩
  | .i2s => ⟨[.int], [.int]⟩

def IndexInstruction.signature : IndexInstruction → Signature
  | .load type _ => ⟨[], [type]⟩
  | .store type _ => ⟨[type], []⟩
  | .iinc _ _ => ⟨[], []⟩

def IndexInstruction.LocalsFit (maxLocals : ℕ) : IndexInstruction → Prop
  | .load type index => index + type.category ≤ maxLocals
  | .store type index => index + type.category ≤ maxLocals
  | .iinc index _ => index < maxLocals

namespace Instruction

/-- The stack instructions have no signature of their own; their types follow
from the operands. -/
def signature : Instruction → Option Signature
  | nop => some ⟨[], []⟩
  | aconst_null => some ⟨[], [.ref]⟩
  | iconst_m1 => some ⟨[], [.int]⟩
  | iconst_0 => some ⟨[], [.int]⟩
  | iconst_1 => some ⟨[], [.int]⟩
  | iconst_2 => some ⟨[], [.int]⟩
  | iconst_3 => some ⟨[], [.int]⟩
  | iconst_4 => some ⟨[], [.int]⟩
  | iconst_5 => some ⟨[], [.int]⟩
  | lconst_0 => some ⟨[], [.long]⟩
  | lconst_1 => some ⟨[], [.long]⟩
  | fconst_0 => some ⟨[], [.float]⟩
  | fconst_1 => some ⟨[], [.float]⟩
  | fconst_2 => some ⟨[], [.float]⟩
  | dconst_0 => some ⟨[], [.double]⟩
  | dconst_1 => some ⟨[], [.double]⟩
  | bipush _ => some ⟨[], [.int]⟩
  | sipush _ => some ⟨[], [.int]⟩
  | .index instruction => some instruction.signature
  | loadN type _ => some ⟨[], [type]⟩
  | storeN type _ => some ⟨[type], []⟩
  | arith _ type =>
      some ⟨[type.valueType, type.valueType], [type.valueType]⟩
  | neg type => some ⟨[type.valueType], [type.valueType]⟩
  | shift _ type => some ⟨[.int, type.valueType], [type.valueType]⟩
  | bit _ type => some ⟨[type.valueType, type.valueType], [type.valueType]⟩
  | convert conversion => some conversion.signature
  | lcmp => some ⟨[.long, .long], [.int]⟩
  | fcmp _ => some ⟨[.float, .float], [.int]⟩
  | dcmp _ => some ⟨[.double, .double], [.int]⟩
  | ifCond _ _ => some ⟨[.int], []⟩
  | ifIcmp _ _ => some ⟨[.int, .int], []⟩
  | ifAcmp _ _ => some ⟨[.ref, .ref], []⟩
  | goto _ => some ⟨[], []⟩
  | tableSwitch _ _ _ _ => some ⟨[.int], []⟩
  | lookupSwitch _ _ _ => some ⟨[.int], []⟩
  | wide (some instruction) => some instruction.signature
  | ifNull _ _ => some ⟨[.ref], []⟩
  | goto_w _ => some ⟨[], []⟩
  | _ => none

def typeStep (inst : Instruction) (types : List ValueType) :
    Option (List ValueType) :=
  match inst.signature with
  | some signature =>
      if types.take signature.pops.length = signature.pops then
        some (signature.pushes ++ types.drop signature.pops.length)
      else none
  | none => Reference.shuffle ValueType.category inst types

/-- The local variables an instruction names are there. -/
def LocalsFit (maxLocals : ℕ) : Instruction → Prop
  | .index instruction => instruction.LocalsFit maxLocals
  | wide (some instruction) => instruction.LocalsFit maxLocals
  | loadN type n => n + type.category ≤ maxLocals
  | storeN type n => n + type.category ≤ maxLocals
  | _ => True

def lookupTargets : List (BitVec 32) → List ℤ
  | _ :: offset :: rest => offset.toInt :: lookupTargets rest
  | _ => []

/-- Where control goes from `pc`, with `next` the address after it. -/
def successors (pc next : ℤ) : Instruction → List ℤ
  | ifCond _ offset => [next, pc + offset]
  | ifIcmp _ offset => [next, pc + offset]
  | ifAcmp _ offset => [next, pc + offset]
  | ifNull _ offset => [next, pc + offset]
  | goto offset => [pc + offset]
  | goto_w offset => [pc + offset]
  | tableSwitch defaultOffset _ _ jumpOffsets =>
      (defaultOffset :: jumpOffsets).map (pc + ·.toInt)
  | lookupSwitch defaultOffset _ matchOffsets =>
      (defaultOffset.toInt :: lookupTargets matchOffsets).map (pc + ·)
  | _ => [next]

/-- `lconst_0`, `lconst_1`, `fconst_0`, `fconst_1` and `fconst_2` -/
def mistyped : List Byte := [0x09, 0x0a, 0x0b, 0x0c, 0x0d]

end Instruction

/-- The precondition of the specification: the operands are there, there is
room for the result, and the local variables exist. -/
structure Ready (inst : Instruction) (types types' : List ValueType)
    (frame : Frame) : Prop where
  typed : inst.typeStep types = some types'
  size_eq : frame.operandStack.size = typeDepth types
  room : typeDepth types' ≤ frame.operandStack.slots.length
  locals_fit : inst.LocalsFit frame.localVars.length

/-- `idiv`, `irem`, `ldiv` or `lrem`, with a divisor of zero on the stack -/
def Instruction.DividesByZero (stack : OperandStack) : Instruction → Prop
  | arith .div .int | arith .rem .int =>
      (stack.live.take 1).map Slot.num = [0]
  | arith .div .long | arith .rem .long =>
      (stack.live.take 2).map Slot.num = [0, 0]
  | _ => False

/-- `Execute` leaves `size` slots in use, unless it divides by zero, which
raises an `ArithmeticException`. -/
def LeavesSize (inst : Instruction) (frame : Frame) (size : ℕ)
    (result : Except GoPanic (Unit × Frame)) : Prop :=
  Ends (fun _ after => after.operandStack.size = size)
    (fun panic => inst.DividesByZero frame.operandStack ∧
      panic = .divideByZero) result

/-! ## Slots taken and slots used -/

/-- A stack of `cap` slots, `n` of them in use. -/
structure SizeIs (cap n : ℕ) (stack : OperandStack) : Prop where
  capacity : stack.slots.length = cap
  size_eq : stack.size = n

/-- `m` takes `k` slots and leaves `c` in their place. -/
def Moves {α : Type} (m : StackM α) (k c : ℕ) : Prop :=
  ∀ cap n : ℕ, n + c ≤ cap →
    Triple (SizeIs cap (n + k)) m (fun _ => SizeIs cap (n + c))
      fun _ => False

theorem push_moves (f : Slot → Slot) : Moves (push f) 0 1 := by
  intro cap n hroom stack hsize
  have hlt : stack.size < stack.slots.length := by
    rw [hsize.size_eq, hsize.capacity]
    exact hroom
  unfold push
  rw [dif_pos hlt]
  constructor
  · rw [List.length_set]
    exact hsize.capacity
  · show stack.size + 1 = n + 1
    rw [hsize.size_eq, Nat.add_zero]

theorem pop_moves (f : Slot → Slot) : Moves (pop f) 1 0 := by
  intro cap n hroom stack hsize
  have hpos : 0 < stack.size := by
    rw [hsize.size_eq]
    omega
  unfold pop
  rw [dif_pos hpos]
  constructor
  · rw [List.length_set]
    exact hsize.capacity
  · show stack.size - 1 = n
    rw [hsize.size_eq]
    rfl

namespace Moves

variable {α β : Type}

theorem pure (a : α) : Moves (Pure.pure a : StackM α) 0 0 :=
  fun _ _ _ => Triple.pure fun _ hsize => hsize

/-- Slots are taken first and used afterwards. -/
theorem pop_bind {m : StackM α} {f : α → StackM β} {j k c : ℕ}
    (hm : Moves m j 0) (hf : ∀ a, Moves (f a) k c) :
    Moves (m >>= f) (k + j) c := by
  intro cap n hroom
  rw [← Nat.add_assoc]
  have hmid : Triple (SizeIs cap (n + k + j)) m (fun _ => SizeIs cap (n + k))
      fun _ => False := by
    by_cases hcap : n + k ≤ cap
    · exact hm cap (n + k) hcap
    · intro stack hsize
      have hle := stack.size_le
      rw [hsize.size_eq, hsize.capacity] at hle
      omega
  exact hmid.bind fun a => hf a cap n hroom

theorem push_bind {m : StackM Unit} {f : Unit → StackM β} {j c : ℕ}
    (hm : Moves m 0 j) (hf : Moves (f ()) 0 c) :
    Moves (m >>= f) 0 (c + j) := by
  intro cap n hroom
  have hfirst : Triple (SizeIs cap (n + 0)) m (fun _ => SizeIs cap (n + j))
      fun _ => False := hm cap n (by omega)
  apply hfirst.bind
  intro _
  have hsecond : Triple (SizeIs cap (n + j + 0)) (f ())
      (fun _ => SizeIs cap (n + j + c)) fun _ => False :=
    hf cap (n + j) (by omega)
  have hsum : n + (c + j) = n + j + c := by omega
  rw [hsum]
  exact hsecond

end Moves

theorem popInt_moves : Moves popInt 1 0 :=
  (pop_moves id).pop_bind fun _ => Moves.pure _

theorem pushInt_moves (val : BitVec 32) : Moves (pushInt val) 0 1 :=
  push_moves _

theorem popLong_moves : Moves popLong 2 0 :=
  popInt_moves.pop_bind fun _ => popInt_moves.pop_bind fun _ => Moves.pure _

theorem pushLong_moves (val : BitVec 64) : Moves (pushLong val) 0 2 :=
  (pushInt_moves _).push_bind (pushInt_moves _)

theorem popRef_moves : Moves popRef 1 0 :=
  (pop_moves _).pop_bind fun _ => Moves.pure _

theorem pushRef_moves (ref : Ref) : Moves (pushRef ref) 0 1 := push_moves _

theorem popSlot_moves : Moves popSlot 1 0 := pop_moves id

theorem pushSlot_moves (slot : Slot) : Moves (pushSlot slot) 0 1 :=
  push_moves _

/-! ## Operators and stack instructions -/

section Operators

variable {α β γ : Type} {i j c : ℕ}

theorem unary_moves {pop : StackM α} {push : γ → StackM Unit}
    (hpop : Moves pop j 0) (hpush : ∀ v, Moves (push v) 0 c) (result : α → γ) :
    Moves (unary pop result push) (0 + j) c :=
  hpop.pop_bind fun _ => hpush _

theorem binary_moves {popRight : StackM β} {popLeft : StackM α}
    {push : γ → StackM Unit} (hright : Moves popRight j 0)
    (hleft : Moves popLeft i 0) (hpush : ∀ v, Moves (push v) 0 c)
    (result : α → β → γ) :
    Moves (binary popRight popLeft result push) (0 + i + j) c :=
  hright.pop_bind fun _ => hleft.pop_bind fun _ => hpush _

end Operators

/-! ### Divisions -/

/-- The slots in use, read as numbers -/
theorem live_holds (stack : OperandStack) :
    Holds stack.slots.length (stack.live.map (.num ·.num)) stack where
  capacity := rfl
  shows_live := by
    rw [List.forall₂_map_right_iff]
    exact List.forall₂_same.mpr fun slot _ => rfl

/-- Two slots are the halves of a `long`. -/
theorem long_halves (high low : BitVec 32) :
    (Value.long (high ++ low)).halves = [.num high, .num low] := by
  rw [Value.halves, BitVec.extractLsb'_append_eq_left,
    BitVec.extractLsb'_append_eq_right]

/-- Two values of `k` slots on top of a stack, with `n` slots below them.  The
upper one is the divisor. -/
def HasOperands {w : ℕ} (value : BitVec w → Value) (k n : ℕ)
    (stack : OperandStack) : Prop :=
  ∃ (v2 v1 : BitVec w) (halves : List Half), halves.length = n ∧
    Holds stack.slots.length
      ((value v2).halves ++ ((value v1).halves ++ halves)) stack ∧
    ((stack.live.take k).map Slot.num = List.replicate k 0 ↔ v2 = 0)

theorem int_operands {stack : OperandStack} {n : ℕ}
    (hsize : stack.size = n + 2) : HasOperands .int 1 n stack := by
  have hlength := length_live stack
  have hholds := live_holds stack
  unfold HasOperands
  rw [hsize] at hlength
  rcases hlive : stack.live with _ | ⟨slot2, _ | ⟨slot1, rest⟩⟩
  all_goals rw [hlive] at hlength hholds
  · simp at hlength
  · simp at hlength
  · refine ⟨slot2.num, slot1.num, rest.map fun slot : Slot => .num slot.num,
      ?_, hholds, ?_⟩
    · simpa using hlength
    · simp

theorem long_operands {stack : OperandStack} {n : ℕ}
    (hsize : stack.size = n + 4) : HasOperands .long 2 n stack := by
  have hlength := length_live stack
  have hholds := live_holds stack
  unfold HasOperands
  rw [hsize] at hlength
  rcases hlive : stack.live with
    _ | ⟨high2, _ | ⟨low2, _ | ⟨high1, _ | ⟨low1, rest⟩⟩⟩⟩
  all_goals rw [hlive] at hlength hholds
  · simp at hlength
  · simp at hlength
  · simp at hlength
  · simp at hlength
  · refine ⟨high2.num ++ low2.num, high1.num ++ low1.num,
      rest.map fun slot : Slot => .num slot.num, ?_, ?_, ?_⟩
    · simpa using hlength
    · rw [long_halves, long_halves]
      exact hholds
    · have hzero := long_halves 0 0
      have hhalves := long_halves high2.num low2.num
      constructor
      · intro hnum
        simp only [List.take_succ_cons, List.take_zero, List.map_cons,
          List.map_nil, List.replicate, List.cons.injEq] at hnum
        rw [hnum.1, hnum.2.1]
        rfl
      · intro hvalue
        rw [hvalue] at hhalves
        have hsame := hzero.symm.trans hhalves
        simp only [List.cons.injEq, Half.num.injEq] at hsame
        simp [← hsame.1, ← hsame.2.1]

section Division

variable {w k n c : ℕ} {value : BitVec w → Value} {pop : StackM (BitVec w)}
  {push : BitVec w → StackM Unit} {stack : OperandStack}

theorem division_size (hpop : Pops pop value) (hpush : Pushes push value)
    (hwidth : ∀ v, (value v).halves.length = c)
    (hoperands : HasOperands value k n stack)
    (hnonzero : (stack.live.take k).map Slot.num ≠ List.replicate k 0)
    (hroom : n + c ≤ stack.slots.length)
    (result : BitVec w → BitVec w → BitVec w) :
    Ends (fun _ => SizeIs stack.slots.length (n + c)) (fun _ => False)
      (division pop result push stack) := by
  obtain ⟨v2, v1, halves, hlength, hholds, hzero⟩ := hoperands
  have hsum : ∀ v, ((value v).halves ++ halves).length = n + c := by
    intro v
    rw [List.length_append, hwidth, hlength, Nat.add_comm]
  apply (division_triple hpop hpush result (hnonzero ∘ hzero.mpr) _).post _ stack
    hholds
  · rw [hsum]
    exact hroom
  · intro _ after hafter
    exact ⟨hafter.capacity, hafter.size_eq.trans (hsum _)⟩

theorem division_panics (hpop : Pops pop value)
    (hoperands : HasOperands value k n stack)
    (hdivisor : (stack.live.take k).map Slot.num = List.replicate k 0)
    (result : BitVec w → BitVec w → BitVec w) :
    division pop result push stack = .error .divideByZero := by
  obtain ⟨v2, v1, halves, _, hholds, hzero⟩ := hoperands
  have hends : Ends _ _ (division pop result push stack) :=
    division_zero_triple hpop result (hzero.mp hdivisor) stack hholds
  cases hresult : division pop result push stack with
  | ok _ =>
      rw [hresult] at hends
      exact hends.elim
  | error panic =>
      rw [hresult] at hends
      exact congrArg Except.error hends

end Division

/-- An operator that does not divide by zero leaves its result. -/
theorem arith_size (unit : FloatUnit) (op : ArithOp) (type : NumType)
    {cap n : ℕ} (hroom : n + typeDepth [type.valueType] ≤ cap) :
    Triple (fun stack =>
        SizeIs cap (n + typeDepth [type.valueType, type.valueType]) stack ∧
          ¬ (Instruction.arith op type).DividesByZero stack)
      (arith unit op type)
      (fun _ => SizeIs cap (n + typeDepth [type.valueType]))
      fun _ => False := by
  cases type with
  | int =>
      cases op with
      | div | rem =>
          rintro stack ⟨⟨rfl, hsize⟩, hnonzero⟩
          exact division_size pops_int pushes_int (fun _ => rfl)
            (int_operands hsize) hnonzero hroom _
      | _ =>
          exact (binary_moves popInt_moves popInt_moves pushInt_moves _ cap n
            hroom).of_left
  | long =>
      cases op with
      | div | rem =>
          rintro stack ⟨⟨rfl, hsize⟩, hnonzero⟩
          exact division_size pops_long pushes_long (fun _ => rfl)
            (long_operands hsize) hnonzero hroom _
      | _ =>
          exact (binary_moves popLong_moves popLong_moves pushLong_moves _ cap n
            hroom).of_left
  | float =>
      cases op <;>
        exact (binary_moves popInt_moves popInt_moves pushInt_moves _ cap n
          hroom).of_left
  | double =>
      cases op <;>
        exact (binary_moves popLong_moves popLong_moves pushLong_moves _ cap n
          hroom).of_left

theorem arith_panics (unit : FloatUnit) {op : ArithOp} {type : NumType}
    {stack : OperandStack} {n : ℕ}
    (hsize : stack.size = n + typeDepth [type.valueType, type.valueType])
    (hzero : (Instruction.arith op type).DividesByZero stack) :
    arith unit op type stack = .error .divideByZero := by
  cases type with
  | int =>
      cases op with
      | div | rem =>
          exact division_panics pops_int (int_operands hsize) hzero _
      | _ => exact hzero.elim
  | long =>
      cases op with
      | div | rem =>
          exact division_panics pops_long (long_operands hsize) hzero _
      | _ => exact hzero.elim
  | float => cases op <;> exact hzero.elim
  | double => cases op <;> exact hzero.elim

theorem neg_moves (unit : FloatUnit) (type : NumType) :
    Moves (neg unit type) (typeDepth [type.valueType])
      (typeDepth [type.valueType]) := by
  cases type with
  | int => exact unary_moves popInt_moves pushInt_moves _
  | long => exact unary_moves popLong_moves pushLong_moves _
  | float => exact unary_moves popInt_moves pushInt_moves _
  | double => exact unary_moves popLong_moves pushLong_moves _

theorem shift_moves (op : ShiftOp) (type : IntType) :
    Moves (shift op type) (typeDepth [.int, type.valueType])
      (typeDepth [type.valueType]) := by
  cases type with
  | int => exact binary_moves popInt_moves popInt_moves pushInt_moves _
  | long => exact binary_moves popInt_moves popLong_moves pushLong_moves _

theorem bit_moves (op : BitOp) (type : IntType) :
    Moves (bit op type) (typeDepth [type.valueType, type.valueType])
      (typeDepth [type.valueType]) := by
  cases type with
  | int => exact binary_moves popInt_moves popInt_moves pushInt_moves _
  | long => exact binary_moves popLong_moves popLong_moves pushLong_moves _

theorem convert_moves (unit : FloatUnit) (conversion : Conversion) :
    Moves (convert unit conversion) (typeDepth conversion.signature.pops)
      (typeDepth conversion.signature.pushes) := by
  cases conversion with
  | i2l | i2d | f2l | f2d => exact unary_moves popInt_moves pushLong_moves _
  | l2i | l2f | d2i | d2f => exact unary_moves popLong_moves pushInt_moves _
  | l2d | d2l => exact unary_moves popLong_moves pushLong_moves _
  | i2f | f2i | i2b | i2c | i2s => exact unary_moves popInt_moves pushInt_moves _

theorem pop1_moves : Moves pop1 1 0 :=
  popSlot_moves.pop_bind fun _ => Moves.pure _

theorem pop2_moves : Moves pop2 2 0 :=
  popSlot_moves.pop_bind fun _ => popSlot_moves.pop_bind fun _ => Moves.pure _

theorem dup_moves : Moves dup 1 2 :=
  popSlot_moves.pop_bind fun slot =>
    (pushSlot_moves slot).push_bind (pushSlot_moves slot)

theorem dup_x1_moves : Moves dup_x1 2 3 :=
  popSlot_moves.pop_bind fun slot1 => popSlot_moves.pop_bind fun slot2 =>
    (pushSlot_moves slot1).push_bind ((pushSlot_moves slot2).push_bind
      (pushSlot_moves slot1))

theorem dup_x2_moves : Moves dup_x2 3 4 :=
  popSlot_moves.pop_bind fun slot1 => popSlot_moves.pop_bind fun slot2 =>
    popSlot_moves.pop_bind fun slot3 =>
      (pushSlot_moves slot1).push_bind ((pushSlot_moves slot3).push_bind
        ((pushSlot_moves slot2).push_bind (pushSlot_moves slot1)))

theorem dup2_moves : Moves dup2 2 4 :=
  popSlot_moves.pop_bind fun slot1 => popSlot_moves.pop_bind fun slot2 =>
    (pushSlot_moves slot2).push_bind ((pushSlot_moves slot1).push_bind
      ((pushSlot_moves slot2).push_bind (pushSlot_moves slot1)))

theorem dup2_x1_moves : Moves dup2_x1 3 5 :=
  popSlot_moves.pop_bind fun slot1 => popSlot_moves.pop_bind fun slot2 =>
    popSlot_moves.pop_bind fun slot3 =>
      (pushSlot_moves slot2).push_bind ((pushSlot_moves slot1).push_bind
        ((pushSlot_moves slot3).push_bind ((pushSlot_moves slot2).push_bind
          (pushSlot_moves slot1))))

theorem dup2_x2_moves : Moves dup2_x2 4 6 :=
  popSlot_moves.pop_bind fun slot1 => popSlot_moves.pop_bind fun slot2 =>
    popSlot_moves.pop_bind fun slot3 => popSlot_moves.pop_bind fun slot4 =>
      (pushSlot_moves slot2).push_bind ((pushSlot_moves slot1).push_bind
        ((pushSlot_moves slot4).push_bind ((pushSlot_moves slot3).push_bind
          ((pushSlot_moves slot2).push_bind (pushSlot_moves slot1)))))

theorem swap_moves : Moves swap 2 2 :=
  popSlot_moves.pop_bind fun slot1 => popSlot_moves.pop_bind fun slot2 =>
    (pushSlot_moves slot1).push_bind (pushSlot_moves slot2)

/-! ## Frames -/

/-- A frame by its sizes and program counters. -/
structure FrameIs (maxStack maxLocals : ℕ) (pc next : ℤ) (n : ℕ)
    (frame : Frame) : Prop where
  stack : SizeIs maxStack n frame.operandStack
  locals : frame.localVars.length = maxLocals
  thread_pc : frame.thread.pc = pc
  next_pc : frame.nextPc = next

section Frames

variable {maxStack maxLocals : ℕ} {pc next : ℤ} {α : Type} {n k c : ℕ}

theorem onStack_frame {m : StackM α} (hm : Moves m k c)
    (hroom : n + c ≤ maxStack) :
    Triple (FrameIs maxStack maxLocals pc next (n + k)) (onStack m)
      (fun _ => FrameIs maxStack maxLocals pc next (n + c))
      fun _ => False := by
  apply (hm maxStack n hroom).zoom
  · intro frame hframe
    exact hframe.stack
  · intro frame a part hframe hpart
    exact ⟨hpart, hframe.locals, hframe.thread_pc, hframe.next_pc⟩

theorem readLocal_frame {read : LocalVars → Except GoPanic α}
    (hread : ∀ vars : LocalVars, vars.length = maxLocals →
      ∃ a, read vars = .ok a) :
    Triple (FrameIs maxStack maxLocals pc next n) (readLocal read)
      (fun _ => FrameIs maxStack maxLocals pc next n) fun _ => False := by
  intro frame hframe
  obtain ⟨a, ha⟩ := hread frame.localVars hframe.locals
  unfold readLocal
  rw [ha]
  exact hframe

theorem writeLocal_frame {write : LocalVars → Except GoPanic LocalVars}
    (hwrite : ∀ vars : LocalVars, vars.length = maxLocals →
      ∃ vars', write vars = .ok vars' ∧ vars'.length = maxLocals) :
    Triple (FrameIs maxStack maxLocals pc next n) (writeLocal write)
      (fun _ => FrameIs maxStack maxLocals pc next n) fun _ => False := by
  intro frame hframe
  obtain ⟨vars', hvars', hlength⟩ := hwrite frame.localVars hframe.locals
  unfold writeLocal
  rw [hvars']
  exact ⟨hframe.stack, hlength, hframe.thread_pc, hframe.next_pc⟩

end Frames

/-! ## Local variables -/

section Locals

variable {maxStack maxLocals : ℕ} {pc next : ℤ} {n : ℕ}

theorem exists_getInt {vars : LocalVars} {index : ℕ}
    (hindex : index < vars.length) : ∃ val, vars.getInt index = .ok val := by
  have hread : vars.slot index = .ok vars[index] := by
    simp only [LocalVars.slot, List.getElem?_eq_getElem hindex]
  unfold LocalVars.getInt
  rw [hread]
  exact ⟨_, rfl⟩

theorem exists_getLong {vars : LocalVars} {index : ℕ}
    (hindex : index + 1 < vars.length) :
    ∃ val, vars.getLong index = .ok val := by
  obtain ⟨low, hlow⟩ := exists_getInt (Nat.lt_of_succ_lt hindex)
  obtain ⟨high, hhigh⟩ := exists_getInt hindex
  unfold LocalVars.getLong
  rw [hlow, hhigh]
  exact ⟨_, rfl⟩

theorem exists_getRef {vars : LocalVars} {index : ℕ}
    (hindex : index < vars.length) : ∃ ref, vars.getRef index = .ok ref := by
  have hread : vars.slot index = .ok vars[index] := by
    simp only [LocalVars.slot, List.getElem?_eq_getElem hindex]
  unfold LocalVars.getRef
  rw [hread]
  exact ⟨_, rfl⟩

/-- A store leaves the number of variables as it is. -/
theorem length_of_stores {result : Except GoPanic LocalVars} {index : ℕ}
    {value : Value} {vars : LocalVars}
    (hstores : ∃ vars', result = .ok vars' ∧ Stores vars vars' index value) :
    ∃ vars', result = .ok vars' ∧ vars'.length = vars.length := by
  obtain ⟨vars', hvars', hstores⟩ := hstores
  exact ⟨vars', hvars', hstores.length_eq⟩

theorem read_push_frame {α : Type} {read : LocalVars → Except GoPanic α}
    {push : α → StackM Unit} {c : ℕ} (hpush : ∀ a, Moves (push a) 0 c)
    (hread : ∀ vars : LocalVars, vars.length = maxLocals →
      ∃ a, read vars = .ok a)
    (hroom : n + c ≤ maxStack) :
    Triple (FrameIs maxStack maxLocals pc next n)
      (do
        let a ← readLocal read
        onStack (push a))
      (fun _ => FrameIs maxStack maxLocals pc next (n + c))
      fun _ => False :=
  (readLocal_frame hread).bind fun a => onStack_frame (hpush a) hroom

theorem load_frame {type : ValueType} {index : ℕ}
    (hlocals : index + type.category ≤ maxLocals)
    (hroom : n + type.category ≤ maxStack) :
    Triple (FrameIs maxStack maxLocals pc next n) (load type index)
      (fun _ => FrameIs maxStack maxLocals pc next (n + type.category))
      fun _ => False := by
  cases type with
  | int =>
      apply read_push_frame pushInt_moves _ hroom
      exact fun vars hvars => exists_getInt (by rw [hvars]; exact hlocals)
  | long =>
      apply read_push_frame pushLong_moves _ hroom
      exact fun vars hvars => exists_getLong (by rw [hvars]; exact hlocals)
  | float =>
      apply read_push_frame pushInt_moves _ hroom
      exact fun vars hvars => exists_getInt (by rw [hvars]; exact hlocals)
  | double =>
      apply read_push_frame pushLong_moves _ hroom
      exact fun vars hvars => exists_getLong (by rw [hvars]; exact hlocals)
  | ref =>
      apply read_push_frame pushRef_moves _ hroom
      exact fun vars hvars => exists_getRef (by rw [hvars]; exact hlocals)

theorem pop_write_frame {α : Type} {pop : StackM α}
    {write : α → LocalVars → Except GoPanic LocalVars} {k : ℕ}
    (hpop : Moves pop k 0) (hroom : n ≤ maxStack)
    (hwrite : ∀ a vars, vars.length = maxLocals →
      ∃ vars', write a vars = .ok vars' ∧ vars'.length = vars.length) :
    Triple (FrameIs maxStack maxLocals pc next (n + k))
      (do
        let a ← onStack pop
        writeLocal (write a))
      (fun _ => FrameIs maxStack maxLocals pc next n) fun _ => False := by
  apply (onStack_frame hpop hroom).bind
  intro a
  apply writeLocal_frame
  intro vars hvars
  obtain ⟨vars', hvars', hlength⟩ := hwrite a vars hvars
  exact ⟨vars', hvars', hlength.trans hvars⟩

theorem store_frame {type : ValueType} {index : ℕ}
    (hlocals : index + type.category ≤ maxLocals) (hroom : n ≤ maxStack) :
    Triple (FrameIs maxStack maxLocals pc next (n + type.category))
      (store type index) (fun _ => FrameIs maxStack maxLocals pc next n)
      fun _ => False := by
  cases type with
  | int =>
      apply pop_write_frame popInt_moves hroom
      intro val vars hvars
      exact length_of_stores (@setInt_stores _ _ (.int val) _ rfl
        (by rw [hvars]; exact hlocals))
  | long =>
      apply pop_write_frame popLong_moves hroom
      intro val vars hvars
      exact length_of_stores (@setLong_stores _ _ (.long val) _ rfl
        (by rw [hvars]; exact hlocals))
  | float =>
      apply pop_write_frame popInt_moves hroom
      intro val vars hvars
      exact length_of_stores (@setInt_stores _ _ (.int val) _ rfl
        (by rw [hvars]; exact hlocals))
  | double =>
      apply pop_write_frame popLong_moves hroom
      intro val vars hvars
      exact length_of_stores (@setLong_stores _ _ (.long val) _ rfl
        (by rw [hvars]; exact hlocals))
  | ref =>
      apply pop_write_frame popRef_moves hroom
      intro ref vars hvars
      exact length_of_stores (setRef_stores (by rw [hvars]; exact hlocals))

theorem iinc_frame {index : ℕ} {const : BitVec 32}
    (hlocals : index < maxLocals) :
    Triple (FrameIs maxStack maxLocals pc next n) (iinc index const)
      (fun _ => FrameIs maxStack maxLocals pc next n) fun _ => False := by
  have hread : ∀ vars : LocalVars, vars.length = maxLocals →
      ∃ val, vars.getInt index = .ok val :=
    fun vars hvars => exists_getInt (by rw [hvars]; exact hlocals)
  apply (readLocal_frame hread).bind
  intro val
  apply writeLocal_frame
  intro vars hvars
  have hindex : index < vars.length := by
    rw [hvars]
    exact hlocals
  obtain ⟨vars', hvars', hstores⟩ :=
    @setInt_stores _ _ (.int (val + const)) _ rfl hindex
  exact ⟨vars', hvars', hstores.length_eq.trans hvars⟩

theorem index_frame {instruction : IndexInstruction}
    (hlocals : instruction.LocalsFit maxLocals)
    (hroom : n + typeDepth instruction.signature.pushes ≤ maxStack) :
    Triple (FrameIs maxStack maxLocals pc next
        (n + typeDepth instruction.signature.pops))
      instruction.execute
      (fun _ => FrameIs maxStack maxLocals pc next
        (n + typeDepth instruction.signature.pushes))
      fun _ => False := by
  cases instruction with
  | load type index => exact load_frame hlocals hroom
  | store type index => exact store_frame hlocals hroom
  | iinc index const => exact iinc_frame hlocals

end Locals

/-! ## Types and slots -/

theorem typeDepth_append (types rest : List ValueType) :
    typeDepth (types ++ rest) = typeDepth types + typeDepth rest := by
  unfold typeDepth
  rw [List.map_append, List.sum_append]

/-- The slots a stack instruction takes and the slots it uses. -/
def shuffleSlots : Instruction → ℕ × ℕ
  | .pop => (1, 0)
  | .pop2 => (2, 0)
  | .dup => (1, 2)
  | .dup_x1 => (2, 3)
  | .dup_x2 => (3, 4)
  | .dup2 => (2, 4)
  | .dup2_x1 => (3, 5)
  | .dup2_x2 => (4, 6)
  | .swap => (2, 2)
  | _ => (0, 0)

/-- Every form of an instruction takes and uses the same slots. -/
theorem slots_of_form {inst : Instruction} {form : Reference.Form}
    (hform : form ∈ Reference.forms inst) :
    form.categories.sum = (shuffleSlots inst).1 ∧
      (form.order.filterMap (form.categories[·]?)).sum =
        (shuffleSlots inst).2 := by
  cases inst
  all_goals
    simp only [Reference.forms, List.mem_cons, List.not_mem_nil,
      or_false] at hform
  case pop | dup | dup_x1 | swap =>
    subst hform
    exact ⟨rfl, rfl⟩
  case pop2 | dup_x2 | dup2 | dup2_x1 =>
    rcases hform with rfl | rfl
    · exact ⟨rfl, rfl⟩
    · exact ⟨rfl, rfl⟩
  case dup2_x2 =>
    rcases hform with rfl | rfl | rfl | rfl
    · exact ⟨rfl, rfl⟩
    · exact ⟨rfl, rfl⟩
    · exact ⟨rfl, rfl⟩
    · exact ⟨rfl, rfl⟩

theorem shuffle_depth {inst : Instruction} {types types' : List ValueType}
    (hshuffle :
      Reference.shuffle ValueType.category inst types = some types') :
    ∃ n, typeDepth types = n + (shuffleSlots inst).1 ∧
      typeDepth types' = n + (shuffleSlots inst).2 := by
  obtain ⟨form, hform, happly⟩ := List.exists_of_findSome?_eq_some hshuffle
  obtain ⟨operands, rest, rfl, hmap, rfl⟩ := apply_eq_some happly
  obtain ⟨htaken, hused⟩ := slots_of_form hform
  have hlookup : ∀ i : ℕ, (operands[i]?).map ValueType.category =
      form.categories[i]? := by
    intro i
    rw [← hmap, List.getElem?_map]
  have hoperands : typeDepth operands = (shuffleSlots inst).1 := by
    unfold typeDepth
    rw [hmap, htaken]
  have hresults : typeDepth (form.order.filterMap (operands[·]?)) =
      (shuffleSlots inst).2 := by
    unfold typeDepth
    rw [List.map_filterMap, ← hused]
    simp only [hlookup]
  refine ⟨typeDepth rest, ?_, ?_⟩
  · rw [typeDepth_append, hoperands, Nat.add_comm]
  · rw [typeDepth_append, hresults, Nat.add_comm]

theorem signature_depth {signature : Signature} {types types' : List ValueType}
    (hstep : (if types.take signature.pops.length = signature.pops then
      some (signature.pushes ++ types.drop signature.pops.length)
      else none) = some types') :
    ∃ n, typeDepth types = n + typeDepth signature.pops ∧
      typeDepth types' = n + typeDepth signature.pushes := by
  by_cases htake : types.take signature.pops.length = signature.pops
  · rw [if_pos htake, Option.some.injEq] at hstep
    refine ⟨typeDepth (types.drop signature.pops.length), ?_, ?_⟩
    · have hsplit := List.take_append_drop signature.pops.length types
      have happend := typeDepth_append (types.take signature.pops.length)
        (types.drop signature.pops.length)
      rw [hsplit, htake] at happend
      rw [happend, Nat.add_comm]
    · rw [← hstep, typeDepth_append, Nat.add_comm]
  · rw [if_neg htake] at hstep
    cases hstep

/-! ## One instruction -/

section Execute

variable (unit : FloatUnit) {maxStack maxLocals : ℕ} {pc next : ℤ} {n : ℕ}

/-- The frame goes on at one of `targets`, with `n` slots in use. -/
def GoesTo (maxStack maxLocals : ℕ) (pc : ℤ) (targets : List ℤ) (n : ℕ) :
    Unit → Frame → Prop :=
  fun _ frame => ∃ target ∈ targets, FrameIs maxStack maxLocals pc target n frame

theorem goesTo_next {P : Frame → Prop} {m : Exec}
    (hm : Triple P m (fun _ => FrameIs maxStack maxLocals pc next n)
      fun _ => False) :
    Triple P m (GoesTo maxStack maxLocals pc [next] n) fun _ => False :=
  hm.post fun _ _ hframe => ⟨next, List.mem_cons_self, hframe⟩

theorem onStack_goesTo {m : StackM Unit} {k c : ℕ} (hm : Moves m k c)
    (hroom : n + c ≤ maxStack) :
    Triple (FrameIs maxStack maxLocals pc next (n + k)) (onStack m)
      (GoesTo maxStack maxLocals pc [next] (n + c)) fun _ => False :=
  goesTo_next (onStack_frame hm hroom)

theorem branch_goesTo {targets : List ℤ} {offset : ℤ}
    (htarget : pc + offset ∈ targets) :
    Triple (FrameIs maxStack maxLocals pc next n) (branch offset)
      (GoesTo maxStack maxLocals pc targets n) fun _ => False := by
  intro frame hframe
  have hnext : frame.thread.pc + offset = pc + offset := by
    rw [hframe.thread_pc]
  exact ⟨pc + offset, htarget, hframe.stack, hframe.locals, hframe.thread_pc,
    hnext⟩

theorem branchIf_goesTo (taken : Bool) (offset : ℤ) :
    Triple (FrameIs maxStack maxLocals pc next n) (branchIf taken offset)
      (GoesTo maxStack maxLocals pc [next, pc + offset] n)
      fun _ => False := by
  cases taken with
  | true => exact branch_goesTo (by simp)
  | false =>
      exact Triple.pure fun frame hframe => ⟨next, by simp, hframe⟩

theorem tableOffset_mem {defaultOffset low high : BitVec 32}
    {jumpOffsets : List (BitVec 32)}
    (hrange : (Instruction.tableSwitch defaultOffset low high
      jumpOffsets).InRange) (index : BitVec 32) :
    ∃ offset ∈ defaultOffset :: jumpOffsets,
      Reference.tableOffset defaultOffset low high jumpOffsets index =
        some offset := by
  have hlength := hrange.2
  unfold Reference.tableOffset
  by_cases hinside : low.toInt ≤ index.toInt ∧ index.toInt ≤ high.toInt
  · have hlt : (index.toInt - low.toInt).toNat < jumpOffsets.length := by omega
    rw [if_pos hinside]
    exact ⟨jumpOffsets[_], List.mem_cons_of_mem _ (List.getElem_mem hlt),
      List.getElem?_eq_getElem hlt⟩
  · rw [if_neg hinside]
    exact ⟨defaultOffset, List.mem_cons_self, rfl⟩

theorem lookupOffset_mem (defaultOffset key : BitVec 32)
    (matchOffsets : List (BitVec 32)) :
    (Reference.lookupOffset defaultOffset key matchOffsets).toInt ∈
      defaultOffset.toInt :: Instruction.lookupTargets matchOffsets := by
  fun_induction Reference.lookupOffset defaultOffset key matchOffsets with
  | case1 offset rest => simp [Instruction.lookupTargets]
  | case2 found offset rest hfound ih =>
      simp only [Instruction.lookupTargets, List.mem_cons] at ih ⊢
      tauto
  | case3 => exact List.mem_cons_self

theorem tableSwitch_goesTo {defaultOffset low high : BitVec 32}
    {jumpOffsets : List (BitVec 32)}
    (hrange : (Instruction.tableSwitch defaultOffset low high
      jumpOffsets).InRange)
    (hbounded : jumpOffsets.length < 2 ^ 31) (hroom : n ≤ maxStack) :
    Triple (FrameIs maxStack maxLocals pc next (n + 1))
      (tableSwitch defaultOffset low high jumpOffsets)
      (GoesTo maxStack maxLocals pc
        ((defaultOffset :: jumpOffsets).map (pc + ·.toInt)) n)
      fun _ => False := by
  apply (onStack_frame popInt_moves hroom).bind
  intro index
  obtain ⟨offset, hmem, hoffset⟩ := tableOffset_mem hrange index
  rw [tableSwitchOffset_eq hrange.2 hbounded hoffset]
  exact branch_goesTo (List.mem_map_of_mem hmem)

theorem lookupSwitch_goesTo {defaultOffset npairs : BitVec 32}
    {matchOffsets : List (BitVec 32)}
    (hrange : (Instruction.lookupSwitch defaultOffset npairs
      matchOffsets).InRange)
    (hbounded : matchOffsets.length < 2 ^ 31) (hroom : n ≤ maxStack) :
    Triple (FrameIs maxStack maxLocals pc next (n + 1))
      (lookupSwitch defaultOffset npairs matchOffsets)
      (GoesTo maxStack maxLocals pc ((defaultOffset.toInt ::
        Instruction.lookupTargets matchOffsets).map (pc + ·)) n)
      fun _ => False := by
  apply (onStack_frame popInt_moves hroom).bind
  intro key
  have hcode : lookupSwitchLoop defaultOffset key matchOffsets 0
      (((npairs * 2).toInt + 1) / 2).toNat =
        .ok (Reference.lookupOffset defaultOffset key matchOffsets) :=
    lookupSwitchLoop_eq defaultOffset key [] matchOffsets _
      (lookupSwitch_rounds hrange hbounded)
  rw [hcode]
  exact branch_goesTo (List.mem_map_of_mem
    (lookupOffset_mem defaultOffset key matchOffsets))

/-- `IF_ICMP...` and `IF_ACMP...` -/
theorem compare_goesTo {α : Type} {pop : StackM α} (hpop : Moves pop 1 0)
    (taken : α → α → Bool) (offset : ℤ) (hroom : n ≤ maxStack) :
    Triple (FrameIs maxStack maxLocals pc next (n + 1 + 1))
      (do
        let v2 ← onStack pop
        let v1 ← onStack pop
        branchIf (taken v1 v2) offset)
      (GoesTo maxStack maxLocals pc [next, pc + offset] n)
      fun _ => False := by
  by_cases hcap : n + 1 ≤ maxStack
  · apply (onStack_frame hpop hcap).bind
    intro v2
    apply (onStack_frame hpop hroom).bind
    intro v1
    exact branchIf_goesTo _ offset
  · intro frame hframe
    have hle := frame.operandStack.size_le
    rw [hframe.stack.size_eq, hframe.stack.capacity] at hle
    omega

theorem shuffle_goesTo {inst : Instruction} {types types' : List ValueType}
    (hshuffle : Reference.shuffle ValueType.category inst types = some types')
    (hroom : typeDepth types' ≤ maxStack) :
    Triple (FrameIs maxStack maxLocals pc next (typeDepth types))
      (inst.execute unit)
      (GoesTo maxStack maxLocals pc [next] (typeDepth types'))
      fun _ => False := by
  have hforms := List.exists_of_findSome?_eq_some hshuffle
  obtain ⟨n, hbefore, hafter⟩ := shuffle_depth hshuffle
  rw [hafter] at hroom ⊢
  rw [hbefore]
  cases inst
  case pop => exact onStack_goesTo pop1_moves hroom
  case pop2 => exact onStack_goesTo pop2_moves hroom
  case dup => exact onStack_goesTo dup_moves hroom
  case dup_x1 => exact onStack_goesTo dup_x1_moves hroom
  case dup_x2 => exact onStack_goesTo dup_x2_moves hroom
  case dup2 => exact onStack_goesTo dup2_moves hroom
  case dup2_x1 => exact onStack_goesTo dup2_x1_moves hroom
  case dup2_x2 => exact onStack_goesTo dup2_x2_moves hroom
  case swap => exact onStack_goesTo swap_moves hroom
  all_goals
    obtain ⟨form, hform, _⟩ := hforms
    exact (List.not_mem_nil hform).elim

/-- An instruction with the operands of its signature leaves the results of its
signature, unless it is one of the five. -/
theorem signature_goesTo {inst : Instruction} {signature : Signature}
    (hrange : inst.InRange) (hbounded : inst.TableBounded)
    (hsignature : inst.signature = some signature)
    (hroom : n + typeDepth signature.pushes ≤ maxStack)
    (hlocals : inst.LocalsFit maxLocals)
    (hmistyped : inst.opcode ∉ Instruction.mistyped) :
    Triple (fun frame => FrameIs maxStack maxLocals pc next
        (n + typeDepth signature.pops) frame ∧
          ¬ inst.DividesByZero frame.operandStack)
      (inst.execute unit)
      (GoesTo maxStack maxLocals pc (inst.successors pc next)
        (n + typeDepth signature.pushes)) fun _ => False := by
  cases inst
  case arith op type =>
    cases hsignature
    apply goesTo_next
    apply (arith_size unit op type hroom).zoom
    · exact fun frame hframe => ⟨hframe.1.stack, hframe.2⟩
    · exact fun frame _ _ hframe hpart =>
        ⟨hpart, hframe.1.locals, hframe.1.thread_pc, hframe.1.next_pc⟩
  -- no other instruction can divide by zero
  all_goals apply Triple.of_left
  case wide modifiedInstruction =>
    obtain ⟨instruction, rfl, _⟩ := hrange
    cases hsignature
    exact goesTo_next (index_frame hlocals hroom)
  all_goals cases hsignature
  case nop => exact goesTo_next (Triple.pure fun _ hframe => hframe)
  case aconst_null => exact onStack_goesTo (pushRef_moves _) hroom
  case iconst_m1 | iconst_0 | iconst_1 | iconst_2 | iconst_3 | iconst_4
    | iconst_5 | bipush | sipush =>
    exact onStack_goesTo (pushInt_moves _) hroom
  case lconst_0 | lconst_1 | fconst_0 | fconst_1 | fconst_2 =>
    exact (hmistyped (by decide)).elim
  case dconst_0 | dconst_1 => exact onStack_goesTo (pushLong_moves _) hroom
  case index instruction => exact goesTo_next (index_frame hlocals hroom)
  case loadN type i => exact goesTo_next (load_frame hlocals hroom)
  case storeN type i => exact goesTo_next (store_frame hlocals hroom)
  case neg type => exact onStack_goesTo (neg_moves unit type) hroom
  case shift op type => exact onStack_goesTo (shift_moves op type) hroom
  case bit op type => exact onStack_goesTo (bit_moves op type) hroom
  case convert conversion =>
    exact onStack_goesTo (convert_moves unit conversion) hroom
  case lcmp =>
    exact onStack_goesTo
      (binary_moves popLong_moves popLong_moves pushInt_moves _) hroom
  case fcmp gFlag =>
    exact onStack_goesTo
      (binary_moves popInt_moves popInt_moves pushInt_moves _) hroom
  case dcmp gFlag =>
    exact onStack_goesTo
      (binary_moves popLong_moves popLong_moves pushInt_moves _) hroom
  case ifCond cond offset =>
    exact (onStack_frame popInt_moves hroom).bind fun _ =>
      branchIf_goesTo _ offset
  case ifIcmp cond offset => exact compare_goesTo popInt_moves _ offset hroom
  case ifAcmp equal offset => exact compare_goesTo popRef_moves _ offset hroom
  case goto offset | goto_w offset => exact branch_goesTo List.mem_cons_self
  case tableSwitch => exact tableSwitch_goesTo hrange hbounded hroom
  case lookupSwitch => exact lookupSwitch_goesTo hrange hbounded hroom
  case ifNull null offset =>
    exact (onStack_frame popRef_moves hroom).bind fun _ =>
      branchIf_goesTo _ offset

theorem successors_of_shuffle {inst : Instruction}
    {types types' : List ValueType}
    (hshuffle :
      Reference.shuffle ValueType.category inst types = some types') :
    inst.successors pc next = [next] := by
  obtain ⟨form, hform, _⟩ := List.exists_of_findSome?_eq_some hshuffle
  cases inst
  case ifCond | ifIcmp | ifAcmp | ifNull | goto | goto_w | tableSwitch
    | lookupSwitch =>
    exact (List.not_mem_nil hform).elim
  all_goals rfl

/-- An instruction that is none of the five, and does not divide by zero, leaves
the slots of its types, and never panics. -/
theorem execute_goesTo {inst : Instruction} {types types' : List ValueType}
    (hrange : inst.InRange) (hbounded : inst.TableBounded)
    (htyped : inst.typeStep types = some types')
    (hroom : typeDepth types' ≤ maxStack) (hlocals : inst.LocalsFit maxLocals)
    (hmistyped : inst.opcode ∉ Instruction.mistyped) :
    Triple (fun frame => FrameIs maxStack maxLocals pc next (typeDepth types)
        frame ∧ ¬ inst.DividesByZero frame.operandStack)
      (inst.execute unit)
      (GoesTo maxStack maxLocals pc (inst.successors pc next)
        (typeDepth types')) fun _ => False := by
  unfold Instruction.typeStep at htyped
  cases hsignature : inst.signature with
  | some signature =>
      rw [hsignature] at htyped
      obtain ⟨n, hbefore, hafter⟩ := signature_depth htyped
      rw [hafter] at hroom ⊢
      rw [hbefore]
      exact signature_goesTo unit hrange hbounded hsignature hroom hlocals
        hmistyped
  | none =>
      rw [hsignature] at htyped
      rw [successors_of_shuffle htyped]
      exact (shuffle_goesTo unit htyped hroom).of_left

end Execute

/-! ## The five instructions -/

/-- A frame with `size` slots in use. -/
def Uses (size : ℕ) : Unit → Frame → Prop :=
  fun _ frame => frame.operandStack.size = size

theorem push_uses (f : Slot → Slot) (n : ℕ) :
    Triple (fun stack => stack.size = n) (push f)
      (fun _ stack => stack.size = n + 1) (· = .indexOutOfRange) := by
  intro stack hsize
  unfold push
  by_cases hroom : stack.size < stack.slots.length
  · rw [dif_pos hroom]
    show stack.size + 1 = n + 1
    rw [hsize]
  · rw [dif_neg hroom]
    rfl

theorem pushLong_uses (val : BitVec 64) (n : ℕ) :
    Triple (fun stack => stack.size = n) (pushLong val)
      (fun _ stack => stack.size = n + 2) (· = .indexOutOfRange) :=
  (push_uses _ n).bind fun _ => push_uses _ (n + 1)

theorem onStack_uses {m : StackM Unit} {n k : ℕ}
    (hm : Triple (fun stack => stack.size = n) m
      (fun _ stack => stack.size = n + k) (· = .indexOutOfRange)) :
    Triple (Uses n ()) (onStack m) (Uses (n + k)) (· = .indexOutOfRange) :=
  hm.zoom (fun _ hsize => hsize) fun _ _ _ _ hsize => hsize

/-- What leaves `k` slots more, or no slot left to use, does not leave `c`
more. -/
theorem not_leavesSize {inst : Instruction} {frame : Frame}
    {result : Except GoPanic (Unit × Frame)} {n k c : ℕ}
    (hends : Ends (Uses (n + k)) (· = .indexOutOfRange) result)
    (hne : k ≠ c) : ¬ LeavesSize inst frame (n + c) result := by
  intro hleaves
  cases result with
  | ok result =>
      have hk : result.2.operandStack.size = n + k := hends
      have hc : result.2.operandStack.size = n + c := hleaves
      omega
  | error panic =>
      have hindex : panic = .indexOutOfRange := hends
      have hdivide : panic = .divideByZero := hleaves.2
      rw [hindex] at hdivide
      cases hdivide

theorem eq_of_mistyped {inst : Instruction}
    (hmistyped : inst.opcode ∈ Instruction.mistyped) :
    inst ∈ [Instruction.lconst_0, .lconst_1, .fconst_0, .fconst_1,
      .fconst_2] := by
  cases inst
  case index instruction =>
    cases instruction with
    | load type index | store type index =>
        cases type <;> exact absurd hmistyped (of_decide_eq_false rfl)
    | iinc index const => exact absurd hmistyped (of_decide_eq_false rfl)
  case loadN type n | storeN type n =>
    cases type <;> fin_cases n <;> exact absurd hmistyped (of_decide_eq_false rfl)
  case arith op type | shift op type | bit op type =>
    cases op <;> cases type <;> exact absurd hmistyped (of_decide_eq_false rfl)
  case neg type => cases type <;> exact absurd hmistyped (of_decide_eq_false rfl)
  case convert conversion =>
    cases conversion <;> exact absurd hmistyped (of_decide_eq_false rfl)
  case fcmp gFlag | dcmp gFlag =>
    cases gFlag <;> exact absurd hmistyped (of_decide_eq_false rfl)
  case ifCond cond offset | ifIcmp cond offset =>
    cases cond <;> exact absurd hmistyped (of_decide_eq_false rfl)
  case ifAcmp equal offset => cases equal <;> exact absurd hmistyped (of_decide_eq_false rfl)
  case ifNull null offset => cases null <;> exact absurd hmistyped (of_decide_eq_false rfl)
  case lconst_0 | lconst_1 | fconst_0 | fconst_1 | fconst_2 => decide
  all_goals exact absurd hmistyped (of_decide_eq_false rfl)

theorem not_leavesSize_mistyped (unit : FloatUnit) {inst : Instruction}
    {types types' : List ValueType} {frame : Frame}
    (hready : Ready inst types types' frame)
    (hmistyped : inst.opcode ∈ Instruction.mistyped) :
    ¬ LeavesSize inst frame (typeDepth types') (inst.execute unit frame) := by
  have hsize : Uses (typeDepth types) () frame := hready.size_eq
  have htyped := hready.typed
  have hint : ∀ val, Ends (Uses (typeDepth types + 1)) (· = .indexOutOfRange)
      (onStack (pushInt val) frame) :=
    fun val => onStack_uses (push_uses _ _) frame hsize
  have hdouble : ∀ val, Ends (Uses (typeDepth types + 2))
      (· = .indexOutOfRange) (onStack (pushDouble val) frame) :=
    fun val => onStack_uses (pushLong_uses val _) frame hsize
  have hmem := eq_of_mistyped hmistyped
  simp only [List.mem_cons, List.not_mem_nil, or_false] at hmem
  rcases hmem with rfl | rfl | rfl | rfl | rfl
  all_goals
    cases htyped
    rw [typeDepth_append, Nat.add_comm]
  · exact not_leavesSize (hint 0) (by decide)
  · exact not_leavesSize (hint 1) (by decide)
  · exact not_leavesSize (hdouble _) (by decide)
  · exact not_leavesSize (hdouble _) (by decide)
  · exact not_leavesSize (hdouble _) (by decide)

/-- `x / 0` and `x % 0` of `int` and `long` panic. -/
theorem execute_dividesByZero (unit : FloatUnit) {inst : Instruction}
    {types types' : List ValueType} {frame : Frame}
    (htyped : inst.typeStep types = some types')
    (hsize : frame.operandStack.size = typeDepth types)
    (hzero : inst.DividesByZero frame.operandStack) :
    inst.execute unit frame = .error .divideByZero := by
  cases inst
  case arith op type =>
    obtain ⟨n, hdepth, _⟩ := signature_depth htyped
    have hpanic := arith_panics unit (hsize.trans hdepth) hzero
    show onStack (arith unit op type) frame = _
    unfold onStack zoom
    rw [hpanic]
  all_goals exact hzero.elim

theorem leavesSize_iff (unit : FloatUnit) {code : Bytecode} {pc : ℕ}
    {inst : Instruction} {types types' : List ValueType} {frame : Frame}
    (hat : Reference.InstructionAt code pc inst)
    (hready : Ready inst types types' frame) :
    LeavesSize inst frame (typeDepth types') (inst.execute unit frame) ↔
      inst.opcode ∉ Instruction.mistyped := by
  constructor
  · intro hleaves hmistyped
    exact not_leavesSize_mistyped unit hready hmistyped hleaves
  · intro hmistyped
    have hbounded := tableBounded_of_at hat
    obtain ⟨bytes, ⟨hrange, _⟩, _⟩ := hat
    have hframe : FrameIs frame.operandStack.slots.length
        frame.localVars.length frame.thread.pc frame.nextPc (typeDepth types)
        frame :=
      ⟨⟨rfl, hready.size_eq⟩, rfl, rfl, rfl⟩
    by_cases hzero : inst.DividesByZero frame.operandStack
    · rw [execute_dividesByZero unit hready.typed hready.size_eq hzero]
      exact ⟨hzero, rfl⟩
    · obtain ⟨_, after, hresult, target, _, hafter⟩ :=
        (execute_goesTo unit hrange hbounded hready.typed hready.room
          hready.locals_fit hmistyped).ok ⟨hframe, hzero⟩
      rw [hresult]
      exact hafter.stack.size_eq

/-! ## Well-typed methods -/

/-- The factory has no instruction for the opcode, or the instruction is
`wide ret`. -/
def UnsupportedAt (code : Bytecode) (pc : ℕ) : Prop :=
  (∃ opcode, code.bytes[pc]? = some opcode ∧
    Instruction.newInstruction opcode = .error (.unsupportedOpcode opcode)) ∨
  [0xc4, 0xa9] <+: code.bytes.drop pc

/-- The types on the stack before the instruction at an address, the top of the
stack first. -/
abbrev Typing : Type := ℕ → Option (List ValueType)

/-- An instruction that fits the typing before it and after it. -/
def TypedAt (limits : Limits) (code : Bytecode) (typing : Typing) (pc : ℕ)
    (types : List ValueType) : Prop :=
  ∃ inst types', Reference.InstructionAt code pc inst ∧
    inst.typeStep types = some types' ∧
    typeDepth types' ≤ limits.maxStack ∧
    inst.LocalsFit limits.maxLocals ∧
    ∀ target ∈ inst.successors pc (pc + inst.sizeAt pc : ℕ),
      ∃ next : ℕ, target = next ∧ typing next = some types'

structure WellTyped (limits : Limits) (code : Bytecode) (typing : Typing) :
    Prop where
  entry : typing 0 = some []
  typed_at : ∀ pc types, typing pc = some types →
    UnsupportedAt code pc ∨ TypedAt limits code typing pc types

/-- A frame between two rounds, with the depth that the typing assigns. -/
structure DepthTyped (limits : Limits) (typing : Typing) (frame : Frame) :
    Prop where
  capacity : frame.operandStack.slots.length = limits.maxStack
  locals : frame.localVars.length = limits.maxLocals
  typed : ∃ (pc : ℕ) (types : List ValueType), frame.nextPc = pc ∧
    typing pc = some types ∧ frame.operandStack.size = typeDepth types

/-- Why a round in a frame may panic: it divides by zero, or the factory has no
such instruction. -/
inductive Stops (code : Bytecode) (frame : Frame) : GoPanic → Prop
  | divided {pc : ℕ} {inst : Instruction} (at_pc : frame.nextPc = pc)
      (at_inst : Reference.InstructionAt code pc inst)
      (zero : inst.DividesByZero frame.operandStack) :
      Stops code frame .divideByZero
  | unsupported {pc : ℕ} {opcode : Byte} (at_pc : frame.nextPc = pc)
      (at_opcode : UnsupportedAt code pc) :
      Stops code frame (.unsupportedOpcode opcode)

/-- After `n` rounds the depth is that of the typing, unless one of them could
not be executed.  In particular no index was out of range. -/
def KeepsDepth (limits : Limits) (code : Bytecode) (typing : Typing)
    (rounds : ℕ → Except GoPanic Frame) (n : ℕ) : Prop :=
  match rounds n with
  | .ok frame => DepthTyped limits typing frame
  | .error panic =>
      ∃ m < n, ∃ frame, rounds m = .ok frame ∧ Stops code frame panic

/-- The byte at `pc` is the opcode of one of the five instructions. -/
def MistypedAt (code : Bytecode) (pc : ℕ) : Prop :=
  ∃ opcode ∈ Instruction.mistyped, code.bytes[pc]? = some opcode

section Rounds

variable (unit : FloatUnit) {limits : Limits} {code : Bytecode}
  {typing : Typing}

theorem decode_unsupported {pc : ℕ} (hat : UnsupportedAt code pc) :
    ∃ opcode, Instruction.decode ⟨code.bytes, pc⟩ =
      .error (.unsupportedOpcode opcode) := by
  have hread : ∀ {at' : ℕ} {byte : Byte}, code.bytes[at']? = some byte →
      BytecodeReader.readUint8 ⟨code.bytes, at'⟩ =
        .ok (byte, ⟨code.bytes, (at' + 1 : ℕ)⟩) := by
    intro at' byte hbyte
    simp only [BytecodeReader.readUint8, Instruction.next?_eq_some hbyte]
  have hdecode : Instruction.decode ⟨code.bytes, pc⟩ = (do
      let result ← BytecodeReader.readUint8 ⟨code.bytes, pc⟩
      let inst ← Instruction.newInstruction result.1
      inst.fetchOperands result.2) := by
    show (do
      let result ← BytecodeReader.readUint8 ⟨code.bytes, pc⟩
      (do
        let inst ← liftM (Instruction.newInstruction result.1)
        inst.fetchOperands : Fetch Instruction) result.2) = _
    cases BytecodeReader.readUint8 ⟨code.bytes, pc⟩ with
    | error panic => rfl
    | ok result =>
        show (do
          let inst ← liftM (Instruction.newInstruction result.1)
          inst.fetchOperands : Fetch Instruction) result.2 = (do
            let inst ← Instruction.newInstruction result.1
            inst.fetchOperands result.2)
        cases Instruction.newInstruction result.1 with
        | error panic => rfl
        | ok inst => rfl
  rcases hat with ⟨opcode, hopcode, hnew⟩ | hwide
  · refine ⟨opcode, ?_⟩
    rw [hdecode, hread hopcode]
    show (do
      let inst ← Instruction.newInstruction opcode
      inst.fetchOperands ⟨code.bytes, (pc + 1 : ℕ)⟩) = _
    rw [hnew]
    rfl
  · have hret := Instruction.getElem?_of_prefix_drop
      (Instruction.prefix_drop_succ hwide)
    refine ⟨0xa9, ?_⟩
    rw [hdecode, hread (Instruction.getElem?_of_prefix_drop hwide)]
    show (do
      let result ← BytecodeReader.readUint8 ⟨code.bytes, (pc + 1 : ℕ)⟩
      Instruction.wideModified result.1 result.2) = _
    rw [hread hret]
    rfl

theorem loopRound_unsupported {frame : Frame} {pc : ℕ}
    (hpc : frame.nextPc = pc) (hat : UnsupportedAt code pc) :
    ∃ opcode, loopRound unit code.bytes frame =
      .error (.unsupportedOpcode opcode) := by
  obtain ⟨opcode, hdecode⟩ := decode_unsupported hat
  exact ⟨opcode, loopRound_of_panic unit hpc hdecode⟩

theorem opcode_at {pc : ℕ} {inst : Instruction}
    (hat : Reference.InstructionAt code pc inst) :
    code.bytes[pc]? = some inst.opcode := by
  obtain ⟨bytes, ⟨_, padding, _, rfl⟩, hbytes⟩ := hat
  exact Instruction.getElem?_of_prefix_drop hbytes

/-- One round keeps the depth of the typing. -/
theorem loopRound_keepsDepth {frame : Frame}
    (hwell : WellTyped limits code typing)
    (hframe : DepthTyped limits typing frame)
    (hmistyped : ∀ pc : ℕ, frame.nextPc = pc → ¬ MistypedAt code pc) :
    match loopRound unit code.bytes frame with
    | .ok after => DepthTyped limits typing after
    | .error panic => Stops code frame panic := by
  obtain ⟨pc, types, hpc, htyping, hsize⟩ := hframe.typed
  rcases hwell.typed_at pc types htyping with hunsupported | htyped
  · obtain ⟨opcode, hround⟩ := loopRound_unsupported unit hpc hunsupported
    rw [hround]
    exact .unsupported hpc hunsupported
  · obtain ⟨inst, types', hat, hstep, hroom, hlocals, hsuccessors⟩ := htyped
    have hopcode : inst.opcode ∉ Instruction.mistyped :=
      fun hmem => hmistyped pc hpc ⟨inst.opcode, hmem, opcode_at hat⟩
    have hbounded := tableBounded_of_at hat
    have hrange : inst.InRange := by
      obtain ⟨bytes, ⟨hrange, _⟩, _⟩ := hat
      exact hrange
    rw [loopRound_decoded unit hpc hat]
    set entered : Frame := { frame with
      thread := ⟨pc⟩
      nextPc := (pc + inst.sizeAt pc : ℕ) } with hentered
    have hentry : entered.operandStack.size = typeDepth types := hsize
    have hfits : FrameIs limits.maxStack limits.maxLocals pc
        (pc + inst.sizeAt pc : ℕ) (typeDepth types) entered :=
      ⟨⟨hframe.capacity, hsize⟩, hframe.locals, rfl, rfl⟩
    by_cases hzero : inst.DividesByZero entered.operandStack
    · rw [execute_dividesByZero unit hstep hentry hzero]
      exact .divided hpc hat hzero
    · obtain ⟨_, after, hresult, target, htarget, hafter⟩ :=
        (execute_goesTo unit hrange hbounded hstep hroom hlocals hopcode).ok
          ⟨hfits, hzero⟩
      rw [hresult]
      obtain ⟨next, hnext, hnexttyped⟩ := hsuccessors target htarget
      exact ⟨hafter.stack.capacity, hafter.locals, next, types',
        hafter.next_pc.trans hnext, hnexttyped, hafter.stack.size_eq⟩

theorem loop_keepsDepth {frame : Frame} {n : ℕ}
    (hwell : WellTyped limits code typing)
    (hframe : DepthTyped limits typing frame)
    (hmistyped : ∀ m < n, ∀ frame', loop unit code.bytes m frame = .ok frame' →
      ∀ pc : ℕ, frame'.nextPc = pc → ¬ MistypedAt code pc) :
    KeepsDepth limits code typing (loop unit code.bytes · frame) n := by
  induction n generalizing frame with
  | zero => exact hframe
  | succ n ih =>
      have hround := loopRound_keepsDepth unit hwell hframe
        (hmistyped 0 (Nat.succ_pos n) frame rfl)
      have hsucc : ∀ m, loop unit code.bytes (m + 1) frame = (do
          let frame' ← loopRound unit code.bytes frame
          loop unit code.bytes m frame') := fun m => rfl
      unfold KeepsDepth
      dsimp only
      rw [hsucc]
      cases hresult : loopRound unit code.bytes frame with
      | error panic =>
          rw [hresult] at hround
          exact ⟨0, Nat.succ_pos n, frame, rfl, hround⟩
      | ok frame' =>
          rw [hresult] at hround
          have hrest := ih hround fun m hm last hlast =>
            hmistyped (m + 1) (Nat.succ_lt_succ hm) last (by
              rw [hsucc, hresult]
              exact hlast)
          unfold KeepsDepth at hrest
          show match loop unit code.bytes n frame' with
            | .ok frame => DepthTyped limits typing frame
            | .error panic => _
          cases hloop : loop unit code.bytes n frame' with
          | ok after =>
              dsimp only at hrest
              rw [hloop] at hrest
              exact hrest
          | error panic =>
              dsimp only at hrest
              rw [hloop] at hrest
              obtain ⟨m, hm, last, hlast, hstops⟩ := hrest
              refine ⟨m + 1, Nat.succ_lt_succ hm, last, ?_, hstops⟩
              rw [hsucc, hresult]
              exact hlast

end Rounds

theorem depthTyped_newFrame {limits : Limits} {code : Bytecode}
    {typing : Typing} (hwell : WellTyped limits code typing) :
    DepthTyped limits typing
      (newFrame ⟨0⟩ limits.maxLocals limits.maxStack) where
  capacity := List.length_replicate
  locals := List.length_replicate
  typed := ⟨0, [], rfl, hwell.entry, rfl⟩

/-- In a frame that is ready for it, an instruction changes the stack by the
slots of its types, or divides by zero, if and only if it is none of the five.
In a run of a well-typed method whose rounds execute none of the five, the depth
at each address is that of the typing, and no index is out of range: only a
division by zero or an unsupported instruction ends the run. -/
theorem stack_discipline (unit : FloatUnit) :
    (∀ {code : Bytecode} {pc : ℕ} {inst : Instruction}
        {types types' : List ValueType} {frame : Frame},
      Reference.InstructionAt code pc inst → Ready inst types types' frame →
      (LeavesSize inst frame (typeDepth types') (inst.execute unit frame) ↔
        inst.opcode ∉ Instruction.mistyped)) ∧
    (∀ {limits : Limits} {code : Bytecode} {typing : Typing} {n : ℕ},
      WellTyped limits code typing →
      (∀ m < n, ∀ frame, interpret unit limits.maxLocals limits.maxStack
          code.bytes m = .ok frame →
        ∀ pc : ℕ, frame.nextPc = pc → ¬ MistypedAt code pc) →
      KeepsDepth limits code typing
        (interpret unit limits.maxLocals limits.maxStack code.bytes) n) := by
  constructor
  · intro code pc inst types types' frame hat hready
    exact leavesSize_iff unit hat hready
  · intro limits code typing n hwell hmistyped
    exact loop_keepsDepth unit hwell (depthTyped_newFrame hwell) hmistyped

/-! ## Two methods -/

/-- `bipush -7, bipush 2, idiv, ireturn` -/
def returnQuotient : Bytecode where
  bytes := [0x10, 0xf9, 0x10, 0x02, 0x6c, 0xac]
  length_lt := by decide

def returnQuotientTyping : Typing
  | 0 => some []
  | 2 => some [.int]
  | 4 => some [.int, .int]
  | 5 => some [.int]
  | _ => none

theorem returnQuotient_wellTyped :
    WellTyped ⟨2, 0⟩ returnQuotient returnQuotientTyping := by
  constructor
  · rfl
  · intro pc types htyping
    unfold returnQuotientTyping at htyping
    split at htyping
    · cases htyping
      exact Or.inr ⟨.bipush (-7), [.int],
        ⟨[0x10, 0xf9], ⟨trivial, [0, 0, 0], rfl, rfl⟩, by decide⟩, rfl,
        by decide, trivial, fun target htarget =>
          ⟨2, List.mem_singleton.mp htarget, rfl⟩⟩
    · cases htyping
      exact Or.inr ⟨.bipush 2, [.int, .int],
        ⟨[0x10, 0x02], ⟨trivial, [0], rfl, rfl⟩, by decide⟩, rfl,
        by decide, trivial, fun target htarget =>
          ⟨4, List.mem_singleton.mp htarget, rfl⟩⟩
    · cases htyping
      exact Or.inr ⟨.arith .div .int, [.int],
        ⟨[0x6c], ⟨trivial, [0, 0, 0], rfl, rfl⟩, by decide⟩, rfl,
        by decide, trivial, fun target htarget =>
          ⟨5, List.mem_singleton.mp htarget, rfl⟩⟩
    · exact Or.inl (Or.inl ⟨0xac, rfl, rfl⟩)
    · cases htyping

theorem stack_discipline_returnQuotient :
    LeavesSize (.bipush (-7)) (newFrame ⟨0⟩ 0 2) 1
      ((Instruction.bipush (-7)).execute integerUnit (newFrame ⟨0⟩ 0 2)) ∧
    KeepsDepth ⟨2, 0⟩ returnQuotient returnQuotientTyping
      (interpret integerUnit 0 2 returnQuotient.bytes) 3 := by
  obtain ⟨hinst, hrun⟩ := stack_discipline integerUnit
  constructor
  · have hat : Reference.InstructionAt returnQuotient 0 (.bipush (-7)) :=
      ⟨[0x10, 0xf9], ⟨trivial, [0, 0, 0], rfl, rfl⟩, by decide⟩
    have hready : Ready (.bipush (-7)) [] [.int] (newFrame ⟨0⟩ 0 2) :=
      ⟨rfl, rfl, by decide, trivial⟩
    exact (hinst hat hready).mpr (by decide)
  · apply hrun returnQuotient_wellTyped
    rintro m _ frame _ pc _ ⟨opcode, hopcode, hbyte⟩
    have hmem : opcode ∈ returnQuotient.bytes := List.mem_of_getElem? hbyte
    have hnone : ∀ byte ∈ Instruction.mistyped,
        byte ∉ returnQuotient.bytes := by decide
    exact hnone opcode hopcode hmem

/-- `lconst_0, lconst_1, ladd, lreturn` -/
def returnSum : Bytecode where
  bytes := [0x09, 0x0a, 0x61, 0xad]
  length_lt := by decide

def returnSumTyping : Typing
  | 0 => some []
  | 1 => some [.long]
  | 2 => some [.long, .long]
  | 3 => some [.long]
  | _ => none

theorem returnSum_wellTyped : WellTyped ⟨4, 0⟩ returnSum returnSumTyping := by
  constructor
  · rfl
  · intro pc types htyping
    unfold returnSumTyping at htyping
    split at htyping
    · cases htyping
      exact Or.inr ⟨.lconst_0, [.long],
        ⟨[0x09], ⟨trivial, [0, 0, 0], rfl, rfl⟩, by decide⟩, rfl,
        by decide, trivial, fun target htarget =>
          ⟨1, List.mem_singleton.mp htarget, rfl⟩⟩
    · cases htyping
      exact Or.inr ⟨.lconst_1, [.long, .long],
        ⟨[0x0a], ⟨trivial, [0, 0], rfl, rfl⟩, by decide⟩, rfl,
        by decide, trivial, fun target htarget =>
          ⟨2, List.mem_singleton.mp htarget, rfl⟩⟩
    · cases htyping
      exact Or.inr ⟨.arith .add .long, [.long],
        ⟨[0x61], ⟨trivial, [0], rfl, rfl⟩, by decide⟩, rfl,
        by decide, trivial, fun target htarget =>
          ⟨3, List.mem_singleton.mp htarget, rfl⟩⟩
    · exact Or.inl (Or.inl ⟨0xad, rfl, rfl⟩)
    · cases htyping

/-- The constants of `returnSum` take one slot each, and `ladd` pops from an
empty stack. -/
theorem not_stack_discipline :
    ¬ (∀ (code : Bytecode) (pc : ℕ) (inst : Instruction)
        (types types' : List ValueType) (frame : Frame),
      Reference.InstructionAt code pc inst → Ready inst types types' frame →
      LeavesSize inst frame (typeDepth types')
        (inst.execute integerUnit frame)) ∧
    WellTyped ⟨4, 0⟩ returnSum returnSumTyping ∧
    interpret integerUnit 0 4 returnSum.bytes 3 = .error .indexOutOfRange := by
  refine ⟨?_, returnSum_wellTyped, rfl⟩
  intro hall
  have hat : Reference.InstructionAt returnSum 0 .lconst_0 :=
    ⟨[0x09], ⟨trivial, [0, 0, 0], rfl, rfl⟩, by decide⟩
  have hready : Ready .lconst_0 [] [.long] (newFrame ⟨0⟩ 0 2) :=
    ⟨rfl, rfl, by decide, trivial⟩
  have hsize : 1 = 2 := hall returnSum 0 .lconst_0 [] [.long] _ hat hready
  cases hsize

end Jvm

end ClpszDemos
