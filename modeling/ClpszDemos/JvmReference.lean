import ClpszDemos.BytecodeEncoding
import ClpszDemos.OperandStackLogic

/-!
# The reference machine

The machine of the JVM specification for the instructions that need neither
floating-point arithmetic nor objects: constants, loads, stores, the stack
instructions, arithmetic on `int` and `long`, comparisons and jumps.  Its
operand stack and its local variables hold typed values, arithmetic is on
integers, and a step exists only where the specification allows one.
-/

namespace ClpszDemos

namespace Jvm

/-- The code of a method.  `code_length` is a `u4`. -/
structure Bytecode where
  bytes : List Byte
  length_lt : bytes.length < 2 ^ 32

/-- `max_stack` and `max_locals` -/
structure Limits where
  maxStack : ℕ
  maxLocals : ℕ

namespace Value

def type : Value → ValueType
  | .int _ => .int
  | .long _ => .long
  | .float _ => .float
  | .double _ => .double
  | .ref _ => .ref

end Value

/-- `long` and `double` are of category 2, and take two slots. -/
def ValueType.category : ValueType → ℕ
  | .long => 2
  | .double => 2
  | _ => 1

def Value.category (value : Value) : ℕ := value.type.category

namespace Reference

/-! ## Integers -/

/-- The low-order bits of the result; none where the specification has an
`ArithmeticException`. -/
def arith {w : ℕ} (op : ArithOp) (v1 v2 : BitVec w) : Option (BitVec w) :=
  match op with
  | .add => some (BitVec.ofInt w (v1.toInt + v2.toInt))
  | .sub => some (BitVec.ofInt w (v1.toInt - v2.toInt))
  | .mul => some (BitVec.ofInt w (v1.toInt * v2.toInt))
  | .div =>
      if v2.toInt = 0 then none
      else some (BitVec.ofInt w (v1.toInt.tdiv v2.toInt))
  | .rem =>
      if v2.toInt = 0 then none
      else some (BitVec.ofInt w (v1.toInt.tmod v2.toInt))

def neg {w : ℕ} (val : BitVec w) : BitVec w := BitVec.ofInt w (-val.toInt)

/-- The distance is `v2` modulo the width. -/
def shift {w : ℕ} (op : ShiftOp) (v1 : BitVec w) (v2 : BitVec 32) : BitVec w :=
  match op with
  | .shl => BitVec.ofInt w (v1.toInt * 2 ^ (v2.toNat % w))
  | .shr => BitVec.ofInt w (v1.toInt / 2 ^ (v2.toNat % w))
  | .ushr => BitVec.ofNat w (v1.toNat / 2 ^ (v2.toNat % w))

def bit {w : ℕ} (op : BitOp) (v1 v2 : BitVec w) : BitVec w :=
  match op with
  | .and => v1 &&& v2
  | .or => v1 ||| v2
  | .xor => v1 ^^^ v2

/-- `byte` and `short` are signed, `char` is not. -/
def convert : Conversion → Value → Option Value
  | .i2l, .int val => some (.long (BitVec.ofInt 64 val.toInt))
  | .l2i, .long val => some (.int (BitVec.ofInt 32 val.toInt))
  | .i2b, .int val => some (.int (BitVec.ofInt 32 (val.toInt.bmod (2 ^ 8))))
  | .i2c, .int val => some (.int (BitVec.ofInt 32 (val.toInt % 2 ^ 16)))
  | .i2s, .int val => some (.int (BitVec.ofInt 32 (val.toInt.bmod (2 ^ 16))))
  | _, _ => none

def lcmp (v1 v2 : BitVec 64) : BitVec 32 :=
  if v1.toInt > v2.toInt then 1
  else if v1.toInt = v2.toInt then 0
  else -1

def test (cond : Cond) (v1 v2 : ℤ) : Bool :=
  match cond with
  | .eq => v1 = v2
  | .ne => v1 ≠ v2
  | .lt => v1 < v2
  | .ge => v1 ≥ v2
  | .gt => v1 > v2
  | .le => v1 ≤ v2

/-! ## Stack instructions -/

/-- The categories of the operands, the top of the stack first, and which of
them the instruction leaves in their place. -/
structure Form where
  categories : List ℕ
  order : List ℕ

def forms : Instruction → List Form
  | .pop => [⟨[1], []⟩]
  | .pop2 => [⟨[1, 1], []⟩, ⟨[2], []⟩]
  | .dup => [⟨[1], [0, 0]⟩]
  | .dup_x1 => [⟨[1, 1], [0, 1, 0]⟩]
  | .dup_x2 => [⟨[1, 1, 1], [0, 1, 2, 0]⟩, ⟨[1, 2], [0, 1, 0]⟩]
  | .dup2 => [⟨[1, 1], [0, 1, 0, 1]⟩, ⟨[2], [0, 0]⟩]
  | .dup2_x1 => [⟨[1, 1, 1], [0, 1, 2, 0, 1]⟩, ⟨[2, 1], [0, 1, 0]⟩]
  | .dup2_x2 =>
      [⟨[1, 1, 1, 1], [0, 1, 2, 3, 0, 1]⟩, ⟨[2, 1, 1], [0, 1, 2, 0]⟩,
        ⟨[1, 1, 2], [0, 1, 2, 0, 1]⟩, ⟨[2, 2], [0, 1, 0]⟩]
  | .swap => [⟨[1, 1], [1, 0]⟩]
  | _ => []

def Form.apply {α : Type} (category : α → ℕ) (stack : List α) (form : Form) :
    Option (List α) :=
  let operands := stack.take form.categories.length
  if operands.map category = form.categories then
    some (form.order.filterMap (operands[·]?) ++
      stack.drop form.categories.length)
  else none

/-- The form that fits the operands. -/
def shuffle {α : Type} (category : α → ℕ) (inst : Instruction)
    (stack : List α) : Option (List α) :=
  (forms inst).findSome? (Form.apply category stack)

/-! ## Switches -/

def tableOffset (defaultOffset low high : BitVec 32)
    (jumpOffsets : List (BitVec 32)) (index : BitVec 32) : Option (BitVec 32) :=
  if low.toInt ≤ index.toInt ∧ index.toInt ≤ high.toInt then
    jumpOffsets[(index.toInt - low.toInt).toNat]?
  else some defaultOffset

/-- The offset paired with `key` among `match, offset, match, offset, ...` -/
def lookupOffset (defaultOffset key : BitVec 32) :
    List (BitVec 32) → BitVec 32
  | found :: offset :: rest =>
      if found = key then offset else lookupOffset defaultOffset key rest
  | _ => defaultOffset

/-! ## States -/

abbrev Locals : Type := ℕ → Option Value

/-- A value stored at `index` takes `index`, and of category 2 `index + 1` too.
A value that took one of these before is no longer there. -/
def Locals.store (locals : Locals) (index : ℕ) (value : Value) : Locals :=
  fun i =>
    if i = index then some value
    else if i = index + 1 ∧ value.category = 2 then none
    else if i + 1 = index ∧ (locals i).map Value.category = some 2 then none
    else locals i

structure State where
  pc : ℤ
  stack : List Value
  locals : Locals

inductive Outcome
  | next (state : State)
  | arithmeticException

def State.branch (state : State) (pc offset : ℤ) : State :=
  { state with pc := pc + offset }

def State.branchIf (state : State) (taken : Bool) (pc offset : ℤ) : State :=
  if taken then state.branch pc offset else state

def State.push (state : State) (value : Value) : Outcome :=
  .next { state with stack := value :: state.stack }

/-! ## Execution -/

def popInt : List Value → Option (BitVec 32 × List Value)
  | .int val :: stack => some (val, stack)
  | _ => none

def popLong : List Value → Option (BitVec 64 × List Value)
  | .long val :: stack => some (val, stack)
  | _ => none

def popRef : List Value → Option (Ref × List Value)
  | .ref ref :: stack => some (ref, stack)
  | _ => none

def popType (type : ValueType) : List Value → Option (Value × List Value)
  | value :: stack => if value.type = type then some (value, stack) else none
  | [] => none

def load (state : State) (type : ValueType) (index : ℕ) : Option Outcome := do
  let value ← state.locals index
  if value.type = type then some (state.push value) else none

def store (limits : Limits) (state : State) (type : ValueType) (index : ℕ) :
    Option Outcome := do
  let (value, stack) ← popType type state.stack
  if index + value.category ≤ limits.maxLocals then
    some (.next { state with
      stack := stack
      locals := state.locals.store index value })
  else none

def iinc (state : State) (index : ℕ) (const : BitVec 32) : Option Outcome := do
  let value ← state.locals index
  let (val, _) ← popInt [value]
  let sum := BitVec.ofInt 32 (val.toInt + const.toInt)
  some (.next { state with locals := state.locals.store index (.int sum) })

def executeIndex (limits : Limits) (state : State) :
    IndexInstruction → Option Outcome
  | .load type index => load state type index
  | .store type index => store limits state type index
  | .iinc index const => iinc state index const

def pushResult {w : ℕ} (state : State) (value : BitVec w → Value) :
    Option (BitVec w) → Outcome
  | some result => state.push (value result)
  | none => .arithmeticException

def executeArith (state : State) (op : ArithOp) :
    NumType → Option Outcome
  | .int => do
      let (v2, stack) ← popInt state.stack
      let (v1, stack) ← popInt stack
      some (pushResult { state with stack := stack } .int (arith op v1 v2))
  | .long => do
      let (v2, stack) ← popLong state.stack
      let (v1, stack) ← popLong stack
      some (pushResult { state with stack := stack } .long (arith op v1 v2))
  | _ => none

def executeNeg (state : State) : NumType → Option Outcome
  | .int => do
      let (val, stack) ← popInt state.stack
      some ({ state with stack := stack }.push (.int (neg val)))
  | .long => do
      let (val, stack) ← popLong state.stack
      some ({ state with stack := stack }.push (.long (neg val)))
  | _ => none

def executeShift (state : State) (op : ShiftOp) : IntType → Option Outcome
  | .int => do
      let (v2, stack) ← popInt state.stack
      let (v1, stack) ← popInt stack
      some ({ state with stack := stack }.push (.int (shift op v1 v2)))
  | .long => do
      let (v2, stack) ← popInt state.stack
      let (v1, stack) ← popLong stack
      some ({ state with stack := stack }.push (.long (shift op v1 v2)))

def executeBit (state : State) (op : BitOp) : IntType → Option Outcome
  | .int => do
      let (v2, stack) ← popInt state.stack
      let (v1, stack) ← popInt stack
      some ({ state with stack := stack }.push (.int (bit op v1 v2)))
  | .long => do
      let (v2, stack) ← popLong state.stack
      let (v1, stack) ← popLong stack
      some ({ state with stack := stack }.push (.long (bit op v1 v2)))

def executeConvert (state : State) (conversion : Conversion) :
    Option Outcome := do
  let (value, stack) ← state.stack.head?.map (·, state.stack.tail)
  let result ← convert conversion value
  some ({ state with stack := stack }.push result)

def executeLcmp (state : State) : Option Outcome := do
  let (v2, stack) ← popLong state.stack
  let (v1, stack) ← popLong stack
  some ({ state with stack := stack }.push (.int (lcmp v1 v2)))

def executeIfCond (pc : ℤ) (state : State) (cond : Cond) (offset : ℤ) :
    Option Outcome := do
  let (val, stack) ← popInt state.stack
  some (.next ({ state with stack := stack }.branchIf
    (test cond val.toInt 0) pc offset))

def executeIfIcmp (pc : ℤ) (state : State) (cond : Cond) (offset : ℤ) :
    Option Outcome := do
  let (v2, stack) ← popInt state.stack
  let (v1, stack) ← popInt stack
  some (.next ({ state with stack := stack }.branchIf
    (test cond v1.toInt v2.toInt) pc offset))

def executeIfAcmp (pc : ℤ) (state : State) (equal : Bool) (offset : ℤ) :
    Option Outcome := do
  let (ref2, stack) ← popRef state.stack
  let (ref1, stack) ← popRef stack
  some (.next ({ state with stack := stack }.branchIf
    (if equal then ref1 = ref2 else ref1 ≠ ref2) pc offset))

def executeIfNull (pc : ℤ) (state : State) (null : Bool) (offset : ℤ) :
    Option Outcome := do
  let (ref, stack) ← popRef state.stack
  some (.next ({ state with stack := stack }.branchIf
    (if null then ref = none else ref ≠ none) pc offset))

def executeTableSwitch (pc : ℤ) (state : State)
    (defaultOffset low high : BitVec 32) (jumpOffsets : List (BitVec 32)) :
    Option Outcome := do
  let (index, stack) ← popInt state.stack
  let offset ← tableOffset defaultOffset low high jumpOffsets index
  some (.next ({ state with stack := stack }.branch pc offset.toInt))

def executeLookupSwitch (pc : ℤ) (state : State) (defaultOffset : BitVec 32)
    (matchOffsets : List (BitVec 32)) : Option Outcome := do
  let (key, stack) ← popInt state.stack
  let offset := lookupOffset defaultOffset key matchOffsets
  some (.next ({ state with stack := stack }.branch pc offset.toInt))

def executeShuffle (state : State) (inst : Instruction) : Option Outcome := do
  let stack ← shuffle Value.category inst state.stack
  some (.next { state with stack := stack })

/-- One instruction at `pc`, from a state whose `pc` is that of the next
instruction.  There is no step for floating-point arithmetic, and none for
`lconst` and `fconst`. -/
def execute (limits : Limits) (pc : ℤ) (inst : Instruction) (state : State) :
    Option Outcome :=
  match inst with
  | .nop => some (.next state)
  | .aconst_null => some (state.push (.ref none))
  | .iconst_m1 => some (state.push (.int (-1)))
  | .iconst_0 => some (state.push (.int 0))
  | .iconst_1 => some (state.push (.int 1))
  | .iconst_2 => some (state.push (.int 2))
  | .iconst_3 => some (state.push (.int 3))
  | .iconst_4 => some (state.push (.int 4))
  | .iconst_5 => some (state.push (.int 5))
  | .dconst_0 => some (state.push (.double 0x0000000000000000))
  | .dconst_1 => some (state.push (.double 0x3ff0000000000000))
  | .bipush val => some (state.push (.int (BitVec.ofInt 32 val.toInt)))
  | .sipush val => some (state.push (.int (BitVec.ofInt 32 val.toInt)))
  | .index instruction => executeIndex limits state instruction
  | .loadN type n => load state type n
  | .storeN type n => store limits state type n
  | .arith op type => executeArith state op type
  | .neg type => executeNeg state type
  | .shift op type => executeShift state op type
  | .bit op type => executeBit state op type
  | .convert conversion => executeConvert state conversion
  | .lcmp => executeLcmp state
  | .ifCond cond offset => executeIfCond pc state cond offset
  | .ifIcmp cond offset => executeIfIcmp pc state cond offset
  | .ifAcmp equal offset => executeIfAcmp pc state equal offset
  | .ifNull null offset => executeIfNull pc state null offset
  | .goto offset => some (.next (state.branch pc offset))
  | .goto_w offset => some (.next (state.branch pc offset))
  | .tableSwitch defaultOffset low high jumpOffsets =>
      executeTableSwitch pc state defaultOffset low high jumpOffsets
  | .lookupSwitch defaultOffset _ matchOffsets =>
      executeLookupSwitch pc state defaultOffset matchOffsets
  | .wide (some instruction) => executeIndex limits state instruction
  | inst => executeShuffle state inst

def depth (stack : List Value) : ℕ := (stack.map Value.category).sum

def Outcome.Fits (limits : Limits) : Outcome → Prop
  | .next state => depth state.stack ≤ limits.maxStack
  | .arithmeticException => True

instance (limits : Limits) (outcome : Outcome) :
    Decidable (outcome.Fits limits) :=
  match outcome with
  | .next state =>
      inferInstanceAs (Decidable (depth state.stack ≤ limits.maxStack))
  | .arithmeticException => isTrue trivial

/-- `inst` is at address `pc` of `code`. -/
def InstructionAt (code : Bytecode) (pc : ℕ) (inst : Instruction) : Prop :=
  ∃ bytes, Instruction.Encodes pc inst bytes ∧ bytes <+: code.bytes.drop pc

/-- A step of the reference machine: the next instruction is well typed, and
fits the limits. -/
structure Step (limits : Limits) (code : Bytecode) (state : State)
    (pc : ℕ) (inst : Instruction) (outcome : Outcome) : Prop where
  at_pc : state.pc = pc
  instruction : InstructionAt code pc inst
  executes : execute limits pc inst
    { state with pc := (pc + inst.sizeAt pc : ℕ) } = some outcome
  fits : outcome.Fits limits

/-- `n` steps that end in a state. -/
inductive Run (limits : Limits) (code : Bytecode) :
    ℕ → State → State → Prop
  | refl {state : State} : Run limits code 0 state state
  | step {n : ℕ} {state next last : State} {pc : ℕ} {inst : Instruction}
      (head : Step limits code state pc inst (.next next))
      (tail : Run limits code n next last) :
      Run limits code (n + 1) state last

end Reference

end Jvm

end ClpszDemos
