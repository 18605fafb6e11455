import ClpszDemos.JvmInstruction
import ClpszDemos.ProgramLogic

/-!
# Frames and the interpreter loop

The `rtda` package, the `Execute` methods of the `instructions` packages and
`interpret` and `loop` of `interpreter.go`.  A slot has two halves, a number
and a reference; an access through one half leaves the other as it was.  A
`float32` or `float64` is its bit pattern, and arithmetic on these is up to a
floating-point unit.
-/

namespace ClpszDemos

namespace Jvm

open BigEndian

/-! ## Slots -/

/-- `*Object`; objects have no content and are compared by identity. -/
abbrev Ref : Type := Option ℕ

structure Slot where
  num : BitVec 32
  ref : Ref
  deriving DecidableEq, Repr

instance : Inhabited Slot := ⟨⟨0, none⟩⟩

abbrev LocalVars : Type := List Slot

def newLocalVars (maxLocals : ℕ) : LocalVars := List.replicate maxLocals default

namespace LocalVars

def slot (self : LocalVars) (index : ℕ) : Except GoPanic Slot :=
  match self[index]? with
  | some slot => .ok slot
  | none => .error .indexOutOfRange

def update (self : LocalVars) (index : ℕ) (f : Slot → Slot) :
    Except GoPanic LocalVars := do
  let slot ← self.slot index
  return self.set index (f slot)

def setInt (self : LocalVars) (index : ℕ) (val : BitVec 32) :
    Except GoPanic LocalVars :=
  self.update index fun slot => { slot with num := val }

def getInt (self : LocalVars) (index : ℕ) : Except GoPanic (BitVec 32) := do
  let slot ← self.slot index
  return slot.num

def setFloat (self : LocalVars) (index : ℕ) (bits : BitVec 32) :
    Except GoPanic LocalVars :=
  self.setInt index bits

def getFloat (self : LocalVars) (index : ℕ) : Except GoPanic (BitVec 32) :=
  self.getInt index

def setLong (self : LocalVars) (index : ℕ) (val : BitVec 64) :
    Except GoPanic LocalVars := do
  let vars ← self.setInt index (val.setWidth 32)
  vars.setInt (index + 1) ((val.sshiftRight 32).setWidth 32)

def getLong (self : LocalVars) (index : ℕ) : Except GoPanic (BitVec 64) := do
  let low ← self.getInt index
  let high ← self.getInt (index + 1)
  return join64 high low

def setDouble (self : LocalVars) (index : ℕ) (bits : BitVec 64) :
    Except GoPanic LocalVars :=
  self.setLong index bits

def getDouble (self : LocalVars) (index : ℕ) : Except GoPanic (BitVec 64) :=
  self.getLong index

def setRef (self : LocalVars) (index : ℕ) (ref : Ref) :
    Except GoPanic LocalVars :=
  self.update index fun slot => { slot with ref := ref }

def getRef (self : LocalVars) (index : ℕ) : Except GoPanic Ref := do
  let slot ← self.slot index
  return slot.ref

end LocalVars

/-! ## The operand stack -/

/-- `size` is a `uint`: a pop from an empty stack makes it wrap around, which
the access that follows turns into a panic. -/
structure OperandStack where
  size : ℕ
  slots : List Slot
  size_le : size ≤ slots.length

def newOperandStack (maxStack : ℕ) : OperandStack where
  size := 0
  slots := List.replicate maxStack default
  size_le := Nat.zero_le _

abbrev StackM (α : Type) : Type := StateT OperandStack (Except GoPanic) α

namespace OperandStack

/-- `self.slots[self.size]` becomes `f` of itself, then `self.size++`. -/
def push (f : Slot → Slot) : StackM Unit := fun self =>
  if hsize : self.size < self.slots.length then
    .ok ((), {
      size := self.size + 1
      slots := self.slots.set self.size (f self.slots[self.size])
      size_le := by
        rw [List.length_set]
        exact hsize })
  else .error .indexOutOfRange

/-- `self.size--`, then `self.slots[self.size]` is returned and becomes `f` of
itself. -/
def pop (f : Slot → Slot) : StackM Slot := fun self =>
  if hsize : 0 < self.size then
    have hlast : self.size - 1 < self.slots.length := by
      have hle := self.size_le
      omega
    .ok (self.slots[self.size - 1], {
      size := self.size - 1
      slots := self.slots.set (self.size - 1) (f self.slots[self.size - 1])
      size_le := by
        rw [List.length_set]
        exact hlast.le })
  else .error .indexOutOfRange

def pushInt (val : BitVec 32) : StackM Unit :=
  push fun slot => { slot with num := val }

def popInt : StackM (BitVec 32) := do
  let slot ← pop id
  return slot.num

def pushFloat (bits : BitVec 32) : StackM Unit := pushInt bits

def popFloat : StackM (BitVec 32) := popInt

def pushLong (val : BitVec 64) : StackM Unit := do
  pushInt (val.setWidth 32)
  pushInt ((val.sshiftRight 32).setWidth 32)

def popLong : StackM (BitVec 64) := do
  let high ← popInt
  let low ← popInt
  return join64 high low

def pushDouble (bits : BitVec 64) : StackM Unit := pushLong bits

def popDouble : StackM (BitVec 64) := popLong

def pushRef (ref : Ref) : StackM Unit :=
  push fun slot => { slot with ref := ref }

def popRef : StackM Ref := do
  let slot ← pop fun slot => { slot with ref := none }
  return slot.ref

def pushSlot (slot : Slot) : StackM Unit := push fun _ => slot

def popSlot : StackM Slot := pop id

end OperandStack

/-! ## Frames -/

structure Thread where
  pc : ℤ
  deriving DecidableEq, Repr

structure Frame where
  localVars : LocalVars
  operandStack : OperandStack
  thread : Thread
  nextPc : ℤ

def newFrame (thread : Thread) (maxLocals maxStack : ℕ) : Frame where
  localVars := newLocalVars maxLocals
  operandStack := newOperandStack maxStack
  thread := thread
  nextPc := 0

abbrev Exec : Type := StateT Frame (Except GoPanic) Unit

/-- `frame.OperandStack()` -/
def onStack {α : Type} (m : StackM α) : StateT Frame (Except GoPanic) α :=
  zoom Frame.operandStack (fun stack frame =>
    { frame with operandStack := stack }) m

/-- A read of `frame.LocalVars()` -/
def readLocal {α : Type} (read : LocalVars → Except GoPanic α) :
    StateT Frame (Except GoPanic) α := fun frame => do
  let val ← read frame.localVars
  return (val, frame)

def writeLocal (write : LocalVars → Except GoPanic LocalVars) : Exec :=
  fun frame => do
    let vars ← write frame.localVars
    return ((), { frame with localVars := vars })

def branch (offset : ℤ) : Exec := fun frame =>
  .ok ((), { frame with nextPc := frame.thread.pc + offset })

/-! ## Floating point -/

/-- Go's operators and conversions on `float32` and `float64`, on bit
patterns.  A comparison with a NaN has no result. -/
structure FloatUnit where
  float32Neg : BitVec 32 → BitVec 32
  float32Add : BitVec 32 → BitVec 32 → BitVec 32
  float32Sub : BitVec 32 → BitVec 32 → BitVec 32
  float32Mul : BitVec 32 → BitVec 32 → BitVec 32
  float32Div : BitVec 32 → BitVec 32 → BitVec 32
  float32Compare : BitVec 32 → BitVec 32 → Option Ordering
  float64Neg : BitVec 64 → BitVec 64
  float64Add : BitVec 64 → BitVec 64 → BitVec 64
  float64Sub : BitVec 64 → BitVec 64 → BitVec 64
  float64Mul : BitVec 64 → BitVec 64 → BitVec 64
  float64Div : BitVec 64 → BitVec 64 → BitVec 64
  float64Mod : BitVec 64 → BitVec 64 → BitVec 64
  float64Compare : BitVec 64 → BitVec 64 → Option Ordering
  int32ToFloat32 : BitVec 32 → BitVec 32
  int32ToFloat64 : BitVec 32 → BitVec 64
  int64ToFloat32 : BitVec 64 → BitVec 32
  int64ToFloat64 : BitVec 64 → BitVec 64
  float32ToInt32 : BitVec 32 → BitVec 32
  float32ToInt64 : BitVec 32 → BitVec 64
  float32ToFloat64 : BitVec 32 → BitVec 64
  float64ToInt32 : BitVec 64 → BitVec 32
  float64ToInt64 : BitVec 64 → BitVec 64
  float64ToFloat32 : BitVec 64 → BitVec 32

/-- The bit patterns of the constants 0.0, 1.0 and 2.0 of type `float64`. -/
def float64Zero : BitVec 64 := 0x0000000000000000

def float64One : BitVec 64 := 0x3ff0000000000000

def float64Two : BitVec 64 := 0x4000000000000000

/-! ## Instructions on the stack -/

open OperandStack

/-- A binary operator pops its right operand first. -/
def binary {α β γ : Type} (popRight : StackM β) (popLeft : StackM α)
    (result : α → β → γ) (push : γ → StackM Unit) : StackM Unit := do
  let v2 ← popRight
  let v1 ← popLeft
  push (result v1 v2)

/-- `IDIV` and `LDIV`, `IREM` and `LREM` -/
def division {w : ℕ} (pop : StackM (BitVec w))
    (result : BitVec w → BitVec w → BitVec w)
    (push : BitVec w → StackM Unit) : StackM Unit := do
  let v2 ← pop
  let v1 ← pop
  if v2 = 0 then throw .divideByZero
  else push (result v1 v2)

def unary {α β : Type} (pop : StackM α) (result : α → β)
    (push : β → StackM Unit) : StackM Unit := do
  let val ← pop
  push (result val)

def arith (unit : FloatUnit) : ArithOp → NumType → StackM Unit
  | .add, .int => binary popInt popInt (· + ·) pushInt
  | .add, .long => binary popLong popLong (· + ·) pushLong
  | .add, .float => binary popFloat popFloat unit.float32Add pushFloat
  | .add, .double => binary popDouble popDouble unit.float64Add pushDouble
  | .sub, .int => binary popInt popInt (· - ·) pushInt
  | .sub, .long => binary popLong popLong (· - ·) pushLong
  | .sub, .float => binary popFloat popFloat unit.float32Sub pushFloat
  | .sub, .double => binary popDouble popDouble unit.float64Sub pushDouble
  | .mul, .int => binary popInt popInt (· * ·) pushInt
  | .mul, .long => binary popLong popLong (· * ·) pushLong
  | .mul, .float => binary popFloat popFloat unit.float32Mul pushFloat
  | .mul, .double => binary popDouble popDouble unit.float64Mul pushDouble
  | .div, .int => division popInt BitVec.sdiv pushInt
  | .div, .long => division popLong BitVec.sdiv pushLong
  | .div, .float => binary popFloat popFloat unit.float32Div pushFloat
  | .div, .double => binary popDouble popDouble unit.float64Div pushDouble
  | .rem, .int => division popInt BitVec.srem pushInt
  | .rem, .long => division popLong BitVec.srem pushLong
  | .rem, .float =>
      binary popFloat popFloat (fun v1 v2 => unit.float64ToFloat32
        (unit.float64Mod (unit.float32ToFloat64 v1)
          (unit.float32ToFloat64 v2))) pushFloat
  | .rem, .double => binary popDouble popDouble unit.float64Mod pushDouble

def neg (unit : FloatUnit) : NumType → StackM Unit
  | .int => unary popInt (- ·) pushInt
  | .long => unary popLong (- ·) pushLong
  | .float => unary popFloat unit.float32Neg pushFloat
  | .double => unary popDouble unit.float64Neg pushDouble

/-- The distance is masked with `mask`, `0x1f` or `0x3f`. -/
def shiftBy {w : ℕ} (mask : BitVec 32) :
    ShiftOp → BitVec w → BitVec 32 → BitVec w
  | .shl, v1, v2 => v1 <<< (v2 &&& mask)
  | .shr, v1, v2 => v1.sshiftRight (v2 &&& mask).toNat
  | .ushr, v1, v2 => v1 >>> (v2 &&& mask)

def shift (op : ShiftOp) : IntType → StackM Unit
  | .int => binary popInt popInt (shiftBy 0x1f op) pushInt
  | .long => binary popInt popLong (shiftBy 0x3f op) pushLong

def bitwise {w : ℕ} : BitOp → BitVec w → BitVec w → BitVec w
  | .and, v1, v2 => v1 &&& v2
  | .or, v1, v2 => v1 ||| v2
  | .xor, v1, v2 => v1 ^^^ v2

def bit (op : BitOp) : IntType → StackM Unit
  | .int => binary popInt popInt (bitwise op) pushInt
  | .long => binary popLong popLong (bitwise op) pushLong

def convert (unit : FloatUnit) : Conversion → StackM Unit
  | .i2l => unary popInt (BitVec.signExtend 64) pushLong
  | .i2f => unary popInt unit.int32ToFloat32 pushFloat
  | .i2d => unary popInt unit.int32ToFloat64 pushDouble
  | .l2i => unary popLong (BitVec.setWidth 32) pushInt
  | .l2f => unary popLong unit.int64ToFloat32 pushFloat
  | .l2d => unary popLong unit.int64ToFloat64 pushDouble
  | .f2i => unary popFloat unit.float32ToInt32 pushInt
  | .f2l => unary popFloat unit.float32ToInt64 pushLong
  | .f2d => unary popFloat unit.float32ToFloat64 pushDouble
  | .d2i => unary popDouble unit.float64ToInt32 pushInt
  | .d2l => unary popDouble unit.float64ToInt64 pushLong
  | .d2f => unary popDouble unit.float64ToFloat32 pushFloat
  | .i2b => unary popInt
      (fun ival => (ival.setWidth 8).signExtend 32) pushInt
  | .i2c => unary popInt
      (fun ival => (ival.setWidth 16).setWidth 32) pushInt
  | .i2s => unary popInt
      (fun ival => (ival.setWidth 16).signExtend 32) pushInt

/-- `LCMP` -/
def lcmp (v1 v2 : BitVec 64) : BitVec 32 :=
  if v2.slt v1 then 1
  else if v1 = v2 then 0
  else -1

/-- `_fcmp` and `_dcmp` on the result of the comparison. -/
def cmpResult (gFlag : Bool) : Option Ordering → BitVec 32
  | some .gt => 1
  | some .eq => 0
  | some .lt => -1
  | none => if gFlag then 1 else -1

def dup : StackM Unit := do
  let slot ← popSlot
  pushSlot slot
  pushSlot slot

def dup_x1 : StackM Unit := do
  let slot1 ← popSlot
  let slot2 ← popSlot
  pushSlot slot1
  pushSlot slot2
  pushSlot slot1

def dup_x2 : StackM Unit := do
  let slot1 ← popSlot
  let slot2 ← popSlot
  let slot3 ← popSlot
  pushSlot slot1
  pushSlot slot3
  pushSlot slot2
  pushSlot slot1

def dup2 : StackM Unit := do
  let slot1 ← popSlot
  let slot2 ← popSlot
  pushSlot slot2
  pushSlot slot1
  pushSlot slot2
  pushSlot slot1

def dup2_x1 : StackM Unit := do
  let slot1 ← popSlot
  let slot2 ← popSlot
  let slot3 ← popSlot
  pushSlot slot2
  pushSlot slot1
  pushSlot slot3
  pushSlot slot2
  pushSlot slot1

def dup2_x2 : StackM Unit := do
  let slot1 ← popSlot
  let slot2 ← popSlot
  let slot3 ← popSlot
  let slot4 ← popSlot
  pushSlot slot2
  pushSlot slot1
  pushSlot slot4
  pushSlot slot3
  pushSlot slot2
  pushSlot slot1

def pop1 : StackM Unit := do
  let _ ← popSlot

def pop2 : StackM Unit := do
  let _ ← popSlot
  let _ ← popSlot

def swap : StackM Unit := do
  let slot1 ← popSlot
  let slot2 ← popSlot
  pushSlot slot1
  pushSlot slot2

/-! ## Loads, stores and branches -/

/-- `_iload`, `_lload`, `_fload`, `_dload` and `_aload` -/
def load (type : ValueType) (index : ℕ) : Exec :=
  match type with
  | .int => do
      let val ← readLocal (·.getInt index)
      onStack (pushInt val)
  | .long => do
      let val ← readLocal (·.getLong index)
      onStack (pushLong val)
  | .float => do
      let val ← readLocal (·.getFloat index)
      onStack (pushFloat val)
  | .double => do
      let val ← readLocal (·.getDouble index)
      onStack (pushDouble val)
  | .ref => do
      let ref ← readLocal (·.getRef index)
      onStack (pushRef ref)

/-- `_istore`, `_lstore`, `_fstore`, `_dstore` and `_astore` -/
def store (type : ValueType) (index : ℕ) : Exec :=
  match type with
  | .int => do
      let val ← onStack popInt
      writeLocal (·.setInt index val)
  | .long => do
      let val ← onStack popLong
      writeLocal (·.setLong index val)
  | .float => do
      let val ← onStack popFloat
      writeLocal (·.setFloat index val)
  | .double => do
      let val ← onStack popDouble
      writeLocal (·.setDouble index val)
  | .ref => do
      let ref ← onStack popRef
      writeLocal (·.setRef index ref)

def iinc (index : ℕ) (const : BitVec 32) : Exec := do
  let val ← readLocal (·.getInt index)
  writeLocal (·.setInt index (val + const))

def IndexInstruction.execute : IndexInstruction → Exec
  | .load type index => Jvm.load type index
  | .store type index => Jvm.store type index
  | .iinc index const => Jvm.iinc index const

def Cond.test : Cond → BitVec 32 → BitVec 32 → Bool
  | .eq, v1, v2 => v1 == v2
  | .ne, v1, v2 => v1 != v2
  | .lt, v1, v2 => v1.slt v2
  | .ge, v1, v2 => v2.sle v1
  | .gt, v1, v2 => v2.slt v1
  | .le, v1, v2 => v1.sle v2

def branchIf (taken : Bool) (offset : ℤ) : Exec :=
  if taken then branch offset else pure ()

def ifCond (cond : Cond) (offset : ℤ) : Exec := do
  let val ← onStack popInt
  branchIf (cond.test val 0) offset

def ifIcmp (cond : Cond) (offset : ℤ) : Exec := do
  let v2 ← onStack popInt
  let v1 ← onStack popInt
  branchIf (cond.test v1 v2) offset

def ifAcmp (equal : Bool) (offset : ℤ) : Exec := do
  let v2 ← onStack popRef
  let v1 ← onStack popRef
  branchIf ((v1 == v2) == equal) offset

def ifNull (null : Bool) (offset : ℤ) : Exec := do
  let ref ← onStack popRef
  branchIf ((ref == none) == null) offset

/-- `self.jumpOffsets[i]`, with an `int32` index -/
def offsetAt (offsets : List (BitVec 32)) (i : ℤ) :
    Except GoPanic (BitVec 32) :=
  if i < 0 then .error .indexOutOfRange
  else
    match offsets[i.toNat]? with
    | some offset => .ok offset
    | none => .error .indexOutOfRange

def tableSwitchOffset (defaultOffset low high : BitVec 32)
    (jumpOffsets : List (BitVec 32)) (index : BitVec 32) :
    Except GoPanic (BitVec 32) :=
  if low.sle index ∧ index.sle high then
    offsetAt jumpOffsets (index - low).toInt
  else .ok defaultOffset

def tableSwitch (defaultOffset low high : BitVec 32)
    (jumpOffsets : List (BitVec 32)) : Exec := do
  let index ← onStack popInt
  let offset ← liftM (tableSwitchOffset defaultOffset low high jumpOffsets index)
  branch offset.toInt

/-- The loop of `LOOKUP_SWITCH.Execute` from `i` on, in steps of two. -/
def lookupSwitchLoop (defaultOffset key : BitVec 32)
    (matchOffsets : List (BitVec 32)) (i : ℕ) :
    ℕ → Except GoPanic (BitVec 32)
  | 0 => .ok defaultOffset
  | rounds + 1 => do
      let found ← offsetAt matchOffsets i
      if found = key then offsetAt matchOffsets (i + 1)
      else lookupSwitchLoop defaultOffset key matchOffsets (i + 2) rounds

/-- `i < npairs * 2` holds `(npairs * 2 + 1) / 2` times when it is not
negative. -/
def lookupSwitch (defaultOffset npairs : BitVec 32)
    (matchOffsets : List (BitVec 32)) : Exec := do
  let key ← onStack popInt
  let offset ← liftM (lookupSwitchLoop defaultOffset key matchOffsets 0
    (((npairs * 2).toInt + 1) / 2).toNat)
  branch offset.toInt

/-- `Execute` -/
def Instruction.execute (unit : FloatUnit) : Instruction → Exec
  | .nop => pure ()
  | .aconst_null => onStack (pushRef none)
  | .iconst_m1 => onStack (pushInt (-1))
  | .iconst_0 => onStack (pushInt 0)
  | .iconst_1 => onStack (pushInt 1)
  | .iconst_2 => onStack (pushInt 2)
  | .iconst_3 => onStack (pushInt 3)
  | .iconst_4 => onStack (pushInt 4)
  | .iconst_5 => onStack (pushInt 5)
  -- an `int` each, as the source has it
  | .lconst_0 => onStack (pushInt 0)
  | .lconst_1 => onStack (pushInt 1)
  -- a `double` each, as the source has it
  | .fconst_0 => onStack (pushDouble float64Zero)
  | .fconst_1 => onStack (pushDouble float64One)
  | .fconst_2 => onStack (pushDouble float64Two)
  | .dconst_0 => onStack (pushDouble float64Zero)
  | .dconst_1 => onStack (pushDouble float64One)
  | .bipush val => onStack (pushInt (val.signExtend 32))
  | .sipush val => onStack (pushInt (val.signExtend 32))
  | .index instruction => instruction.execute
  | .loadN type n => Jvm.load type n
  | .storeN type n => Jvm.store type n
  | .pop => onStack pop1
  | .pop2 => onStack Jvm.pop2
  | .dup => onStack Jvm.dup
  | .dup_x1 => onStack Jvm.dup_x1
  | .dup_x2 => onStack Jvm.dup_x2
  | .dup2 => onStack Jvm.dup2
  | .dup2_x1 => onStack Jvm.dup2_x1
  | .dup2_x2 => onStack Jvm.dup2_x2
  | .swap => onStack Jvm.swap
  | .arith op type => onStack (Jvm.arith unit op type)
  | .neg type => onStack (Jvm.neg unit type)
  | .shift op type => onStack (Jvm.shift op type)
  | .bit op type => onStack (Jvm.bit op type)
  | .convert conversion => onStack (Jvm.convert unit conversion)
  | .lcmp => onStack (binary popLong popLong Jvm.lcmp pushInt)
  | .fcmp gFlag => onStack (binary popFloat popFloat
      (fun v1 v2 => cmpResult gFlag (unit.float32Compare v1 v2)) pushInt)
  | .dcmp gFlag => onStack (binary popDouble popDouble
      (fun v1 v2 => cmpResult gFlag (unit.float64Compare v1 v2)) pushInt)
  | .ifCond cond offset => Jvm.ifCond cond offset
  | .ifIcmp cond offset => Jvm.ifIcmp cond offset
  | .ifAcmp equal offset => Jvm.ifAcmp equal offset
  | .goto offset => branch offset
  | .tableSwitch defaultOffset low high jumpOffsets =>
      Jvm.tableSwitch defaultOffset low high jumpOffsets
  | .lookupSwitch defaultOffset npairs matchOffsets =>
      Jvm.lookupSwitch defaultOffset npairs matchOffsets
  | .wide (some instruction) => instruction.execute
  | .wide none => throw .nilDereference
  | .ifNull null offset => Jvm.ifNull null offset
  | .goto_w offset => branch offset

/-! ## The loop -/

/-- One round of `loop`; `thread.SetPC(pc)` comes before the instruction. -/
def loopRound (unit : FloatUnit) (bytecode : List Byte) (frame : Frame) :
    Except GoPanic Frame := do
  let pc := frame.nextPc
  let frame := { frame with thread := { frame.thread with pc := pc } }
  let (inst, reader) ← Instruction.decode ⟨bytecode, pc⟩
  let frame := { frame with nextPc := reader.pc }
  let ((), frame) ← inst.execute unit frame
  return frame

theorem loopRound_of_decode (unit : FloatUnit) {bytecode : List Byte}
    {frame : Frame} {pc : ℤ} (hpc : frame.nextPc = pc) {inst : Instruction}
    {reader : BytecodeReader}
    (hdecode : Instruction.decode ⟨bytecode, pc⟩ = .ok (inst, reader)) :
    loopRound unit bytecode frame =
      match inst.execute unit { frame with
          thread := ⟨pc⟩
          nextPc := reader.pc } with
      | .ok (_, after) => .ok after
      | .error panic => .error panic := by
  unfold loopRound
  simp only [hpc, hdecode]
  show (do
    let result ← inst.execute unit _
    pure result.2 : Except GoPanic Frame) = _
  cases inst.execute unit { frame with
      thread := ⟨pc⟩
      nextPc := reader.pc } with
  | ok result => rfl
  | error panic => rfl

/-- An instruction that cannot be decoded is not executed. -/
theorem loopRound_of_panic (unit : FloatUnit) {bytecode : List Byte}
    {frame : Frame} {pc : ℤ} (hpc : frame.nextPc = pc) {panic : GoPanic}
    (hdecode : Instruction.decode ⟨bytecode, pc⟩ = .error panic) :
    loopRound unit bytecode frame = .error panic := by
  unfold loopRound
  simp only [hpc, hdecode]
  rfl

/-- The first `rounds` rounds of `loop`, which ends by a panic only. -/
def loop (unit : FloatUnit) (bytecode : List Byte) :
    ℕ → Frame → Except GoPanic Frame
  | 0, frame => .ok frame
  | rounds + 1, frame => do
      let frame ← loopRound unit bytecode frame
      loop unit bytecode rounds frame

/-- What `interpret` does with a method's `Code` attribute. -/
def interpret (unit : FloatUnit) (maxLocals maxStack : ℕ)
    (bytecode : List Byte) (rounds : ℕ) : Except GoPanic Frame :=
  loop unit bytecode rounds (newFrame ⟨0⟩ maxLocals maxStack)

end Jvm

end ClpszDemos
