import ClpszDemos.BigEndian

/-!
# Bytecode instructions

The reader of `instructions/base/bytecode_reader.go`, the instruction types of
the `instructions` packages and the factory that makes them.  A Go type of the
source is a constructor here, or a constructor with a parameter where a family
of types differs in one type, operator or constant only; the names of the
factory's singletons are kept for the members of a family.
-/

namespace ClpszDemos

namespace Jvm

open BigEndian

/-- A run-time panic, or one the code raises itself. -/
inductive GoPanic
  | indexOutOfRange
  | sliceBounds
  | makeLength
  | nilDereference
  | typeAssertion
  | message (text : String)
  deriving DecidableEq, Repr

namespace GoPanic

def divideByZero : GoPanic :=
  .message "java.lang.ArithmeticException: / by zero"

def hexDigit (n : ℕ) : Char :=
  if n < 10 then Char.ofNat (48 + n) else Char.ofNat (87 + n)

/-- `%x` -/
def hex (byte : Byte) : String :=
  if byte.toNat < 16 then String.ofList [hexDigit byte.toNat]
  else String.ofList [hexDigit (byte.toNat / 16), hexDigit (byte.toNat % 16)]

def unsupportedOpcode (opcode : Byte) : GoPanic :=
  .message ("Unsupported opcode: 0x" ++ hex opcode ++ "!")

end GoPanic

/-! ## The reader -/

structure BytecodeReader where
  code : List Byte
  pc : ℤ
  deriving DecidableEq, Repr

abbrev Fetch (α : Type) : Type := StateT BytecodeReader (Except GoPanic) α

namespace BytecodeReader

/-- `self.code[self.pc]`, and the reader one further -/
def next? (self : BytecodeReader) : Option (Byte × BytecodeReader) :=
  if self.pc < 0 then none
  else self.code[self.pc.toNat]?.map fun byte =>
    (byte, { self with pc := self.pc + 1 })

instance : ByteSource BytecodeReader where
  next? := next?

def readUint8 : Fetch Byte := fun self =>
  match self.next? with
  | some (byte, next) => .ok (byte, next)
  | none => .error .indexOutOfRange

def readInt8 : Fetch (BitVec 8) := readUint8

def readUint16 : Fetch (BitVec 16) := do
  let byte1 ← readUint8
  let byte2 ← readUint8
  return join16 byte1 byte2

def readInt16 : Fetch (BitVec 16) := readUint16

def readInt32 : Fetch (BitVec 32) := do
  let byte1 ← readUint8
  let byte2 ← readUint8
  let byte3 ← readUint8
  let byte4 ← readUint8
  return join32 byte1 byte2 byte3 byte4

/-- A negative length makes `make` panic. -/
def readInt32s (n : BitVec 32) : Fetch (List (BitVec 32)) :=
  if n.toInt < 0 then throw .makeLength
  else readMany readInt32 n.toInt.toNat

def skipPaddingRounds : ℕ → Fetch Unit
  | 0 => return ()
  | rounds + 1 => do
      let self ← get
      if self.pc % 4 ≠ 0 then
        let _ ← readUint8
        skipPaddingRounds rounds

/-- `pc` grows by one in each round, so that three rounds are enough. -/
def skipPadding : Fetch Unit := skipPaddingRounds 3

end BytecodeReader

/-! ## Instruction types -/

inductive IntType
  | int
  | long
  deriving DecidableEq, Repr

inductive NumType
  | int
  | long
  | float
  | double
  deriving DecidableEq, Repr

inductive ValueType
  | int
  | long
  | float
  | double
  | ref
  deriving DecidableEq, Repr

inductive ArithOp
  | add
  | sub
  | mul
  | div
  | rem
  deriving DecidableEq, Repr

inductive ShiftOp
  | shl
  | shr
  | ushr
  deriving DecidableEq, Repr

inductive BitOp
  | and
  | or
  | xor
  deriving DecidableEq, Repr

inductive Conversion
  | i2l
  | i2f
  | i2d
  | l2i
  | l2f
  | l2d
  | f2i
  | f2l
  | f2d
  | d2i
  | d2l
  | d2f
  | i2b
  | i2c
  | i2s
  deriving DecidableEq, Repr

inductive Cond
  | eq
  | ne
  | lt
  | ge
  | gt
  | le
  deriving DecidableEq, Repr

/-- What `WIDE` can modify: the `xLOAD`s, the `xSTORE`s and `IINC`. -/
inductive IndexInstruction
  | load (type : ValueType) (index : ℕ)
  | store (type : ValueType) (index : ℕ)
  | iinc (index : ℕ) (const : BitVec 32)
  deriving DecidableEq, Repr

/-- `index` on its own is `ILOAD`, ..., `ASTORE` and `IINC`; `loadN` and
`storeN` are `ILOAD_0`, ..., `ASTORE_3`. -/
inductive Instruction
  | nop
  | aconst_null
  | iconst_m1
  | iconst_0
  | iconst_1
  | iconst_2
  | iconst_3
  | iconst_4
  | iconst_5
  | lconst_0
  | lconst_1
  | fconst_0
  | fconst_1
  | fconst_2
  | dconst_0
  | dconst_1
  | bipush (val : BitVec 8)
  | sipush (val : BitVec 16)
  | index (instruction : IndexInstruction)
  | loadN (type : ValueType) (n : Fin 4)
  | storeN (type : ValueType) (n : Fin 4)
  | pop
  | pop2
  | dup
  | dup_x1
  | dup_x2
  | dup2
  | dup2_x1
  | dup2_x2
  | swap
  | arith (op : ArithOp) (type : NumType)
  | neg (type : NumType)
  | shift (op : ShiftOp) (type : IntType)
  | bit (op : BitOp) (type : IntType)
  | convert (conversion : Conversion)
  | lcmp
  | fcmp (gFlag : Bool)
  | dcmp (gFlag : Bool)
  | ifCond (cond : Cond) (offset : ℤ)
  | ifIcmp (cond : Cond) (offset : ℤ)
  | ifAcmp (equal : Bool) (offset : ℤ)
  | goto (offset : ℤ)
  | tableSwitch (defaultOffset low high : BitVec 32)
      (jumpOffsets : List (BitVec 32))
  | lookupSwitch (defaultOffset npairs : BitVec 32)
      (matchOffsets : List (BitVec 32))
  | wide (modifiedInstruction : Option IndexInstruction)
  | ifNull (null : Bool) (offset : ℤ)
  | goto_w (offset : ℤ)
  deriving DecidableEq, Repr

namespace Instruction

abbrev iload (index : ℕ) : Instruction := .index (.load .int index)
abbrev lload (index : ℕ) : Instruction := .index (.load .long index)
abbrev fload (index : ℕ) : Instruction := .index (.load .float index)
abbrev dload (index : ℕ) : Instruction := .index (.load .double index)
abbrev aload (index : ℕ) : Instruction := .index (.load .ref index)
abbrev iload_0 : Instruction := .loadN .int 0
abbrev iload_1 : Instruction := .loadN .int 1
abbrev iload_2 : Instruction := .loadN .int 2
abbrev iload_3 : Instruction := .loadN .int 3
abbrev lload_0 : Instruction := .loadN .long 0
abbrev lload_1 : Instruction := .loadN .long 1
abbrev lload_2 : Instruction := .loadN .long 2
abbrev lload_3 : Instruction := .loadN .long 3
abbrev fload_0 : Instruction := .loadN .float 0
abbrev fload_1 : Instruction := .loadN .float 1
abbrev fload_2 : Instruction := .loadN .float 2
abbrev fload_3 : Instruction := .loadN .float 3
abbrev dload_0 : Instruction := .loadN .double 0
abbrev dload_1 : Instruction := .loadN .double 1
abbrev dload_2 : Instruction := .loadN .double 2
abbrev dload_3 : Instruction := .loadN .double 3
abbrev aload_0 : Instruction := .loadN .ref 0
abbrev aload_1 : Instruction := .loadN .ref 1
abbrev aload_2 : Instruction := .loadN .ref 2
abbrev aload_3 : Instruction := .loadN .ref 3
abbrev istore (index : ℕ) : Instruction := .index (.store .int index)
abbrev lstore (index : ℕ) : Instruction := .index (.store .long index)
abbrev fstore (index : ℕ) : Instruction := .index (.store .float index)
abbrev dstore (index : ℕ) : Instruction := .index (.store .double index)
abbrev astore (index : ℕ) : Instruction := .index (.store .ref index)
abbrev istore_0 : Instruction := .storeN .int 0
abbrev istore_1 : Instruction := .storeN .int 1
abbrev istore_2 : Instruction := .storeN .int 2
abbrev istore_3 : Instruction := .storeN .int 3
abbrev lstore_0 : Instruction := .storeN .long 0
abbrev lstore_1 : Instruction := .storeN .long 1
abbrev lstore_2 : Instruction := .storeN .long 2
abbrev lstore_3 : Instruction := .storeN .long 3
abbrev fstore_0 : Instruction := .storeN .float 0
abbrev fstore_1 : Instruction := .storeN .float 1
abbrev fstore_2 : Instruction := .storeN .float 2
abbrev fstore_3 : Instruction := .storeN .float 3
abbrev dstore_0 : Instruction := .storeN .double 0
abbrev dstore_1 : Instruction := .storeN .double 1
abbrev dstore_2 : Instruction := .storeN .double 2
abbrev dstore_3 : Instruction := .storeN .double 3
abbrev astore_0 : Instruction := .storeN .ref 0
abbrev astore_1 : Instruction := .storeN .ref 1
abbrev astore_2 : Instruction := .storeN .ref 2
abbrev astore_3 : Instruction := .storeN .ref 3
abbrev iadd : Instruction := .arith .add .int
abbrev ladd : Instruction := .arith .add .long
abbrev fadd : Instruction := .arith .add .float
abbrev dadd : Instruction := .arith .add .double
abbrev isub : Instruction := .arith .sub .int
abbrev lsub : Instruction := .arith .sub .long
abbrev fsub : Instruction := .arith .sub .float
abbrev dsub : Instruction := .arith .sub .double
abbrev imul : Instruction := .arith .mul .int
abbrev lmul : Instruction := .arith .mul .long
abbrev fmul : Instruction := .arith .mul .float
abbrev dmul : Instruction := .arith .mul .double
abbrev idiv : Instruction := .arith .div .int
abbrev ldiv : Instruction := .arith .div .long
abbrev fdiv : Instruction := .arith .div .float
abbrev ddiv : Instruction := .arith .div .double
abbrev irem : Instruction := .arith .rem .int
abbrev lrem : Instruction := .arith .rem .long
abbrev frem : Instruction := .arith .rem .float
abbrev drem : Instruction := .arith .rem .double
abbrev ineg : Instruction := .neg .int
abbrev lneg : Instruction := .neg .long
abbrev fneg : Instruction := .neg .float
abbrev dneg : Instruction := .neg .double
abbrev ishl : Instruction := .shift .shl .int
abbrev lshl : Instruction := .shift .shl .long
abbrev ishr : Instruction := .shift .shr .int
abbrev lshr : Instruction := .shift .shr .long
abbrev iushr : Instruction := .shift .ushr .int
abbrev lushr : Instruction := .shift .ushr .long
abbrev iand : Instruction := .bit .and .int
abbrev land : Instruction := .bit .and .long
abbrev ior : Instruction := .bit .or .int
abbrev lor : Instruction := .bit .or .long
abbrev ixor : Instruction := .bit .xor .int
abbrev lxor : Instruction := .bit .xor .long
abbrev iinc (index : ℕ) (const : BitVec 32) : Instruction :=
  .index (.iinc index const)
abbrev i2l : Instruction := .convert .i2l
abbrev i2f : Instruction := .convert .i2f
abbrev i2d : Instruction := .convert .i2d
abbrev l2i : Instruction := .convert .l2i
abbrev l2f : Instruction := .convert .l2f
abbrev l2d : Instruction := .convert .l2d
abbrev f2i : Instruction := .convert .f2i
abbrev f2l : Instruction := .convert .f2l
abbrev f2d : Instruction := .convert .f2d
abbrev d2i : Instruction := .convert .d2i
abbrev d2l : Instruction := .convert .d2l
abbrev d2f : Instruction := .convert .d2f
abbrev i2b : Instruction := .convert .i2b
abbrev i2c : Instruction := .convert .i2c
abbrev i2s : Instruction := .convert .i2s
abbrev fcmpl : Instruction := .fcmp false
abbrev fcmpg : Instruction := .fcmp true
abbrev dcmpl : Instruction := .dcmp false
abbrev dcmpg : Instruction := .dcmp true
abbrev ifeq (offset : ℤ) : Instruction := .ifCond .eq offset
abbrev ifne (offset : ℤ) : Instruction := .ifCond .ne offset
abbrev iflt (offset : ℤ) : Instruction := .ifCond .lt offset
abbrev ifge (offset : ℤ) : Instruction := .ifCond .ge offset
abbrev ifgt (offset : ℤ) : Instruction := .ifCond .gt offset
abbrev ifle (offset : ℤ) : Instruction := .ifCond .le offset
abbrev if_icmpeq (offset : ℤ) : Instruction := .ifIcmp .eq offset
abbrev if_icmpne (offset : ℤ) : Instruction := .ifIcmp .ne offset
abbrev if_icmplt (offset : ℤ) : Instruction := .ifIcmp .lt offset
abbrev if_icmpge (offset : ℤ) : Instruction := .ifIcmp .ge offset
abbrev if_icmpgt (offset : ℤ) : Instruction := .ifIcmp .gt offset
abbrev if_icmple (offset : ℤ) : Instruction := .ifIcmp .le offset
abbrev if_acmpeq (offset : ℤ) : Instruction := .ifAcmp true offset
abbrev if_acmpne (offset : ℤ) : Instruction := .ifAcmp false offset
abbrev ifnull (offset : ℤ) : Instruction := .ifNull true offset
abbrev ifnonnull (offset : ℤ) : Instruction := .ifNull false offset

/-! ## The factory -/

/-- An instruction with operands starts with zero values in their place. -/
def newInstruction (opcode : Byte) : Except GoPanic Instruction :=
  match opcode with
  | 0x00#8 => .ok nop
  | 0x01#8 => .ok aconst_null
  | 0x02#8 => .ok iconst_m1
  | 0x03#8 => .ok iconst_0
  | 0x04#8 => .ok iconst_1
  | 0x05#8 => .ok iconst_2
  | 0x06#8 => .ok iconst_3
  | 0x07#8 => .ok iconst_4
  | 0x08#8 => .ok iconst_5
  | 0x09#8 => .ok lconst_0
  | 0x0a#8 => .ok lconst_1
  | 0x0b#8 => .ok fconst_0
  | 0x0c#8 => .ok fconst_1
  | 0x0d#8 => .ok fconst_2
  | 0x0e#8 => .ok dconst_0
  | 0x0f#8 => .ok dconst_1
  | 0x10#8 => .ok (bipush 0)
  | 0x11#8 => .ok (sipush 0)
  | 0x15#8 => .ok (iload 0)
  | 0x16#8 => .ok (lload 0)
  | 0x17#8 => .ok (fload 0)
  | 0x18#8 => .ok (dload 0)
  | 0x19#8 => .ok (aload 0)
  | 0x1a#8 => .ok iload_0
  | 0x1b#8 => .ok iload_1
  | 0x1c#8 => .ok iload_2
  | 0x1d#8 => .ok iload_3
  | 0x1e#8 => .ok lload_0
  | 0x1f#8 => .ok lload_1
  | 0x20#8 => .ok lload_2
  | 0x21#8 => .ok lload_3
  | 0x22#8 => .ok fload_0
  | 0x23#8 => .ok fload_1
  | 0x24#8 => .ok fload_2
  | 0x25#8 => .ok fload_3
  | 0x26#8 => .ok dload_0
  | 0x27#8 => .ok dload_1
  | 0x28#8 => .ok dload_2
  | 0x29#8 => .ok dload_3
  | 0x2a#8 => .ok aload_0
  | 0x2b#8 => .ok aload_1
  | 0x2c#8 => .ok aload_2
  | 0x2d#8 => .ok aload_3
  | 0x36#8 => .ok (istore 0)
  | 0x37#8 => .ok (lstore 0)
  | 0x38#8 => .ok (fstore 0)
  | 0x39#8 => .ok (dstore 0)
  | 0x3a#8 => .ok (astore 0)
  | 0x3b#8 => .ok istore_0
  | 0x3c#8 => .ok istore_1
  | 0x3d#8 => .ok istore_2
  | 0x3e#8 => .ok istore_3
  | 0x3f#8 => .ok lstore_0
  | 0x40#8 => .ok lstore_1
  | 0x41#8 => .ok lstore_2
  | 0x42#8 => .ok lstore_3
  | 0x43#8 => .ok fstore_0
  | 0x44#8 => .ok fstore_1
  | 0x45#8 => .ok fstore_2
  | 0x46#8 => .ok fstore_3
  | 0x47#8 => .ok dstore_0
  | 0x48#8 => .ok dstore_1
  | 0x49#8 => .ok dstore_2
  | 0x4a#8 => .ok dstore_3
  | 0x4b#8 => .ok astore_0
  | 0x4c#8 => .ok astore_1
  | 0x4d#8 => .ok astore_2
  | 0x4e#8 => .ok astore_3
  | 0x57#8 => .ok pop
  | 0x58#8 => .ok pop2
  | 0x59#8 => .ok dup
  | 0x5a#8 => .ok dup_x1
  | 0x5b#8 => .ok dup_x2
  | 0x5c#8 => .ok dup2
  | 0x5d#8 => .ok dup2_x1
  | 0x5e#8 => .ok dup2_x2
  | 0x5f#8 => .ok swap
  | 0x60#8 => .ok iadd
  | 0x61#8 => .ok ladd
  | 0x62#8 => .ok fadd
  | 0x63#8 => .ok dadd
  | 0x64#8 => .ok isub
  | 0x65#8 => .ok lsub
  | 0x66#8 => .ok fsub
  | 0x67#8 => .ok dsub
  | 0x68#8 => .ok imul
  | 0x69#8 => .ok lmul
  | 0x6a#8 => .ok fmul
  | 0x6b#8 => .ok dmul
  | 0x6c#8 => .ok idiv
  | 0x6d#8 => .ok ldiv
  | 0x6e#8 => .ok fdiv
  | 0x6f#8 => .ok ddiv
  | 0x70#8 => .ok irem
  | 0x71#8 => .ok lrem
  | 0x72#8 => .ok frem
  | 0x73#8 => .ok drem
  | 0x74#8 => .ok ineg
  | 0x75#8 => .ok lneg
  | 0x76#8 => .ok fneg
  | 0x77#8 => .ok dneg
  | 0x78#8 => .ok ishl
  | 0x79#8 => .ok lshl
  | 0x7a#8 => .ok ishr
  | 0x7b#8 => .ok lshr
  | 0x7c#8 => .ok iushr
  | 0x7d#8 => .ok lushr
  | 0x7e#8 => .ok iand
  | 0x7f#8 => .ok land
  | 0x80#8 => .ok ior
  | 0x81#8 => .ok lor
  | 0x82#8 => .ok ixor
  | 0x83#8 => .ok lxor
  | 0x84#8 => .ok (iinc 0 0)
  | 0x85#8 => .ok i2l
  | 0x86#8 => .ok i2f
  | 0x87#8 => .ok i2d
  | 0x88#8 => .ok l2i
  | 0x89#8 => .ok l2f
  | 0x8a#8 => .ok l2d
  | 0x8b#8 => .ok f2i
  | 0x8c#8 => .ok f2l
  | 0x8d#8 => .ok f2d
  | 0x8e#8 => .ok d2i
  | 0x8f#8 => .ok d2l
  | 0x90#8 => .ok d2f
  | 0x91#8 => .ok i2b
  | 0x92#8 => .ok i2c
  | 0x93#8 => .ok i2s
  | 0x94#8 => .ok lcmp
  | 0x95#8 => .ok fcmpl
  | 0x96#8 => .ok fcmpg
  | 0x97#8 => .ok dcmpl
  | 0x98#8 => .ok dcmpg
  | 0x99#8 => .ok (ifeq 0)
  | 0x9a#8 => .ok (ifne 0)
  | 0x9b#8 => .ok (iflt 0)
  | 0x9c#8 => .ok (ifge 0)
  | 0x9d#8 => .ok (ifgt 0)
  | 0x9e#8 => .ok (ifle 0)
  | 0x9f#8 => .ok (if_icmpeq 0)
  | 0xa0#8 => .ok (if_icmpne 0)
  | 0xa1#8 => .ok (if_icmplt 0)
  | 0xa2#8 => .ok (if_icmpge 0)
  | 0xa3#8 => .ok (if_icmpgt 0)
  | 0xa4#8 => .ok (if_icmple 0)
  | 0xa5#8 => .ok (if_acmpeq 0)
  | 0xa6#8 => .ok (if_acmpne 0)
  | 0xa7#8 => .ok (goto 0)
  | 0xaa#8 => .ok (tableSwitch 0 0 0 [])
  | 0xab#8 => .ok (lookupSwitch 0 0 [])
  | 0xc4#8 => .ok (wide none)
  | 0xc6#8 => .ok (ifnull 0)
  | 0xc7#8 => .ok (ifnonnull 0)
  | 0xc8#8 => .ok (goto_w 0)
  | opcode => .error (.unsupportedOpcode opcode)

/-! ## Operands -/

open BytecodeReader

/-- `BranchInstruction.FetchOperands` -/
def fetchOffset : Fetch ℤ := do
  let offset ← readInt16
  return offset.toInt

/-- `Index8Instruction.FetchOperands` -/
def fetchIndex8 : Fetch ℕ := do
  let index ← readUint8
  return index.toNat

def fetchIndex16 : Fetch ℕ := do
  let index ← readUint16
  return index.toNat

def tableSwitchFetch : Fetch Instruction := do
  skipPadding
  let defaultOffset ← readInt32
  let low ← readInt32
  let high ← readInt32
  let jumpOffsetsCount := high - low + 1
  let jumpOffsets ← readInt32s jumpOffsetsCount
  return tableSwitch defaultOffset low high jumpOffsets

def lookupSwitchFetch : Fetch Instruction := do
  skipPadding
  let defaultOffset ← readInt32
  let npairs ← readInt32
  let matchOffsets ← readInt32s (npairs * 2)
  return lookupSwitch defaultOffset npairs matchOffsets

def wideLoad (type : ValueType) : Fetch Instruction :=
  (fun index => wide (some (.load type index))) <$> fetchIndex16

def wideStore (type : ValueType) : Fetch Instruction :=
  (fun index => wide (some (.store type index))) <$> fetchIndex16

def wideIinc : Fetch Instruction := do
  let index ← fetchIndex16
  let const ← readInt16
  return wide (some (.iinc index (const.signExtend 32)))

/-- The switch of `WIDE.FetchOperands`.  It has no default: any other opcode
leaves `modifiedInstruction` nil. -/
def wideModified (opcode : Byte) : Fetch Instruction :=
  match opcode with
  | 0x15#8 => wideLoad .int
  | 0x16#8 => wideLoad .long
  | 0x17#8 => wideLoad .float
  | 0x18#8 => wideLoad .double
  | 0x19#8 => wideLoad .ref
  | 0x36#8 => wideStore .int
  | 0x37#8 => wideStore .long
  | 0x38#8 => wideStore .float
  | 0x39#8 => wideStore .double
  | 0x3a#8 => wideStore .ref
  | 0x84#8 => wideIinc
  | 0xa9#8 => throw (.message "Unsupported opcode: 0xa9!")
  | _ => return wide none

def wideFetch : Fetch Instruction := do
  let opcode ← readUint8
  wideModified opcode

def iincFetch : Fetch Instruction := do
  let index ← fetchIndex8
  let const ← readInt8
  return iinc index (const.signExtend 32)

def fetchOperands (inst : Instruction) : Fetch Instruction :=
  match inst with
  | bipush _ => bipush <$> readInt8
  | sipush _ => sipush <$> readInt16
  | .index (.load type _) =>
      (fun index => .index (.load type index)) <$> fetchIndex8
  | .index (.store type _) =>
      (fun index => .index (.store type index)) <$> fetchIndex8
  | .index (.iinc _ _) => iincFetch
  | ifCond cond _ => ifCond cond <$> fetchOffset
  | ifIcmp cond _ => ifIcmp cond <$> fetchOffset
  | ifAcmp equal _ => ifAcmp equal <$> fetchOffset
  | goto _ => goto <$> fetchOffset
  | ifNull null _ => ifNull null <$> fetchOffset
  | goto_w _ => (fun offset => goto_w offset.toInt) <$> readInt32
  | tableSwitch _ _ _ _ => tableSwitchFetch
  | lookupSwitch _ _ _ => lookupSwitchFetch
  | wide _ => wideFetch
  | inst => return inst

/-- The part of one round of `loop` that reads the instruction at the reader's
`pc`. -/
def decode : Fetch Instruction := do
  let opcode ← readUint8
  let inst ← liftM (newInstruction opcode)
  fetchOperands inst

end Instruction

end Jvm

end ClpszDemos
