import ClpszDemos.JvmInstruction
import ClpszDemos.ProgramLogic

/-!
# Class files

The `classfile` package: the reader, the constant pool, attributes, members
and `Parse`.  A Go `string` is its bytes, and a `float32` or `float64` of the
pool is its bit pattern.  The pool that entries, members and attributes point
back to is an argument of the functions that use it.
-/

namespace ClpszDemos

namespace Jvm

namespace Classfile

open BigEndian

/-! ## The reader -/

/-- `ClassReader`, as the data it has left. -/
abbrev Read (α : Type) : Type := StateT (List Byte) (Except GoPanic) α

def readUint8 : Read Byte
  | byte :: data => .ok (byte, data)
  | [] => .error .indexOutOfRange

def readUint16 : Read (BitVec 16)
  | byte1 :: byte2 :: data => .ok (join16 byte1 byte2, data)
  | _ => .error .indexOutOfRange

def readUint32 : Read (BitVec 32)
  | byte1 :: byte2 :: byte3 :: byte4 :: data =>
      .ok (join32 byte1 byte2 byte3 byte4, data)
  | _ => .error .indexOutOfRange

def readUint64 : Read (BitVec 64)
  | byte1 :: byte2 :: byte3 :: byte4 :: byte5 :: byte6 :: byte7 :: byte8 ::
      data =>
      .ok (join64 (join32 byte1 byte2 byte3 byte4)
        (join32 byte5 byte6 byte7 byte8), data)
  | _ => .error .indexOutOfRange

/-- A count of two bytes and as many items. -/
def readTable {α : Type} (item : Read α) : Read (List α) := do
  let n ← readUint16
  readMany item n.toNat

def readUint16s : Read (List (BitVec 16)) := readTable readUint16

/-- `self.data[:n]` may reach into the capacity of the slice, but then
`self.data[n:]` panics. -/
def readBytes (n : ℕ) : Read (List Byte) := fun data =>
  if n ≤ data.length then .ok (data.take n, data.drop n)
  else .error .sliceBounds

/-! ## The constant pool -/

inductive ConstantInfo
  | integer (val : BitVec 32)
  | float (val : BitVec 32)
  | long (val : BitVec 64)
  | double (val : BitVec 64)
  | utf8 (str : List Byte)
  | nameAndType (nameIndex descriptorIndex : BitVec 16)
  | string (stringIndex : BitVec 16)
  | classInfo (nameIndex : BitVec 16)
  | fieldref (classIndex nameAndTypeIndex : BitVec 16)
  | methodref (classIndex nameAndTypeIndex : BitVec 16)
  | interfaceMethodref (classIndex nameAndTypeIndex : BitVec 16)
  deriving DecidableEq, Repr

/-- An index with no entry has nil. -/
abbrev ConstantPool : Type := List (Option ConstantInfo)

def readUtf8 : Read ConstantInfo := do
  let length ← readUint16
  let bytes ← readBytes length.toNat
  return .utf8 bytes

/-- Two indices of two bytes each -/
def readIndexPair (make : BitVec 16 → BitVec 16 → ConstantInfo) :
    Read ConstantInfo := do
  let index1 ← readUint16
  let index2 ← readUint16
  return make index1 index2

/-- `newConstantInfo(tag, cp)`, then `readInfo` -/
def readConstantContent (tag : Byte) : Read ConstantInfo :=
  match tag with
  | 3#8 => .integer <$> readUint32
  | 4#8 => .float <$> readUint32
  | 5#8 => .long <$> readUint64
  | 6#8 => .double <$> readUint64
  | 1#8 => readUtf8
  | 12#8 => readIndexPair .nameAndType
  | 8#8 => .string <$> readUint16
  | 7#8 => .classInfo <$> readUint16
  | 9#8 => readIndexPair .fieldref
  | 10#8 => readIndexPair .methodref
  | 11#8 => readIndexPair .interfaceMethodref
  -- method handles and types and `invokedynamic` among them
  | _ => throw (.message "java.lang.ClassFormatError: constant pool tag!")

def readConstantInfo : Read ConstantInfo := do
  let tag ← readUint8
  readConstantContent tag

/-- `*ConstantLongInfo` and `*ConstantDoubleInfo` -/
def ConstantInfo.isWide : ConstantInfo → Bool
  | .long _ => true
  | .double _ => true
  | _ => false

/-- The loop of `readConstantPool`, with `n` indices still to go.  It skips the
index after a `Long` or a `Double`, which may be past the end. -/
def readConstants : ℕ → Read ConstantPool
  | 0 => return []
  | n + 1 => do
      let c ← readConstantInfo
      if c.isWide then
        match n with
        | 0 => return [some c]
        | n + 1 => do
            let rest ← readConstants n
            return some c :: none :: rest
      else
        let rest ← readConstants n
        return some c :: rest

/-- Entries begin at index 1. -/
def readConstantPool : Read ConstantPool := do
  let cpLength ← readUint16
  match cpLength.toNat with
  | 0 => return []
  | n + 1 => do
      let rest ← readConstants n
      return none :: rest

namespace ConstantPool

/-- `self[index].(*ConstantUtf8Info)` -/
def getUtf8 (self : ConstantPool) (index : BitVec 16) :
    Except GoPanic (List Byte) :=
  match self[index.toNat]? with
  | some (some (.utf8 str)) => .ok str
  | some _ => .error .typeAssertion
  | none => .error .indexOutOfRange

def getClassName (self : ConstantPool) (index : BitVec 16) :
    Except GoPanic (List Byte) :=
  match self[index.toNat]? with
  | some (some (.classInfo nameIndex)) => self.getUtf8 nameIndex
  | some _ => .error .typeAssertion
  | none => .error .indexOutOfRange

end ConstantPool

/-! ## Attributes -/

structure ExceptionTableEntry where
  startPc : BitVec 16
  endPc : BitVec 16
  handlerPc : BitVec 16
  catchType : BitVec 16
  deriving DecidableEq, Repr

structure LineNumberTableEntry where
  startPc : BitVec 16
  lineNumber : BitVec 16
  deriving DecidableEq, Repr

structure LocalVariableTableEntry where
  startPc : BitVec 16
  length : BitVec 16
  nameIndex : BitVec 16
  descriptorIndex : BitVec 16
  index : BitVec 16
  deriving DecidableEq, Repr

inductive AttributeInfo
  | code (maxStack maxLocals : BitVec 16) (code : List Byte)
      (exceptionTable : List ExceptionTableEntry)
      (attributes : List AttributeInfo)
  | constantValue (constantValueIndex : BitVec 16)
  | deprecated
  | exceptions (exceptionIndexTable : List (BitVec 16))
  | lineNumberTable (lineNumberTable : List LineNumberTableEntry)
  | localVariableTable (localVariableTable : List LocalVariableTableEntry)
  | sourceFile (sourceFileIndex : BitVec 16)
  | synthetic
  | unparsed (name : List Byte) (length : BitVec 32) (info : List Byte)

/-- The type of an attribute, which its name decides. -/
inductive AttributeKind
  | code
  | constantValue
  | deprecated
  | exceptions
  | lineNumberTable
  | localVariableTable
  | sourceFile
  | synthetic
  | unparsed (name : List Byte) (length : BitVec 32)
  deriving DecidableEq, Repr

/-- A Go string literal of ASCII characters -/
def ascii (chars : List Char) : List Byte :=
  chars.map fun char => BitVec.ofNat 8 char.toNat

def nameCode : List Byte := ascii ['C', 'o', 'd', 'e']

def nameConstantValue : List Byte :=
  ascii ['C', 'o', 'n', 's', 't', 'a', 'n', 't', 'V', 'a', 'l', 'u', 'e']

def nameDeprecated : List Byte :=
  ascii ['D', 'e', 'p', 'r', 'e', 'c', 'a', 't', 'e', 'd']

def nameExceptions : List Byte :=
  ascii ['E', 'x', 'c', 'e', 'p', 't', 'i', 'o', 'n', 's']

def nameLineNumberTable : List Byte :=
  ascii ['L', 'i', 'n', 'e', 'N', 'u', 'm', 'b', 'e', 'r', 'T', 'a', 'b', 'l',
    'e']

def nameLocalVariableTable : List Byte :=
  ascii ['L', 'o', 'c', 'a', 'l', 'V', 'a', 'r', 'i', 'a', 'b', 'l', 'e', 'T',
    'a', 'b', 'l', 'e']

def nameSourceFile : List Byte :=
  ascii ['S', 'o', 'u', 'r', 'c', 'e', 'F', 'i', 'l', 'e']

def nameSynthetic : List Byte :=
  ascii ['S', 'y', 'n', 't', 'h', 'e', 't', 'i', 'c']

def newAttributeInfo (attrName : List Byte) (attrLen : BitVec 32) :
    AttributeKind :=
  if attrName = nameCode then .code
  else if attrName = nameConstantValue then .constantValue
  else if attrName = nameDeprecated then .deprecated
  else if attrName = nameExceptions then .exceptions
  else if attrName = nameLineNumberTable then .lineNumberTable
  else if attrName = nameLocalVariableTable then .localVariableTable
  else if attrName = nameSourceFile then .sourceFile
  else if attrName = nameSynthetic then .synthetic
  else .unparsed attrName attrLen

def readExceptionTableEntry : Read ExceptionTableEntry := do
  let startPc ← readUint16
  let endPc ← readUint16
  let handlerPc ← readUint16
  let catchType ← readUint16
  return ⟨startPc, endPc, handlerPc, catchType⟩

def readExceptionTable : Read (List ExceptionTableEntry) :=
  readTable readExceptionTableEntry

def readLineNumberTableEntry : Read LineNumberTableEntry := do
  let startPc ← readUint16
  let lineNumber ← readUint16
  return ⟨startPc, lineNumber⟩

def readLocalVariableTableEntry : Read LocalVariableTableEntry := do
  let startPc ← readUint16
  let length ← readUint16
  let nameIndex ← readUint16
  let descriptorIndex ← readUint16
  let index ← readUint16
  return ⟨startPc, length, nameIndex, descriptorIndex, index⟩

/-- `CodeAttribute.readInfo` -/
def readCode (attributes : Read (List AttributeInfo)) : Read AttributeInfo := do
  let maxStack ← readUint16
  let maxLocals ← readUint16
  let codeLength ← readUint32
  let code ← readBytes codeLength.toNat
  let exceptionTable ← readExceptionTable
  let attributes ← attributes
  return .code maxStack maxLocals code exceptionTable attributes

/-- `readInfo`; only an unparsed attribute uses the declared length. -/
def readInfo (attributes : Read (List AttributeInfo)) :
    AttributeKind → Read AttributeInfo
  | .code => readCode attributes
  | .constantValue => .constantValue <$> readUint16
  | .deprecated => return .deprecated
  | .exceptions => .exceptions <$> readUint16s
  | .lineNumberTable =>
      .lineNumberTable <$> readTable readLineNumberTableEntry
  | .localVariableTable =>
      .localVariableTable <$> readTable readLocalVariableTableEntry
  | .sourceFile => .sourceFile <$> readUint16
  | .synthetic => return .synthetic
  | .unparsed name length => .unparsed name length <$> readBytes length.toNat

/-- The body of `readAttribute`, with a reader for the attributes inside. -/
def readAttributeWith (cp : ConstantPool)
    (attributes : Read (List AttributeInfo)) : Read AttributeInfo := do
  let attrNameIndex ← readUint16
  let attrName ← liftM (cp.getUtf8 attrNameIndex)
  let attrLen ← readUint32
  readInfo attributes (newAttributeInfo attrName attrLen)

/-- `readAttribute` on at most `n` bytes; each level of nesting takes some. -/
def readAttributeWithin (cp : ConstantPool) : ℕ → Read AttributeInfo
  | 0 => throw .indexOutOfRange
  | n + 1 => readAttributeWith cp (readTable (readAttributeWithin cp n))

def readAttribute (cp : ConstantPool) : Read AttributeInfo := fun data =>
  readAttributeWithin cp data.length data

def readAttributes (cp : ConstantPool) : Read (List AttributeInfo) :=
  readTable (readAttribute cp)

/-! ## Attributes inside attributes

The bound on the nesting is never reached, so that `readAttribute` satisfies
the equation of the source.
-/

section Nesting

variable {α β : Type}

/-- What a reader leaves is the end of what it was given. -/
def Consumes (reader : Read α) : Prop :=
  ∀ data a rest, reader data = .ok (a, rest) → rest <:+ data

namespace Consumes

theorem pure (a : α) : Consumes (Pure.pure a : Read α) := by
  intro data b rest hread
  cases hread
  exact List.suffix_refl data

theorem throw (panic : GoPanic) : Consumes (throw panic : Read α) := by
  intro data b rest hread
  cases hread

theorem bind {m : Read α} {f : α → Read β} (hm : Consumes m)
    (hf : ∀ a, Consumes (f a)) : Consumes (m >>= f) := by
  intro data b rest hread
  obtain ⟨a, middle, hfirst, hsecond⟩ := bind_eq_ok hread
  have hmiddle : middle <:+ data := hm data a middle hfirst
  have hrest : rest <:+ middle := hf a middle b rest hsecond
  exact hrest.trans hmiddle

theorem map {m : Read α} (hm : Consumes m) (f : α → β) :
    Consumes (f <$> m) := by
  intro data b rest hread
  obtain ⟨a, hfirst, _⟩ := map_eq_ok hread
  exact hm data a rest hfirst

theorem liftM (result : Except GoPanic α) :
    Consumes (liftM result : Read α) := by
  cases result with
  | ok a => exact pure a
  | error panic => exact throw panic

theorem many {item : Read α} (hitem : Consumes item) (n : ℕ) :
    Consumes (readMany item n) := by
  induction n with
  | zero => exact pure []
  | succ n ih =>
      exact hitem.bind fun first => ih.bind fun others => pure (first :: others)

end Consumes

theorem consumes_readUint16 : Consumes readUint16 := by
  intro data a rest hread
  unfold readUint16 at hread
  split at hread
  · cases hread
    exact ⟨[_, _], rfl⟩
  · cases hread

theorem consumes_readUint32 : Consumes readUint32 := by
  intro data a rest hread
  unfold readUint32 at hread
  split at hread
  · cases hread
    exact ⟨[_, _, _, _], rfl⟩
  · cases hread

theorem consumes_readBytes (n : ℕ) : Consumes (readBytes n) := by
  intro data a rest hread
  unfold readBytes at hread
  by_cases hn : n ≤ data.length
  · rw [if_pos hn] at hread
    cases hread
    exact List.drop_suffix n data
  · rw [if_neg hn] at hread
    cases hread

theorem consumes_readTable {item : Read α} (hitem : Consumes item) :
    Consumes (readTable item) :=
  consumes_readUint16.bind fun n => hitem.many n.toNat

theorem consumes_readExceptionTable : Consumes readExceptionTable := by
  apply consumes_readTable
  exact consumes_readUint16.bind fun _ => consumes_readUint16.bind fun _ =>
    consumes_readUint16.bind fun _ => consumes_readUint16.bind fun _ =>
      Consumes.pure _

theorem consumes_readCode {attributes : Read (List AttributeInfo)}
    (hattributes : Consumes attributes) : Consumes (readCode attributes) :=
  consumes_readUint16.bind fun _ => consumes_readUint16.bind fun _ =>
    consumes_readUint32.bind fun _ => (consumes_readBytes _).bind fun _ =>
      consumes_readExceptionTable.bind fun _ => hattributes.bind fun _ =>
        Consumes.pure _

theorem consumes_readInfo {attributes : Read (List AttributeInfo)}
    (hattributes : Consumes attributes) (kind : AttributeKind) :
    Consumes (readInfo attributes kind) := by
  have hline : Consumes readLineNumberTableEntry :=
    consumes_readUint16.bind fun _ => consumes_readUint16.bind fun _ =>
      Consumes.pure _
  have hvariable : Consumes readLocalVariableTableEntry :=
    consumes_readUint16.bind fun _ => consumes_readUint16.bind fun _ =>
      consumes_readUint16.bind fun _ => consumes_readUint16.bind fun _ =>
        consumes_readUint16.bind fun _ => Consumes.pure _
  cases kind with
  | code => exact consumes_readCode hattributes
  | constantValue => exact consumes_readUint16.map _
  | deprecated => exact Consumes.pure _
  | exceptions => exact (consumes_readTable consumes_readUint16).map _
  | lineNumberTable => exact (consumes_readTable hline).map _
  | localVariableTable => exact (consumes_readTable hvariable).map _
  | sourceFile => exact consumes_readUint16.map _
  | synthetic => exact Consumes.pure _
  | unparsed name length => exact (consumes_readBytes _).map _

theorem consumes_readAttributeWith (cp : ConstantPool)
    {attributes : Read (List AttributeInfo)}
    (hattributes : Consumes attributes) :
    Consumes (readAttributeWith cp attributes) :=
  consumes_readUint16.bind fun _ => (Consumes.liftM _).bind fun _ =>
    consumes_readUint32.bind fun _ => consumes_readInfo hattributes _

theorem consumes_readAttributeWithin (cp : ConstantPool) (n : ℕ) :
    Consumes (readAttributeWithin cp n) := by
  induction n with
  | zero => exact Consumes.throw _
  | succ n ih => exact consumes_readAttributeWith cp (consumes_readTable ih)

/-- Two readers that do the same on at most `n` bytes. -/
def AgreeWithin (n : ℕ) (reader reader' : Read α) : Prop :=
  ∀ data, data.length ≤ n → reader data = reader' data

namespace AgreeWithin

variable {n : ℕ}

theorem refl (reader : Read α) : AgreeWithin n reader reader :=
  fun _ _ => rfl

theorem bind {m m' : Read α} {f f' : α → Read β} (hconsumes : Consumes m)
    (hm : AgreeWithin n m m') (hf : ∀ a, AgreeWithin n (f a) (f' a)) :
    AgreeWithin n (m >>= f) (m' >>= f') := by
  intro data hdata
  show (do let (a, rest) ← m data; f a rest) =
    (do let (a, rest) ← m' data; f' a rest)
  rw [← hm data hdata]
  cases hfirst : m data with
  | error panic => rfl
  | ok result =>
      have hrest := (hconsumes data result.1 result.2 hfirst).length_le
      exact hf result.1 result.2 (hrest.trans hdata)

theorem many {item item' : Read α} (hconsumes : Consumes item)
    (hitem : AgreeWithin n item item') (count : ℕ) :
    AgreeWithin n (readMany item count) (readMany item' count) := by
  induction count with
  | zero => exact refl _
  | succ count ih =>
      apply bind hconsumes hitem
      intro first
      exact bind (hconsumes.many count) ih fun others => refl _

theorem table {item item' : Read α} (hconsumes : Consumes item)
    (hitem : AgreeWithin n item item') :
    AgreeWithin n (readTable item) (readTable item') :=
  bind consumes_readUint16 (refl _) fun _ => many hconsumes hitem _

theorem readInfo {attributes attributes' : Read (List AttributeInfo)}
    (hconsumes : Consumes attributes)
    (hattributes : AgreeWithin n attributes attributes')
    (kind : AttributeKind) :
    AgreeWithin n (readInfo attributes kind) (readInfo attributes' kind) := by
  cases kind with
  | code =>
      apply bind consumes_readUint16 (refl _)
      intro maxStack
      apply bind consumes_readUint16 (refl _)
      intro maxLocals
      apply bind consumes_readUint32 (refl _)
      intro codeLength
      apply bind (consumes_readBytes _) (refl _)
      intro code
      apply bind consumes_readExceptionTable (refl _)
      intro exceptionTable
      exact bind hconsumes hattributes fun inner => refl _
  | _ => exact refl _

/-- What follows has two bytes less to read. -/
theorem readUint16_bind {f f' : BitVec 16 → Read α}
    (hf : ∀ a, AgreeWithin n (f a) (f' a)) :
    AgreeWithin (n + 1) (readUint16 >>= f) (readUint16 >>= f') := by
  intro data hdata
  match data with
  | [] => rfl
  | [_] => rfl
  | byte1 :: byte2 :: rest =>
      have hrest : rest.length ≤ n := by
        simp only [List.length_cons] at hdata
        omega
      exact hf (join16 byte1 byte2) rest hrest

theorem readAttributeWith (cp : ConstantPool)
    {attributes attributes' : Read (List AttributeInfo)}
    (hconsumes : Consumes attributes)
    (hattributes : AgreeWithin n attributes attributes') :
    AgreeWithin (n + 1) (readAttributeWith cp attributes)
      (readAttributeWith cp attributes') := by
  apply readUint16_bind
  intro attrNameIndex
  apply bind (Consumes.liftM _) (refl _)
  intro attrName
  apply bind consumes_readUint32 (refl _)
  intro attrLen
  exact readInfo hconsumes hattributes _

end AgreeWithin

/-- Any bound that is at least the number of bytes does. -/
theorem readAttributeWithin_agree (cp : ConstantPool) {n m : ℕ} (hle : n ≤ m) :
    AgreeWithin n (readAttributeWithin cp n) (readAttributeWithin cp m) := by
  induction n generalizing m with
  | zero =>
      intro data hdata
      have hempty : data = [] := List.length_eq_zero_iff.mp (Nat.le_zero.mp hdata)
      rw [hempty]
      cases m with
      | zero => rfl
      | succ m => rfl
  | succ n ih =>
      cases m with
      | zero => omega
      | succ m =>
          have hconsumes := consumes_readAttributeWithin cp n
          exact AgreeWithin.readAttributeWith cp (consumes_readTable hconsumes)
            (AgreeWithin.table hconsumes (ih (Nat.le_of_succ_le_succ hle)))

/-- The equation of the source, in which `readAttribute` and `readAttributes`
call each other. -/
theorem readAttribute_eq (cp : ConstantPool) :
    readAttribute cp = readAttributeWith cp (readAttributes cp) := by
  funext data
  have hitem : AgreeWithin data.length (readAttributeWithin cp data.length)
      (readAttribute cp) := by
    intro rest hrest
    exact (readAttributeWithin_agree cp hrest rest le_rfl).symm
  have hconsumes := consumes_readAttributeWithin cp data.length
  have hwith := AgreeWithin.readAttributeWith cp (consumes_readTable hconsumes)
    (AgreeWithin.table hconsumes hitem)
  have hsucc : readAttribute cp data =
      readAttributeWithin cp (data.length + 1) data :=
    readAttributeWithin_agree cp (Nat.le_succ _) data le_rfl
  rw [hsucc]
  exact hwith data (Nat.le_succ _)

end Nesting

/-! ## Members -/

structure MemberInfo where
  accessFlags : BitVec 16
  nameIndex : BitVec 16
  descriptorIndex : BitVec 16
  attributes : List AttributeInfo

def readMember (cp : ConstantPool) : Read MemberInfo := do
  let accessFlags ← readUint16
  let nameIndex ← readUint16
  let descriptorIndex ← readUint16
  let attributes ← readAttributes cp
  return ⟨accessFlags, nameIndex, descriptorIndex, attributes⟩

def readMembers (cp : ConstantPool) : Read (List MemberInfo) :=
  readTable (readMember cp)

namespace MemberInfo

def name (self : MemberInfo) (cp : ConstantPool) : Except GoPanic (List Byte) :=
  cp.getUtf8 self.nameIndex

def descriptor (self : MemberInfo) (cp : ConstantPool) :
    Except GoPanic (List Byte) :=
  cp.getUtf8 self.descriptorIndex

end MemberInfo

/-! ## The class file -/

/-- The attributes of the class are not read. -/
structure ClassFile where
  magic : BitVec 32
  minorVersion : BitVec 16
  majorVersion : BitVec 16
  constantPool : ConstantPool
  accessFlags : BitVec 16
  thisClass : BitVec 16
  superClass : BitVec 16
  interfaces : List (BitVec 16)
  fields : List MemberInfo
  methods : List MemberInfo

def readAndCheckMagic : Read (BitVec 32) := do
  let magic ← readUint32
  if magic ≠ 0xcafebabe then
    throw (.message "java.lang.ClassFormatError: magic!")
  return magic

/-- The switch of `ReadAndCheckVersion` -/
def supportsVersion (minorVersion majorVersion : BitVec 16) : Bool :=
  match majorVersion with
  | 45#16 => true
  | 46#16 | 47#16 | 48#16 | 49#16 | 50#16 | 51#16 | 52#16 => minorVersion == 0
  | _ => false

def readAndCheckVersion : Read (BitVec 16 × BitVec 16) := do
  let minorVersion ← readUint16
  let majorVersion ← readUint16
  if supportsVersion minorVersion majorVersion then
    return (minorVersion, majorVersion)
  else throw (.message "java.lang.UnsupportedClassVersionError!")

def read : Read ClassFile := do
  let magic ← readAndCheckMagic
  let (minorVersion, majorVersion) ← readAndCheckVersion
  let constantPool ← readConstantPool
  let accessFlags ← readUint16
  let thisClass ← readUint16
  let superClass ← readUint16
  let interfaces ← readUint16s
  let fields ← readMembers constantPool
  let methods ← readMembers constantPool
  return {
    magic := magic
    minorVersion := minorVersion
    majorVersion := majorVersion
    constantPool := constantPool
    accessFlags := accessFlags
    thisClass := thisClass
    superClass := superClass
    interfaces := interfaces
    fields := fields
    methods := methods }

/-- Every panic of `read` is recovered and becomes the error. -/
def parse (classData : List Byte) : Except GoPanic ClassFile := do
  let (cf, _) ← read classData
  return cf

namespace ClassFile

def className (self : ClassFile) : Except GoPanic (List Byte) :=
  self.constantPool.getClassName self.thisClass

def superClassName (self : ClassFile) : Except GoPanic (List Byte) :=
  self.constantPool.getClassName self.superClass

def interfaceClassNames (self : ClassFile) : Except GoPanic (List (List Byte)) :=
  self.interfaces.mapM self.constantPool.getClassName

end ClassFile

def nameMain : List Byte := ascii ['m', 'a', 'i', 'n']

/-- `([Ljava/lang/String;)V` -/
def descriptorMain : List Byte :=
  ascii ['(', '[', 'L', 'j', 'a', 'v', 'a', '/', 'l', 'a', 'n', 'g', '/', 'S',
    't', 'r', 'i', 'n', 'g', ';', ')', 'V']

/-- The loop of `getMainMethod`, which also prints each name and descriptor. -/
def findMainMethod (cp : ConstantPool) :
    List MemberInfo → Except GoPanic (Option MemberInfo)
  | [] => .ok none
  | m :: methods => do
      let name ← m.name cp
      let descriptor ← m.descriptor cp
      if name = nameMain ∧ descriptor = descriptorMain then return some m
      else findMainMethod cp methods

def getMainMethod (cf : ClassFile) : Except GoPanic (Option MemberInfo) :=
  findMainMethod cf.constantPool cf.methods

end Classfile

end Jvm

end ClpszDemos
