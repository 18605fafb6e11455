import ClpszDemos.JvmClassFile

/-!
# The class-file format and its parser

The encoding of the JVM specification, with the attributes of the class left
to whoever reads on.  A `CONSTANT_Utf8` is its bytes, an attribute may be named
by any entry of the pool that has its name, and `attribute_length` is the
length of the content.  `parse` undoes this encoding.
-/

namespace ClpszDemos

namespace Jvm

namespace Classfile

open BigEndian

/-! ## Readers on encoded data -/

section Readers

variable {α : Type} {reader : Read α} {bytes : List Byte} {value : α}

theorem reads_of_append
    (hreader : ∀ rest, reader (bytes ++ rest) = .ok (value, rest)) :
    Reads reader bytes value := by
  intro data rest hsupplies
  rw [supplies_list.mp hsupplies]
  exact hreader rest

theorem append_of_reads (hreads : Reads reader bytes value) (rest : List Byte) :
    reader (bytes ++ rest) = .ok (value, rest) :=
  hreads _ _ (supplies_list.mpr rfl)

end Readers

theorem reads_readUint8 (byte : Byte) : Reads readUint8 [byte] byte :=
  reads_of_append fun _ => rfl

theorem reads_readUint16 (value : BitVec 16) :
    Reads readUint16 (bytes16 value) value := by
  apply reads_of_append
  intro rest
  show Except.ok (join16 (value.extractLsb' 8 8) (value.extractLsb' 0 8),
    rest) = _
  rw [join16_extract]

theorem reads_readUint32 (value : BitVec 32) :
    Reads readUint32 (bytes32 value) value := by
  apply reads_of_append
  intro rest
  show Except.ok (join32 (value.extractLsb' 24 8) (value.extractLsb' 16 8)
    (value.extractLsb' 8 8) (value.extractLsb' 0 8), rest) = _
  rw [join32_extract]

theorem reads_readUint64 (value : BitVec 64) :
    Reads readUint64 (bytes64 value) value := by
  apply reads_of_append
  intro rest
  have hhigh := join32_extract (value.extractLsb' 32 32)
  have hlow := join32_extract (value.extractLsb' 0 32)
  unfold bytes64 bytes32
  simp only [List.cons_append, List.nil_append, readUint64]
  rw [hhigh, hlow, join64_extract]

theorem reads_readBytes (bytes : List Byte) :
    Reads (readBytes bytes.length) bytes bytes := by
  apply reads_of_append
  intro rest
  unfold readBytes
  rw [if_pos (by simp), List.take_left, List.drop_left]

/-! ## Tables -/

/-- A count of type `u2` -/
def count (n : ℕ) : List Byte := bytes16 (BitVec.ofNat 16 n)

theorem toNat_ofNat16 {n : ℕ} (hn : n < 2 ^ 16) :
    (BitVec.ofNat 16 n).toNat = n :=
  Nat.mod_eq_of_lt hn

def encodeTable {α : Type} (encode : α → List Byte) (items : List α) :
    List Byte :=
  count items.length ++ items.flatMap encode

/-- A table of items that each may have several encodings. -/
def EncodesTable {α : Type} (Encodes : α → List Byte → Prop) (items : List α)
    (bytes : List Byte) : Prop :=
  ∃ pairs : List (α × List Byte),
    (∀ p ∈ pairs, Encodes p.1 p.2) ∧ pairs.length < 2 ^ 16 ∧
      items = pairs.map Prod.fst ∧
      bytes = count pairs.length ++ pairs.flatMap Prod.snd

section Tables

variable {α : Type} {item : Read α}

theorem reads_pairs {pairs : List (α × List Byte)}
    (hitem : ∀ p ∈ pairs, Reads item p.2 p.1) (hlength : pairs.length < 2 ^ 16) :
    Reads (readTable item) (count pairs.length ++ pairs.flatMap Prod.snd)
      (pairs.map Prod.fst) := by
  have heach := Reads.each hitem
  have hcount := reads_readUint16 (BitVec.ofNat 16 pairs.length)
  apply hcount.bind
  rw [toNat_ofNat16 hlength]
  exact heach

theorem reads_table {encode : α → List Byte} {items : List α}
    (hitem : ∀ a ∈ items, Reads item (encode a) a)
    (hlength : items.length < 2 ^ 16) :
    Reads (readTable item) (encodeTable encode items) items := by
  have hmany := Reads.many hitem
  have hcount := reads_readUint16 (BitVec.ofNat 16 items.length)
  apply hcount.bind
  rw [toNat_ofNat16 hlength]
  exact hmany

theorem reads_encodesTable {Encodes : α → List Byte → Prop} {items : List α}
    {bytes : List Byte}
    (hitem : ∀ a bytes, Encodes a bytes → Reads item bytes a)
    (hencodes : EncodesTable Encodes items bytes) :
    Reads (readTable item) bytes items := by
  obtain ⟨pairs, hpairs, hlength, rfl, rfl⟩ := hencodes
  exact reads_pairs (fun p hp => hitem p.1 p.2 (hpairs p hp)) hlength

end Tables

theorem reads_readUint16s {values : List (BitVec 16)}
    (hlength : values.length < 2 ^ 16) :
    Reads readUint16s (encodeTable bytes16 values) values :=
  reads_table (fun value _ => reads_readUint16 value) hlength

/-! ## The constant pool -/

namespace ConstantInfo

def tag : ConstantInfo → Byte
  | .integer _ => 3
  | .float _ => 4
  | .long _ => 5
  | .double _ => 6
  | .utf8 _ => 1
  | .nameAndType _ _ => 12
  | .string _ => 8
  | .classInfo _ => 7
  | .fieldref _ _ => 9
  | .methodref _ _ => 10
  | .interfaceMethodref _ _ => 11

def content : ConstantInfo → List Byte
  | .integer val => bytes32 val
  | .float val => bytes32 val
  | .long val => bytes64 val
  | .double val => bytes64 val
  | .utf8 str => count str.length ++ str
  | .nameAndType nameIndex descriptorIndex =>
      bytes16 nameIndex ++ bytes16 descriptorIndex
  | .string stringIndex => bytes16 stringIndex
  | .classInfo nameIndex => bytes16 nameIndex
  | .fieldref classIndex nameAndTypeIndex =>
      bytes16 classIndex ++ bytes16 nameAndTypeIndex
  | .methodref classIndex nameAndTypeIndex =>
      bytes16 classIndex ++ bytes16 nameAndTypeIndex
  | .interfaceMethodref classIndex nameAndTypeIndex =>
      bytes16 classIndex ++ bytes16 nameAndTypeIndex

/-- The length of a string is a `u2`. -/
def InRange : ConstantInfo → Prop
  | .utf8 str => str.length < 2 ^ 16
  | _ => True

def encode (c : ConstantInfo) : List Byte := c.tag :: c.content

end ConstantInfo

/-- The entries from some index on.  A `Long` or a `Double` takes two
indices. -/
inductive EncodesConstants : ConstantPool → List Byte → Prop
  | nil : EncodesConstants [] []
  | single {c : ConstantInfo} {pool : ConstantPool} {bytes : List Byte}
      (isWide : c.isWide = false) (inRange : c.InRange)
      (tail : EncodesConstants pool bytes) :
      EncodesConstants (some c :: pool) (c.encode ++ bytes)
  | wide {c : ConstantInfo} {pool : ConstantPool} {bytes : List Byte}
      (isWide : c.isWide = true) (inRange : c.InRange)
      (tail : EncodesConstants pool bytes) :
      EncodesConstants (some c :: none :: pool) (c.encode ++ bytes)

/-- `constant_pool_count` is one more than the last index. -/
def EncodesPool (cp : ConstantPool) (bytes : List Byte) : Prop :=
  ∃ entries content, cp = none :: entries ∧ cp.length < 2 ^ 16 ∧
    EncodesConstants entries content ∧ bytes = count cp.length ++ content

theorem reads_readUtf8 {str : List Byte} (hlength : str.length < 2 ^ 16) :
    Reads readUtf8 (count str.length ++ str) (.utf8 str) := by
  have hcount := reads_readUint16 (BitVec.ofNat 16 str.length)
  apply hcount.bind
  rw [toNat_ofNat16 hlength]
  have hbytes := (reads_readBytes str).map ConstantInfo.utf8
  exact hbytes

theorem reads_readIndexPair (make : BitVec 16 → BitVec 16 → ConstantInfo)
    (index1 index2 : BitVec 16) :
    Reads (readIndexPair make) (bytes16 index1 ++ bytes16 index2)
      (make index1 index2) := by
  apply (reads_readUint16 index1).bind
  exact (reads_readUint16 index2).map (make index1)

theorem reads_readConstantContent {c : ConstantInfo} (hrange : c.InRange) :
    Reads (readConstantContent c.tag) c.content c := by
  cases c with
  | integer val => exact (reads_readUint32 val).map _
  | float val => exact (reads_readUint32 val).map _
  | long val => exact (reads_readUint64 val).map _
  | double val => exact (reads_readUint64 val).map _
  | utf8 str => exact reads_readUtf8 hrange
  | nameAndType nameIndex descriptorIndex =>
      exact reads_readIndexPair _ nameIndex descriptorIndex
  | string stringIndex => exact (reads_readUint16 stringIndex).map _
  | classInfo nameIndex => exact (reads_readUint16 nameIndex).map _
  | fieldref classIndex nameAndTypeIndex =>
      exact reads_readIndexPair _ classIndex nameAndTypeIndex
  | methodref classIndex nameAndTypeIndex =>
      exact reads_readIndexPair _ classIndex nameAndTypeIndex
  | interfaceMethodref classIndex nameAndTypeIndex =>
      exact reads_readIndexPair _ classIndex nameAndTypeIndex

theorem reads_readConstantInfo {c : ConstantInfo} (hrange : c.InRange) :
    Reads readConstantInfo c.encode c :=
  Reads.bind (reads_readUint8 c.tag) (reads_readConstantContent hrange)

theorem reads_readConstants {entries : ConstantPool} {bytes : List Byte}
    (hencodes : EncodesConstants entries bytes) :
    Reads (readConstants entries.length) bytes entries := by
  induction hencodes with
  | nil => exact Reads.pure []
  | @single c pool bytes isWide inRange tail ih =>
      rw [List.length_cons]
      unfold readConstants
      apply (reads_readConstantInfo inRange).bind
      rw [isWide]
      exact ih.map (some c :: ·)
  | @wide c pool bytes isWide inRange tail ih =>
      rw [List.length_cons, List.length_cons]
      unfold readConstants
      apply (reads_readConstantInfo inRange).bind
      rw [isWide]
      exact ih.map (some c :: none :: ·)

theorem reads_readConstantPool {cp : ConstantPool} {bytes : List Byte}
    (hencodes : EncodesPool cp bytes) : Reads readConstantPool bytes cp := by
  obtain ⟨entries, content, rfl, hlength, hcontent, rfl⟩ := hencodes
  have hcount :=
    reads_readUint16 (BitVec.ofNat 16 (none :: entries : ConstantPool).length)
  apply hcount.bind
  rw [toNat_ofNat16 hlength]
  exact (reads_readConstants hcontent).map (none :: ·)

/-! ## Attributes -/

namespace ExceptionTableEntry

def encode (entry : ExceptionTableEntry) : List Byte :=
  bytes16 entry.startPc ++ (bytes16 entry.endPc ++
    (bytes16 entry.handlerPc ++ bytes16 entry.catchType))

end ExceptionTableEntry

namespace LineNumberTableEntry

def encode (entry : LineNumberTableEntry) : List Byte :=
  bytes16 entry.startPc ++ bytes16 entry.lineNumber

end LineNumberTableEntry

namespace LocalVariableTableEntry

def encode (entry : LocalVariableTableEntry) : List Byte :=
  bytes16 entry.startPc ++ (bytes16 entry.length ++
    (bytes16 entry.nameIndex ++ (bytes16 entry.descriptorIndex ++
      bytes16 entry.index)))

end LocalVariableTableEntry

def knownNames : List (List Byte) :=
  [nameCode, nameConstantValue, nameDeprecated, nameExceptions,
    nameLineNumberTable, nameLocalVariableTable, nameSourceFile,
    nameSynthetic]

def AttributeInfo.name : AttributeInfo → List Byte
  | .code _ _ _ _ _ => nameCode
  | .constantValue _ => nameConstantValue
  | .deprecated => nameDeprecated
  | .exceptions _ => nameExceptions
  | .lineNumberTable _ => nameLineNumberTable
  | .localVariableTable _ => nameLocalVariableTable
  | .sourceFile _ => nameSourceFile
  | .synthetic => nameSynthetic
  | .unparsed name _ _ => name

/-- The content of an attribute with no attributes inside. -/
def PlainContent : AttributeInfo → List Byte → Prop
  | .code _ _ _ _ _, _ => False
  | .constantValue index, content => content = bytes16 index
  | .deprecated, content => content = []
  | .exceptions table, content =>
      table.length < 2 ^ 16 ∧ content = encodeTable bytes16 table
  | .lineNumberTable table, content =>
      table.length < 2 ^ 16 ∧
        content = encodeTable LineNumberTableEntry.encode table
  | .localVariableTable table, content =>
      table.length < 2 ^ 16 ∧
        content = encodeTable LocalVariableTableEntry.encode table
  | .sourceFile index, content => content = bytes16 index
  | .synthetic, content => content = []
  | .unparsed name length info, content =>
      name ∉ knownNames ∧ length = BitVec.ofNat 32 info.length ∧
        content = info

/-- `attribute_name_index`, `attribute_length` and the content. -/
def attributeBytes (nameIndex : BitVec 16) (content : List Byte) : List Byte :=
  bytes16 nameIndex ++ (bytes32 (BitVec.ofNat 32 content.length) ++ content)

def codeContent (maxStack maxLocals : BitVec 16) (code : List Byte)
    (exceptionTable : List ExceptionTableEntry) (attributes : List Byte) :
    List Byte :=
  bytes16 maxStack ++ (bytes16 maxLocals ++
    (bytes32 (BitVec.ofNat 32 code.length) ++ (code ++
      (encodeTable ExceptionTableEntry.encode exceptionTable ++ attributes))))

def NamedAt (cp : ConstantPool) (index : BitVec 16) (name : List Byte) : Prop :=
  cp[index.toNat]? = some (some (.utf8 name))

/-- The attributes inside `code` come with their encodings. -/
inductive EncodesAttribute (cp : ConstantPool) :
    AttributeInfo → List Byte → Prop
  | plain {attrInfo : AttributeInfo} {nameIndex : BitVec 16}
      {content : List Byte} (name : NamedAt cp nameIndex attrInfo.name)
      (layout : PlainContent attrInfo content)
      (length_lt : content.length < 2 ^ 32) :
      EncodesAttribute cp attrInfo (attributeBytes nameIndex content)
  | code {maxStack maxLocals nameIndex : BitVec 16} {code content : List Byte}
      {exceptionTable : List ExceptionTableEntry}
      {inner : List (AttributeInfo × List Byte)}
      (name : NamedAt cp nameIndex nameCode)
      (code_length : code.length < 2 ^ 32)
      (table_length : exceptionTable.length < 2 ^ 16)
      (inner_encodes : ∀ p ∈ inner, EncodesAttribute cp p.1 p.2)
      (inner_length : inner.length < 2 ^ 16)
      (layout : content = codeContent maxStack maxLocals code exceptionTable
        (count inner.length ++ inner.flatMap Prod.snd))
      (length_lt : content.length < 2 ^ 32) :
      EncodesAttribute cp
        (.code maxStack maxLocals code exceptionTable (inner.map Prod.fst))
        (attributeBytes nameIndex content)

theorem getUtf8_namedAt {cp : ConstantPool} {index : BitVec 16}
    {name : List Byte} (hname : NamedAt cp index name) :
    cp.getUtf8 index = .ok name := by
  unfold ConstantPool.getUtf8
  rw [hname]

theorem newAttributeInfo_unknown {name : List Byte} {length : BitVec 32}
    (hname : name ∉ knownNames) :
    newAttributeInfo name length = .unparsed name length := by
  simp only [knownNames, List.mem_cons, List.not_mem_nil, or_false,
    not_or] at hname
  obtain ⟨h1, h2, h3, h4, h5, h6, h7, h8⟩ := hname
  unfold newAttributeInfo
  rw [if_neg h1, if_neg h2, if_neg h3, if_neg h4, if_neg h5, if_neg h6,
    if_neg h7, if_neg h8]

theorem toNat_ofNat32 {n : ℕ} (hn : n < 2 ^ 32) :
    (BitVec.ofNat 32 n).toNat = n :=
  Nat.mod_eq_of_lt hn

theorem reads_readExceptionTableEntry (entry : ExceptionTableEntry) :
    Reads readExceptionTableEntry entry.encode entry := by
  apply (reads_readUint16 entry.startPc).bind
  apply (reads_readUint16 entry.endPc).bind
  apply (reads_readUint16 entry.handlerPc).bind
  exact (reads_readUint16 entry.catchType).map _

theorem reads_readLineNumberTableEntry (entry : LineNumberTableEntry) :
    Reads readLineNumberTableEntry entry.encode entry := by
  apply (reads_readUint16 entry.startPc).bind
  exact (reads_readUint16 entry.lineNumber).map _

theorem reads_readLocalVariableTableEntry (entry : LocalVariableTableEntry) :
    Reads readLocalVariableTableEntry entry.encode entry := by
  apply (reads_readUint16 entry.startPc).bind
  apply (reads_readUint16 entry.length).bind
  apply (reads_readUint16 entry.nameIndex).bind
  apply (reads_readUint16 entry.descriptorIndex).bind
  exact (reads_readUint16 entry.index).map _

theorem reads_readCode {maxStack maxLocals : BitVec 16} {code bytes : List Byte}
    {exceptionTable : List ExceptionTableEntry}
    {reader : Read (List AttributeInfo)} {attributes : List AttributeInfo}
    (hcode : code.length < 2 ^ 32) (htable : exceptionTable.length < 2 ^ 16)
    (hattributes : Reads reader bytes attributes) :
    Reads (readCode reader)
      (codeContent maxStack maxLocals code exceptionTable bytes)
      (.code maxStack maxLocals code exceptionTable attributes) := by
  apply (reads_readUint16 maxStack).bind
  apply (reads_readUint16 maxLocals).bind
  apply (reads_readUint32 (BitVec.ofNat 32 code.length)).bind
  rw [toNat_ofNat32 hcode]
  apply (reads_readBytes code).bind
  have hentries : Reads readExceptionTable
      (encodeTable ExceptionTableEntry.encode exceptionTable) exceptionTable :=
    reads_table (fun entry _ => reads_readExceptionTableEntry entry) htable
  apply hentries.bind
  exact hattributes.map _

/-- The content is read by the reader of the attribute's kind. -/
theorem reads_readInfo_plain {attrInfo : AttributeInfo} {content : List Byte}
    {reader : Read (List AttributeInfo)}
    (hlayout : PlainContent attrInfo content)
    (hlength : content.length < 2 ^ 32) :
    Reads (readInfo reader (newAttributeInfo attrInfo.name
      (BitVec.ofNat 32 content.length))) content attrInfo := by
  cases attrInfo with
  | code => exact hlayout.elim
  | constantValue index =>
      rw [hlayout]
      exact (reads_readUint16 index).map _
  | deprecated =>
      rw [hlayout]
      exact Reads.pure _
  | exceptions table =>
      obtain ⟨htable, rfl⟩ := hlayout
      exact (reads_readUint16s htable).map _
  | lineNumberTable table =>
      obtain ⟨htable, rfl⟩ := hlayout
      exact (reads_table (fun entry _ => reads_readLineNumberTableEntry entry)
        htable).map _
  | localVariableTable table =>
      obtain ⟨htable, rfl⟩ := hlayout
      exact (reads_table (fun entry _ =>
        reads_readLocalVariableTableEntry entry) htable).map _
  | sourceFile index =>
      rw [hlayout]
      exact (reads_readUint16 index).map _
  | synthetic =>
      rw [hlayout]
      exact Reads.pure _
  | unparsed name length info =>
      obtain ⟨hname, rfl, rfl⟩ := hlayout
      show Reads (readInfo reader (newAttributeInfo name _)) _ _
      rw [newAttributeInfo_unknown hname]
      show Reads (AttributeInfo.unparsed name (BitVec.ofNat 32 content.length)
        <$> readBytes (BitVec.ofNat 32 content.length).toNat) _ _
      rw [toNat_ofNat32 hlength]
      exact (reads_readBytes content).map _

/-- Name and length come before the content. -/
theorem reads_readAttributeWith {cp : ConstantPool} {nameIndex : BitVec 16}
    {name content : List Byte} {reader : Read (List AttributeInfo)}
    {attrInfo : AttributeInfo} (hname : NamedAt cp nameIndex name)
    (hcontent : Reads (readInfo reader (newAttributeInfo name
      (BitVec.ofNat 32 content.length))) content attrInfo) :
    Reads (readAttributeWith cp reader) (attributeBytes nameIndex content)
      attrInfo := by
  apply (reads_readUint16 nameIndex).bind
  rw [getUtf8_namedAt hname]
  have hlength := reads_readUint32 (BitVec.ofNat 32 content.length)
  exact (Reads.pure name).bind (hlength.bind hcontent)

theorem reads_readAttribute {cp : ConstantPool} {attrInfo : AttributeInfo}
    {bytes : List Byte} (hencodes : EncodesAttribute cp attrInfo bytes) :
    Reads (readAttribute cp) bytes attrInfo := by
  induction hencodes with
  | plain name layout length_lt =>
      rw [readAttribute_eq]
      exact reads_readAttributeWith name (reads_readInfo_plain layout length_lt)
  | code name code_length table_length inner_encodes inner_length layout
      length_lt ih =>
      rw [readAttribute_eq]
      apply reads_readAttributeWith name
      have hinner := reads_pairs ih inner_length
      rw [layout]
      exact reads_readCode code_length table_length hinner

/-! ## Members and class files -/

def EncodesMember (cp : ConstantPool) (member : MemberInfo)
    (bytes : List Byte) : Prop :=
  ∃ attributes,
    EncodesTable (EncodesAttribute cp) member.attributes attributes ∧
      bytes = bytes16 member.accessFlags ++ (bytes16 member.nameIndex ++
        (bytes16 member.descriptorIndex ++ attributes))

/-- Versions 45.x and 46.0 to 52.0 -/
def SupportedVersion (minorVersion majorVersion : BitVec 16) : Prop :=
  majorVersion = 45 ∨
    46 ≤ majorVersion.toNat ∧ majorVersion.toNat ≤ 52 ∧ minorVersion = 0

/-- `bytes` encode `cf` up to the attributes of the class. -/
def EncodesClassFile (cf : ClassFile) (bytes : List Byte) : Prop :=
  cf.magic = 0xcafebabe ∧ SupportedVersion cf.minorVersion cf.majorVersion ∧
    cf.interfaces.length < 2 ^ 16 ∧
    ∃ pool fields methods,
      EncodesPool cf.constantPool pool ∧
      EncodesTable (EncodesMember cf.constantPool) cf.fields fields ∧
      EncodesTable (EncodesMember cf.constantPool) cf.methods methods ∧
      bytes = bytes32 cf.magic ++ (bytes16 cf.minorVersion ++
        (bytes16 cf.majorVersion ++ (pool ++ (bytes16 cf.accessFlags ++
          (bytes16 cf.thisClass ++ (bytes16 cf.superClass ++
            (encodeTable bytes16 cf.interfaces ++ (fields ++ methods))))))))

theorem supportsVersion_of_supported {minorVersion majorVersion : BitVec 16}
    (hversion : SupportedVersion minorVersion majorVersion) :
    supportsVersion minorVersion majorVersion = true := by
  rcases hversion with rfl | ⟨hlow, hhigh, rfl⟩
  · rfl
  · have hmajor : majorVersion = BitVec.ofNat 16 majorVersion.toNat := by simp
    rw [hmajor]
    interval_cases majorVersion.toNat <;> rfl

theorem reads_readMember {cp : ConstantPool} {member : MemberInfo}
    {bytes : List Byte} (hencodes : EncodesMember cp member bytes) :
    Reads (readMember cp) bytes member := by
  obtain ⟨attributes, htable, rfl⟩ := hencodes
  have hattributes : Reads (readAttributes cp) attributes member.attributes :=
    reads_encodesTable (fun _ _ => reads_readAttribute) htable
  apply (reads_readUint16 member.accessFlags).bind
  apply (reads_readUint16 member.nameIndex).bind
  apply (reads_readUint16 member.descriptorIndex).bind
  exact hattributes.map _

theorem reads_readMembers {cp : ConstantPool} {members : List MemberInfo}
    {bytes : List Byte}
    (hencodes : EncodesTable (EncodesMember cp) members bytes) :
    Reads (readMembers cp) bytes members :=
  reads_encodesTable (fun _ _ => reads_readMember) hencodes

theorem reads_readAndCheckMagic :
    Reads readAndCheckMagic (bytes32 0xcafebabe) 0xcafebabe := by
  rw [← List.append_nil (bytes32 0xcafebabe)]
  apply (reads_readUint32 0xcafebabe).bind
  exact Reads.pure _

theorem reads_readAndCheckVersion {minorVersion majorVersion : BitVec 16}
    (hversion : SupportedVersion minorVersion majorVersion) :
    Reads readAndCheckVersion (bytes16 minorVersion ++ bytes16 majorVersion)
      (minorVersion, majorVersion) := by
  apply (reads_readUint16 minorVersion).bind
  rw [← List.append_nil (bytes16 majorVersion)]
  apply (reads_readUint16 majorVersion).bind
  rw [supportsVersion_of_supported hversion]
  exact Reads.pure _

theorem reads_read {cf : ClassFile} {bytes : List Byte}
    (hencodes : EncodesClassFile cf bytes) : Reads read bytes cf := by
  obtain ⟨hmagic, hversion, hinterfaces, pool, fields, methods, hpool, hfields,
    hmethods, rfl⟩ := hencodes
  have hmagic' : Reads readAndCheckMagic (bytes32 cf.magic) cf.magic := by
    rw [hmagic]
    exact reads_readAndCheckMagic
  apply hmagic'.bind
  rw [← List.append_assoc (bytes16 cf.minorVersion)]
  apply (reads_readAndCheckVersion hversion).bind
  apply (reads_readConstantPool hpool).bind
  apply (reads_readUint16 cf.accessFlags).bind
  apply (reads_readUint16 cf.thisClass).bind
  apply (reads_readUint16 cf.superClass).bind
  apply (reads_readUint16s hinterfaces).bind
  apply (reads_readMembers hfields).bind
  exact (reads_readMembers hmethods).map _

/-- `parse` gives back the class file from its encoding and anything after
it. -/
theorem parse_encodes {cf : ClassFile} {bytes : List Byte}
    (hencodes : EncodesClassFile cf bytes) (attributes : List Byte) :
    parse (bytes ++ attributes) = .ok cf := by
  have hread := append_of_reads (reads_read hencodes) attributes
  unfold parse
  rw [hread]
  rfl

/-! ## A class file -/

def staticMethod : ClassFile where
  magic := 0xcafebabe
  minorVersion := 0
  majorVersion := 52
  constantPool := [none, some (.utf8 nameCode),
    some (.utf8 nameLineNumberTable), some (.long 5), none,
    some (.utf8 nameMain), some (.classInfo 5)]
  accessFlags := 0x21
  thisClass := 6
  superClass := 6
  interfaces := [6]
  fields := []
  methods := [⟨0x09, 5, 5, [.code 1 1 [0xb1] [] [.lineNumberTable [⟨0, 7⟩]]]⟩]

def staticMethodPool : List Byte :=
  [0, 7, 1, 0, 4, 0x43, 0x6f, 0x64, 0x65, 1, 0, 15, 0x4c, 0x69, 0x6e, 0x65,
    0x4e, 0x75, 0x6d, 0x62, 0x65, 0x72, 0x54, 0x61, 0x62, 0x6c, 0x65, 5, 0, 0,
    0, 0, 0, 0, 0, 5, 1, 0, 4, 0x6d, 0x61, 0x69, 0x6e, 7, 0, 5]

/-- The line numbers, inside the code. -/
def staticMethodLines : List Byte :=
  [0, 2, 0, 0, 0, 6, 0, 1, 0, 0, 0, 7]

def staticMethodCode : List Byte :=
  [0, 1, 0, 0, 0, 25, 0, 1, 0, 1, 0, 0, 0, 1, 0xb1, 0, 0, 0, 1] ++
    staticMethodLines

def staticMethodBytes : List Byte :=
  [0xca, 0xfe, 0xba, 0xbe, 0, 0, 0, 52] ++ staticMethodPool ++
    [0, 0x21, 0, 6, 0, 6, 0, 1, 0, 6, 0, 0, 0, 1, 0, 9, 0, 5, 0, 5, 0, 1] ++
    staticMethodCode

theorem staticMethod_encodes :
    EncodesClassFile staticMethod staticMethodBytes := by
  have hcode : nameCode.length < 2 ^ 16 := by decide
  have hline : nameLineNumberTable.length < 2 ^ 16 := by decide
  have hmain : nameMain.length < 2 ^ 16 := by decide
  have hpool : EncodesPool staticMethod.constantPool staticMethodPool :=
    ⟨_, _, rfl, by decide,
      .single rfl hcode (.single rfl hline (.wide rfl trivial
        (.single rfl hmain (.single rfl trivial .nil)))), rfl⟩
  have hlines : EncodesAttribute staticMethod.constantPool
      (.lineNumberTable [⟨0, 7⟩])
      (attributeBytes 2 [0, 1, 0, 0, 0, 7]) :=
    .plain rfl ⟨by decide, rfl⟩ (by decide)
  have hattribute : EncodesAttribute staticMethod.constantPool
      (.code 1 1 [0xb1] [] [.lineNumberTable [⟨0, 7⟩]])
      (attributeBytes 1 (codeContent 1 1 [0xb1] []
        (count 1 ++ attributeBytes 2 [0, 1, 0, 0, 0, 7]))) := by
    apply @EncodesAttribute.code _ 1 1 1 [0xb1] _ []
      [(.lineNumberTable [⟨0, 7⟩], attributeBytes 2 [0, 1, 0, 0, 0, 7])]
    · rfl
    · decide
    · decide
    · intro p hp
      rw [List.mem_singleton.mp hp]
      exact hlines
    · decide
    · rfl
    · decide
  have hmethod : EncodesMember staticMethod.constantPool
      ⟨0x09, 5, 5, [.code 1 1 [0xb1] [] [.lineNumberTable [⟨0, 7⟩]]]⟩
      ([0, 9, 0, 5, 0, 5, 0, 1] ++ staticMethodCode) := by
    refine ⟨[0, 1] ++ staticMethodCode, ⟨[(_, staticMethodCode)], ?_,
      Nat.one_lt_two_pow (by decide), rfl, rfl⟩, rfl⟩
    intro p hp
    rw [List.mem_singleton.mp hp]
    exact hattribute
  refine ⟨rfl, Or.inr (by decide), by decide, staticMethodPool, [0, 0],
    [0, 1] ++ ([0, 9, 0, 5, 0, 5, 0, 1] ++ staticMethodCode), hpool,
    ⟨[], by simp, by decide, rfl, rfl⟩,
    ⟨[(_, [0, 9, 0, 5, 0, 5, 0, 1] ++ staticMethodCode)], ?_,
      Nat.one_lt_two_pow (by decide), rfl, rfl⟩, rfl⟩
  intro p hp
  rw [List.mem_singleton.mp hp]
  exact hmethod

theorem parse_encodes_staticMethod :
    parse (staticMethodBytes ++ [0, 0]) = .ok staticMethod :=
  parse_encodes staticMethod_encodes [0, 0]

end Classfile

end Jvm

end ClpszDemos
