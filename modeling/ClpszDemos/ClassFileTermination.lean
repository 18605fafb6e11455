import ClpszDemos.ConstantPoolLayout
import ClpszDemos.Procedures

/-!
# Class-file parsing ends

The functions and loops of the `classfile` package as procedures that call each
other without a bound, `readAttributes`, `readAttribute` and `readInfo` among
them.  Every call works on less data than the call it is made from, or on the
same data with fewer iterations to go, so every run ends, with the result of
`parse`.
-/

namespace ClpszDemos

namespace Jvm

namespace Classfile

open BigEndian Procedures

/-! ## Operations -/

/-- The reads of `ClassReader` -/
inductive ReaderOp : Type → Type
  | readUint8 : ReaderOp Byte
  | readUint16 : ReaderOp (BitVec 16)
  | readUint32 : ReaderOp (BitVec 32)
  | readUint64 : ReaderOp (BitVec 64)
  | readBytes (n : BitVec 32) : ReaderOp (List Byte)

namespace ReaderOp

def exec : {α : Type} → ReaderOp α → Read α
  | _, .readUint8 => Classfile.readUint8
  | _, .readUint16 => Classfile.readUint16
  | _, .readUint32 => Classfile.readUint32
  | _, .readUint64 => Classfile.readUint64
  | _, .readBytes n => Classfile.readBytes n.toNat

/-- The bytes that the read takes off the front. -/
def size : {α : Type} → ReaderOp α → ℕ
  | _, .readUint8 => 1
  | _, .readUint16 => 2
  | _, .readUint32 => 4
  | _, .readUint64 => 8
  | _, .readBytes n => n.toNat

/-- What a read returns it makes of bytes at the front, and these are gone. -/
theorem exec_eq_ok {α : Type} {op : ReaderOp α} {data rest : List Byte}
    {value : α} (hexec : op.exec data = .ok (value, rest)) :
    ∃ bytes, data = bytes ++ rest ∧ bytes.length = op.size ∧
      Reads op.exec bytes value := by
  cases op with
  | readUint8 =>
      obtain ⟨bytes, hsupplies, rfl⟩ := accepts_readUint8 data value rest hexec
      exact ⟨_, supplies_list.mp hsupplies, rfl, reads_readUint8 value⟩
  | readUint16 =>
      obtain ⟨bytes, hsupplies, rfl⟩ := accepts_readUint16 data value rest hexec
      exact ⟨_, supplies_list.mp hsupplies, rfl, reads_readUint16 value⟩
  | readUint32 =>
      obtain ⟨bytes, hsupplies, rfl⟩ := accepts_readUint32 data value rest hexec
      exact ⟨_, supplies_list.mp hsupplies, rfl, reads_readUint32 value⟩
  | readUint64 =>
      obtain ⟨bytes, hsupplies, rfl⟩ := accepts_readUint64 data value rest hexec
      exact ⟨_, supplies_list.mp hsupplies, rfl, reads_readUint64 value⟩
  | readBytes n =>
      obtain ⟨bytes, hsupplies, hlength, rfl⟩ :=
        accepts_readBytes n.toNat data value rest hexec
      refine ⟨_, supplies_list.mp hsupplies, hlength, ?_⟩
      have hreads := reads_readBytes bytes
      rw [hlength] at hreads
      exact hreads

theorem exec_suffix {α : Type} {op : ReaderOp α} {data rest : List Byte}
    {value : α} (hexec : op.exec data = .ok (value, rest)) :
    rest <:+ data ∧ rest.length + op.size = data.length := by
  obtain ⟨bytes, hdata, hlength, _⟩ := exec_eq_ok hexec
  refine ⟨⟨bytes, hdata.symm⟩, ?_⟩
  rw [hdata, List.length_append, hlength]
  omega

end ReaderOp

/-! ## Procedures -/

/-- `table item n` is a loop `for i := range items` with `n` iterations to go,
and `constantPoolLoop` is the loop of `readConstantPool` at index `i`. -/
inductive Procedure : Type → Type 1
  | read : Procedure ClassFile
  | readConstantPool : Procedure ConstantPool
  | constantPoolLoop (cpLength i : ℕ) (cp : ConstantPool) :
      Procedure ConstantPool
  | readConstantInfo : Procedure ConstantInfo
  | readConstantContent (tag : Byte) : Procedure ConstantInfo
  | readUint16 : Procedure (BitVec 16)
  | readMembers (cp : ConstantPool) : Procedure (List MemberInfo)
  | readMember (cp : ConstantPool) : Procedure MemberInfo
  | readAttributes (cp : ConstantPool) : Procedure (List AttributeInfo)
  | readAttribute (cp : ConstantPool) : Procedure AttributeInfo
  | readInfo (cp : ConstantPool) (kind : AttributeKind) :
      Procedure AttributeInfo
  | exceptionTableEntry : Procedure ExceptionTableEntry
  | lineNumberTableEntry : Procedure LineNumberTableEntry
  | localVariableTableEntry : Procedure LocalVariableTableEntry
  | table {α : Type} (item : Procedure α) (n : ℕ) : Procedure (List α)

abbrev ReaderScript (α : Type) : Type 1 := Script ReaderOp Procedure GoPanic α

/-- A count, and the loop over a slice of that length -/
def tableScript {α β : Type} (item : Procedure α)
    (next : List α → ReaderScript β) : ReaderScript β :=
  .op .readUint16 fun n => .call (.table item n.toNat) next

def indexPairScript (make : BitVec 16 → BitVec 16 → ConstantInfo) :
    ReaderScript ConstantInfo :=
  .op .readUint16 fun index1 => .op .readUint16 fun index2 =>
    .ret (make index1 index2)

/-- `readInfo` of the entry that `newConstantInfo` has made. -/
def constantContentScript (tag : Byte) : ReaderScript ConstantInfo :=
  if tag = 3#8 then .op .readUint32 fun val => .ret (.integer val)
  else if tag = 4#8 then .op .readUint32 fun val => .ret (.float val)
  else if tag = 5#8 then .op .readUint64 fun val => .ret (.long val)
  else if tag = 6#8 then .op .readUint64 fun val => .ret (.double val)
  else if tag = 1#8 then
    .op .readUint16 fun length =>
      .op (.readBytes (length.setWidth 32)) fun bytes => .ret (.utf8 bytes)
  else if tag = 12#8 then indexPairScript .nameAndType
  else if tag = 8#8 then
    .op .readUint16 fun stringIndex => .ret (.string stringIndex)
  else if tag = 7#8 then .op .readUint16 fun nameIndex => .ret (.classInfo nameIndex)
  else if tag = 9#8 then indexPairScript .fieldref
  else if tag = 10#8 then indexPairScript .methodref
  else if tag = 11#8 then indexPairScript .interfaceMethodref
  else .fail (.message "java.lang.ClassFormatError: constant pool tag!")

def poolLoopScript (cpLength i : ℕ) (cp : ConstantPool) :
    ReaderScript ConstantPool :=
  if i < cpLength then
    .call .readConstantInfo fun c =>
      if c.isWide then
        .call (.constantPoolLoop cpLength (i + 2) (cp.set i (some c))) .ret
      else
        .call (.constantPoolLoop cpLength (i + 1) (cp.set i (some c))) .ret
  else .ret cp

def infoScript (cp : ConstantPool) : AttributeKind → ReaderScript AttributeInfo
  | .code =>
      .op .readUint16 fun maxStack =>
        .op .readUint16 fun maxLocals =>
          .op .readUint32 fun codeLength =>
            .op (.readBytes codeLength) fun code =>
              tableScript .exceptionTableEntry fun exceptionTable =>
                .call (.readAttributes cp) fun attributes =>
                  .ret (.code maxStack maxLocals code exceptionTable attributes)
  | .constantValue => .op .readUint16 fun index => .ret (.constantValue index)
  | .deprecated => .ret .deprecated
  | .exceptions => tableScript .readUint16 fun table => .ret (.exceptions table)
  | .lineNumberTable =>
      tableScript .lineNumberTableEntry fun table =>
        .ret (.lineNumberTable table)
  | .localVariableTable =>
      tableScript .localVariableTableEntry fun table =>
        .ret (.localVariableTable table)
  | .sourceFile => .op .readUint16 fun index => .ret (.sourceFile index)
  | .synthetic => .ret .synthetic
  | .unparsed name length =>
      .op (.readBytes length) fun info => .ret (.unparsed name length info)

def readScript : ReaderScript ClassFile :=
  .op .readUint32 fun magic =>
    if magic ≠ 0xcafebabe then
      .fail (.message "java.lang.ClassFormatError: magic!")
    else
      .op .readUint16 fun minorVersion =>
        .op .readUint16 fun majorVersion =>
          if supportsVersion minorVersion majorVersion then
            .call .readConstantPool fun constantPool =>
              .op .readUint16 fun accessFlags =>
                .op .readUint16 fun thisClass =>
                  .op .readUint16 fun superClass =>
                    tableScript .readUint16 fun interfaces =>
                      .call (.readMembers constantPool) fun fields =>
                        .call (.readMembers constantPool) fun methods =>
                          .ret {
                            magic := magic
                            minorVersion := minorVersion
                            majorVersion := majorVersion
                            constantPool := constantPool
                            accessFlags := accessFlags
                            thisClass := thisClass
                            superClass := superClass
                            interfaces := interfaces
                            fields := fields
                            methods := methods }
          else .fail (.message "java.lang.UnsupportedClassVersionError!")

namespace Procedure

def body : {α : Type} → Procedure α → ReaderScript α
  | _, .read => readScript
  | _, .readConstantPool =>
      .op .readUint16 fun cpLength =>
        .call (.constantPoolLoop cpLength.toNat 1
          (List.replicate cpLength.toNat none)) .ret
  | _, .constantPoolLoop cpLength i cp => poolLoopScript cpLength i cp
  | _, .readConstantInfo =>
      .op .readUint8 fun tag => .call (.readConstantContent tag) .ret
  | _, .readConstantContent tag => constantContentScript tag
  | _, .readUint16 => .op .readUint16 .ret
  | _, .readMembers cp => tableScript (.readMember cp) .ret
  | _, .readMember cp =>
      .op .readUint16 fun accessFlags =>
        .op .readUint16 fun nameIndex =>
          .op .readUint16 fun descriptorIndex =>
            .call (.readAttributes cp) fun attributes =>
              .ret ⟨accessFlags, nameIndex, descriptorIndex, attributes⟩
  | _, .readAttributes cp => tableScript (.readAttribute cp) .ret
  | _, .readAttribute cp =>
      .op .readUint16 fun attrNameIndex =>
        match cp.getUtf8 attrNameIndex with
        | .error panic => .fail panic
        | .ok attrName =>
            .op .readUint32 fun attrLen =>
              .call (.readInfo cp (newAttributeInfo attrName attrLen)) .ret
  | _, .readInfo cp kind => infoScript cp kind
  | _, .exceptionTableEntry =>
      .op .readUint16 fun startPc => .op .readUint16 fun endPc =>
        .op .readUint16 fun handlerPc => .op .readUint16 fun catchType =>
          .ret ⟨startPc, endPc, handlerPc, catchType⟩
  | _, .lineNumberTableEntry =>
      .op .readUint16 fun startPc => .op .readUint16 fun lineNumber =>
        .ret ⟨startPc, lineNumber⟩
  | _, .localVariableTableEntry =>
      .op .readUint16 fun startPc => .op .readUint16 fun length =>
        .op .readUint16 fun nameIndex => .op .readUint16 fun descriptorIndex =>
          .op .readUint16 fun index =>
            .ret ⟨startPc, length, nameIndex, descriptorIndex, index⟩
  | _, .table _ 0 => .ret []
  | _, .table item (n + 1) =>
      .call item fun first =>
        .call (.table item n) fun others => .ret (first :: others)

/-- Iterations still to go, in the loops that the procedure is in. -/
def toGo : {α : Type} → Procedure α → ℕ
  | _, .constantPoolLoop cpLength i _ => cpLength - i
  | _, .table item n => item.toGo + n
  | _, _ => 0

end Procedure

/-- The `classfile` package -/
def classfile : Program ReaderOp Procedure (List Byte) GoPanic where
  exec := ReaderOp.exec
  body := Procedure.body

/-! ## The functions that the procedures compute -/

namespace Procedure

def run : {α : Type} → Procedure α → Read α
  | _, .read => Classfile.read
  | _, .readConstantPool => Classfile.readConstantPool
  | _, .constantPoolLoop cpLength i cp =>
      Classfile.constantPoolLoop cpLength i cp
  | _, .readConstantInfo => Classfile.readConstantInfo
  | _, .readConstantContent tag => Classfile.readConstantContent tag
  | _, .readUint16 => Classfile.readUint16
  | _, .readMembers cp => Classfile.readMembers cp
  | _, .readMember cp => Classfile.readMember cp
  | _, .readAttributes cp => Classfile.readAttributes cp
  | _, .readAttribute cp => Classfile.readAttribute cp
  | _, .readInfo cp kind => Classfile.readInfo (Classfile.readAttributes cp) kind
  | _, .exceptionTableEntry => readExceptionTableEntry
  | _, .lineNumberTableEntry => readLineNumberTableEntry
  | _, .localVariableTableEntry => readLocalVariableTableEntry
  | _, .table item n => readMany item.run n

end Procedure

theorem denote_tableScript {α β : Type} (item : Procedure α)
    (next : List α → ReaderScript β) :
    classfile.denote Procedure.run (tableScript item next) =
      readTable item.run >>= fun items =>
        classfile.denote Procedure.run (next items) := by
  unfold readTable
  rw [bind_assoc]
  rfl

theorem denote_readScript :
    Classfile.read = classfile.denote Procedure.run readScript := by
  unfold Classfile.read readAndCheckMagic readAndCheckVersion readScript
  rw [bind_assoc]
  apply bind_congr
  intro magic
  dsimp only
  by_cases hmagic : magic ≠ 0xcafebabe
  · rw [if_pos hmagic, if_pos hmagic]
    rfl
  · rw [if_neg hmagic, if_neg hmagic, pure_bind, bind_assoc]
    apply bind_congr
    intro minorVersion
    rw [bind_assoc]
    apply bind_congr
    intro majorVersion
    dsimp only
    cases hversion : supportsVersion minorVersion majorVersion with
    | false => rfl
    | true =>
        rw [if_pos rfl, if_pos rfl, pure_bind]
        apply bind_congr
        intro constantPool
        apply bind_congr
        intro accessFlags
        apply bind_congr
        intro thisClass
        apply bind_congr
        intro superClass
        rw [denote_tableScript]
        rfl

theorem denote_utf8Script :
    readUtf8 = classfile.denote Procedure.run (constantContentScript 1#8) := by
  apply bind_congr
  intro length
  have hlength : (length.setWidth 32).toNat = length.toNat := by
    rw [BitVec.toNat_setWidth]
    omega
  show _ = (Classfile.readBytes (length.setWidth 32).toNat >>= fun bytes =>
    pure (ConstantInfo.utf8 bytes))
  rw [hlength]

theorem denote_contentScript (tag : Byte) :
    Classfile.readConstantContent tag =
      classfile.denote Procedure.run (constantContentScript tag) := by
  unfold Classfile.readConstantContent
  split
  · rfl
  · rfl
  · rfl
  · rfl
  · exact denote_utf8Script
  · rfl
  · rfl
  · rfl
  · rfl
  · rfl
  · rfl
  · rename_i h3 h4 h5 h6 h1 h12 h8 h7 h9 h10 h11
    unfold constantContentScript
    rw [if_neg h3, if_neg h4, if_neg h5, if_neg h6, if_neg h1, if_neg h12,
      if_neg h8, if_neg h7, if_neg h9, if_neg h10, if_neg h11]
    rfl

theorem denote_poolLoop (cpLength i : ℕ) (cp : ConstantPool) :
    Classfile.constantPoolLoop cpLength i cp =
      classfile.denote Procedure.run (poolLoopScript cpLength i cp) := by
  unfold Classfile.constantPoolLoop poolLoopScript
  by_cases hi : i < cpLength
  · rw [if_pos hi, if_pos hi]
    apply bind_congr
    intro c
    dsimp only
    cases hwide : c.isWide with
    | false => exact (bind_pure _).symm
    | true => exact (bind_pure _).symm
  · rw [if_neg hi, if_neg hi]
    rfl

theorem denote_readAttribute (cp : ConstantPool) :
    Classfile.readAttribute cp =
      classfile.denote Procedure.run (.readAttribute cp : Procedure _).body := by
  rw [readAttribute_eq]
  apply bind_congr
  intro attrNameIndex
  dsimp only
  cases hname : cp.getUtf8 attrNameIndex with
  | error panic => rfl
  | ok attrName =>
      have hlift : (liftM (Except.ok attrName : Except GoPanic (List Byte)) :
          Read (List Byte)) = pure attrName := rfl
      rw [hlift, pure_bind]
      apply bind_congr
      intro attrLen
      exact (bind_pure _).symm

theorem denote_infoScript (cp : ConstantPool) (kind : AttributeKind) :
    Classfile.readInfo (Classfile.readAttributes cp) kind =
      classfile.denote Procedure.run (infoScript cp kind) := by
  cases kind with
  | code =>
      apply bind_congr
      intro maxStack
      apply bind_congr
      intro maxLocals
      apply bind_congr
      intro codeLength
      apply bind_congr
      intro code
      rw [denote_tableScript]
      rfl
  | exceptions =>
      unfold infoScript
      rw [denote_tableScript]
      rfl
  | lineNumberTable =>
      unfold infoScript
      rw [denote_tableScript]
      rfl
  | localVariableTable =>
      unfold infoScript
      rw [denote_tableScript]
      rfl
  | _ => rfl

/-- The functions satisfy the equations of the procedures. -/
theorem run_eq {α : Type} (proc : Procedure α) :
    proc.run = classfile.denote Procedure.run (classfile.body proc) := by
  cases proc with
  | read => exact denote_readScript
  | readConstantPool =>
      show readConstantPool = _
      rw [← readConstantPoolArray_eq]
      apply bind_congr
      intro cpLength
      exact (bind_pure _).symm
  | constantPoolLoop cpLength i cp => exact denote_poolLoop cpLength i cp
  | readConstantInfo =>
      apply bind_congr
      intro tag
      exact (bind_pure _).symm
  | readConstantContent tag => exact denote_contentScript tag
  | readUint16 => exact (bind_pure _).symm
  | readMembers cp =>
      exact ((denote_tableScript _ _).trans (bind_pure _)).symm
  | readMember cp => rfl
  | readAttributes cp =>
      exact ((denote_tableScript _ _).trans (bind_pure _)).symm
  | readAttribute cp => exact denote_readAttribute cp
  | readInfo cp kind => exact denote_infoScript cp kind
  | exceptionTableEntry => rfl
  | lineNumberTableEntry => rfl
  | localVariableTableEntry => rfl
  | table item n =>
      cases n with
      | zero => rfl
      | succ n => rfl

/-! ## Progress -/

theorem classfile_preserves : classfile.Preserves (· <:+ ·) where
  refl := List.suffix_refl
  trans := List.IsSuffix.trans
  exec := fun _ _ _ _ hexec => (ReaderOp.exec_suffix hexec).1

/-- Less data, or iterations that are over. -/
def Progress (c d : Call Procedure (List Byte)) : Prop :=
  d.state <:+ c.state ∧
    (d.state.length < c.state.length ∨ d.proc.toGo < c.proc.toGo)

/-- All calls behind a first read of some bytes have less data. -/
theorem shorter_of_op {α β : Type} {op : ReaderOp β}
    {next : β → ReaderScript α} {data : List Byte}
    {d : Call Procedure (List Byte)} (hsize : 0 < op.size)
    (hdoes : classfile.Does (.op op next) data (.call d)) :
    d.state.length < data.length := by
  rcases hdoes with hop | ⟨value, rest, hexec, hrest⟩
  · cases hop
  · have hsuffix : d.state <:+ rest := hrest.preserves classfile_preserves
    have hlength := (ReaderOp.exec_suffix hexec).2
    have hle := hsuffix.length_le
    omega

/-- A text that reads some bytes before all else, or fails -/
inductive ReadsFirst {α : Type} : ReaderScript α → Prop
  | op {β : Type} {op : ReaderOp β} {next : β → ReaderScript α}
      (hsize : 0 < op.size) : ReadsFirst (.op op next)
  | fail (panic : GoPanic) : ReadsFirst (.fail panic)

theorem ReadsFirst.shorter {α : Type} {script : ReaderScript α}
    {data : List Byte} {d : Call Procedure (List Byte)}
    (hreads : ReadsFirst script)
    (hdoes : classfile.Does script data (.call d)) :
    d.state.length < data.length := by
  cases hreads with
  | op hsize => exact shorter_of_op hsize hdoes
  | fail panic => exact hdoes.elim

theorem ReadsFirst.ite {α : Type} {p : Prop} [Decidable p]
    {script other : ReaderScript α} (hscript : ReadsFirst script)
    (hother : ReadsFirst other) : ReadsFirst (if p then script else other) := by
  by_cases hp : p
  · rw [if_pos hp]
    exact hscript
  · rw [if_neg hp]
    exact hother

theorem readsFirst_content (tag : Byte) :
    ReadsFirst (constantContentScript tag) := by
  unfold constantContentScript
  apply ReadsFirst.ite (.op (by decide))
  apply ReadsFirst.ite (.op (by decide))
  apply ReadsFirst.ite (.op (by decide))
  apply ReadsFirst.ite (.op (by decide))
  apply ReadsFirst.ite (.op (by decide))
  apply ReadsFirst.ite (.op (by decide))
  apply ReadsFirst.ite (.op (by decide))
  apply ReadsFirst.ite (.op (by decide))
  apply ReadsFirst.ite (.op (by decide))
  apply ReadsFirst.ite (.op (by decide))
  apply ReadsFirst.ite (.op (by decide))
  exact .fail _

theorem shorter_of_info {cp : ConstantPool} {kind : AttributeKind}
    {data : List Byte} {d : Call Procedure (List Byte)}
    (hdoes : classfile.Does (infoScript cp kind) data (.call d)) :
    d.state.length < data.length := by
  cases kind with
  | code => exact shorter_of_op (by decide) hdoes
  | constantValue => exact shorter_of_op (by decide) hdoes
  | deprecated => exact hdoes.elim
  | exceptions => exact shorter_of_op (by decide) hdoes
  | lineNumberTable => exact shorter_of_op (by decide) hdoes
  | localVariableTable => exact shorter_of_op (by decide) hdoes
  | sourceFile => exact shorter_of_op (by decide) hdoes
  | synthetic => exact hdoes.elim
  | unparsed name length =>
      rcases hdoes with hop | ⟨info, rest, hexec, hrest⟩
      · cases hop
      · exact hrest.elim

theorem toGo_of_poolLoop {cpLength i : ℕ} {cp : ConstantPool}
    {data : List Byte} {d : Call Procedure (List Byte)}
    (hcall : classfile.Calls ⟨.constantPoolLoop cpLength i cp, data⟩ d) :
    d.proc.toGo < cpLength - i := by
  have hdoes : classfile.Does (poolLoopScript cpLength i cp) data (.call d) :=
    hcall
  unfold poolLoopScript at hdoes
  by_cases hi : i < cpLength
  · rw [if_pos hi] at hdoes
    rcases hdoes with hinfo | ⟨n, c, rest, hrun, hrest⟩
    · cases hinfo
      show 0 < cpLength - i
      omega
    · dsimp only at hrest
      split at hrest
      · rcases hrest with hnext | ⟨_, _, _, _, hret⟩
        · cases hnext
          show cpLength - (i + 2) < cpLength - i
          omega
        · exact hret.elim
      · rcases hrest with hnext | ⟨_, _, _, _, hret⟩
        · cases hnext
          show cpLength - (i + 1) < cpLength - i
          omega
        · exact hret.elim
  · rw [if_neg hi] at hdoes
    exact hdoes.elim

theorem toGo_of_table {α : Type} {item : Procedure α} {n : ℕ}
    {data : List Byte} {d : Call Procedure (List Byte)}
    (hcall : classfile.Calls ⟨.table item n, data⟩ d) :
    d.proc.toGo < item.toGo + n := by
  cases n with
  | zero => exact hcall.elim
  | succ n =>
      rcases hcall with hitem | ⟨_, _, _, _, hloop | ⟨_, _, _, _, hret⟩⟩
      · cases hitem
        show item.toGo < item.toGo + (n + 1)
        omega
      · cases hloop
        show item.toGo + n < item.toGo + (n + 1)
        omega
      · exact hret.elim

theorem progress_of_calls {c d : Call Procedure (List Byte)}
    (hcall : classfile.Calls c d) : Progress c d := by
  refine ⟨Program.Does.preserves classfile_preserves hcall, ?_⟩
  obtain ⟨proc, data⟩ := c
  cases proc with
  | read => exact Or.inl (shorter_of_op (by decide) hcall)
  | readConstantPool => exact Or.inl (shorter_of_op (by decide) hcall)
  | constantPoolLoop cpLength i cp => exact Or.inr (toGo_of_poolLoop hcall)
  | readConstantInfo => exact Or.inl (shorter_of_op (by decide) hcall)
  | readConstantContent tag => exact Or.inl ((readsFirst_content tag).shorter hcall)
  | readUint16 => exact Or.inl (shorter_of_op (by decide) hcall)
  | readMembers cp => exact Or.inl (shorter_of_op (by decide) hcall)
  | readMember cp => exact Or.inl (shorter_of_op (by decide) hcall)
  | readAttributes cp => exact Or.inl (shorter_of_op (by decide) hcall)
  | readAttribute cp => exact Or.inl (shorter_of_op (by decide) hcall)
  | readInfo cp kind => exact Or.inl (shorter_of_info hcall)
  | exceptionTableEntry => exact Or.inl (shorter_of_op (by decide) hcall)
  | lineNumberTableEntry => exact Or.inl (shorter_of_op (by decide) hcall)
  | localVariableTableEntry => exact Or.inl (shorter_of_op (by decide) hcall)
  | table item n => exact Or.inr (toGo_of_table hcall)

/-- Bytes left first, then iterations to go. -/
theorem wellFounded_calls :
    WellFounded fun d c : Call Procedure (List Byte) => classfile.Calls c d := by
  have hlex : WellFounded (Prod.Lex (· < · : ℕ → ℕ → Prop) (· < · : ℕ → ℕ → Prop)) :=
    WellFounded.prod_lex wellFounded_lt wellFounded_lt
  have hmeasure := InvImage.wf
    (fun c : Call Procedure (List Byte) => (c.state.length, c.proc.toGo)) hlex
  apply Subrelation.wf _ hmeasure
  intro d c hcall
  obtain ⟨hsuffix, hprogress⟩ := progress_of_calls hcall
  apply Prod.lex_iff.mpr
  rcases Nat.lt_or_eq_of_le hsuffix.length_le with hlt | heq
  · exact Or.inl hlt
  · exact Or.inr ⟨heq, hprogress.resolve_left (by omega)⟩

/-! ## Every input -/

theorem read_ends (classData : List Byte) :
    ∃ n, classfile.Runs readScript classData n (read classData) := by
  obtain ⟨n, result, hrun⟩ :=
    Program.ends_of_wellFounded wellFounded_calls ⟨.read, classData⟩
  have hresult := hrun.denote_eq classfile Procedure.run run_eq
  refine ⟨n, ?_⟩
  have hread : read classData = result := by
    rw [← hresult]
    exact congrFun denote_readScript classData
  rw [hread]
  exact hrun

/-- `Parse` ends on every input.  All calls on the way work on a suffix of it
and make progress, and what a read returns it makes of bytes of that suffix. -/
theorem parse_terminates (classData : List Byte) :
    (∃ n result, classfile.Runs readScript classData n result ∧
      parse classData = result.map Prod.fst) ∧
    ∀ c, classfile.Reaches ⟨.read, classData⟩ c →
      c.state <:+ classData ∧
      (∀ d, classfile.Calls c d → Progress c d) ∧
      ∀ {α : Type} (op : ReaderOp α) (data : List Byte),
        classfile.Performs c op data →
        data <:+ classData ∧
        ∀ value rest, op.exec data = .ok (value, rest) →
          ∃ bytes, data = bytes ++ rest ∧ Reads op.exec bytes value := by
  constructor
  · obtain ⟨n, hrun⟩ := read_ends classData
    refine ⟨n, _, hrun, ?_⟩
    unfold parse
    cases hread : read classData with
    | ok result => rfl
    | error panic => rfl
  · intro c hreaches
    have hstate : c.state <:+ classData :=
      hreaches.preserves classfile_preserves
    refine ⟨hstate, fun d hcall => progress_of_calls hcall, ?_⟩
    intro α op data hperforms
    have hdata : data <:+ c.state :=
      Program.Does.preserves classfile_preserves hperforms
    refine ⟨hdata.trans hstate, ?_⟩
    intro value rest hexec
    obtain ⟨bytes, hbytes, _, hreads⟩ := ReaderOp.exec_eq_ok hexec
    exact ⟨bytes, hbytes, hreads⟩

end Classfile

end Jvm

end ClpszDemos
