import ClpszDemos.JvmClassFile

/-!
# How many bytes an attribute takes

`readAttribute` takes as many bytes as the layout of the attribute's kind has
at its position.  An attribute of unknown name is laid out by its declared
length; the layouts of the eight known kinds do not use it, so that a declared
length which differs from the size of the layout leaves the reader in the
middle of the attribute or behind it.
-/

namespace ClpszDemos

namespace Jvm

namespace Classfile

open BigEndian

/-! ## Sizes of layouts -/

/-- The `u2` at position `i`. -/
def word16At (data : List Byte) (i : ℕ) : BitVec 16 :=
  match data.drop i with
  | byte1 :: byte2 :: _ => join16 byte1 byte2
  | _ => 0

def word32At (data : List Byte) (i : ℕ) : BitVec 32 :=
  match data.drop i with
  | byte1 :: byte2 :: byte3 :: byte4 :: _ => join32 byte1 byte2 byte3 byte4
  | _ => 0

/-- The `attribute_length` of the attribute at the front of `data`. -/
def declaredLength (data : List Byte) : ℕ := (word32At data 2).toNat

/-- The kind of the attribute at the front of `data`, if its name is there. -/
def kindAt (cp : ConstantPool) (data : List Byte) : Option AttributeKind :=
  match cp.getUtf8 (word16At data 0) with
  | .ok attrName => some (newAttributeInfo attrName (word32At data 2))
  | .error _ => none

/-- `n` items one after another, each of the size it has at its position. -/
def itemsSize (size : List Byte → ℕ) : ℕ → List Byte → ℕ
  | 0, _ => 0
  | n + 1, data => size data + itemsSize size n (data.drop (size data))

def tableSize (size : List Byte → ℕ) (data : List Byte) : ℕ :=
  2 + itemsSize size (word16At data 0).toNat (data.drop 2)

/-- `max_stack`, `max_locals`, the code, the exception table and the attributes
inside. -/
def codeSize (attributes : List Byte → ℕ) (data : List Byte) : ℕ :=
  let start := 8 + (word32At data 4).toNat
  let table := tableSize (fun _ => 8) (data.drop start)
  start + table + attributes (data.drop (start + table))

/-- The size of the content that begins at the front of `data`. -/
def contentSize (attributes : List Byte → ℕ) (data : List Byte) :
    AttributeKind → ℕ
  | .code => codeSize attributes data
  | .constantValue => 2
  | .deprecated => 0
  | .exceptions => tableSize (fun _ => 2) data
  | .lineNumberTable => tableSize (fun _ => 4) data
  | .localVariableTable => tableSize (fun _ => 10) data
  | .sourceFile => 2
  | .synthetic => 0
  | .unparsed _ length => length.toNat

def layoutSizeWithin (cp : ConstantPool) : ℕ → List Byte → ℕ
  | 0, _ => 0
  | n + 1, data =>
      match kindAt cp data with
      | some kind =>
          contentSize (tableSize fun rest => 6 + layoutSizeWithin cp n rest)
            (data.drop 6) kind
      | none => 0

/-- The size that the layout of its kind gives the content of the attribute at
the front of `data`. -/
def layoutSize (cp : ConstantPool) (data : List Byte) : ℕ :=
  layoutSizeWithin cp data.length data

/-! ## Readers and sizes -/

section Takes

variable {α β : Type}

/-- On `data` the reader takes `n` bytes, if it returns normally. -/
def TakesAt (reader : Read α) (data : List Byte) (n : ℕ) : Prop :=
  ∀ a rest, reader data = .ok (a, rest) →
    n ≤ data.length ∧ rest = data.drop n

namespace TakesAt

variable {data : List Byte} {n k : ℕ}

theorem pure (a : α) : TakesAt (Pure.pure a : Read α) data 0 := by
  intro b rest hread
  cases hread
  exact ⟨Nat.zero_le _, rfl⟩

theorem bind {m : Read α} {f : α → Read β} (hm : TakesAt m data n)
    (hf : ∀ a, m data = .ok (a, data.drop n) →
      TakesAt (f a) (data.drop n) k) :
    TakesAt (m >>= f) data (n + k) := by
  intro b rest hread
  obtain ⟨a, middle, hfirst, hsecond⟩ := bind_eq_ok hread
  obtain ⟨hn, hmiddle⟩ := hm a middle hfirst
  rw [hmiddle] at hfirst hsecond
  obtain ⟨hk, hrest⟩ := hf a hfirst b rest hsecond
  rw [List.length_drop] at hk
  rw [List.drop_drop] at hrest
  exact ⟨by omega, hrest⟩

theorem map {m : Read α} (hm : TakesAt m data n) (f : α → β) :
    TakesAt (f <$> m) data n := by
  intro b rest hread
  obtain ⟨a, hfirst, _⟩ := map_eq_ok hread
  exact hm a rest hfirst

theorem liftM (result : Except GoPanic α) :
    TakesAt (liftM result : Read α) data 0 := by
  cases result with
  | ok a => exact pure a
  | error panic =>
      intro a rest hread
      cases hread

theorem many {item : Read α} {size : List Byte → ℕ}
    (hitem : ∀ rest, TakesAt item rest (size rest)) (count : ℕ) :
    TakesAt (readMany item count) data (itemsSize size count data) := by
  induction count generalizing data with
  | zero => exact pure []
  | succ count ih =>
      apply bind (hitem data)
      intro first _
      exact ih.map (first :: ·)

end TakesAt

theorem liftM_eq_ok {result : Except GoPanic α} {a : α} {data rest : List Byte}
    (hread : (liftM result : Read α) data = .ok (a, rest)) :
    result = .ok a := by
  cases result with
  | ok b =>
      cases hread
      rfl
  | error panic => cases hread

end Takes

theorem takesAt_readUint16 (data : List Byte) : TakesAt readUint16 data 2 := by
  intro a rest hread
  match data with
  | [] => cases hread
  | [_] => cases hread
  | _ :: _ :: _ =>
      cases hread
      exact ⟨by simp, rfl⟩

theorem takesAt_readUint32 (data : List Byte) : TakesAt readUint32 data 4 := by
  intro a rest hread
  match data with
  | [] => cases hread
  | [_] => cases hread
  | [_, _] => cases hread
  | [_, _, _] => cases hread
  | _ :: _ :: _ :: _ :: _ =>
      cases hread
      exact ⟨by simp, rfl⟩

theorem readUint16_eq_ok {data rest : List Byte} {value : BitVec 16}
    (hread : readUint16 data = .ok (value, rest)) :
    value = word16At data 0 := by
  match data with
  | [] => cases hread
  | [_] => cases hread
  | _ :: _ :: _ =>
      cases hread
      rfl

theorem readUint32_eq_ok {data rest : List Byte} {value : BitVec 32}
    (hread : readUint32 data = .ok (value, rest)) :
    value = word32At data 0 := by
  match data with
  | [] => cases hread
  | [_] => cases hread
  | [_, _] => cases hread
  | [_, _, _] => cases hread
  | _ :: _ :: _ :: _ :: _ =>
      cases hread
      rfl

theorem takesAt_readBytes (n : ℕ) (data : List Byte) :
    TakesAt (readBytes n) data n := by
  intro a rest hread
  unfold readBytes at hread
  by_cases hn : n ≤ data.length
  · rw [if_pos hn] at hread
    cases hread
    exact ⟨hn, rfl⟩
  · rw [if_neg hn] at hread
    cases hread

theorem takesAt_readTable {α : Type} {item : Read α} {size : List Byte → ℕ}
    (hitem : ∀ rest, TakesAt item rest (size rest)) (data : List Byte) :
    TakesAt (readTable item) data (tableSize size data) := by
  apply (takesAt_readUint16 data).bind
  intro n hn
  rw [readUint16_eq_ok hn]
  exact TakesAt.many hitem _

theorem takesAt_readExceptionTableEntry (data : List Byte) :
    TakesAt readExceptionTableEntry data 8 :=
  (takesAt_readUint16 data).bind fun _ _ =>
    (takesAt_readUint16 _).bind fun _ _ =>
      (takesAt_readUint16 _).bind fun _ _ =>
        (takesAt_readUint16 _).bind fun _ _ => TakesAt.pure _

theorem takesAt_readLineNumberTableEntry (data : List Byte) :
    TakesAt readLineNumberTableEntry data 4 :=
  (takesAt_readUint16 data).bind fun _ _ =>
    (takesAt_readUint16 _).bind fun _ _ => TakesAt.pure _

theorem takesAt_readLocalVariableTableEntry (data : List Byte) :
    TakesAt readLocalVariableTableEntry data 10 :=
  (takesAt_readUint16 data).bind fun _ _ =>
    (takesAt_readUint16 _).bind fun _ _ =>
      (takesAt_readUint16 _).bind fun _ _ =>
        (takesAt_readUint16 _).bind fun _ _ =>
          (takesAt_readUint16 _).bind fun _ _ => TakesAt.pure _

section Attributes

variable {attributes : Read (List AttributeInfo)} {size : List Byte → ℕ}

theorem word32At_drop (data : List Byte) (i j : ℕ) :
    word32At (data.drop i) j = word32At data (i + j) := by
  unfold word32At
  rw [List.drop_drop]

theorem takesAt_readCode
    (hattributes : ∀ rest, TakesAt attributes rest (size rest))
    (data : List Byte) :
    TakesAt (readCode attributes) data (codeSize size data) := by
  dsimp only [codeSize]
  generalize hcode : (word32At data 4).toNat = codeLength
  generalize htable : tableSize (fun _ => 8) (data.drop (8 + codeLength)) =
    tableLength
  have hcodeEnd : (((data.drop 2).drop 2).drop 4).drop codeLength =
      data.drop (8 + codeLength) := by
    simp only [List.drop_drop]
  have htableEnd : (data.drop (8 + codeLength)).drop tableLength =
      data.drop (8 + codeLength + tableLength) :=
    List.drop_drop
  have hread : TakesAt (readCode attributes) data
      (2 + (2 + (4 + (codeLength + (tableLength +
        (size (data.drop (8 + codeLength + tableLength)) + 0)))))) := by
    apply (takesAt_readUint16 data).bind
    intro maxStack _
    apply (takesAt_readUint16 _).bind
    intro maxLocals _
    apply (takesAt_readUint32 _).bind
    intro length hlength
    have hlength' : length.toNat = codeLength := by
      rw [readUint32_eq_ok hlength, List.drop_drop, word32At_drop, ← hcode]
    rw [hlength']
    apply (takesAt_readBytes _ _).bind
    intro code _
    rw [hcodeEnd]
    have hentries : TakesAt readExceptionTable (data.drop (8 + codeLength))
        tableLength := by
      rw [← htable]
      exact takesAt_readTable takesAt_readExceptionTableEntry _
    apply hentries.bind
    intro exceptionTable _
    rw [htableEnd]
    exact (hattributes _).bind fun _ _ => TakesAt.pure _
  have hsize : 2 + (2 + (4 + (codeLength + (tableLength +
      (size (data.drop (8 + codeLength + tableLength)) + 0))))) =
      8 + codeLength + tableLength +
        size (data.drop (8 + codeLength + tableLength)) := by
    omega
  rw [hsize] at hread
  exact hread

theorem takesAt_readInfo
    (hattributes : ∀ rest, TakesAt attributes rest (size rest))
    (kind : AttributeKind) (data : List Byte) :
    TakesAt (readInfo attributes kind) data (contentSize size data kind) := by
  cases kind with
  | code => exact takesAt_readCode hattributes data
  | constantValue => exact (takesAt_readUint16 data).map _
  | deprecated => exact TakesAt.pure _
  | exceptions => exact (takesAt_readTable takesAt_readUint16 data).map _
  | lineNumberTable =>
      exact (takesAt_readTable takesAt_readLineNumberTableEntry data).map _
  | localVariableTable =>
      exact (takesAt_readTable takesAt_readLocalVariableTableEntry data).map _
  | sourceFile => exact (takesAt_readUint16 data).map _
  | synthetic => exact TakesAt.pure _
  | unparsed name length => exact (takesAt_readBytes _ data).map _

end Attributes

/-! ## Attributes -/

/-- Two bytes of name, four of length, and the content. -/
theorem takesAt_readAttributeWith (cp : ConstantPool)
    {attributes : Read (List AttributeInfo)} {size : List Byte → ℕ}
    (hattributes : ∀ rest, TakesAt attributes rest (size rest))
    (data : List Byte) :
    TakesAt (readAttributeWith cp attributes) data
      (6 + match kindAt cp data with
        | some kind => contentSize size (data.drop 6) kind
        | none => 0) := by
  generalize hcontent : (match kindAt cp data with
    | some kind => contentSize size (data.drop 6) kind
    | none => 0) = contentLength
  have hfront : (data.drop 2).drop 4 = data.drop 6 := List.drop_drop
  have hread : TakesAt (readAttributeWith cp attributes) data
      (2 + (0 + (4 + contentLength))) := by
    apply (takesAt_readUint16 data).bind
    intro attrNameIndex hindex
    apply (TakesAt.liftM _).bind
    intro attrName hname
    have hutf8 : cp.getUtf8 (word16At data 0) = .ok attrName := by
      rw [← readUint16_eq_ok hindex]
      exact liftM_eq_ok hname
    apply (takesAt_readUint32 _).bind
    intro attrLen hlength
    have hlength' : attrLen = word32At data 2 := by
      rw [readUint32_eq_ok hlength, List.drop_zero, word32At_drop]
    have hkind : kindAt cp data = some (newAttributeInfo attrName attrLen) := by
      unfold kindAt
      rw [hutf8, hlength']
    rw [hkind] at hcontent
    rw [List.drop_zero, hfront, ← hcontent]
    exact takesAt_readInfo hattributes _ _
  have hsize : 2 + (0 + (4 + contentLength)) = 6 + contentLength := by omega
  rw [hsize] at hread
  exact hread

theorem takesAt_readAttributeWithin (cp : ConstantPool) (n : ℕ)
    (data : List Byte) :
    TakesAt (readAttributeWithin cp n) data (6 + layoutSizeWithin cp n data) := by
  induction n generalizing data with
  | zero =>
      intro a rest hread
      cases hread
  | succ n ih =>
      exact takesAt_readAttributeWith cp (takesAt_readTable ih) data

theorem takesAt_readAttribute (cp : ConstantPool) (data : List Byte) :
    TakesAt (readAttribute cp) data (6 + layoutSize cp data) :=
  takesAt_readAttributeWithin cp data.length data

/-- The bytes between two positions of the reader are `n`. -/
def Consumed (data rest : List Byte) (n : ℕ) : Prop :=
  ∃ taken, data = taken ++ rest ∧ taken.length = n

/-- `readAttribute` takes the six bytes of name and length and the declared
length if and only if that is the size of the layout. -/
theorem attribute_framing {cp : ConstantPool} {data rest : List Byte}
    {attrInfo : AttributeInfo}
    (hread : readAttribute cp data = .ok (attrInfo, rest)) :
    Consumed data rest (6 + declaredLength data) ↔
      declaredLength data = layoutSize cp data := by
  obtain ⟨hle, hrest⟩ := takesAt_readAttribute cp data attrInfo rest hread
  constructor
  · rintro ⟨taken, htaken, hlength⟩
    have hdata : data.length = taken.length + rest.length := by
      rw [htaken, List.length_append]
    have hdrop : rest.length = data.length - (6 + layoutSize cp data) := by
      rw [hrest, List.length_drop]
    omega
  · intro hlayout
    rw [hlayout]
    refine ⟨data.take (6 + layoutSize cp data), ?_, ?_⟩
    · rw [hrest, List.take_append_drop]
    · rw [List.length_take]
      omega

def deprecatedPool : ConstantPool := [none, some (.utf8 nameDeprecated)]

theorem attribute_framing_deprecated :
    Consumed [0, 1, 0, 0, 0, 0, 7] [7] (6 + declaredLength [0, 1, 0, 0, 0, 0, 7]) := by
  have hread : readAttribute deprecatedPool [0, 1, 0, 0, 0, 0, 7] =
      .ok (.deprecated, [7]) := rfl
  exact (attribute_framing hread).mpr rfl

/-- A `Deprecated` attribute that declares four bytes of content. -/
theorem not_attribute_framing :
    ¬ ∀ (cp : ConstantPool) (data rest : List Byte) (attrInfo : AttributeInfo),
      readAttribute cp data = .ok (attrInfo, rest) →
      Consumed data rest (6 + declaredLength data) := by
  intro hall
  have hread : readAttribute deprecatedPool [0, 1, 0, 0, 0, 4, 1, 2, 3, 4] =
      .ok (.deprecated, [1, 2, 3, 4]) := rfl
  obtain ⟨taken, hdata, hlength⟩ := hall _ _ _ _ hread
  have htotal := congrArg List.length hdata
  rw [List.length_append, hlength] at htotal
  exact absurd htotal (by decide)

end Classfile

end Jvm

end ClpszDemos
