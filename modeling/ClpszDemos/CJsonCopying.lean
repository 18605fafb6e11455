import ClpszDemos.CJsonDouble
import ClpszDemos.CJsonEditing

/-!
# Creating items and duplicating them

An allocation that fails makes a copy fail, and what was already copied is
deleted.  The addresses of a copy are the next ones, in the order in which its
blocks are allocated.
-/

namespace ClpszDemos

namespace CJsonTree

open CJson

variable {δ : Type} {unit : DoubleUnit δ} {alloc : ℕ → Bool} {k k' : Counts}
  {C : Multiset (ℕ × Cell δ)} {T : Multiset (ℕ × CString)} {fuel : ℕ}
  {label owner : Label δ} {child next chain : Chain δ} {prev : Ptr}

/-! ## What is created and copied -/

theorem own_typeArray : isReference typeArray = false := rfl

/-- A new item of a type -/
def Label.new (unit : DoubleUnit δ) (addr : ℕ) (type : BitVec 32)
    (own : isReference type = false) : Label δ where
  addr := addr
  type := type
  valuestring := none
  valueint := 0
  valuedouble := unit.ofInt 0
  string := none
  own := own

/-- An item that is created with its own address, if there is memory -/
def createdItem (alloc : ℕ → Bool) (k : Counts) (label : ℕ → Label δ) : Chain δ :=
  if alloc k.allocations then .item (label k.cells) .null .null else .null

/-- A string without its text, if there was no memory for it -/
def stringLabel (unit : DoubleUnit δ) (text : Option (ℕ × CString)) (addr : ℕ) :
    Label δ :=
  { Label.new unit addr typeString rfl with valuestring := text }

def createdString (unit : DoubleUnit δ) (alloc : ℕ → Bool) (k : Counts)
    (string : CString) : Chain δ × Counts :=
  if alloc k.allocations then
    (.item (stringLabel unit (copyText alloc k.addCell string) k.cells) .null
      .null, k.addCell.addText)
  else (.null, k.addCell)

/-- The copy of a text, if there is one -/
def copyName (alloc : ℕ → Bool) (k : Counts) :
    Option (ℕ × CString) → Option (Option (ℕ × CString)) × Counts
  | none => (some none, k)
  | some (_, str) => ((copyText alloc k str).map some, k.addText)

def copyLabel (alloc : ℕ → Bool) (k : Counts) (label : Label δ) :
    Option (Label δ) × Counts :=
  if alloc k.allocations then
    match copyName alloc k.addCell label.valuestring with
    | (none, k') => (none, k')
    | (some valuestring, k') =>
        match copyName alloc k' label.string with
        | (none, k') => (none, k')
        | (some string, k') =>
            (some { label with
              addr := k.cells, valuestring := valuestring, string := string },
              k')
  else (none, k.addCell)

def copyRow (alloc : ℕ → Bool) (k : Counts) :
    Chain δ → Option (Chain δ) × Counts
  | .null => (some .null, k)
  | .item label child next =>
      match copyLabel alloc k label with
      | (none, k') => (none, k')
      | (some label', k') =>
          match copyRow alloc k' child with
          | (none, k') => (none, k')
          | (some child', k') =>
              match copyRow alloc k' next with
              | (none, k') => (none, k')
              | (some next', k') => (some (.item label' child' next'), k')

/-- An item with what is below it, or nothing -/
def Label.hang (label : Label δ) : Option (Chain δ) → Chain δ
  | none => .null
  | some child => .item label child .null

def copyItem (alloc : ℕ → Bool) (k : Counts) (label : Label δ)
    (child : Chain δ) : Chain δ × Counts :=
  match copyLabel alloc k label with
  | (none, k') => (.null, k')
  | (some label', k') =>
      (label'.hang (copyRow alloc k' child).1, (copyRow alloc k' child).2)

/-- An item without anything below it, or nothing -/
def soleItem (label : Option (Label δ)) : Chain δ :=
  label.elim .null (Label.hang · (some .null))

/-! ## Creating -/

theorem create_does {change : Cell δ → Cell δ} {label : ℕ → Label δ}
    (haddr : (label k.cells).addr = k.cells)
    (hcell : change (zeroCell unit) = (label k.cells).cell none none none)
    (htexts : (label k.cells).texts = 0) :
    Does (create unit alloc change) ⟨k, C, T⟩
      ((createdItem alloc k label).head none)
      ⟨k.addCell, (createdItem alloc k label).cells none none + C,
        (createdItem alloc k label).texts + T⟩ := by
  unfold create newItem createdItem
  cases halloc : alloc k.allocations with
  | false =>
      refine (Does.mallocCell_fails halloc _).bind ?_
      refine (Does.pure none).congr ?_ ?_
      · simp [Chain.cells]
      · simp [Chain.texts]
  | true =>
      refine (Does.mallocCell halloc _).bind ?_
      refine (Does.write change rfl).bind ?_
      rw [if_pos rfl, Chain.head_item, haddr]
      refine (Does.pure (some k.cells)).congr ?_ ?_
      · simp [Chain.cells, haddr, hcell]
      · simp [Chain.texts, htexts]

theorem createString_does (string : CString) :
    Does (createString unit alloc string) ⟨k, C, T⟩
      ((createdString unit alloc k string).1.head none)
      ⟨(createdString unit alloc k string).2,
        (createdString unit alloc k string).1.cells none none + C,
        (createdString unit alloc k string).1.texts + T⟩ := by
  set item := createdItem alloc k (Label.new unit · typeString rfl) with hitem
  have hcreate : Does (create unit alloc fun item =>
      { item with type := typeString }) ⟨k, C, T⟩ (item.head none)
      ⟨k.addCell, item.cells none none + C, item.texts + T⟩ :=
    create_does rfl rfl rfl
  unfold createString
  refine hcreate.bind ?_
  rw [hitem]
  unfold createdItem createdString
  by_cases halloc : alloc k.allocations
  · rw [if_pos halloc, if_pos halloc]
    have hitem : (Chain.item (Label.new unit k.cells typeString rfl) .null
        .null).cells none none + C =
        {(k.cells, (Label.new unit k.cells typeString rfl).cell none none
          none)} + C := by
      simp [Chain.cells, Label.new]
    refine (Does.strdup string).bind ?_
    refine (Does.write (fun cell => { cell with
      valuestring := (copyText alloc k.addCell string).map Prod.fst })
      hitem).bind ?_
    refine (Does.pure (some k.cells)).congr ?_ ?_
    · simp [Chain.cells, stringLabel, Label.new, Label.cell]
    · simp [Chain.texts, stringLabel, Label.new, Label.texts]
  · rw [if_neg halloc, if_neg halloc]
    exact Does.pure _

/-! ## Duplicating one item -/

theorem Label.type_clear (label : Label δ) :
    label.type &&& ~~~isReferenceBit = label.type := by
  have hown := label.own
  unfold isReference at hown
  have hzero : label.type &&& isReferenceBit = 0 := by simpa using hown
  apply BitVec.eq_of_getLsbD_eq
  intro i hi
  have hbit := congrArg (fun b : BitVec 32 => b.getLsbD i) hzero
  simp only [BitVec.getLsbD_and, BitVec.getLsbD_not] at hbit ⊢
  cases htype : label.type.getLsbD i <;> simp_all

theorem duplicateText_does {text : Option (ℕ × CString)}
    {copy : Option (Option (ℕ × CString))} (htext : (text.toList : Multiset _) ≤ T)
    (hcopy : copyName alloc k text = (copy, k')) :
    Does (duplicateText alloc (text.map Prod.fst)) ⟨k, C, T⟩
      (copy.map (Option.map Prod.fst)) ⟨k', C, copy.join.toList + T⟩ := by
  cases text with
  | none =>
      cases hcopy
      exact (Does.pure _).congr rfl (zero_add T).symm
  | some text =>
      have hmem : text ∈ T := Multiset.mem_of_le htext (by simp)
      cases hcopy
      refine (Does.readText hmem).bind ((Does.strdup text.2).bind ?_)
      cases copyText alloc k text.2 with
      | none => exact Does.pure _
      | some copied => exact Does.pure _

/-- A copy that is not finished is deleted. -/
theorem delete_copy {C' : Multiset (ℕ × Cell δ)} {T' : Multiset (ℕ × CString)}
    (copy : Label δ) (hfuel : 1 ≤ fuel)
    (hC : C' = {(copy.addr, copy.cell none none none)} + C)
    (hT : T' = copy.texts + T) :
    Does (do delete fuel (some copy.addr); return none) ⟨k, C', T'⟩
      (none : Ptr) ⟨k, C, T⟩ := by
  have hsize : (Chain.item copy .null .null).size ≤ fuel := hfuel
  have hcells : C' = (Chain.item copy .null .null).cells none none + C := by
    simp [Chain.cells, hC]
  have htexts : T' = (Chain.item copy .null .null).texts + T := by
    simp [Chain.texts, hT]
  exact (delete_does hsize hcells htexts).bind (Does.pure none)

theorem duplicateItem_does {copy : Option (Label δ)} {next prev first : Ptr}
    (hmem : (label.addr, label.cell next prev first) ∈ C)
    (htexts : label.texts ≤ T) (hfuel : 1 ≤ fuel)
    (hcopy : copyLabel alloc k label = (copy, k')) :
    Does (duplicateItem unit alloc fuel (some label.addr)) ⟨k, C, T⟩
      ((soleItem copy).head none)
      ⟨k', (soleItem copy).cells none none + C, (soleItem copy).texts + T⟩ := by
  unfold copyLabel at hcopy
  unfold duplicateItem newItem
  cases halloc : alloc k.allocations with
  | false =>
      rw [halloc] at hcopy
      cases hcopy
      refine (Does.mallocCell_fails halloc _).bind ?_
      refine (Does.pure none).congr ?_ ?_
      · simp [soleItem, Chain.cells]
      · simp [soleItem, Chain.texts]
  | true =>
      rw [halloc, if_pos rfl] at hcopy
      have hvaluestring : (label.valuestring.toList : Multiset _) ≤ T :=
        (Multiset.le_add_right _ _).trans htexts
      -- the copy as it is before its texts are there
      set bare : Label δ := { label with
        addr := k.cells, valuestring := none, string := none } with hbare
      refine (Does.mallocCell halloc _).bind ?_
      refine (Does.readCell (Multiset.mem_add.mpr (.inr hmem))).bind ?_
      have hbareCell : { zeroCell unit with
            type := label.type &&& ~~~isReferenceBit
            valueint := label.valueint
            valuedouble := label.valuedouble } = bare.cell none none none := by
        rw [label.type_clear]
        rfl
      have hwrite := Does.write (k := k.addCell) (C := {(k.cells, zeroCell unit)} + C)
        (T := T) (fun cell => { cell with
          type := label.type &&& ~~~isReferenceBit
          valueint := label.valueint
          valuedouble := label.valuedouble }) rfl
      rw [hbareCell] at hwrite
      refine hwrite.bind ?_
      cases hfirst : copyName alloc k.addCell label.valuestring with
      | mk valuestring k₁ =>
          rw [hfirst] at hcopy
          refine (duplicateText_does hvaluestring hfirst).bind ?_
          cases valuestring with
          | none =>
              cases hcopy
              refine (delete_copy (T := T) bare hfuel rfl ?_).congr ?_ ?_
              · simp [Label.texts, hbare]
              · simp [soleItem, Chain.cells]
              · simp [soleItem, Chain.texts]
          | some valuestring =>
              set named : Label δ := { bare with valuestring := valuestring }
                with hnamed
              have hstring : (label.string.toList : Multiset _) ≤
                  (valuestring.toList : Multiset _) + T :=
                (Multiset.le_add_left _ _).trans
                  (htexts.trans (Multiset.le_add_left _ _))
              refine (Does.write _ rfl).bind ?_
              cases hsecond : copyName alloc k₁ label.string with
              | mk string k₂ =>
                  dsimp only at hcopy
                  rw [hsecond] at hcopy
                  refine (duplicateText_does hstring hsecond).bind ?_
                  cases string with
                  | none =>
                      cases hcopy
                      refine (delete_copy (T := T) named hfuel rfl ?_).congr ?_ ?_
                      · simp [Label.texts, hnamed, hbare]
                      · simp [soleItem, Chain.cells]
                      · simp [soleItem, Chain.texts]
                  | some string =>
                      cases hcopy
                      refine (Does.write _ rfl).bind ?_
                      refine (Does.pure _).congr ?_ ?_
                      · simp [soleItem, Label.hang, Chain.cells, Label.cell,
                          hbare]
                      · simp only [soleItem, Label.hang, Chain.texts,
                          Label.texts, Option.elim, Option.join_some]
                        abel

/-! ## Duplicating a tree -/

theorem copyRow_some {copy : Chain δ}
    (hcopy : copyRow alloc k (.item label child next) = (some copy, k')) :
    ∃ label' child' next' k₁ k₂, copyLabel alloc k label = (some label', k₁) ∧
      copyRow alloc k₁ child = (some child', k₂) ∧
      copyRow alloc k₂ next = (some next', k') ∧
      copy = .item label' child' next' := by
  rcases hlabel : copyLabel alloc k label with ⟨_ | label', k₁⟩
  · simp [copyRow, hlabel] at hcopy
  rcases hchild : copyRow alloc k₁ child with ⟨_ | child', k₂⟩
  · simp [copyRow, hlabel, hchild] at hcopy
  rcases hnext : copyRow alloc k₂ next with ⟨_ | next', k₃⟩
  · simp [copyRow, hlabel, hchild, hnext] at hcopy
  simp only [copyRow, hlabel, hchild, hnext, Prod.mk.injEq,
    Option.some.injEq] at hcopy
  obtain ⟨rfl, rfl⟩ := hcopy
  exact ⟨label', child', next', k₁, k₂, rfl, hchild, hnext, rfl⟩

theorem copyRow_size {copy : Chain δ}
    (hcopy : copyRow alloc k chain = (some copy, k')) :
    copy.size = chain.size := by
  induction chain generalizing k k' copy with
  | null =>
      cases hcopy
      rfl
  | item label child next ihChild ihNext =>
      obtain ⟨label', child', next', k₁, k₂, -, hchild, hnext, rfl⟩ :=
        copyRow_some hcopy
      rw [Chain.size, Chain.size, ihChild hchild, ihNext hnext]

/-- What the code does to duplicate any one item with so many rounds -/
def Duplicates (unit : DoubleUnit δ) (alloc : ℕ → Bool) (fuel : ℕ) : Prop :=
  ∀ (label : Label δ) (child : Chain δ) (next prev : Ptr) (k : Counts)
    (C : Multiset (ℕ × Cell δ)) (T : Multiset (ℕ × CString)),
    label.holding next prev child ≤ C → label.texts + child.texts ≤ T →
      1 + child.size ≤ fuel →
      Does (duplicate unit alloc fuel (some label.addr) true) ⟨k, C, T⟩
        ((copyItem alloc k label child).1.head none)
        ⟨(copyItem alloc k label child).2,
          (copyItem alloc k label child).1.cells none none + C,
          (copyItem alloc k label child).1.texts + T⟩

/-- The copy that is not finished is deleted with what is below it. -/
theorem delete_owner {done : Chain δ} (hfuel : done.size ≤ fuel) :
    Does (do delete (fuel + 1) (some owner.addr); return none)
      ⟨k, owner.alone done + C, owner.texts + done.texts + T⟩
      (none : Ptr) ⟨k, C, T⟩ := by
  have hsize : (Chain.item owner done .null).size ≤ fuel + 1 := by
    simp only [Chain.size]
    omega
  have hcells : owner.alone done + C =
      (Chain.item owner done .null).cells none none + C := by
    simp [Chain.cells, Label.alone_eq]
  have htexts : owner.texts + done.texts + T =
      (Chain.item owner done .null).texts + T := by
    simp [Chain.texts]
  exact (delete_does hsize hcells htexts).bind (Does.pure none)

/-- A copy becomes the last one below the new item. -/
theorem linkChild_does {done below : Chain δ} {item : Label δ} :
    Does (linkChild (some owner.addr) (done.last none) (some item.addr))
      ⟨k, owner.alone done + (item.alone below + C), T⟩ ()
      ⟨k, owner.alone (done.append (.item item below .null)) + C, T⟩ := by
  cases done with
  | null => exact setChild_does rfl
  | item label child next =>
      have hne : Chain.item label child next ≠ .null := by simp
      obtain ⟨addr, -, -, hlast, -⟩ := Chain.exists_last hne none
      have hsuffix : Does (suffixObject ((Chain.item label child next).last none)
            (some item.addr))
          ⟨k, owner.alone (.item label child next) + (item.alone below + C), T⟩ ()
          ⟨k, owner.alone ((Chain.item label child next).append
            (.item item below .null)) + C, T⟩ := suffixObject_does hne rfl
      rw [hlast none] at hsuffix ⊢
      exact hsuffix

theorem duplicateLoop_does (owner : Label δ) (hdup : Duplicates unit alloc fuel)
    {row done : Chain δ} {rounds : ℕ} (hrounds : row.length ≤ rounds)
    (hsize : done.size + row.size ≤ fuel) (hcells : row.cells prev none ≤ C)
    (htexts : row.texts ≤ T) :
    Does (duplicateLoop (fun cptr => duplicate unit alloc fuel cptr true)
        (delete (fuel + 1) (some owner.addr)) (some owner.addr) rounds
        (done.last none) (row.head none))
      ⟨k, owner.alone done + C, owner.texts + done.texts + T⟩
      ((owner.hang ((copyRow alloc k row).1.map done.append)).head none)
      ⟨(copyRow alloc k row).2,
        (owner.hang ((copyRow alloc k row).1.map done.append)).cells none none +
          C,
        (owner.hang ((copyRow alloc k row).1.map done.append)).texts + T⟩ := by
  induction row generalizing done rounds prev k with
  | null =>
      have hend : Does (Pure.pure (some owner.addr) : Code δ Ptr)
          ⟨k, owner.alone done + C, owner.texts + done.texts + T⟩
          (some owner.addr)
          ⟨k, (owner.hang (some (done.append .null))).cells none none + C,
            (owner.hang (some (done.append .null))).texts + T⟩ := by
        refine (Does.pure _).congr ?_ ?_
        · simp [Label.hang, Chain.cells, Label.alone_eq]
        · simp [Label.hang, Chain.texts]
      cases rounds <;> exact hend
  | item label child next _ ih =>
      cases rounds with
      | zero =>
          unfold Chain.length at hrounds
          omega
      | succ rounds =>
          have hdone : done.size ≤ fuel := by omega
          have hitem : 1 + child.size ≤ fuel := by
            simp only [Chain.size] at hsize
            omega
          have hholding : label.holding (next.head none) prev child ≤
              owner.alone done + C :=
            ((Multiset.le_add_right _ _).trans hcells).trans
              (Multiset.le_add_left _ _)
          have hnames : label.texts + child.texts ≤
              owner.texts + done.texts + T :=
            ((Multiset.le_add_right _ _).trans htexts).trans
              (Multiset.le_add_left _ _)
          have hcopy := hdup label child (next.head none) prev k _ _ hholding
            hnames hitem
          rw [Chain.head_item, duplicateLoop]
          rcases hlabel : copyLabel alloc k label with ⟨_ | label', k₁⟩
          · have hrow : copyRow alloc k (.item label child next) =
                (none, k₁) := by simp [copyRow, hlabel]
            simp only [copyItem, hlabel, Chain.cells, Chain.texts, zero_add,
              Chain.head_null] at hcopy
            rw [hrow]
            refine hcopy.bind ((delete_owner hdone).congr ?_ ?_)
            · simp [Label.hang, Chain.cells]
            · simp [Label.hang, Chain.texts]
          rcases hchild : copyRow alloc k₁ child with ⟨_ | child', k₂⟩
          · have hrow : copyRow alloc k (.item label child next) =
                (none, k₂) := by simp [copyRow, hlabel, hchild]
            simp only [copyItem, hlabel, hchild, Label.hang, Chain.cells,
              Chain.texts, zero_add, Chain.head_null] at hcopy
            rw [hrow]
            refine hcopy.bind ((delete_owner hdone).congr ?_ ?_)
            · simp [Label.hang, Chain.cells]
            · simp [Label.hang, Chain.texts]
          -- the child is copied and linked, and the loop goes on behind it
          set copy := Chain.item label' child' .null with hcopied
          simp only [copyItem, hlabel, hchild, Label.hang, ← hcopied] at hcopy
          have hlinked : copy.cells none none + (owner.alone done + C) =
              owner.alone done + (label'.alone child' + C) := by
            simp only [hcopied, Chain.cells, Chain.head_null, Label.alone_eq,
              add_zero]
            abel
          have hcopyTexts : copy.texts + (owner.texts + done.texts + T) =
              owner.texts + (done.append copy).texts + T := by
            rw [Chain.texts_append]
            abel
          have hcopySize : copy.size = 1 + child.size := by
            simp only [hcopied, Chain.size, copyRow_size hchild, add_zero]
          have hsize' : (done.append copy).size + next.size ≤ fuel := by
            rw [Chain.size_append, hcopySize]
            simp only [Chain.size] at hsize
            omega
          have hrow : copyRow alloc k (.item label child next) =
              ((copyRow alloc k₂ next).1.map (Chain.item label' child'),
                (copyRow alloc k₂ next).2) := by
            simp only [copyRow, hlabel, hchild]
            rcases copyRow alloc k₂ next with ⟨_ | next', k₃⟩ <;> rfl
          have happend : done.append ∘ Chain.item label' child' =
              (done.append copy).append := by
            funext next'
            rw [Chain.append_assoc]
            rfl
          have hlast : (done.append copy).last none = some label'.addr := by
            rw [Chain.last_append]
            rfl
          have hread : (label.addr, label.cell (next.head none) prev
              (child.head none)) ∈ owner.alone (done.append copy) + C :=
            Multiset.mem_add.mpr (.inr
              (Multiset.mem_of_le hcells Chain.mem_cells))
          have hnext := ih (k := k₂) (Nat.le_of_succ_le_succ hrounds) hsize'
            (Chain.next_le_cells.trans hcells)
            ((Multiset.le_add_left _ _).trans htexts)
          rw [hlinked, hcopyTexts] at hcopy
          rw [hlast] at hnext
          rw [hrow, Option.map_map, happend]
          refine hcopy.bind (linkChild_does.bind ?_)
          exact (Does.readCell hread).bind hnext

theorem duplicate_does (fuel : ℕ) : Duplicates unit alloc fuel := by
  induction fuel with
  | zero =>
      intro label child next prev k C T hcells htexts hfuel
      omega
  | succ fuel ih =>
      intro label child next prev k C T hcells htexts hfuel
      have hmem : (label.addr, label.cell next prev (child.head none)) ∈ C :=
        Multiset.mem_of_le hcells Owns.head_mem
      have hbelow : child.cells none none ≤ C :=
        (Multiset.le_add_left _ _).trans hcells
      have hown : label.texts ≤ T := (Multiset.le_add_right _ _).trans htexts
      have hnames : child.texts ≤ T := (Multiset.le_add_left _ _).trans htexts
      have hsize : (Chain.null : Chain δ).size + child.size ≤ fuel := by
        simp only [Chain.size]
        omega
      rw [duplicate]
      unfold copyItem
      rcases hlabel : copyLabel alloc k label with ⟨_ | label', k₁⟩
      · exact (duplicateItem_does hmem hown (by omega) hlabel).bind
          ((Does.pure none).congr rfl rfl)
      · refine (duplicateItem_does hmem hown (by omega) hlabel).bind ?_
        have hcells₁ : (soleItem (some label')).cells none none + C =
            label'.alone .null + C := by
          simp [soleItem, Label.hang, Chain.cells, Label.alone_eq]
        have htexts₁ : (soleItem (some label')).texts + T =
            label'.texts + (Chain.null : Chain δ).texts + T := by
          simp [soleItem, Label.hang, Chain.texts]
        rw [hcells₁, htexts₁]
        refine (Does.readCell (Multiset.mem_add.mpr (.inr hmem))).bind ?_
        have hrounds : child.length ≤ fuel + 1 :=
          Chain.length_le_size.trans (by omega)
        have hloop := duplicateLoop_does (k := k₁) label' ih hrounds hsize
          hbelow hnames
        have hid : (Chain.null : Chain δ).append = id := rfl
        rw [hid, Option.map_id, id] at hloop
        exact hloop

/-- Without its children -/
theorem duplicate_alone {next prev : Ptr} (hcells : label.holding next prev child ≤ C)
    (htexts : label.texts ≤ T) :
    Does (duplicate unit alloc (fuel + 1) (some label.addr) false) ⟨k, C, T⟩
      ((soleItem (copyLabel alloc k label).1).head none)
      ⟨(copyLabel alloc k label).2,
        (soleItem (copyLabel alloc k label).1).cells none none + C,
        (soleItem (copyLabel alloc k label).1).texts + T⟩ := by
  have hmem : (label.addr, label.cell next prev (child.head none)) ∈ C :=
    Multiset.mem_of_le hcells Owns.head_mem
  rcases hcopy : copyLabel alloc k label with ⟨copy, k'⟩
  rw [duplicate]
  refine (duplicateItem_does hmem htexts (Nat.le_add_left 1 fuel) hcopy).bind ?_
  cases copy <;> exact Does.pure _

/-! ## What a copy is -/

theorem copyName_some {text copy : Option (ℕ × CString)}
    (hcopy : copyName alloc k text = (some copy, k')) :
    copy.map Prod.snd = text.map Prod.snd := by
  cases text with
  | none =>
      cases hcopy
      rfl
  | some text =>
      unfold copyName copyText at hcopy
      cases halloc : alloc k.allocations with
      | true =>
          simp only [halloc, if_true, Option.map_some, Prod.mk.injEq,
            Option.some.injEq] at hcopy
          rw [← hcopy.1]
          rfl
      | false => simp [halloc] at hcopy

theorem copyLabel_fields {copy : Label δ}
    (hcopy : copyLabel alloc k label = (some copy, k')) :
    copy.fields = label.fields := by
  unfold copyLabel at hcopy
  cases halloc : alloc k.allocations with
  | false => simp [halloc] at hcopy
  | true =>
      rcases hfirst : copyName alloc k.addCell label.valuestring with
        ⟨_ | valuestring, k₁⟩
      · simp [halloc, hfirst] at hcopy
      rcases hsecond : copyName alloc k₁ label.string with ⟨_ | string, k₂⟩
      · simp [halloc, hfirst, hsecond] at hcopy
      simp only [halloc, if_true, hfirst, hsecond, Prod.mk.injEq,
        Option.some.injEq] at hcopy
      rw [← hcopy.1]
      simp only [Label.fields, copyName_some hfirst, copyName_some hsecond]

theorem copyRow_items {copy : Chain δ}
    (hcopy : copyRow alloc k chain = (some copy, k')) :
    copy.items = chain.items := by
  induction chain generalizing k k' copy with
  | null =>
      cases hcopy
      rfl
  | item label child next ihChild ihNext =>
      obtain ⟨label', child', next', k₁, k₂, hlabel, hchild, hnext, rfl⟩ :=
        copyRow_some hcopy
      rw [Chain.items, Chain.items, copyLabel_fields hlabel, ihChild hchild,
        ihNext hnext]

theorem copyLabel_isSome (halloc : ∀ n, alloc n = true) :
    (copyLabel alloc k label).1.isSome := by
  have htext : ∀ (k : Counts) (text : Option (ℕ × CString)),
      (copyName alloc k text).1.isSome := by
    intro k text
    cases text with
    | none => rfl
    | some text => simp [copyName, copyText, halloc]
  unfold copyLabel
  rw [if_pos (halloc _)]
  have hfirst := htext k.addCell label.valuestring
  rcases hname : copyName alloc k.addCell label.valuestring with
    ⟨_ | valuestring, k₁⟩
  · rw [hname] at hfirst
    cases hfirst
  have hsecond := htext k₁ label.string
  rcases hname' : copyName alloc k₁ label.string with ⟨_ | string, k₂⟩
  · rw [hname'] at hsecond
    cases hsecond
  · simp [hname']

theorem copyRow_isSome (halloc : ∀ n, alloc n = true) :
    (copyRow alloc k chain).1.isSome := by
  induction chain generalizing k with
  | null => rfl
  | item label child next ihChild ihNext =>
      unfold copyRow
      have hlabel : (copyLabel alloc k label).1.isSome := copyLabel_isSome halloc
      rcases hcopy : copyLabel alloc k label with ⟨_ | label', k₁⟩
      · rw [hcopy] at hlabel
        cases hlabel
      have hchild := ihChild (k := k₁)
      rcases hbelow : copyRow alloc k₁ child with ⟨_ | child', k₂⟩
      · rw [hbelow] at hchild
        cases hchild
      have hnext := ihNext (k := k₂)
      rcases hbehind : copyRow alloc k₂ next with ⟨_ | next', k₃⟩
      · rw [hbehind] at hnext
        cases hnext
      · simp [hbelow, hbehind]

/-- What is duplicated stays.  The copy has the same items in blocks of its own;
or an allocation failed, there is none, and no block is left of it. -/
theorem duplicate_copies {next prev : Ptr}
    (hcells : label.holding next prev child ≤ C)
    (htexts : label.texts + child.texts ≤ T) (hfuel : 1 + child.size ≤ fuel) :
    ∃ (copy : Chain δ) (k' : Counts),
      Does (duplicate unit alloc fuel (some label.addr) true)
        ⟨k, C, T⟩ (copy.head none)
        ⟨k', copy.cells none none + C, copy.texts + T⟩ ∧
      (copy = .null ∨ copy.items = (Chain.item label child .null).items) ∧
      ((∀ n, alloc n = true) → copy ≠ .null) := by
  refine ⟨(copyItem alloc k label child).1, (copyItem alloc k label child).2,
    duplicate_does fuel label child next prev k C T hcells htexts hfuel, ?_, ?_⟩
  · unfold copyItem
    rcases hlabel : copyLabel alloc k label with ⟨_ | label', k₁⟩
    · exact Or.inl rfl
    rcases hchild : copyRow alloc k₁ child with ⟨_ | child', k₂⟩
    · exact Or.inl (by simp [hchild, Label.hang])
    · right
      simp [hchild, Label.hang, Chain.items, copyLabel_fields hlabel,
        copyRow_items hchild]
  · intro halloc
    unfold copyItem
    have hlabel : (copyLabel alloc k label).1.isSome := copyLabel_isSome halloc
    rcases hcopy : copyLabel alloc k label with ⟨_ | label', k₁⟩
    · rw [hcopy] at hlabel
      cases hlabel
    have hchild : (copyRow alloc k₁ child).1.isSome := copyRow_isSome halloc
    rcases hbelow : copyRow alloc k₁ child with ⟨_ | child', k₂⟩
    · rw [hbelow] at hchild
      cases hchild
    · simp [hbelow, Label.hang]

/-- `["a"]` -/
def sampleRow : Chain ℚ :=
  .item (stringLabel rationals (some (0, literal "a")) 1) .null .null

def sampleOwner : Label ℚ := .new rationals 0 typeArray own_typeArray

theorem duplicate_copies_sample :
    ∃ (copy : Chain ℚ) (k' : Counts),
      Does (duplicate rationals (· != 5) 2 (some 0) true)
        ⟨⟨2, 1⟩, sampleOwner.alone sampleRow, sampleRow.texts⟩ (copy.head none)
        ⟨k', copy.cells none none + sampleOwner.alone sampleRow,
          copy.texts + sampleRow.texts⟩ ∧
      (copy = .null ∨
        copy.items = (Chain.item sampleOwner sampleRow .null).items) ∧
      ((∀ n, (n != 5) = true) → copy ≠ .null) := by
  have htexts : sampleOwner.texts + sampleRow.texts ≤ sampleRow.texts := by
    have hnone : sampleOwner.texts = 0 := rfl
    rw [hnone, zero_add]
  have hcells : sampleOwner.holding none none sampleRow ≤
      sampleOwner.alone sampleRow := le_rfl
  exact duplicate_copies hcells htexts (by decide)

end CJsonTree

end ClpszDemos
