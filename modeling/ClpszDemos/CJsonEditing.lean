import ClpszDemos.CJsonChains

/-!
# What the functions on trees do

One statement for each function, about the chain that it is given, the cell that
holds the chain, and the rest of the blocks, which stay.  There are as many
rounds as the chain has items.
-/

namespace ClpszDemos

namespace CJsonTree

variable {δ : Type} {k : Counts} {C R : Multiset (ℕ × Cell δ)}
  {T U : Multiset (ℕ × CString)} {chain child next : Chain δ} {label : Label δ}
  {prev tail : Ptr} {fuel : ℕ}

namespace Does

theorem onlyIf {condition : Bool} {code : Code δ Unit} {before after : Blocks δ}
    (htrue : condition = true → Does code before () after)
    (hfalse : condition = false → before = after) :
    Does (onlyIf condition code) before () after := by
  cases condition with
  | true => exact htrue rfl
  | false =>
      rw [← hfalse rfl]
      exact pure ()

end Does

theorem Chain.mem_cells : (label.addr,
    label.cell (next.head tail) prev (child.head none)) ∈
      (Chain.item label child next).cells prev tail := by
  simp [Chain.cells]

theorem Chain.next_le_cells : next.cells (some label.addr) tail ≤
    (Chain.item label child next).cells prev tail :=
  Multiset.le_add_left _ _

/-! ## Deleting -/

/-- All blocks of the chain are freed, and no others. -/
theorem delete_does (hfuel : chain.size ≤ fuel)
    (hC : C = chain.cells prev none + R) (hT : T = chain.texts + U) :
    Does (delete fuel (chain.head none)) ⟨k, C, T⟩ () ⟨k, R, U⟩ := by
  induction chain generalizing fuel prev C T R U with
  | null =>
      have hcells : C = R := hC.trans (zero_add R)
      have htexts : T = U := hT.trans (zero_add U)
      subst hcells htexts
      cases fuel <;> exact Does.pure ()
  | item label child next ihChild ihNext =>
      cases fuel with
      | zero =>
          unfold Chain.size at hfuel
          omega
      | succ fuel =>
          have hfuels : child.size ≤ fuel ∧ next.size ≤ fuel := by
            unfold Chain.size at hfuel
            omega
          have hmem : (label.addr, label.cell (next.head none) prev
              (child.head none)) ∈ C := by
            rw [hC]
            exact Multiset.mem_add.mpr (.inl Chain.mem_cells)
          have howned : (!isReference label.type) = true := by
            rw [label.own]
            rfl
          have hcells : C = child.cells none none +
              ({(label.addr, label.cell (next.head none) prev
                (child.head none))} +
                (next.cells (some label.addr) none + R)) := by
            rw [hC, Chain.cells]
            abel
          have htexts : T = child.texts +
              (label.texts + (next.texts + U)) := by
            rw [hT, Chain.texts]
            abel
          have hchild := ihChild hfuels.1 hcells htexts
          rw [Chain.head_item, delete]
          refine (Does.readCell hmem).bind ((Does.readCell hmem).bind ?_)
          refine Does.bind (Does.onlyIf (fun _ => hchild) ?_) ?_
          · intro hreference
            rw [Label.cell, howned] at hreference
            cases hreference
          refine (Does.readCell Owns.head_mem).bind ?_
          refine Does.bind (Does.onlyIf (fun _ => Does.freeText label.valuestring
            (by rw [Label.texts, add_assoc])) ?_) ?_
          · intro hreference
            rw [Label.cell, howned] at hreference
            cases hreference
          refine (Does.readCell Owns.head_mem).bind ?_
          refine (Does.freeText label.string rfl).bind ?_
          refine (Does.freeCell rfl).bind ?_
          exact ihNext hfuels.2 rfl rfl

/-! ## Reading -/

theorem counted_toInt {n : ℕ} (hn : n < 2 ^ 31) :
    (0 + BitVec.ofNat 32 n).toInt = n := by
  have hnat : (BitVec.ofNat 32 n).toNat = n := by
    rw [BitVec.toNat_ofNat, Nat.mod_eq_of_lt (by omega)]
  rw [BitVec.ofNat_eq_ofNat, BitVec.zero_add,
    BitVec.toInt_eq_toNat_of_lt (by omega), hnat]

theorem countLoop_does (hfuel : chain.length ≤ fuel)
    (hcells : chain.cells prev none ≤ C) (i : BitVec 32) :
    Does (countLoop fuel (chain.head none) i) ⟨k, C, T⟩
      (i + BitVec.ofNat 32 chain.length) ⟨k, C, T⟩ := by
  induction chain generalizing fuel prev i with
  | null =>
      rw [Chain.length, BitVec.add_zero]
      cases fuel <;> exact Does.pure i
  | item label child next _ ih =>
      cases fuel with
      | zero =>
          unfold Chain.length at hfuel
          omega
      | succ fuel =>
          have hnext := ih (Nat.le_of_succ_le_succ hfuel)
            (Chain.next_le_cells.trans hcells) (i + 1)
          have hsum : i + 1 + BitVec.ofNat 32 next.length =
              i + BitVec.ofNat 32 (Chain.item label child next).length := by
            rw [Chain.length, Nat.add_comm, BitVec.ofNat_add, ← BitVec.add_assoc]
            rfl
          rw [hsum] at hnext
          rw [Chain.head_item, countLoop]
          exact (Does.readCell (Multiset.mem_of_le hcells Chain.mem_cells)).bind
            hnext

theorem walkLoop_does (hfuel : chain.length ≤ fuel)
    (hcells : chain.cells prev none ≤ C) (which : ℤ) :
    Does (walkLoop fuel (chain.head none) which) ⟨k, C, T⟩
      ((chain.drop which.toNat).head none) ⟨k, C, T⟩ := by
  induction chain generalizing fuel prev which with
  | null =>
      have hdrop : (Chain.null : Chain δ).drop which.toNat = .null := by
        cases which.toNat <;> rfl
      rw [hdrop]
      cases fuel <;> exact Does.pure none
  | item label child next _ ih =>
      cases fuel with
      | zero =>
          unfold Chain.length at hfuel
          omega
      | succ fuel =>
          rw [Chain.head_item, walkLoop]
          by_cases hpos : which > 0
          · have hwhich : which.toNat = (which - 1).toNat + 1 := by omega
            rw [if_pos hpos, hwhich, Chain.drop]
            exact (Does.readCell
              (Multiset.mem_of_le hcells Chain.mem_cells)).bind
              (ih (Nat.le_of_succ_le_succ hfuel)
                (Chain.next_le_cells.trans hcells) (which - 1))
          · have hwhich : which.toNat = 0 := by omega
            rw [if_neg hpos, hwhich]
            exact Does.pure _

theorem lastLoop_does (hfuel : chain.length ≤ fuel)
    (hcells : chain.cells prev none ≤ C) :
    Does (lastLoop fuel (chain.head none)) ⟨k, C, T⟩ (chain.last none)
      ⟨k, C, T⟩ := by
  induction chain generalizing fuel prev with
  | null => cases fuel <;> exact Does.pure none
  | item label child next _ ih =>
      cases fuel with
      | zero =>
          unfold Chain.length at hfuel
          omega
      | succ fuel =>
          have hnext := ih (Nat.le_of_succ_le_succ hfuel)
            (Chain.next_le_cells.trans hcells)
          rw [Chain.head_item, lastLoop]
          refine (Does.readCell
            (Multiset.mem_of_le hcells Chain.mem_cells)).bind ?_
          cases next with
          | null => exact Does.pure _
          | item => exact hnext

/-- Whether `cJSON_strcasecmp` finds no difference -/
def Label.named (string : CString) (label : Label δ) : Bool :=
  strcasecmp (label.string.map Prod.snd) string = 0

/-- The number of items in front of the first one with a name -/
def Chain.index (string : CString) : Chain δ → ℕ
  | null => 0
  | item label _ next =>
      if label.named string then 0 else next.index string + 1

theorem Chain.index_le_length (string : CString) (chain : Chain δ) :
    chain.index string ≤ chain.length := by
  induction chain with
  | null => exact le_rfl
  | item label child next _ ih =>
      rw [Chain.index, Chain.length]
      split_ifs <;> omega

theorem compareName_does (hcell : label.texts ≤ T) (string : CString)
    (next prev child : Ptr) :
    Does (compareName (label.cell next prev child) string) ⟨k, C, T⟩
      (strcasecmp (label.string.map Prod.snd) string) ⟨k, C, T⟩ := by
  unfold compareName Label.cell
  cases hstring : label.string with
  | none => exact Does.pure _
  | some name =>
      have hmem : name ∈ T := by
        apply Multiset.mem_of_le hcell
        simp [Label.texts, hstring]
      exact (Does.readText hmem).bind (Does.pure _)

theorem findLoop_does (string : CString) (hfuel : chain.length ≤ fuel)
    (hcells : chain.cells prev none ≤ C) (htexts : chain.texts ≤ T)
    (i : BitVec 32) :
    Does (findLoop string fuel (chain.head none) i) ⟨k, C, T⟩
      (i + BitVec.ofNat 32 (chain.index string),
        (chain.drop (chain.index string)).head none) ⟨k, C, T⟩ := by
  induction chain generalizing fuel prev i with
  | null =>
      rw [Chain.index, BitVec.add_zero]
      cases fuel <;> exact Does.pure _
  | item label child next _ ih =>
      cases fuel with
      | zero =>
          unfold Chain.length at hfuel
          omega
      | succ fuel =>
          have hlabel : label.texts ≤ T := by
            refine le_trans ?_ htexts
            exact (Multiset.le_add_right _ _).trans (Multiset.le_add_right _ _)
          have hnext := ih (Nat.le_of_succ_le_succ hfuel)
            (Chain.next_le_cells.trans hcells)
            ((Multiset.le_add_left _ _).trans htexts) (i + 1)
          rw [Chain.head_item, findLoop]
          refine (Does.readCell
            (Multiset.mem_of_le hcells Chain.mem_cells)).bind ?_
          refine (compareName_does hlabel string _ _ _).bind ?_
          by_cases hnamed : strcasecmp (label.string.map Prod.snd) string = 0
          · have hindex : (Chain.item label child next).index string = 0 := by
              simp [Chain.index, Label.named, hnamed]
            rw [hindex, if_neg (not_not.mpr hnamed), BitVec.add_zero]
            exact Does.pure _
          · have hindex : (Chain.item label child next).index string =
                next.index string + 1 := by
              simp [Chain.index, Label.named, hnamed]
            have hsum : i + BitVec.ofNat 32 (next.index string + 1) =
                i + 1 + BitVec.ofNat 32 (next.index string) := by
              rw [Nat.add_comm, BitVec.ofNat_add, ← BitVec.add_assoc]
              rfl
            rw [hindex, if_pos hnamed, hsum]
            exact hnext

/-! ## Items -/

/-- An item and what is below it -/
def Label.holding (label : Label δ) (next prev : Ptr) (child : Chain δ) :
    Multiset (ℕ × Cell δ) :=
  {(label.addr, label.cell next prev (child.head none))} +
    child.cells none none

/-- An item that is in no chain -/
def Label.alone (label : Label δ) (child : Chain δ) : Multiset (ℕ × Cell δ) :=
  label.holding none none child

theorem Label.alone_eq (label : Label δ) (child : Chain δ) :
    label.alone child =
      {(label.addr, label.cell none none (child.head none))} +
        child.cells none none := rfl

def Label.rename (label : Label δ) (string : Option (ℕ × CString)) : Label δ :=
  { label with string := string }

variable {owner item : Label δ} {np pp : Ptr} {below : Chain δ}

theorem Does.congr {α : Type} {a : α} {code : Code δ α} {before : Blocks δ}
    {C' : Multiset (ℕ × Cell δ)} {T' : Multiset (ℕ × CString)}
    (hdoes : Does code before a ⟨k, C, T⟩) (hC : C = C') (hT : T = T') :
    Does code before a ⟨k, C', T'⟩ := by
  subst hC hT
  exact hdoes

theorem Label.mem_holding (label : Label δ) (np pp : Ptr) (child : Chain δ)
    (R : Multiset (ℕ × Cell δ)) :
    (label.addr, label.cell np pp (child.head none)) ∈
      label.holding np pp child + R := by
  simp [Label.holding]

theorem Label.cells_le_holding (label : Label δ) (np pp : Ptr) (child : Chain δ)
    (R : Multiset (ℕ × Cell δ)) :
    child.cells none none ≤ label.holding np pp child + R :=
  (Multiset.le_add_left _ _).trans (Multiset.le_add_right _ _)

/-! ## Looking up -/

section LookingUp

variable (hC : C = owner.holding np pp chain + R)

include hC

theorem getArraySize_does (hfuel : chain.length ≤ fuel)
    (hlength : chain.length < 2 ^ 31) :
    Does (getArraySize fuel (some owner.addr)) ⟨k, C, T⟩ chain.length
      ⟨k, C, T⟩ := by
  subst hC
  unfold getArraySize
  refine (Does.readCell (owner.mem_holding np pp chain R)).bind ?_
  refine (countLoop_does hfuel (owner.cells_le_holding np pp chain R) 0).bind ?_
  rw [← counted_toInt hlength]
  exact Does.pure _

theorem getArrayItem_does (hfuel : chain.length ≤ fuel) (item : ℤ) :
    Does (getArrayItem fuel (some owner.addr) item) ⟨k, C, T⟩
      ((chain.drop item.toNat).head none) ⟨k, C, T⟩ := by
  subst hC
  unfold getArrayItem
  refine (Does.readCell (owner.mem_holding np pp chain R)).bind ?_
  exact walkLoop_does hfuel (owner.cells_le_holding np pp chain R) item

theorem getObjectItem_does (hfuel : chain.length ≤ fuel)
    (htexts : chain.texts ≤ T) (string : CString) :
    Does (getObjectItem fuel (some owner.addr) string) ⟨k, C, T⟩
      ((chain.drop (chain.index string)).head none) ⟨k, C, T⟩ := by
  subst hC
  unfold getObjectItem
  refine (Does.readCell (owner.mem_holding np pp chain R)).bind ?_
  refine (findLoop_does string hfuel (owner.cells_le_holding np pp chain R)
    htexts 0).bind ?_
  exact Does.pure _

end LookingUp

/-! ## Adding to a chain -/

theorem setChild_does
    (hC : C = owner.holding np pp .null + (item.alone below + R)) :
    Does (setChild (some owner.addr) (some item.addr)) ⟨k, C, T⟩ ()
      ⟨k, owner.holding np pp (.item item below .null) + R, T⟩ := by
  have hhold : C = {(owner.addr, owner.cell np pp none)} +
      (item.alone below + R) := hC
  refine (Does.write (fun cell => { cell with child := some item.addr })
    hhold).congr ?_ rfl
  simp only [Label.alone_eq, Label.holding, Chain.cells, Chain.head_item,
    Chain.head_null, Label.cell]
  abel

theorem suffixObject_does (hne : chain ≠ .null)
    (hC : C = owner.holding np pp chain + (item.alone below + R)) :
    Does (suffixObject (chain.last none) (some item.addr)) ⟨k, C, T⟩ ()
      ⟨k, owner.holding np pp (chain.append (.item item below .null)) + R,
        T⟩ := by
  set parent := owner.cell np pp (chain.head none) with hparent
  have hlast : C = chain.cells none none +
      ({(owner.addr, parent)} + (item.alone below + R)) := by
    rw [hC, Label.holding, ← hparent]
    abel
  have hitem : chain.cells none (some item.addr) +
      ({(owner.addr, parent)} + (item.alone below + R)) =
      {(item.addr, item.cell none none (below.head none))} +
        (chain.cells none (some item.addr) + {(owner.addr, parent)} +
          below.cells none none + R) := by
    rw [Label.alone_eq]
    abel
  obtain ⟨first, -, -, hhead, -⟩ := Chain.exists_first hne none
  have hparent' : parent = owner.cell np pp
      ((chain.append (.item item below .null)).head none) := by
    rw [hparent, Chain.head_append, hhead, hhead]
  refine (Does.relinkLast hne (some item.addr) hlast).bind ?_
  refine (Does.write (fun cell => { cell with prev := chain.last none })
    hitem).congr ?_ rfl
  rw [Label.holding, ← hparent', Chain.cells_append]
  simp only [Chain.cells, Chain.head_item, Chain.head_null, Label.cell]
  abel

theorem addItemToArray_does (hfuel : chain.length ≤ fuel)
    (hC : C = owner.holding np pp chain + (item.alone below + R)) :
    Does (addItemToArray fuel (some owner.addr) (some item.addr)) ⟨k, C, T⟩ ()
      ⟨k, owner.holding np pp (chain.append (.item item below .null)) + R,
        T⟩ := by
  have howner := owner.mem_holding np pp chain (item.alone below + R)
  have hchain := owner.cells_le_holding np pp chain (item.alone below + R)
  rw [← hC] at howner hchain
  unfold addItemToArray
  refine (Does.readCell howner).bind ?_
  cases chain with
  | null => exact setChild_does hC
  | item label child next =>
      have hne : Chain.item label child next ≠ .null := by simp
      exact (lastLoop_does hfuel hchain).bind (suffixObject_does hne hC)

theorem addItemToObject_does {alloc : ℕ → Bool} (string : CString)
    (hfuel : chain.length ≤ fuel)
    (hC : C = owner.holding np pp chain + (item.alone below + R))
    (hT : T = item.texts + U) :
    Does (addItemToObject alloc fuel (some owner.addr) string (some item.addr))
      ⟨k, C, T⟩ ()
      ⟨k.addText, owner.holding np pp (chain.append
        (.item (item.rename (copyText alloc k string)) below .null)) + R,
        (item.rename (copyText alloc k string)).texts + U⟩ := by
  have hitem : C = {(item.addr, item.cell none none (below.head none))} +
      (below.cells none none + (owner.holding np pp chain + R)) := by
    rw [hC, Label.alone_eq]
    abel
  have hmem : (item.addr, item.cell none none (below.head none)) ∈ C := by
    rw [hitem]
    exact Owns.head_mem
  have htexts : T = item.string.toList +
      (item.valuestring.toList + U) := by
    rw [hT, Label.texts]
    abel
  set copy := copyText alloc k string with hcopy
  unfold addItemToObject
  refine (Does.readCell hmem).bind ?_
  refine (Does.freeText item.string htexts).bind ?_
  refine (Does.strdup string).bind ?_
  refine (Does.write (fun cell => { cell with string := copy.map Prod.fst })
    hitem).bind ?_
  have hrenamed : {(item.addr, { item.cell none none (below.head none) with
        string := copy.map Prod.fst })} +
        (below.cells none none + (owner.holding np pp chain + R)) =
      owner.holding np pp chain + ((item.rename copy).alone below + R) := by
    simp only [Label.alone, Label.holding, Label.rename, Label.cell]
    abel
  have hfreed : (copy.toList : Multiset (ℕ × CString)) +
      (item.valuestring.toList + U) = (item.rename copy).texts + U := by
    rw [Label.texts, Label.rename]
    abel
  exact (addItemToArray_does hfuel hrenamed).congr rfl hfreed

/-! ## Detaching -/

/-- The item in front of a chain gets another one behind it, if there is one. -/
theorem relinkBefore (chain : Chain δ) (tail value : Ptr)
    (hC : C = chain.cells none tail + R) :
    Does (onlyIf (chain.last none).isSome (setNext (chain.last none) value))
      ⟨k, C, T⟩ () ⟨k, chain.cells none value + R, T⟩ := by
  cases chain with
  | null =>
      rw [hC]
      exact Does.pure ()
  | item label child next =>
      have hne : Chain.item label child next ≠ .null := by simp
      apply Does.onlyIf
      · intro _
        exact Does.relinkLast hne value hC
      · intro hnone
        obtain ⟨addr, cell, rest, hlast, -⟩ := Chain.exists_last hne none
        rw [hlast none] at hnone
        cases hnone

theorem relinkBehind (chain : Chain δ) (prev value : Ptr)
    (hC : C = chain.cells prev none + R) :
    Does (onlyIf (chain.head none).isSome (setPrev (chain.head none) value))
      ⟨k, C, T⟩ () ⟨k, chain.cells value none + R, T⟩ := by
  cases chain with
  | null =>
      rw [hC]
      exact Does.pure ()
  | item label child next =>
      have hne : Chain.item label child next ≠ .null := by simp
      apply Does.onlyIf
      · intro _
        exact Does.relinkFirst hne value hC
      · intro hnone
        cases hnone

/-- Of two items in one memory the first is not at the other's address. -/
theorem head_ne (hnodup : (C.map Prod.fst).Nodup) {before : Chain δ} {p : Ptr}
    {cell : Cell δ} {prev tail : Ptr} (hne : before ≠ .null)
    (hC : C = before.cells prev tail + ({(label.addr, cell)} + R)) :
    some label.addr ≠ before.head p := by
  obtain ⟨addr, other, rest, hhead, hcells⟩ := before.exists_first hne tail
  rw [hhead p]
  rintro hsame
  injection hsame with hsame
  rw [hC, hcells prev, hsame] at hnodup
  simp at hnodup

/-- The first item of a chain leaves it. -/
theorem redirectFirst {before : Chain δ} {first : Ptr} {cell : Cell δ}
    (hfirst : first = before.head (some label.addr))
    (hother : before ≠ .null → some label.addr ≠ first)
    (hC : C = {(owner.addr, owner.cell np pp first)} +
      ({(label.addr, cell)} + R)) :
    Does (onlyIf (some label.addr = first) do
        setChild (some owner.addr) (← readCell (some label.addr)).next)
      ⟨k, C, T⟩ ()
      ⟨k, {(owner.addr, owner.cell np pp (before.head cell.next))} +
        ({(label.addr, cell)} + R), T⟩ := by
  cases before with
  | null =>
      have hmem : (label.addr, cell) ∈ C := by
        rw [hC]
        exact Multiset.mem_add.mpr (.inr Owns.head_mem)
      apply Does.onlyIf
      · intro _
        refine (Does.readCell hmem).bind ?_
        exact Does.write (fun c => { c with child := cell.next }) hC
      · intro hne
        rw [hfirst] at hne
        simp at hne
  | item =>
      apply Does.onlyIf
      · intro heq
        exact absurd (of_decide_eq_true heq) (hother (by simp))
      · intro _
        rw [hC, hfirst]
        rfl

theorem detachItemFromArray_some {before : Chain δ} (which : ℤ)
    (hchain : chain = before.append (.item label child next))
    (hdrop : chain.drop which.toNat = .item label child next)
    (hfuel : chain.length ≤ fuel) (hC : C = owner.holding np pp chain + R) :
    Does (detachItemFromArray fuel (some owner.addr) which) ⟨k, C, T⟩
      (some label.addr) ⟨k, owner.holding np pp (before.append next) +
        (label.alone child + R), T⟩ := by
  apply Does.of_nodup
  intro hnodup
  have howner := owner.mem_holding np pp chain R
  have hcells := owner.cells_le_holding np pp chain R
  rw [← hC] at howner hcells
  have hhead : chain.head none = before.head (some label.addr) := by
    rw [hchain, Chain.head_append, Chain.head_item]
  -- what the cell of the item is at first, and when its neighbours are joined
  have hstart : C = before.cells none (some label.addr) +
      ({(label.addr, label.cell (next.head none) (before.last none)
        (child.head none))} +
        ({(owner.addr, owner.cell np pp (chain.head none))} +
          (child.cells none none + next.cells (some label.addr) none + R))) := by
    rw [hC, Label.holding, hhead, hchain, Chain.cells_append]
    simp only [Chain.cells, Chain.head_item]
    abel
  have hitem : (label.addr, label.cell (next.head none) (before.last none)
      (child.head none)) ∈ C := by
    rw [hstart]
    exact Multiset.mem_add.mpr (.inr Owns.head_mem)
  unfold detachItemFromArray
  refine (Does.readCell howner).bind ?_
  refine (walkLoop_does hfuel hcells which).bind ?_
  rw [hdrop, Chain.head_item]
  refine (Does.readCell hitem).bind ?_
  refine (relinkBefore before _ (next.head none) hstart).bind ?_
  have hjoined : before.cells none (next.head none) +
      ({(label.addr, label.cell (next.head none) (before.last none)
        (child.head none))} +
        ({(owner.addr, owner.cell np pp (chain.head none))} +
          (child.cells none none + next.cells (some label.addr) none + R))) =
      next.cells (some label.addr) none + (before.cells none (next.head none) +
      ({(label.addr, label.cell (next.head none) (before.last none)
        (child.head none))} +
        ({(owner.addr, owner.cell np pp (chain.head none))} +
          (child.cells none none + R)))) := by
    abel
  refine (Does.readCell (Multiset.mem_add.mpr (.inr Owns.head_mem))).bind ?_
  refine (relinkBehind next _ (before.last none) hjoined).bind ?_
  have hfirst : next.cells (before.last none) none +
      (before.cells none (next.head none) +
      ({(label.addr, label.cell (next.head none) (before.last none)
        (child.head none))} +
        ({(owner.addr, owner.cell np pp (chain.head none))} +
          (child.cells none none + R)))) =
      {(owner.addr, owner.cell np pp (chain.head none))} +
      ({(label.addr, label.cell (next.head none) (before.last none)
        (child.head none))} +
        (next.cells (before.last none) none +
          before.cells none (next.head none) + child.cells none none + R)) := by
    abel
  have hother : before ≠ .null → some label.addr ≠ chain.head none := by
    intro hne
    rw [hhead]
    exact head_ne hnodup hne hstart
  rw [hfirst]
  refine (Does.readCell Owns.head_mem).bind ?_
  refine (redirectFirst hhead hother rfl).bind ?_
  have hlabel : {(owner.addr, owner.cell np pp (before.head (next.head none)))} +
      ({(label.addr, label.cell (next.head none) (before.last none)
        (child.head none))} +
        (next.cells (before.last none) none +
          before.cells none (next.head none) + child.cells none none + R)) =
      {(label.addr, label.cell (next.head none) (before.last none)
        (child.head none))} +
        ({(owner.addr, owner.cell np pp (before.head (next.head none)))} +
        (next.cells (before.last none) none +
          before.cells none (next.head none) + child.cells none none + R)) := by
    abel
  refine (Does.write (fun cell => { cell with next := none }) hlabel).bind ?_
  refine (Does.write (fun cell => { cell with prev := none }) rfl).bind ?_
  refine (Does.pure _).congr ?_ rfl
  rw [Label.alone_eq, Label.holding, Chain.cells_append, Chain.head_append]
  simp only [Label.cell]
  abel

theorem detachItemFromArray_none (which : ℤ)
    (hdrop : chain.drop which.toNat = .null) (hfuel : chain.length ≤ fuel)
    (hC : C = owner.holding np pp chain + R) :
    Does (detachItemFromArray fuel (some owner.addr) which) ⟨k, C, T⟩ none
      ⟨k, C, T⟩ := by
  have howner := owner.mem_holding np pp chain R
  have hcells := owner.cells_le_holding np pp chain R
  rw [← hC] at howner hcells
  unfold detachItemFromArray
  refine (Does.readCell howner).bind ?_
  refine (walkLoop_does hfuel hcells which).bind ?_
  rw [hdrop, Chain.head_null]
  exact Does.pure none

/-- The item at a position, if there is one, leaves the chain and is alone. -/
theorem detachItemFromArray_does (which : ℤ) (hfuel : chain.length ≤ fuel)
    (hC : C = owner.holding np pp chain + R) :
    Does (detachItemFromArray fuel (some owner.addr) which) ⟨k, C, T⟩
      ((chain.nth which.toNat).head none)
      ⟨k, owner.holding np pp (chain.without which.toNat) +
        ((chain.nth which.toNat).cells none none + R), T⟩ := by
  cases hdrop : chain.drop which.toNat with
  | null =>
      rw [Chain.nth_eq_null hdrop, Chain.without_eq_self hdrop, Chain.cells,
        zero_add, ← hC]
      exact detachItemFromArray_none which hdrop hfuel hC
  | item label child next =>
      have hparts := Chain.take_append_drop which.toNat chain
      rw [hdrop] at hparts
      rw [Chain.nth, Chain.without, Chain.drop_succ, hdrop]
      refine (detachItemFromArray_some which hparts.symm hdrop hfuel hC).congr
        ?_ rfl
      simp [Chain.drop, Chain.take, Chain.cells, Label.alone_eq]

/-- The item that left the chain is deleted. -/
theorem delete_nth_does (n : ℕ) (hfuel : chain.size ≤ fuel)
    (hT : T = chain.texts + U) :
    Does (delete fuel ((chain.nth n).head none))
      ⟨k, owner.holding np pp (chain.without n) +
        ((chain.nth n).cells none none + R), T⟩ ()
      ⟨k, owner.holding np pp (chain.without n) + R,
        (chain.without n).texts + U⟩ := by
  have hsize : (chain.nth n).size ≤ fuel := by
    have hparts := Chain.size_eq_nth n chain
    omega
  have hcells : owner.holding np pp (chain.without n) +
        ((chain.nth n).cells none none + R) =
      (chain.nth n).cells none none +
        (owner.holding np pp (chain.without n) + R) := by
    abel
  have htexts : T = (chain.nth n).texts + ((chain.without n).texts + U) := by
    rw [hT, Chain.texts_eq_nth n chain]
    abel
  exact delete_does hsize hcells htexts

theorem deleteItemFromArray_does (which : ℤ) (hfuel : chain.size ≤ fuel)
    (hC : C = owner.holding np pp chain + R) (hT : T = chain.texts + U) :
    Does (deleteItemFromArray fuel (some owner.addr) which) ⟨k, C, T⟩ ()
      ⟨k, owner.holding np pp (chain.without which.toNat) + R,
        (chain.without which.toNat).texts + U⟩ := by
  unfold deleteItemFromArray
  exact (detachItemFromArray_does which
    (Chain.length_le_size.trans hfuel) hC).bind
    (delete_nth_does which.toNat hfuel hT)

theorem detachItemFromObject_does (string : CString)
    (hfuel : chain.length ≤ fuel) (hlength : chain.length < 2 ^ 31)
    (hC : C = owner.holding np pp chain + R) (htexts : chain.texts ≤ T) :
    Does (detachItemFromObject fuel (some owner.addr) string) ⟨k, C, T⟩
      ((chain.nth (chain.index string)).head none)
      ⟨k, owner.holding np pp (chain.without (chain.index string)) +
        ((chain.nth (chain.index string)).cells none none + R), T⟩ := by
  have howner := owner.mem_holding np pp chain R
  have hcells := owner.cells_le_holding np pp chain R
  rw [← hC] at howner hcells
  unfold detachItemFromObject
  refine (Does.readCell howner).bind ?_
  refine (findLoop_does string hfuel hcells htexts 0).bind ?_
  cases hdrop : chain.drop (chain.index string) with
  | null =>
      rw [Chain.nth_eq_null hdrop, Chain.without_eq_self hdrop]
      refine (Does.pure none).congr ?_ rfl
      rw [hC, Chain.cells, zero_add]
  | item label child next =>
      have hdetach := detachItemFromArray_does (k := k) (T := T)
        (chain.index string) hfuel hC
      rw [Int.toNat_natCast, ← counted_toInt
        ((chain.index_le_length string).trans_lt hlength)] at hdetach
      exact hdetach

theorem deleteItemFromObject_does (string : CString) (hfuel : chain.size ≤ fuel)
    (hlength : chain.length < 2 ^ 31)
    (hC : C = owner.holding np pp chain + R) (hT : T = chain.texts + U) :
    Does (deleteItemFromObject fuel (some owner.addr) string) ⟨k, C, T⟩ ()
      ⟨k, owner.holding np pp (chain.without (chain.index string)) + R,
        (chain.without (chain.index string)).texts + U⟩ := by
  have hle : chain.texts ≤ T := by
    rw [hT]
    exact Multiset.le_add_right _ _
  unfold deleteItemFromObject
  exact (detachItemFromObject_does string
    (Chain.length_le_size.trans hfuel) hlength hC hle).bind
    (delete_nth_does _ hfuel hT)

/-! ## Replacing -/

/-- The new item is the first one, or behind the one in front of it. -/
theorem redirectTo {before : Chain δ} {first : Ptr} {cell : Cell δ}
    (hfirst : first = before.head (some label.addr))
    (hother : before ≠ .null → some label.addr ≠ first)
    (hprev : cell.prev = before.last none)
    (hC : C = before.cells none (some label.addr) +
      ({(owner.addr, owner.cell np pp first)} + ({(item.addr, cell)} + R))) :
    Does (if some label.addr = first then
        setChild (some owner.addr) (some item.addr)
      else do setNext (← readCell (some item.addr)).prev (some item.addr))
      ⟨k, C, T⟩ ()
      ⟨k, before.cells none (some item.addr) +
        ({(owner.addr, owner.cell np pp (before.head (some item.addr)))} +
          ({(item.addr, cell)} + R)), T⟩ := by
  cases before with
  | null =>
      have howner : C = {(owner.addr, owner.cell np pp first)} +
          ({(item.addr, cell)} + R) := hC.trans (zero_add _)
      have hsame : some label.addr = first := hfirst.symm
      rw [if_pos hsame]
      refine (Does.write (fun c => { c with child := some item.addr })
        howner).congr ?_ rfl
      exact (zero_add _).symm
  | item label' child' next' =>
      have hne : Chain.item label' child' next' ≠ .null := by simp
      have hmem : (item.addr, cell) ∈ C := by
        rw [hC]
        exact Multiset.mem_add.mpr (.inr
          (Multiset.mem_add.mpr (.inr Owns.head_mem)))
      rw [if_neg (hother hne)]
      refine (Does.readCell hmem).bind ?_
      rw [hprev]
      refine (Does.relinkLast hne (some item.addr) hC).congr ?_ rfl
      rw [hfirst]
      rfl

/-- The item at a position is deleted, and the new one is in its place. -/
theorem replaceItemInArray_does {before : Chain δ} (which : ℤ)
    (hchain : chain = before.append (.item label child next))
    (hdrop : chain.drop which.toNat = .item label child next)
    (hfuel : chain.size ≤ fuel)
    (hC : C = owner.holding np pp chain + (item.alone below + R))
    (hT : T = label.texts + child.texts + U) :
    Does (replaceItemInArray fuel (some owner.addr) which (some item.addr))
      ⟨k, C, T⟩ ()
      ⟨k, owner.holding np pp (before.append (.item item below next)) + R, U⟩ := by
  apply Does.of_nodup
  intro hnodup
  have howner := owner.mem_holding np pp chain (item.alone below + R)
  have hcells := owner.cells_le_holding np pp chain (item.alone below + R)
  rw [← hC] at howner hcells
  have hhead : chain.head none = before.head (some label.addr) := by
    rw [hchain, Chain.head_append, Chain.head_item]
  have hrounds : chain.length ≤ fuel := Chain.length_le_size.trans hfuel
  have hsize : (Chain.item label child .null).size ≤ fuel := by
    rw [hchain, Chain.size_append] at hfuel
    simp only [Chain.size] at hfuel ⊢
    omega
  set old := label.cell (next.head none) (before.last none) (child.head none)
    with hold
  set parent := owner.cell np pp (chain.head none) with hparent
  set rest := child.cells none none + (below.cells none none + R) with hrest
  have hstart : C = before.cells none (some label.addr) +
      ({(label.addr, old)} + ({(owner.addr, parent)} +
        ({(item.addr, item.cell none none (below.head none))} +
          (next.cells (some label.addr) none + rest)))) := by
    rw [hC, Label.holding, Label.alone_eq, ← hparent, hchain,
      Chain.cells_append, hrest]
    simp only [Chain.cells, Chain.head_item, ← hold]
    abel
  have hother : before ≠ .null → some label.addr ≠ chain.head none := by
    intro hne
    rw [hhead]
    exact head_ne hnodup hne hstart
  have hmem : (label.addr, old) ∈ C := by
    rw [hstart]
    exact Multiset.mem_add.mpr (.inr Owns.head_mem)
  have hitem : C = {(item.addr, item.cell none none (below.head none))} +
      ({(label.addr, old)} + (before.cells none (some label.addr) +
        ({(owner.addr, parent)} +
          (next.cells (some label.addr) none + rest)))) := by
    rw [hstart]
    abel
  unfold replaceItemInArray
  refine (Does.readCell howner).bind ?_
  refine (walkLoop_does hrounds hcells which).bind ?_
  rw [hdrop, Chain.head_item]
  refine (Does.readCell hmem).bind ?_
  refine (Does.write (fun cell => { cell with next := old.next }) hitem).bind ?_
  refine (Does.readCell (Multiset.mem_add.mpr (.inr Owns.head_mem))).bind ?_
  refine (Does.write (fun cell => { cell with prev := old.prev }) rfl).bind ?_
  set new := item.cell (next.head none) (before.last none) (below.head none)
    with hnew
  refine (Does.readCell Owns.head_mem).bind ?_
  have hbehind : {(item.addr, new)} +
      ({(label.addr, old)} + (before.cells none (some label.addr) +
        ({(owner.addr, parent)} +
          (next.cells (some label.addr) none + rest)))) =
      next.cells (some label.addr) none + ({(owner.addr, parent)} +
        ({(label.addr, old)} + (before.cells none (some label.addr) +
          ({(item.addr, new)} + rest)))) := by
    abel
  refine (relinkBehind next _ (some item.addr) hbehind).bind ?_
  refine (Does.readCell (Multiset.mem_add.mpr (.inr Owns.head_mem))).bind ?_
  have hfront : next.cells (some item.addr) none + ({(owner.addr, parent)} +
        ({(label.addr, old)} + (before.cells none (some label.addr) +
          ({(item.addr, new)} + rest)))) =
      before.cells none (some label.addr) + ({(owner.addr, parent)} +
        ({(item.addr, new)} + ({(label.addr, old)} +
          (next.cells (some item.addr) none + rest)))) := by
    abel
  refine (redirectTo hhead hother rfl hfront).bind ?_
  set holder := owner.cell np pp (before.head (some item.addr)) with hholder
  have hlabel : before.cells none (some item.addr) + ({(owner.addr, holder)} +
        ({(item.addr, new)} + ({(label.addr, old)} +
          (next.cells (some item.addr) none + rest)))) =
      {(label.addr, old)} + (before.cells none (some item.addr) +
        ({(owner.addr, holder)} + ({(item.addr, new)} +
          (next.cells (some item.addr) none + rest)))) := by
    abel
  refine (Does.write (fun cell => { cell with next := none }) hlabel).bind ?_
  refine (Does.write (fun cell => { cell with prev := none }) rfl).bind ?_
  have halone : {(label.addr, label.cell none none (child.head none))} +
      (before.cells none (some item.addr) +
        ({(owner.addr, holder)} + ({(item.addr, new)} +
          (next.cells (some item.addr) none + rest)))) =
      (Chain.item label child .null).cells none none +
        (owner.holding np pp (before.append (.item item below next)) + R) := by
    rw [Label.holding, Chain.cells_append, Chain.head_append, hrest]
    simp only [Chain.cells, Chain.head_item, Chain.head_null, ← hholder, ← hnew]
    abel
  have htexts : T = (Chain.item label child .null).texts + U := by
    rw [hT]
    simp only [Chain.texts]
    abel
  exact delete_does hsize halone htexts

theorem replaceItemInArray_none (which : ℤ)
    (hdrop : chain.drop which.toNat = .null) (newitem : Ptr)
    (hfuel : chain.length ≤ fuel) (hC : C = owner.holding np pp chain + R) :
    Does (replaceItemInArray fuel (some owner.addr) which newitem) ⟨k, C, T⟩ ()
      ⟨k, C, T⟩ := by
  have howner := owner.mem_holding np pp chain R
  have hcells := owner.cells_le_holding np pp chain R
  rw [← hC] at howner hcells
  unfold replaceItemInArray
  refine (Does.readCell howner).bind ?_
  refine (walkLoop_does hfuel hcells which).bind ?_
  rw [hdrop, Chain.head_null]
  exact Does.pure ()

theorem replaceItemInObject_does {alloc : ℕ → Bool} {before : Chain δ}
    (string : CString) (hchain : chain = before.append (.item label child next))
    (hdrop : chain.drop (chain.index string) = .item label child next)
    (hfuel : chain.size ≤ fuel) (hlength : chain.length < 2 ^ 31)
    (hC : C = owner.holding np pp chain + (item.alone below + R))
    (hT : T = chain.texts + (item.texts + U)) :
    Does (replaceItemInObject alloc fuel (some owner.addr) string
        (some item.addr)) ⟨k, C, T⟩ ()
      ⟨k.addText, owner.holding np pp (before.append
          (.item (item.rename (copyText alloc k string)) below next)) + R,
        before.texts + next.texts +
          ((item.rename (copyText alloc k string)).texts +
            (item.string.toList + U))⟩ := by
  have howner := owner.mem_holding np pp chain (item.alone below + R)
  have hcells := owner.cells_le_holding np pp chain (item.alone below + R)
  rw [← hC] at howner hcells
  have hle : chain.texts ≤ T := by
    rw [hT]
    exact Multiset.le_add_right _ _
  have hitem : C = {(item.addr, item.cell none none (below.head none))} +
      (below.cells none none + (owner.holding np pp chain + R)) := by
    rw [hC, Label.alone_eq]
    abel
  set copy := copyText alloc k string with hcopy
  have hrenamed : {(item.addr, { item.cell none none (below.head none) with
        string := copy.map Prod.fst })} +
        (below.cells none none + (owner.holding np pp chain + R)) =
      owner.holding np pp chain + ((item.rename copy).alone below + R) := by
    simp only [Label.alone, Label.holding, Label.rename, Label.cell]
    abel
  have htexts : copy.toList + T = label.texts + child.texts +
      (before.texts + next.texts +
        ((item.rename copy).texts + (item.string.toList + U))) := by
    rw [hT, hchain, Chain.texts_append]
    simp only [Label.texts, Label.rename, Chain.texts]
    abel
  have hreplace := replaceItemInArray_does (k := k.addText)
    (chain.index string) hchain hdrop hfuel hrenamed htexts
  rw [← counted_toInt
    ((chain.index_le_length string).trans_lt hlength)] at hreplace
  unfold replaceItemInObject
  refine (Does.readCell howner).bind ?_
  refine (findLoop_does string (Chain.length_le_size.trans hfuel) hcells hle
    0).bind ?_
  rw [hdrop, Chain.head_item]
  refine (Does.strdup string).bind ?_
  refine (Does.write (fun cell => { cell with string := copy.map Prod.fst })
    hitem).bind ?_
  exact hreplace

theorem replaceItemInObject_none {alloc : ℕ → Bool} (string : CString)
    (hdrop : chain.drop (chain.index string) = .null) (newitem : Ptr)
    (hfuel : chain.length ≤ fuel) (hC : C = owner.holding np pp chain + R)
    (htexts : chain.texts ≤ T) :
    Does (replaceItemInObject alloc fuel (some owner.addr) string newitem)
      ⟨k, C, T⟩ () ⟨k, C, T⟩ := by
  have howner := owner.mem_holding np pp chain R
  have hcells := owner.cells_le_holding np pp chain R
  rw [← hC] at howner hcells
  unfold replaceItemInObject
  refine (Does.readCell howner).bind ?_
  refine (findLoop_does string hfuel hcells htexts 0).bind ?_
  rw [hdrop, Chain.head_null]
  exact Does.pure ()

end CJsonTree

end ClpszDemos
