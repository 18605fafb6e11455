import Mathlib.Tactic
import ClpszDemos.DoubleLink

/-!
# `DoubleLink` refines a list

In every state between two calls the nodes form a ring through the sentinel,
and in its order they hold the items of the list that the same calls make.
-/

namespace ClpszDemos
namespace DoubleLink

variable {K V α : Type}

/-! ## Heaps -/

namespace Heap

def links (heap : Heap K V) : Links Handle :=
  { next := fun r => (heap.node r).next
    pre := fun r => (heap.node r).pre }

def content (heap : Heap K V) (r : Handle) : Option K × Option V :=
  ((heap.node r).key, (heap.node r).value)

/-- `$p->next = $q; $q->pre = $p;` -/
def joinNodes (heap : Heap K V) (p q : Handle) : Heap K V :=
  let heap := heap.set p { heap.node p with next := some q }
  heap.set q { heap.node q with pre := some p }

theorem links_joinNodes (heap : Heap K V) (p q : Handle) :
    (heap.joinNodes p q).links = heap.links.join p q := by
  unfold joinNodes set links Links.join
  simp only [Links.mk.injEq]
  constructor
  · funext r
    simp only [Function.update_apply]
    grind
  · funext r
    simp only [Function.update_apply]
    grind

theorem content_joinNodes (heap : Heap K V) (p q r : Handle) :
    (heap.joinNodes p q).content r = heap.content r := by
  unfold joinNodes set content
  simp only [Function.update_apply]
  grind

theorem links_set {heap : Heap K V} {r : Handle} {node : DoubleLinkNode K V}
    (hnext : node.next = (heap.node r).next)
    (hpre : node.pre = (heap.node r).pre) :
    (heap.set r node).links = heap.links := by
  unfold set links
  simp only [Links.mk.injEq]
  constructor
  · funext s
    simp only [Function.update_apply]
    grind
  · funext s
    simp only [Function.update_apply]
    grind

theorem content_set_self (heap : Heap K V) (r : Handle)
    (node : DoubleLinkNode K V) :
    (heap.set r node).content r = (node.key, node.value) := by
  unfold set content
  simp only [Function.update_self]

theorem content_set_of_ne {heap : Heap K V} {r s : Handle}
    {node : DoubleLinkNode K V} (hne : s ≠ r) :
    (heap.set r node).content s = heap.content s := by
  unfold set content
  simp only [Function.update_of_ne hne]

/-- A heap with one more node -/
def withNode (heap : Heap K V) (node : DoubleLinkNode K V) : Heap K V :=
  { size := heap.size + 1
    node := Function.update heap.node heap.size node }

theorem node_withNode_self (heap : Heap K V) (node : DoubleLinkNode K V) :
    (heap.withNode node).node heap.size = node :=
  Function.update_self ..

theorem content_withNode_of_lt {heap : Heap K V}
    (node : DoubleLinkNode K V) {r : Handle} (hr : r < heap.size) :
    (heap.withNode node).content r = heap.content r := by
  unfold withNode content
  simp only [Function.update_of_ne (Nat.ne_of_lt hr)]

end Heap

theorem deleteBetween_run (heap : Heap K V) (p q : Handle) :
    deleteBetween (some p) (some q) heap = .ok ((), heap.joinNodes p q) := rfl

theorem addBetween_run (heap : Heap K V) (n p q : Handle) :
    addBetween (some n) (some p) (some q) heap =
      .ok ((), (heap.joinNodes p n).joinNodes n q) := rfl

theorem readProperty_run (heap : Heap K V) (r : Handle)
    (property : DoubleLinkNode K V → Option α) :
    readProperty (some r) property heap =
      .ok (property (heap.node r), heap) := rfl

/-! ## The state between two calls -/

/-- A node and the item that it holds -/
abbrev Cell (K V : Type) := Handle × K × V

def handles (cells : List (Cell K V)) : List Handle :=
  cells.map Prod.fst

def items (cells : List (Cell K V)) : List (K × V) :=
  cells.map Prod.snd

/-- The nodes of the cells form a ring through the sentinel and hold the items
of the cells; the sentinel holds nothing. -/
structure Holds (heap : Heap K V) (head : Handle) (cells : List (Cell K V)) :
    Prop where
  ring : heap.links.Ring head (handles cells)
  content : ∀ c ∈ cells, heap.content c.1 = (some c.2.1, some c.2.2)
  sentinel : heap.content head = (none, none)
  allocated : ∀ r ∈ head :: handles cells, r < heap.size

namespace Holds

variable {heap : Heap K V} {head : Handle} {xs ys : List (Cell K V)}
  {c : Cell K V}

theorem key_eq (hholds : Holds heap head (xs ++ c :: ys)) :
    (heap.node c.1).key = some c.2.1 :=
  congrArg Prod.fst (hholds.content c (by simp))

theorem value_eq (hholds : Holds heap head (xs ++ c :: ys)) :
    (heap.node c.1).value = some c.2.2 :=
  congrArg Prod.snd (hholds.content c (by simp))

theorem keysEqual_eq {cmp : Comparison K V} {key : K}
    (hholds : Holds heap head (xs ++ c :: ys)) :
    cmp.keysEqual (heap.node c.1).key key =
      selects cmp.keysEqual key c.2 := by
  rw [hholds.key_eq]
  rfl

theorem ring_append (hholds : Holds heap head (xs ++ c :: ys)) :
    heap.links.Ring head (handles xs ++ c.1 :: handles ys) := by
  have hring := hholds.ring
  simp only [handles, List.map_append, List.map_cons] at hring
  exact hring

theorem next_eq (hholds : Holds heap head (xs ++ c :: ys)) :
    (heap.node c.1).next = some ((handles ys).headD head) :=
  hholds.ring_append.joined_next.1

theorem pre_eq (hholds : Holds heap head (xs ++ c :: ys)) :
    (heap.node c.1).pre = some ((handles xs).getLastD head) :=
  hholds.ring_append.joined_pre.2

/-- The node between two that are joined is out of the ring. -/
theorem remove (hholds : Holds heap head (xs ++ c :: ys)) :
    Holds (heap.joinNodes ((handles xs).getLastD head)
      ((handles ys).headD head)) head (xs ++ ys) where
  ring := by
    rw [Heap.links_joinNodes]
    have hremoved := hholds.ring_append.remove
    simp only [handles, List.map_append] at hremoved ⊢
    exact hremoved
  content := by
    intro d hd
    rw [Heap.content_joinNodes]
    apply hholds.content d
    simp only [List.mem_append, List.mem_cons] at hd ⊢
    grind
  sentinel := by
    rw [Heap.content_joinNodes]
    exact hholds.sentinel
  allocated := by
    intro r hr
    apply hholds.allocated r
    simp only [handles, List.map_append, List.map_cons, List.mem_cons,
      List.mem_append] at hr ⊢
    grind

/-- The loop goes on from the node that it has deleted. -/
theorem next_removed (hholds : Holds heap head (xs ++ c :: ys)) :
    ((heap.joinNodes ((handles xs).getLastD head)
      ((handles ys).headD head)).node c.1).next =
        some ((handles ys).headD head) := by
  have hnext := hholds.ring_append.next_removed
  rw [← Heap.links_joinNodes] at hnext
  exact hnext

theorem handle_ne (hholds : Holds heap head (xs ++ c :: ys)) :
    head ≠ c.1 ∧ ∀ d ∈ xs ++ ys, d.1 ≠ c.1 := by
  have hnodup := hholds.ring_append.nodup
  rw [← List.cons_append, List.nodup_middle] at hnodup
  have hnotMem := (List.nodup_cons.mp hnodup).1
  have hhandles : ∀ d ∈ xs ++ ys, d.1 ∈ handles xs ++ handles ys := by
    intro d hd
    rw [handles, handles, ← List.map_append]
    exact List.mem_map_of_mem hd
  constructor
  · intro hsame
    exact hnotMem (hsame ▸ List.mem_cons_self)
  · intro d hd hsame
    exact hnotMem (hsame ▸ List.mem_cons_of_mem head (hhandles d hd))

/-- A node gets a value. -/
theorem setValue {key : K} {value newVal : V} {r : Handle}
    (hholds : Holds heap head (xs ++ (r, key, value) :: ys)) :
    Holds (heap.set r { heap.node r with value := some newVal }) head
      (xs ++ (r, key, newVal) :: ys) where
  ring := by
    have hlinks : (heap.set r
        { heap.node r with value := some newVal }).links = heap.links :=
      Heap.links_set rfl rfl
    rw [hlinks]
    have hring := hholds.ring
    simp only [handles, List.map_append, List.map_cons] at hring ⊢
    exact hring
  content := by
    intro d hd
    have hne := hholds.handle_ne.2 d
    have hcontent := hholds.content d
    simp only [List.mem_append, List.mem_cons] at hd hne hcontent
    by_cases hsame : d.1 = r
    · have hnew : d = (r, key, newVal) := by
        rcases hd with hd | rfl | hd
        · exact absurd hsame (hne (.inl hd))
        · rfl
        · exact absurd hsame (hne (.inr hd))
      rw [hnew, Heap.content_set_self, hholds.key_eq]
    · rw [Heap.content_set_of_ne hsame]
      apply hcontent
      grind
  sentinel := by
    rw [Heap.content_set_of_ne hholds.handle_ne.1]
    exact hholds.sentinel
  allocated := by
    intro s hs
    apply hholds.allocated s
    simp only [handles, List.map_append, List.map_cons] at hs ⊢
    exact hs

/-- A node with an item is linked between two nodes. -/
theorem insert {r : Handle} {key : K} {value : V}
    (hholds : Holds heap head (xs ++ ys))
    (hnew : r ∉ head :: handles (xs ++ ys)) (hsize : r < heap.size)
    (hcontent : heap.content r = (some key, some value)) :
    Holds ((heap.joinNodes ((handles xs).getLastD head) r).joinNodes r
      ((handles ys).headD head)) head (xs ++ (r, key, value) :: ys) where
  ring := by
    have hring := hholds.ring
    simp only [handles, List.map_append] at hring hnew
    rw [Heap.links_joinNodes, Heap.links_joinNodes]
    simp only [handles, List.map_append, List.map_cons]
    exact hring.insert hnew
  content := by
    intro c hc
    rw [Heap.content_joinNodes, Heap.content_joinNodes]
    rcases List.mem_append.mp hc with hc | hc
    · exact hholds.content c (List.mem_append_left ys hc)
    · rcases List.mem_cons.mp hc with rfl | hc
      · exact hcontent
      · exact hholds.content c (List.mem_append_right xs hc)
  sentinel := by
    rw [Heap.content_joinNodes, Heap.content_joinNodes]
    exact hholds.sentinel
  allocated := by
    intro s hs
    show s < heap.size
    have hallocated := hholds.allocated s
    simp only [handles, List.map_append, List.map_cons, List.mem_cons,
      List.mem_append] at hs hallocated
    rcases hs with hs | hs | rfl | hs
    · exact hallocated (.inl hs)
    · exact hallocated (.inr (.inl hs))
    · exact hsize
    · exact hallocated (.inr (.inr hs))

/-- A new node changes none of the others. -/
theorem withNode {cells : List (Cell K V)} (node : DoubleLinkNode K V)
    (hholds : Holds heap head cells) :
    Holds (heap.withNode node) head cells where
  ring := by
    apply hholds.ring.congr
    intro r hr
    have hne := Nat.ne_of_lt (hholds.allocated r hr)
    unfold Heap.links Heap.withNode
    simp only [Function.update_of_ne hne, and_self]
  content := by
    intro c hc
    have hlt : c.1 < heap.size :=
      hholds.allocated c.1 (List.mem_cons_of_mem head
        (List.mem_map_of_mem hc))
    rw [Heap.content_withNode_of_lt node hlt]
    exact hholds.content c hc
  sentinel := by
    rw [Heap.content_withNode_of_lt node
      (hholds.allocated head List.mem_cons_self)]
    exact hholds.sentinel
  allocated := by
    intro r hr
    exact Nat.lt_succ_of_lt (hholds.allocated r hr)

end Holds

/-! ## The loops -/

section Loops

variable {cmp : Comparison K V} {E : Stop → Prop} {head : Handle}

/-- The loop test is false at the sentinel, and at the other nodes it is true
or ends the call. -/
def Detects (cmp : Comparison K V) (E : Stop → Prop) : Prop :=
  ∀ heap head cells, Holds heap head cells →
    cmp.differs heap (some head) (some head) = .ok false ∧
    ∀ c ∈ cells,
      cmp.differs heap (some c.1) (some head) = .ok true ∨
        ∃ e, cmp.differs heap (some c.1) (some head) = .error e ∧ E e

/-- What an iteration at a node has to do: return a result, or keep the
invariant for the nodes behind it, the first of which is next. -/
def Iterates (head : Handle) (Inv : List (Cell K V) → α → Heap K V → Prop)
    (Q : α → Heap K V → Prop) (c : Cell K V) (rest : List (Cell K V)) :
    ForInStep α → Heap K V → Prop
  | .done a, heap => Q a heap
  | .yield a, heap =>
      Inv rest a heap ∧
        (heap.node c.1).next = some ((handles rest).headD head)

/-- What follows an iteration -/
def afterBody (cmp : Comparison K V) (head : Handle)
    (body : Option Handle → α → Php K V (ForInStep α)) (fuel : ℕ)
    (it : Option Handle) : ForInStep α → Php K V α
  | .done b => return b
  | .yield b => do
      let next ← readProperty it fun node => node.next
      whileLoop cmp head body fuel next b

/-- One iteration -/
theorem whileLoop_run (body : Option Handle → α → Php K V (ForInStep α))
    (fuel : ℕ) (it : Option Handle) (a : α) (heap : Heap K V) :
    whileLoop cmp head body (fuel + 1) it a heap =
      (cmp.differs heap it (some head) >>= fun differs =>
        if differs then (body it a >>= afterBody cmp head body fuel it) heap
        else .ok (a, heap)) := by
  unfold whileLoop
  simp only [bind, StateT.bind, get, getThe, MonadStateOf.get, StateT.get,
    liftM, monadLift, MonadLift.monadLift, StateT.lift, Except.bind, pure,
    Except.pure]
  cases cmp.differs heap it (some head) with
  | error e => rfl
  | ok differs =>
      cases differs with
      | false => rfl
      | true => rfl

theorem whileLoop_spec {body : Option Handle → α → Php K V (ForInStep α)}
    {Inv : List (Cell K V) → α → Heap K V → Prop} {Q : α → Heap K V → Prop}
    (hdetects : Detects cmp E)
    (hholds : ∀ {todo a heap}, Inv todo a heap →
      ∃ kept, Holds heap head (kept ++ todo))
    (hbody : ∀ c rest a, Triple (Inv (c :: rest) a) (body (some c.1) a)
      (Iterates head Inv Q c rest) E)
    (hdone : ∀ a heap, Inv [] a heap → Q a heap)
    (todo : List (Cell K V)) {fuel : ℕ} (hfuel : todo.length < fuel) (a : α) :
    Triple (Inv todo a)
      (whileLoop cmp head body fuel (some ((handles todo).headD head)) a)
      Q E := by
  induction todo generalizing fuel a with
  | nil =>
      intro heap hinv
      obtain ⟨kept, hkept⟩ := hholds hinv
      obtain ⟨fuel, rfl⟩ := Nat.exists_eq_succ_of_ne_zero
        (Nat.ne_of_gt hfuel)
      have hit : (handles ([] : List (Cell K V))).headD head = head := rfl
      rw [hit, whileLoop_run, (hdetects heap head _ hkept).1]
      exact hdone a heap hinv
  | cons c rest ih =>
      intro heap hinv
      obtain ⟨kept, hkept⟩ := hholds hinv
      obtain ⟨fuel, rfl⟩ := Nat.exists_eq_succ_of_ne_zero
        (Nat.ne_of_gt (Nat.zero_lt_of_lt hfuel))
      have hrest : rest.length < fuel := Nat.lt_of_succ_lt_succ hfuel
      have hit : (handles (c :: rest)).headD head = c.1 := rfl
      rw [hit, whileLoop_run]
      rcases (hdetects heap head _ hkept).2 c (by simp) with hnode | hstop
      · rw [hnode]
        apply (hbody c rest a).bind _ heap hinv
        intro step heap hstep
        cases step with
        | done b => exact hstep
        | yield b =>
            have hnext := hstep.2
            show Ends Q E (whileLoop cmp head body fuel
              ((heap.node c.1).next) b heap)
            rw [hnext]
            exact ih hrest b heap hstep.1
      · obtain ⟨e, herror, he⟩ := hstop
        rw [herror]
        exact he

/-! ## The methods -/

/-- The nodes hold the items of a list. -/
def Represents (heap : Heap K V) (head : Handle) (list : List (K × V)) :
    Prop :=
  ∃ cells, Holds heap head cells ∧ items cells = list

section Bodies

variable {heap : Heap K V} {r : Handle} {key : K} {newVal : V}

theorem deleteBody_of_equal {p q : Handle} {deleted : ℕ}
    (hkey : cmp.keysEqual (heap.node r).key key = true)
    (hpre : (heap.node r).pre = some p) (hnext : (heap.node r).next = some q) :
    deleteBody cmp key (some r) deleted heap =
      .ok (.yield (deleted + 1), heap.joinNodes p q) := by
  unfold deleteBody
  simp only [bind, StateT.bind, readProperty_run, Except.bind, hkey, if_true,
    hpre, hnext, deleteBetween_run]
  rfl

theorem deleteBody_of_not_equal {deleted : ℕ}
    (hkey : cmp.keysEqual (heap.node r).key key = false) :
    deleteBody cmp key (some r) deleted heap =
      .ok (.yield deleted, heap) := by
  unfold deleteBody
  simp only [bind, StateT.bind, readProperty_run, Except.bind, hkey]
  rfl

theorem queryBody_of_equal {result : Option V}
    (hkey : cmp.keysEqual (heap.node r).key key = true) :
    queryBody cmp key (some r) result heap =
      .ok (.done (heap.node r).value, heap) := by
  unfold queryBody
  simp only [bind, StateT.bind, readProperty_run, Except.bind, hkey, if_true]
  rfl

theorem queryBody_of_not_equal {result : Option V}
    (hkey : cmp.keysEqual (heap.node r).key key = false) :
    queryBody cmp key (some r) result heap =
      .ok (.yield result, heap) := by
  unfold queryBody
  simp only [bind, StateT.bind, readProperty_run, Except.bind, hkey]
  rfl

theorem updateBody_of_equal {updated : ℕ}
    (hkey : cmp.keysEqual (heap.node r).key key = true) :
    updateBody cmp key newVal (some r) updated heap =
      .ok (.yield (updated + 1),
        heap.set r { heap.node r with value := some newVal }) := by
  unfold updateBody
  simp only [bind, StateT.bind, readProperty_run, Except.bind, hkey, if_true]
  rfl

theorem updateBody_of_not_equal {updated : ℕ}
    (hkey : cmp.keysEqual (heap.node r).key key = false) :
    updateBody cmp key newVal (some r) updated heap =
      .ok (.yield updated, heap) := by
  unfold updateBody
  simp only [bind, StateT.bind, readProperty_run, Except.bind, hkey]
  rfl

theorem showBody_run (lines : List (Option K × Option V)) :
    showBody (some r) lines heap =
      .ok (.yield (lines ++ [heap.content r]), heap) := rfl

end Bodies

/-- The items that are left to go, and those that stay -/
def DeleteInv (cmp : Comparison K V) (head : Handle) (key : K)
    (list : List (K × V)) (todo : List (Cell K V)) (deleted : ℕ)
    (heap : Heap K V) : Prop :=
  ∃ kept, Holds heap head (kept ++ todo) ∧
    items kept ++ (items todo).filter (fun item =>
      !selects cmp.keysEqual key item) =
        list.filter (fun item => !selects cmp.keysEqual key item) ∧
    deleted + (items todo).countP (selects cmp.keysEqual key) =
      list.countP (selects cmp.keysEqual key)

theorem deleteBody_spec {Q : ℕ → Heap K V → Prop} (key : K)
    (list : List (K × V)) (c : Cell K V) (rest : List (Cell K V))
    (deleted : ℕ) :
    Triple (DeleteInv cmp head key list (c :: rest) deleted)
      (deleteBody cmp key (some c.1) deleted)
      (Iterates head (DeleteInv cmp head key list) Q c rest) E := by
  rintro heap ⟨kept, hholds, hitems, hcount⟩
  have hnext := hholds.next_eq
  cases hsel : selects cmp.keysEqual key c.2 with
  | true =>
      have hequal : cmp.keysEqual (heap.node c.1).key key = true :=
        hholds.keysEqual_eq.trans hsel
      rw [deleteBody_of_equal hequal hholds.pre_eq hnext]
      refine ⟨⟨kept, hholds.remove, ?_, ?_⟩, ?_⟩
      · rw [← hitems]
        simp [items, hsel]
      · rw [← hcount]
        simp [items, hsel]
        omega
      · exact hholds.next_removed
  | false =>
      have hdiffer : cmp.keysEqual (heap.node c.1).key key = false :=
        hholds.keysEqual_eq.trans hsel
      rw [deleteBody_of_not_equal hdiffer]
      refine ⟨⟨kept ++ [c], ?_, ?_, ?_⟩, hnext⟩
      · rw [List.append_assoc]
        exact hholds
      · rw [← hitems]
        simp [items, hsel]
      · rw [← hcount]
        simp [items, hsel]

/-- The loop of a method, from the first node on -/
theorem traverse_spec {body : Option Handle → α → Php K V (ForInStep α)}
    {Inv : List (Cell K V) → α → Heap K V → Prop} {Q : α → Heap K V → Prop}
    (hdetects : Detects cmp E)
    (hholds : ∀ {todo a heap}, Inv todo a heap →
      ∃ kept, Holds heap head (kept ++ todo))
    (hbody : ∀ c rest a, Triple (Inv (c :: rest) a) (body (some c.1) a)
      (Iterates head Inv Q c rest) E)
    (hdone : ∀ a heap, Inv [] a heap → Q a heap)
    {list : List (K × V)} {a : α}
    (hstart : ∀ heap cells, Holds heap head cells → items cells = list →
      Inv cells a heap)
    {fuel : ℕ} (hfuel : list.length < fuel) :
    Triple (fun heap => Represents heap head list)
      (traverse cmp head body fuel a) Q E := by
  rintro heap ⟨cells, hcells, hitems⟩
  have hnext : (heap.node head).next = some ((handles cells).headD head) :=
    hcells.ring.joined_head.1
  have hlength : cells.length < fuel := by
    have hsame := congrArg List.length hitems
    rw [items, List.length_map] at hsame
    omega
  show Ends Q E (whileLoop cmp head body fuel (heap.node head).next a heap)
  rw [hnext]
  exact @whileLoop_spec K V α cmp E head body Inv Q hdetects hholds hbody
    hdone cells fuel hlength a heap (hstart heap cells hcells hitems)

theorem delete_spec (hdetects : Detects cmp E) (key : K)
    {list : List (K × V)} {fuel : ℕ} (hfuel : list.length < fuel) :
    Triple (fun heap => Represents heap head list)
      (delete cmp fuel head key)
      (fun deleted heap =>
        deleted = list.countP (selects cmp.keysEqual key) ∧
        Represents heap head
          (list.filter fun item => !selects cmp.keysEqual key item)) E := by
  apply traverse_spec hdetects _ (deleteBody_spec key list) _ _ hfuel
  · rintro todo deleted heap ⟨kept, hholds, _⟩
    exact ⟨kept, hholds⟩
  · rintro deleted heap ⟨kept, hholds, hitems, hcount⟩
    rw [List.append_nil] at hholds
    refine ⟨hcount, kept, hholds, ?_⟩
    rw [← hitems]
    exact (List.append_nil _).symm
  · rintro heap cells hcells rfl
    exact ⟨[], hcells, rfl, Nat.zero_add _⟩

/-- The items that are left to go, and those that have their new value -/
def UpdateInv (cmp : Comparison K V) (head : Handle) (key : K) (newVal : V)
    (list : List (K × V)) (todo : List (Cell K V)) (updated : ℕ)
    (heap : Heap K V) : Prop :=
  ∃ kept, Holds heap head (kept ++ todo) ∧
    items kept ++ (items todo).map (fun item =>
      if selects cmp.keysEqual key item then (item.1, newVal) else item) =
        list.map (fun item =>
          if selects cmp.keysEqual key item then (item.1, newVal) else item) ∧
    updated + (items todo).countP (selects cmp.keysEqual key) =
      list.countP (selects cmp.keysEqual key)

theorem updateBody_spec {Q : ℕ → Heap K V → Prop} (key : K) (newVal : V)
    (list : List (K × V)) (c : Cell K V) (rest : List (Cell K V))
    (updated : ℕ) :
    Triple (UpdateInv cmp head key newVal list (c :: rest) updated)
      (updateBody cmp key newVal (some c.1) updated)
      (Iterates head (UpdateInv cmp head key newVal list) Q c rest) E := by
  rintro heap ⟨kept, hholds, hitems, hcount⟩
  have hnext := hholds.next_eq
  obtain ⟨r, itKey, value⟩ := c
  cases hsel : selects cmp.keysEqual key (itKey, value) with
  | true =>
      have hequal : cmp.keysEqual (heap.node r).key key = true :=
        hholds.keysEqual_eq.trans hsel
      have hupdated : Holds (heap.set r
          { heap.node r with value := some newVal }) head
          (kept ++ (r, itKey, newVal) :: rest) := hholds.setValue
      rw [updateBody_of_equal hequal]
      refine ⟨⟨kept ++ [(r, itKey, newVal)], ?_, ?_, ?_⟩, hupdated.next_eq⟩
      · rw [List.append_assoc]
        exact hupdated
      · rw [← hitems]
        simp [items, hsel]
      · rw [← hcount]
        simp [items, hsel]
        omega
  | false =>
      have hdiffer : cmp.keysEqual (heap.node r).key key = false :=
        hholds.keysEqual_eq.trans hsel
      rw [updateBody_of_not_equal hdiffer]
      refine ⟨⟨kept ++ [(r, itKey, value)], ?_, ?_, ?_⟩, hnext⟩
      · rw [List.append_assoc]
        exact hholds
      · rw [← hitems]
        simp [items, hsel]
      · rw [← hcount]
        simp [items, hsel]

theorem update_spec (hdetects : Detects cmp E) (key : K) (newVal : V)
    {list : List (K × V)} {fuel : ℕ} (hfuel : list.length < fuel) :
    Triple (fun heap => Represents heap head list)
      (update cmp fuel head key newVal)
      (fun updated heap =>
        updated = list.countP (selects cmp.keysEqual key) ∧
        Represents heap head (list.map fun item =>
          if selects cmp.keysEqual key item then (item.1, newVal)
          else item)) E := by
  apply traverse_spec hdetects _ (updateBody_spec key newVal list) _ _ hfuel
  · rintro todo updated heap ⟨kept, hholds, _⟩
    exact ⟨kept, hholds⟩
  · rintro updated heap ⟨kept, hholds, hitems, hcount⟩
    rw [List.append_nil] at hholds
    refine ⟨hcount, kept, hholds, ?_⟩
    rw [← hitems]
    exact (List.append_nil _).symm
  · rintro heap cells hcells rfl
    exact ⟨[], hcells, rfl, Nat.zero_add _⟩

/-- No item in front of the ones that are left to go is selected. -/
def QueryInv (cmp : Comparison K V) (head : Handle) (key : K)
    (list : List (K × V)) (todo : List (Cell K V)) (result : Option V)
    (heap : Heap K V) : Prop :=
  ∃ kept, Holds heap head (kept ++ todo) ∧ items (kept ++ todo) = list ∧
    (items kept).find? (selects cmp.keysEqual key) = none ∧ result = none

theorem queryBody_spec (key : K) (list : List (K × V)) (c : Cell K V)
    (rest : List (Cell K V)) (result : Option V) :
    Triple (QueryInv cmp head key list (c :: rest) result)
      (queryBody cmp key (some c.1) result)
      (Iterates head (QueryInv cmp head key list)
        (fun value heap =>
          value = (list.find? (selects cmp.keysEqual key)).map Prod.snd ∧
          Represents heap head list) c rest) E := by
  rintro heap ⟨kept, hholds, hitems, hfind, hresult⟩
  have hnext := hholds.next_eq
  cases hsel : selects cmp.keysEqual key c.2 with
  | true =>
      have hequal : cmp.keysEqual (heap.node c.1).key key = true :=
        hholds.keysEqual_eq.trans hsel
      rw [queryBody_of_equal hequal, hholds.value_eq]
      refine ⟨?_, kept ++ c :: rest, hholds, hitems⟩
      rw [← hitems, items, List.map_append, List.find?_append]
      rw [items] at hfind
      simp [hfind, hsel]
  | false =>
      have hdiffer : cmp.keysEqual (heap.node c.1).key key = false :=
        hholds.keysEqual_eq.trans hsel
      rw [queryBody_of_not_equal hdiffer]
      refine ⟨⟨kept ++ [c], ?_, ?_, ?_, hresult⟩, hnext⟩
      · rw [List.append_assoc]
        exact hholds
      · rw [List.append_assoc]
        exact hitems
      · rw [items, List.map_append, List.find?_append]
        rw [items] at hfind
        simp [hfind, hsel]

theorem query_spec (hdetects : Detects cmp E) (key : K)
    {list : List (K × V)} {fuel : ℕ} (hfuel : list.length < fuel) :
    Triple (fun heap => Represents heap head list)
      (query cmp fuel head key)
      (fun value heap =>
        value = (list.find? (selects cmp.keysEqual key)).map Prod.snd ∧
        Represents heap head list) E := by
  apply traverse_spec hdetects _ (queryBody_spec key list) _ _ hfuel
  · rintro todo result heap ⟨kept, hholds, _⟩
    exact ⟨kept, hholds⟩
  · rintro result heap ⟨kept, hholds, hitems, hfind, hresult⟩
    rw [List.append_nil] at hholds hitems
    refine ⟨?_, kept, hholds, hitems⟩
    rw [← hitems, hfind, hresult]
    rfl
  · rintro heap cells hcells hitems
    exact ⟨[], hcells, hitems, rfl, rfl⟩

/-- The lines of the items in front of those that are left to go -/
def ShowInv (head : Handle) (list : List (K × V)) (todo : List (Cell K V))
    (lines : List (Option K × Option V)) (heap : Heap K V) : Prop :=
  ∃ kept, Holds heap head (kept ++ todo) ∧ items (kept ++ todo) = list ∧
    lines = (items kept).map fun item => (some item.1, some item.2)

theorem showLines_spec (hdetects : Detects cmp E) {list : List (K × V)}
    {fuel : ℕ} (hfuel : list.length < fuel) :
    Triple (fun heap => Represents heap head list)
      (showLines cmp fuel head)
      (fun lines heap =>
        lines = list.map (fun item => (some item.1, some item.2)) ∧
        Represents heap head list) E := by
  apply @traverse_spec _ _ _ _ _ _ _ (ShowInv head list) _ hdetects _ _ _ _ _
    _ _ hfuel
  · rintro todo lines heap ⟨kept, hholds, _⟩
    exact ⟨kept, hholds⟩
  · rintro c rest lines heap ⟨kept, hholds, hitems, hlines⟩
    rw [showBody_run]
    refine ⟨⟨kept ++ [c], ?_, ?_, ?_⟩, hholds.next_eq⟩
    · rw [List.append_assoc]
      exact hholds
    · rw [List.append_assoc]
      exact hitems
    · rw [hlines, hholds.content c (by simp)]
      simp [items]
  · rintro lines heap ⟨kept, hholds, hitems, hlines⟩
    rw [List.append_nil] at hholds hitems
    refine ⟨?_, kept, hholds, hitems⟩
    rw [hlines, hitems]
  · rintro heap cells hcells hitems
    exact ⟨[], hcells, hitems, rfl⟩

/-- A node that holds an item and is linked to itself -/
def dataNode (r : Handle) (key : K) (value : V) : DoubleLinkNode K V :=
  { key := some key, value := some value, next := some r, pre := some r }

/-- What is assigned to the newest node -/
theorem assign_newest (heap : Heap K V) (node : DoubleLinkNode K V)
    (change : DoubleLinkNode K V → DoubleLinkNode K V) :
    assign (some heap.size) change (heap.withNode node) =
      .ok ((), heap.withNode (change node)) := by
  have hset : (heap.withNode node).set heap.size
      (change ((heap.withNode node).node heap.size)) =
        heap.withNode (change node) := by
    unfold Heap.withNode Heap.set
    simp only [Function.update_self, Function.update_idem]
  rw [← hset]
  rfl

theorem newData_run (heap : Heap K V) (key : K) (value : V) :
    newData key value heap =
      .ok (heap.size, heap.withNode (dataNode heap.size key value)) := by
  have hnew : newNode heap =
      .ok (heap.size, heap.withNode ⟨none, none, none, none⟩) := rfl
  unfold newData
  simp only [bind, StateT.bind, hnew, Except.bind, setKey, setValue, setNext,
    setPre, assign_newest]
  rfl

theorem construct_spec :
    Triple (fun _ => True) (construct : Php K V Handle)
      (fun head heap => Represents heap head []) E := by
  intro heap _
  have hnew : newNode heap =
      .ok (heap.size, heap.withNode ⟨none, none, none, none⟩) := rfl
  have hrun : construct heap = .ok (heap.size, heap.withNode
      ⟨none, none, some heap.size, some heap.size⟩) := by
    unfold construct
    simp only [bind, StateT.bind, hnew, Except.bind, setNext, setPre,
      assign_newest]
    rfl
  have hself : ((heap.withNode
      ⟨none, none, some heap.size, some heap.size⟩).node heap.size) =
        ⟨none, none, some heap.size, some heap.size⟩ :=
    heap.node_withNode_self _
  rw [hrun]
  refine ⟨[], ⟨?_, ?_, ?_, ?_⟩, rfl⟩
  · apply Links.Ring.single
    · exact congrArg DoubleLinkNode.next hself
    · exact congrArg DoubleLinkNode.pre hself
  · intro c hc
    cases hc
  · unfold Heap.content
    rw [hself]
  · intro r hr
    rw [List.mem_singleton.mp hr]
    exact Nat.lt_succ_self heap.size

/-- A new node gets its place between two nodes. -/
theorem Holds.insert_new {heap : Heap K V} {xs ys : List (Cell K V)}
    (hholds : Holds heap head (xs ++ ys)) (key : K) (value : V) :
    Holds (((heap.withNode (dataNode heap.size key value)).joinNodes
        ((handles xs).getLastD head) heap.size).joinNodes heap.size
        ((handles ys).headD head)) head (xs ++ (heap.size, key, value) :: ys) := by
  apply (hholds.withNode (dataNode heap.size key value)).insert
  · intro hmem
    exact Nat.lt_irrefl heap.size (hholds.allocated heap.size hmem)
  · exact Nat.lt_succ_self heap.size
  · unfold Heap.content
    rw [Heap.node_withNode_self]
    rfl

theorem add_spec (key : K) (value : V) (list : List (K × V)) :
    Triple (fun heap => Represents heap head list) (add head key value)
      (fun _ heap => Represents heap head ((key, value) :: list)) E := by
  rintro heap ⟨cells, hcells, hitems⟩
  have hnext := (hcells.withNode (dataNode heap.size key value)).ring
    |>.joined_head.1
  have hinserted := @Holds.insert_new _ _ head heap [] cells hcells key value
  have hrun : add head key value heap = .ok ((),
      (((heap.withNode (dataNode heap.size key value)).joinNodes head
        heap.size).joinNodes heap.size ((handles cells).headD head))) := by
    unfold add
    simp only [bind, StateT.bind, newData_run, Except.bind, readProperty_run]
    rw [show ((heap.withNode (dataNode heap.size key value)).node head).next =
      some ((handles cells).headD head) from hnext, addBetween_run]
  rw [hrun]
  refine ⟨_, hinserted, ?_⟩
  rw [← hitems]
  rfl

theorem addTail_spec (key : K) (value : V) (list : List (K × V)) :
    Triple (fun heap => Represents heap head list) (addTail head key value)
      (fun _ heap => Represents heap head (list ++ [(key, value)])) E := by
  rintro heap ⟨cells, hcells, hitems⟩
  have hpre := (hcells.withNode (dataNode heap.size key value)).ring
    |>.joined_last.2
  have hcut : Holds heap head (cells ++ []) := by
    rw [List.append_nil]
    exact hcells
  have hinserted := hcut.insert_new key value
  have hrun : addTail head key value heap = .ok ((),
      (((heap.withNode (dataNode heap.size key value)).joinNodes
        ((handles cells).getLastD head) heap.size).joinNodes heap.size
          head)) := by
    unfold addTail
    simp only [bind, StateT.bind, newData_run, Except.bind, readProperty_run]
    rw [show ((heap.withNode (dataNode heap.size key value)).node head).pre =
      some ((handles cells).getLastD head) from hpre, addBetween_run]
  rw [hrun]
  refine ⟨_, hinserted, ?_⟩
  rw [← hitems]
  simp [items]

/-! ## Calls -/

theorem Call.length_onList (keysEqual : Option K → K → Bool)
    (call : Call K V) (list : List (K × V)) :
    (call.onList keysEqual list).2.length ≤ list.length + 1 := by
  cases call with
  | add key value => exact le_rfl
  | addTail key value => simp [Call.onList]
  | delete key =>
      exact (List.length_filter_le _ list).trans (Nat.le_succ _)
  | update key newVal => simp [Call.onList]
  | query key => exact Nat.le_succ _
  | showLines => exact Nat.le_succ _

/-- A call does to the nodes what it does to the list. -/
theorem Call.run_spec (hdetects : Detects cmp E) (call : Call K V)
    {list : List (K × V)} {fuel : ℕ} (hfuel : list.length < fuel) :
    Triple (fun heap => Represents heap head list) (call.run cmp fuel head)
      (fun reply heap =>
        reply = (call.onList cmp.keysEqual list).1 ∧
        Represents heap head (call.onList cmp.keysEqual list).2) E := by
  cases call with
  | add key value =>
      apply (add_spec key value list).bind
      intro _
      exact Triple.pure fun heap hlist => ⟨rfl, hlist⟩
  | addTail key value =>
      apply (addTail_spec key value list).bind
      intro _
      exact Triple.pure fun heap hlist => ⟨rfl, hlist⟩
  | delete key =>
      apply (delete_spec hdetects key hfuel).bind
      intro deleted
      apply Triple.pure
      rintro heap ⟨rfl, hlist⟩
      exact ⟨rfl, hlist⟩
  | update key newVal =>
      apply (update_spec hdetects key newVal hfuel).bind
      intro updated
      apply Triple.pure
      rintro heap ⟨rfl, hlist⟩
      exact ⟨rfl, hlist⟩
  | query key =>
      apply (query_spec hdetects key hfuel).bind
      intro value
      apply Triple.pure
      rintro heap ⟨rfl, hlist⟩
      exact ⟨rfl, hlist⟩
  | showLines =>
      apply (showLines_spec hdetects hfuel).bind
      intro lines
      apply Triple.pure
      rintro heap ⟨rfl, hlist⟩
      exact ⟨rfl, hlist⟩

theorem runCalls_spec (hdetects : Detects cmp E) (calls : List (Call K V))
    {list : List (K × V)} {fuel : ℕ}
    (hfuel : list.length + calls.length ≤ fuel) :
    Triple (fun heap => Represents heap head list)
      (runCalls cmp fuel head calls)
      (fun replies heap =>
        replies = (callsOnList cmp.keysEqual calls list).1 ∧
        Represents heap head (callsOnList cmp.keysEqual calls list).2) E := by
  induction calls generalizing list with
  | nil => exact Triple.pure fun heap hlist => ⟨rfl, hlist⟩
  | cons call rest ih =>
      rw [List.length_cons] at hfuel
      have hlength := call.length_onList cmp.keysEqual list
      have hrest : (call.onList cmp.keysEqual list).2.length + rest.length ≤
          fuel := by omega
      apply (call.run_spec hdetects (show list.length < fuel by omega)).bind
      rintro reply heap ⟨rfl, hcall⟩
      apply (ih hrest).bind _ heap hcall
      intro replies
      apply Triple.pure
      rintro heap ⟨rfl, hlist⟩
      exact ⟨rfl, hlist⟩

theorem program_spec (hdetects : Detects cmp E) (calls : List (Call K V))
    {fuel : ℕ} (hfuel : calls.length ≤ fuel) :
    Triple (fun _ => True) (program cmp fuel calls)
      (fun result heap =>
        result.2 = (callsOnList cmp.keysEqual calls []).1 ∧
        Represents heap result.1 (callsOnList cmp.keysEqual calls []).2)
      E := by
  apply construct_spec.bind
  intro head
  have hlength : ([] : List (K × V)).length + calls.length ≤ fuel := by
    rw [List.length_nil, Nat.zero_add]
    exact hfuel
  apply (runCalls_spec hdetects calls hlength).bind
  intro replies
  exact Triple.pure fun heap hresult => hresult

end Loops

/-! ## Refinement -/

/-- Let the loop test be false at the sentinel only.  Then the calls on a new
`DoubleLink` return what the list model returns, the nodes form a ring through
the sentinel and hold the items of the list, the walks along `next` and `pre`
go through the same nodes in opposite orders, and the links of a node and of
its neighbour are inverse. -/
theorem doubleLink_refines_list {cmp : Comparison K V}
    (hdiffers : ∀ heap it head,
      cmp.differs heap (some it) (some head) = .ok (decide (it ≠ head)))
    (calls : List (Call K V)) {fuel : ℕ} (hfuel : calls.length ≤ fuel)
    (start : Heap K V) :
    ∃ head replies heap cells,
      program cmp fuel calls start = .ok ((head, replies), heap) ∧
      replies = (callsOnList cmp.keysEqual calls []).1 ∧
      Holds heap head cells ∧
      items cells = (callsOnList cmp.keysEqual calls []).2 ∧
      Links.walk heap.links.next (cells.length + 1) head =
        handles cells ++ [head] ∧
      Links.walk heap.links.pre (cells.length + 1) head =
        (handles cells).reverse ++ [head] ∧
      ∀ a ∈ head :: handles cells,
        (∃ b ∈ head :: handles cells,
          heap.links.next a = some b ∧ heap.links.pre b = some a) ∧
        ∃ b ∈ head :: handles cells,
          heap.links.pre a = some b ∧ heap.links.next b = some a := by
  have hdetects : Detects cmp fun _ => False := by
    intro heap head cells hcells
    constructor
    · rw [hdiffers]
      simp
    · intro c hc
      have hne : c.1 ≠ head := by
        intro hsame
        have hmem : c.1 ∈ handles cells := List.mem_map_of_mem hc
        exact (List.nodup_cons.mp hcells.ring.nodup).1 (hsame ▸ hmem)
      left
      rw [hdiffers]
      simp [hne]
  obtain ⟨⟨head, replies⟩, heap, hrun, hreplies, cells, hcells, hitems⟩ :=
    (program_spec hdetects calls hfuel).ok (s := start) trivial
  have hlength : cells.length = (handles cells).length :=
    (List.length_map _).symm
  have hnext := hcells.ring.walk_next
  have hpre := hcells.ring.walk_pre
  rw [← hlength] at hnext hpre
  exact ⟨head, replies, heap, cells, hrun, hreplies, hcells, hitems, hnext,
    hpre, fun a ha => hcells.ring.inverse ha⟩

/-- Keys that are numbers, and nodes that are told by their handles -/
def handleComparison : Comparison ℕ ℕ where
  keysEqual := fun itKey key => itKey == some key
  differs := fun _ it head => .ok (decide (it ≠ head))

theorem doubleLink_refines_list_delete_two :
    ∃ head replies heap cells,
      program handleComparison 6
          [.addTail 1 10, .addTail 1 11, .add 2 12, .delete 1, .update 2 13,
            .query 2] ⟨0, fun _ => ⟨none, none, none, none⟩⟩ =
        .ok ((head, replies), heap) ∧
      replies = [.nothing, .nothing, .nothing, .count 2, .count 1,
        .value (some 13)] ∧
      Holds heap head cells ∧ items cells = [(2, 13)] := by
  have hrefines := @doubleLink_refines_list ℕ ℕ handleComparison
    (fun heap it head => by simp [handleComparison])
    [.addTail 1 10, .addTail 1 11, .add 2 12, .delete 1, .update 2 13,
      .query 2] 6 (by decide) ⟨0, fun _ => ⟨none, none, none, none⟩⟩
  obtain ⟨head, replies, heap, cells, hrun, hreplies, hholds, hitems, _⟩ :=
    hrefines
  exact ⟨head, replies, heap, cells, hrun, hreplies, hholds, hitems⟩

end DoubleLink
end ClpszDemos
