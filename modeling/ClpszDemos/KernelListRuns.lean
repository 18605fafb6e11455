import ClpszDemos.KernelList
import ClpszDemos.RingFamily

/-!
# The list of the kernel refines lists

Any number of lists live in one memory.  As long as an entry is added when it
is in no list, and taken out of one that it is in, each call does to the lists
what its comment says: no access is a fault, and no other list changes.
-/

namespace ClpszDemos

namespace KernelList

open Links

variable {ρ α β : Type} {links : Links ρ} {lists : HeadLists ρ}

/-! ## Accesses -/

theorem run_bind {code : Code ρ α} {f : α → Code ρ β} {a : α}
    {links' : Links ρ} (hcode : code links = .ok (a, links')) :
    (code >>= f) links = f a links' := by
  show (code links >>= fun r => f r.1 r.2) = _
  rw [hcode]
  rfl

theorem run_bind_error {code : Code ρ α} {f : α → Code ρ β} {fault : Fault}
    (hcode : code links = .error fault) : (code >>= f) links = .error fault := by
  show (code links >>= fun r => f r.1 r.2) = _
  rw [hcode]
  rfl

theorem readNext_run (links : Links ρ) (a : ρ) :
    readNext (some a) links = .ok (links.next a, links) := rfl

theorem readPrev_run (links : Links ρ) (a : ρ) :
    readPrev (some a) links = .ok (links.pre a, links) := rfl

variable [DecidableEq ρ]

theorem listDelBetween_run (links : Links ρ) (prev next : ρ) :
    listDelBetween (some prev) (some next) links =
      .ok ((), links.join prev next) := rfl

theorem initListHead_run (links : Links ρ) (a : ρ) :
    initListHead (some a) links = .ok ((), links.join a a) := rfl

theorem listAddBetween_run {new prev next : ρ} (hprev : prev ≠ new)
    (hnext : next ≠ new) (links : Links ρ) :
    listAddBetween (some new) (some prev) (some next) links =
      .ok ((), (links.join prev new).join new next) := by
  show Except.ok ((), Links.mk
    (Function.update (Function.update links.next new (some next)) prev (some new))
    (Function.update (Function.update links.pre next (some new)) new
      (some prev))) = _
  rw [Function.update_comm (Ne.symm hprev), Function.update_comm hnext]
  rfl

/-! ## Calls -/

inductive Call (ρ : Type)
  | init (head : ρ)
  | add (new head : ρ)
  | addTail (new head : ρ)
  | del (entry : ρ)
  | delInit (entry : ρ)
  | move (list head : ρ)
  | moveTail (list head : ρ)
  | splice (list head : ρ)
  | spliceInit (list head : ρ)

namespace Call

def run : Call ρ → Code ρ Unit
  | init head => initListHead (some head)
  | add new head => listAdd (some new) (some head)
  | addTail new head => listAddTail (some new) (some head)
  | del entry => listDel (some entry)
  | delInit entry => listDelInit (some entry)
  | move list head => listMove (some list) (some head)
  | moveTail list head => listMoveTail (some list) (some head)
  | splice list head => listSplice (some list) (some head)
  | spliceInit list head => listSpliceInit (some list) (some head)

/-- What a call asks of its arguments.  `list_del_init` may also be called for
an entry that is linked to itself. -/
def Allowed (lists : HeadLists ρ) : Call ρ → Prop
  | init head => ¬lists.IsMember head
  | add new head => lists.IsLoose new ∧ (lists head).isSome ∧ new ≠ head
  | addTail new head => lists.IsLoose new ∧ (lists head).isSome ∧ new ≠ head
  | del entry => lists.IsMember entry
  | delInit entry => lists.IsMember entry ∨ lists entry = some []
  | move list head => lists.IsMember list ∧ (lists head).isSome
  | moveTail list head => lists.IsMember list ∧ (lists head).isSome
  | splice list head => (lists list).isSome ∧ (lists head).isSome ∧ list ≠ head
  | spliceInit list head =>
      (lists list).isSome ∧ (lists head).isSome ∧ list ≠ head

instance [Fintype ρ] (lists : HeadLists ρ) (call : Call ρ) :
    Decidable (call.Allowed lists) := by
  cases call <;> unfold Allowed <;> infer_instance

end Call

/-- A node in front of all others, after it has left its own list -/
def addFirst (lists : HeadLists ρ) (new head : ρ) : HeadLists ρ :=
  Function.update (Function.update lists new none) head
    ((lists head).map (new :: ·))

def addLast (lists : HeadLists ρ) (new head : ρ) : HeadLists ρ :=
  Function.update (Function.update lists new none) head
    ((lists head).map (· ++ [new]))

/-- The nodes of one list in front of those of another; the first head is left
with `left`, unless it has no nodes. -/
def putInFront (lists : HeadLists ρ) (list head : ρ) (left : Option (List ρ)) :
    HeadLists ρ :=
  match lists list with
  | some (x :: xs) => Function.update (Function.update lists list left) head
      ((lists head).map (x :: xs ++ ·))
  | _ => lists

/-- The effect of a call on the lists -/
def Call.onLists (lists : HeadLists ρ) : Call ρ → HeadLists ρ
  | .init head => Function.update lists head (some [])
  | .add new head => addFirst lists new head
  | .addTail new head => addLast lists new head
  | .del entry => lists.erase entry
  | .delInit entry => Function.update (lists.erase entry) entry (some [])
  | .move list head => addFirst (lists.erase list) list head
  | .moveTail list head => addLast (lists.erase list) list head
  | .splice list head => putInFront lists list head none
  | .spliceInit list head => putInFront lists list head (some [])

/-! ## One call -/

theorem listAdd_spec (hrings : Rings links lists) {new head : ρ}
    {nodes : List ρ} (hloose : lists.IsLoose new)
    (hhead : lists head = some nodes) (hne : new ≠ head) :
    ∃ links', listAdd (some new) (some head) links = .ok ((), links') ∧
      Rings links' (addFirst lists new head) := by
  have hnotMem := Rings.loose_notMem hloose hne hhead
  have hfirst : nodes.headD head ≠ new :=
    ne_of_mem_of_not_mem (headD_mem nodes head) hnotMem
  have hnext : links.next head = some (nodes.headD head) :=
    (hrings.ring hhead).joined_head.1
  have hhead' : lists head = some ([] ++ nodes) := hhead
  have hinsert := hrings.insert hhead' hloose hne
  refine ⟨(links.join head new).join new (nodes.headD head), ?_, ?_⟩
  · unfold listAdd
    show listAddBetween (some new) (some head) (links.next head) links = _
    rw [hnext, listAddBetween_run (Ne.symm hne) hfirst]
  · unfold addFirst
    rw [hhead]
    exact hinsert

theorem listAddTail_spec (hrings : Rings links lists) {new head : ρ}
    {nodes : List ρ} (hloose : lists.IsLoose new)
    (hhead : lists head = some nodes) (hne : new ≠ head) :
    ∃ links', listAddTail (some new) (some head) links = .ok ((), links') ∧
      Rings links' (addLast lists new head) := by
  have hnotMem := Rings.loose_notMem hloose hne hhead
  have hlast : nodes.getLastD head ≠ new :=
    ne_of_mem_of_not_mem List.getLastD_mem_cons hnotMem
  have hprev : links.pre head = some (nodes.getLastD head) :=
    (hrings.ring hhead).joined_last.2
  have hhead' : lists head = some (nodes ++ []) := by
    rw [List.append_nil]
    exact hhead
  have hinsert := hrings.insert hhead' hloose hne
  refine ⟨(links.join (nodes.getLastD head) new).join new head, ?_, ?_⟩
  · unfold listAddTail
    show listAddBetween (some new) (links.pre head) (some head) links = _
    rw [hprev, listAddBetween_run hlast (Ne.symm hne)]
  · unfold addLast
    rw [hhead]
    exact hinsert

theorem listDelEntry_spec (hrings : Rings links lists) {entry : ρ}
    (hentry : lists.IsMember entry) :
    ∃ links', listDelEntry (some entry) links = .ok ((), links') ∧
      Rings links' (lists.erase entry) := by
  obtain ⟨head, nodes, hhead, hmem⟩ := hentry
  obtain ⟨xs, ys, rfl⟩ := List.append_of_mem hmem
  have hring := hrings.ring hhead
  refine ⟨links.join (xs.getLastD head) (ys.headD head), ?_, ?_⟩
  · unfold listDelEntry
    show listDelBetween (links.pre entry) (links.next entry) links = _
    rw [hring.joined_pre.2, hring.joined_next.1, listDelBetween_run]
  · rw [hrings.erase_eq hhead]
    exact hrings.remove hhead

theorem listDel_spec (hrings : Rings links lists) {entry : ρ}
    (hentry : lists.IsMember entry) :
    ∃ links', listDel (some entry) links = .ok ((), links') ∧
      Rings links' (lists.erase entry) := by
  obtain ⟨links₁, hdel, hrings₁⟩ := listDelEntry_spec hrings hentry
  refine ⟨⟨Function.update links₁.next entry none,
    Function.update links₁.pre entry none⟩, ?_, ?_⟩
  · exact run_bind hdel
  · apply hrings₁.congr_except (hrings.erase_loose hentry).notMember
      (hrings.erase_head hentry)
    intro a ha
    exact ⟨Function.update_of_ne ha .., Function.update_of_ne ha ..⟩

theorem listDelInit_spec (hrings : Rings links lists) {entry : ρ}
    (hentry : lists.IsMember entry ∨ lists entry = some []) :
    ∃ links', listDelInit (some entry) links = .ok ((), links') ∧
      Rings links' (Function.update (lists.erase entry) entry (some [])) := by
  rcases hentry with hmem | halone
  · obtain ⟨links₁, hdel, hrings₁⟩ := listDelEntry_spec hrings hmem
    refine ⟨links₁.join entry entry, ?_,
      hrings₁.alone (hrings.erase_loose hmem).notMember⟩
    exact run_bind hdel
  · -- the entry is joined to itself, twice
    have hring := hrings.ring halone
    have hnotMem := hrings.head_notMember halone
    refine ⟨(links.join entry entry).join entry entry, ?_, ?_⟩
    · have hdel : listDelEntry (some entry) links =
          .ok ((), links.join entry entry) := by
        show listDelBetween (links.pre entry) (links.next entry) links = _
        rw [hring.joined_last.2, hring.joined_head.1]
        rfl
      exact run_bind hdel
    · have hself : Function.update lists entry (some []) = lists :=
        Function.update_eq_self_iff.mpr halone.symm
      have honce := hrings.alone hnotMem
      rw [hself] at honce
      rw [Rings.erase_of_notMember hnotMem]
      exact honce.alone hnotMem

theorem listMove_spec (hrings : Rings links lists) {list head : ρ}
    (hlist : lists.IsMember list) (hhead : (lists head).isSome) :
    ∃ links', listMove (some list) (some head) links = .ok ((), links') ∧
      Rings links' (addFirst (lists.erase list) list head) := by
  obtain ⟨nodes, hnodes⟩ := Option.isSome_iff_exists.mp hhead
  have hne : list ≠ head := by
    rintro rfl
    exact hrings.head_notMember hnodes hlist
  obtain ⟨links₁, hdel, hrings₁⟩ := listDelEntry_spec hrings hlist
  have hhead₁ : lists.erase list head = some (nodes.erase list) := by
    unfold HeadLists.erase
    rw [hnodes, Option.map_some]
  obtain ⟨links', hadd, hrings'⟩ :=
    listAdd_spec hrings₁ (hrings.erase_loose hlist) hhead₁ hne
  refine ⟨links', ?_, hrings'⟩
  exact (run_bind hdel).trans hadd

theorem listMoveTail_spec (hrings : Rings links lists) {list head : ρ}
    (hlist : lists.IsMember list) (hhead : (lists head).isSome) :
    ∃ links', listMoveTail (some list) (some head) links = .ok ((), links') ∧
      Rings links' (addLast (lists.erase list) list head) := by
  obtain ⟨nodes, hnodes⟩ := Option.isSome_iff_exists.mp hhead
  have hne : list ≠ head := by
    rintro rfl
    exact hrings.head_notMember hnodes hlist
  obtain ⟨links₁, hdel, hrings₁⟩ := listDelEntry_spec hrings hlist
  have hhead₁ : lists.erase list head = some (nodes.erase list) := by
    unfold HeadLists.erase
    rw [hnodes, Option.map_some]
  obtain ⟨links', hadd, hrings'⟩ :=
    listAddTail_spec hrings₁ (hrings.erase_loose hlist) hhead₁ hne
  refine ⟨links', ?_, hrings'⟩
  exact (run_bind hdel).trans hadd

theorem listEmpty_spec (hrings : Rings links lists) {head : ρ}
    {nodes : List ρ} (hhead : lists head = some nodes) :
    listEmpty (some head) links = .ok (nodes.isEmpty, links) := by
  have hring := hrings.ring hhead
  unfold listEmpty
  show Except.ok (decide (links.next head = some head), links) = _
  rw [hring.joined_head.1]
  cases nodes with
  | nil => simp
  | cons x xs =>
      have hne : x ≠ head := by
        rintro rfl
        exact (List.nodup_cons.mp hring.nodup).1 List.mem_cons_self
      simp [hne]

theorem listSpliceBetween_spec (hrings : Rings links lists) {list head x : ρ}
    {xs ys : List ρ} (hlist : lists list = some (x :: xs))
    (hhead : lists head = some ys) (hne : list ≠ head) :
    ∃ links', listSpliceBetween (some list) (some head) links =
        .ok ((), links') ∧
      Rings links' (Function.update (Function.update lists list none) head
        (some (x :: xs ++ ys))) := by
  have hring := hrings.ring hlist
  have hlast : (x :: xs).getLastD list = (x :: xs).getLastD head := by
    rw [List.getLastD_cons, List.getLastD_cons]
  refine ⟨(links.join head x).join ((x :: xs).getLastD head) (ys.headD head),
    ?_, hrings.splice hhead hlist hne⟩
  unfold listSpliceBetween
  show (do
    setPrev (links.next list) (some head)
    setNext (some head) (links.next list)
    setNext (links.pre list) (links.next head)
    setPrev (links.next head) (links.pre list)) links = _
  rw [hring.joined_head.1, hring.joined_last.2,
    (hrings.ring hhead).joined_head.1, hlast]
  rfl

theorem listSplice_spec (hrings : Rings links lists) {list head : ρ}
    (hlist : (lists list).isSome) (hhead : (lists head).isSome)
    (hne : list ≠ head) :
    ∃ links', listSplice (some list) (some head) links = .ok ((), links') ∧
      Rings links' (putInFront lists list head none) := by
  obtain ⟨nodes, hnodes⟩ := Option.isSome_iff_exists.mp hlist
  obtain ⟨ys, hys⟩ := Option.isSome_iff_exists.mp hhead
  have hempty := listEmpty_spec hrings hnodes
  unfold putInFront
  rw [hnodes]
  cases nodes with
  | nil =>
      exact ⟨links, run_bind hempty, hrings⟩
  | cons x xs =>
      obtain ⟨links', hsplice, hrings'⟩ :=
        listSpliceBetween_spec hrings hnodes hys hne
      refine ⟨links', ?_, ?_⟩
      · exact (run_bind hempty).trans hsplice
      · rw [hys]
        exact hrings'

theorem listSpliceInit_spec (hrings : Rings links lists) {list head : ρ}
    (hlist : (lists list).isSome) (hhead : (lists head).isSome)
    (hne : list ≠ head) :
    ∃ links', listSpliceInit (some list) (some head) links = .ok ((), links') ∧
      Rings links' (putInFront lists list head (some [])) := by
  obtain ⟨nodes, hnodes⟩ := Option.isSome_iff_exists.mp hlist
  obtain ⟨ys, hys⟩ := Option.isSome_iff_exists.mp hhead
  have hempty := listEmpty_spec hrings hnodes
  unfold putInFront
  rw [hnodes]
  cases nodes with
  | nil =>
      exact ⟨links, run_bind hempty, hrings⟩
  | cons x xs =>
      obtain ⟨links₁, hsplice, hrings₁⟩ :=
        listSpliceBetween_spec hrings hnodes hys hne
      have halone := hrings₁.alone (hrings.notMember_splice hys hnodes hne)
      rw [Function.update_comm (Ne.symm hne), Function.update_idem] at halone
      refine ⟨links₁.join list list, ?_, ?_⟩
      · exact (run_bind hempty).trans (run_bind hsplice)
      · rw [hys]
        exact halone

/-- One call, with what it asks of its arguments -/
theorem Call.run_spec (hrings : Rings links lists) {call : Call ρ}
    (hallowed : call.Allowed lists) :
    ∃ links', call.run links = .ok ((), links') ∧
      Rings links' (call.onLists lists) := by
  cases call with
  | init head => exact ⟨_, initListHead_run links head, hrings.alone hallowed⟩
  | add new head =>
      obtain ⟨hloose, hhead, hne⟩ := hallowed
      obtain ⟨nodes, hnodes⟩ := Option.isSome_iff_exists.mp hhead
      exact listAdd_spec hrings hloose hnodes hne
  | addTail new head =>
      obtain ⟨hloose, hhead, hne⟩ := hallowed
      obtain ⟨nodes, hnodes⟩ := Option.isSome_iff_exists.mp hhead
      exact listAddTail_spec hrings hloose hnodes hne
  | del entry => exact listDel_spec hrings hallowed
  | delInit entry => exact listDelInit_spec hrings hallowed
  | move list head => exact listMove_spec hrings hallowed.1 hallowed.2
  | moveTail list head => exact listMoveTail_spec hrings hallowed.1 hallowed.2
  | splice list head =>
      exact listSplice_spec hrings hallowed.1 hallowed.2.1 hallowed.2.2
  | spliceInit list head =>
      exact listSpliceInit_spec hrings hallowed.1 hallowed.2.1 hallowed.2.2

/-! ## Runs -/

def runCalls : List (Call ρ) → Code ρ Unit
  | [] => pure ()
  | call :: calls => do
      call.run
      runCalls calls

/-- Every call is allowed where the calls before it have left the lists. -/
def AllowedRun : HeadLists ρ → List (Call ρ) → Prop
  | _, [] => True
  | lists, call :: calls =>
      call.Allowed lists ∧ AllowedRun (call.onLists lists) calls

instance decidableAllowedRun [Fintype ρ] :
    ∀ (lists : HeadLists ρ) (calls : List (Call ρ)),
      Decidable (AllowedRun lists calls)
  | _, [] => inferInstanceAs (Decidable True)
  | lists, call :: calls =>
      have := decidableAllowedRun (call.onLists lists) calls
      inferInstanceAs (Decidable (call.Allowed lists ∧ _))

theorem runCalls_spec {calls : List (Call ρ)} (hrings : Rings links lists)
    (hallowed : AllowedRun lists calls) :
    ∃ links', runCalls calls links = .ok ((), links') ∧
      Rings links' (calls.foldl Call.onLists lists) := by
  induction calls generalizing links lists with
  | nil => exact ⟨links, rfl, hrings⟩
  | cons call calls ih =>
      obtain ⟨links₁, hrun, hrings₁⟩ := Call.run_spec hrings hallowed.1
      obtain ⟨links', hruns, hrings'⟩ := ih hrings₁ hallowed.2
      exact ⟨links', (run_bind hrun).trans hruns, hrings'⟩

/-! ## Walks -/

theorem forEachFrom_head (body : Option ρ → Code ρ Unit) (head : Option ρ)
    (step : Option ρ → Code ρ (Option ρ)) (fuel : ℕ) (links : Links ρ) :
    forEachFrom body head step (fuel + 1) head links = .ok ([], links) := by
  unfold forEachFrom
  rw [if_pos rfl]
  rfl

theorem forEachFrom_round {body : Option ρ → Code ρ Unit} {head pos next : ρ}
    {step : Option ρ → Code ρ (Option ρ)} {links links₁ : Links ρ} (fuel : ℕ)
    (hne : pos ≠ head) (hbody : body (some pos) links = .ok ((), links₁))
    (hstep : step (some pos) links₁ = .ok (some next, links₁)) :
    forEachFrom body (some head) step (fuel + 1) (some pos) links =
      (do
        let rest ← forEachFrom body (some head) step fuel (some next)
        return some pos :: rest) links₁ := by
  conv_lhs => unfold forEachFrom
  rw [if_neg (fun h => hne (Option.some.inj h))]
  exact (run_bind hbody).trans (run_bind hstep)

/-- A loop whose body does nothing, along one of the links -/
theorem forEachFrom_chain {head : ρ} {step : Option ρ → Code ρ (Option ρ)}
    {nodes : List ρ} {a : ρ} (hhead : head ∉ nodes)
    (hstep : List.IsChain (fun a b => step (some a) links = .ok (some b, links))
      (a :: (nodes ++ [head]))) {fuel : ℕ} (hfuel : nodes.length < fuel) :
    ∃ first, step (some a) links = .ok (first, links) ∧
      forEachFrom (fun _ => pure ()) (some head) step fuel first links =
        .ok (nodes.map some, links) := by
  obtain ⟨fuel, rfl⟩ :=
    Nat.exists_eq_add_one_of_ne_zero (Nat.ne_zero_of_lt hfuel)
  induction nodes generalizing a fuel with
  | nil =>
      exact ⟨some head, (List.isChain_cons_cons.mp hstep).1,
        forEachFrom_head _ _ _ _ _⟩
  | cons b nodes ih =>
      obtain ⟨hab, hrest⟩ := List.isChain_cons_cons.mp hstep
      have hlt : nodes.length < fuel := Nat.lt_of_succ_lt_succ hfuel
      obtain ⟨fuel, rfl⟩ :=
        Nat.exists_eq_add_one_of_ne_zero (Nat.ne_zero_of_lt hlt)
      obtain ⟨next, hnext, hloop⟩ :=
        ih (fun h => hhead (List.mem_cons_of_mem b h)) hrest fuel hlt
      have hne : b ≠ head := fun h => hhead (h ▸ List.mem_cons_self)
      refine ⟨some b, hab, ?_⟩
      obtain ⟨c, rfl⟩ : ∃ c, next = some c := by
        cases nodes with
        | nil =>
            have hlast := (List.isChain_cons_cons.mp hrest).1
            rw [hnext] at hlast
            exact ⟨head, by cases hlast; rfl⟩
        | cons c nodes =>
            have hc := (List.isChain_cons_cons.mp hrest).1
            rw [hnext] at hc
            exact ⟨c, by cases hc; rfl⟩
      rw [forEachFrom_round (fuel + 1) hne rfl hnext]
      exact run_bind hloop

theorem listForEach_spec (hrings : Rings links lists) {head : ρ}
    {nodes : List ρ} (hhead : lists head = some nodes) {fuel : ℕ}
    (hfuel : nodes.length < fuel) :
    listForEach (fun _ => pure ()) (some head) fuel links =
      .ok (nodes.map some, links) := by
  have hring := hrings.ring hhead
  have hchain : List.IsChain (fun a b => readNext (some a) links =
      .ok (some b, links)) (head :: (nodes ++ [head])) := by
    apply hring.joined.imp
    intro a b hab
    rw [readNext_run, hab.1]
  obtain ⟨first, hfirst, hloop⟩ :=
    forEachFrom_chain (List.nodup_cons.mp hring.nodup).1 hchain hfuel
  exact (run_bind hfirst).trans hloop

theorem listForEachPrev_spec (hrings : Rings links lists) {head : ρ}
    {nodes : List ρ} (hhead : lists head = some nodes) {fuel : ℕ}
    (hfuel : nodes.length < fuel) :
    listForEachPrev (fun _ => pure ()) (some head) fuel links =
      .ok (nodes.reverse.map some, links) := by
  have hring := hrings.ring hhead
  have hchain : List.IsChain (fun a b => readPrev (some a) links =
      .ok (some b, links)) (head :: (nodes.reverse ++ [head])) := by
    have hreverse : head :: (nodes.reverse ++ [head]) =
        (head :: (nodes ++ [head])).reverse := by simp
    rw [hreverse]
    apply (List.isChain_reverse.mpr hring.joined).imp
    intro a b hab
    rw [readPrev_run, hab.2]
  have hnotMem : head ∉ nodes.reverse := by
    rw [List.mem_reverse]
    exact (List.nodup_cons.mp hring.nodup).1
  have hlength : nodes.reverse.length < fuel := by
    rw [List.length_reverse]
    exact hfuel
  obtain ⟨first, hfirst, hloop⟩ := forEachFrom_chain hnotMem hchain hlength
  exact (run_bind hfirst).trans hloop

/-- From any memory, whatever lists the calls make, take apart and join: no call
faults, and each head then has the nodes that the same calls give a list. -/
theorem list_refines {calls : List (Call ρ)}
    (hallowed : AllowedRun (fun _ => none) calls) (links : Links ρ) :
    ∃ links', runCalls calls links = .ok ((), links') ∧
      ∀ head nodes, calls.foldl Call.onLists (fun _ => none) head = some nodes →
        listEmpty (some head) links' = .ok (nodes.isEmpty, links') ∧
        ∀ fuel, nodes.length < fuel →
          listForEach (fun _ => pure ()) (some head) fuel links' =
            .ok (nodes.map some, links') ∧
          listForEachPrev (fun _ => pure ()) (some head) fuel links' =
            .ok (nodes.reverse.map some, links') := by
  obtain ⟨links', hrun, hrings⟩ := runCalls_spec (Rings.none links) hallowed
  refine ⟨links', hrun, fun head nodes hhead => ?_⟩
  exact ⟨listEmpty_spec hrings hhead, fun fuel hfuel =>
    ⟨listForEach_spec hrings hhead hfuel, listForEachPrev_spec hrings hhead hfuel⟩⟩

/-- Two lists with the heads 0 and 1: an entry moves from one to the other, the
second is spliced into the first, and an entry is deleted. -/
def sampleCalls : List (Call (Fin 5)) :=
  [.init 0, .init 1, .add 2 0, .addTail 3 0, .add 4 1, .moveTail 3 1,
    .spliceInit 1 0, .del 4]

theorem list_refines_sample :
    ∃ links', runCalls sampleCalls ⟨fun _ => none, fun _ => none⟩ =
        .ok ((), links') ∧
      ∀ head nodes, sampleCalls.foldl Call.onLists (fun _ => none) head =
          some nodes →
        listEmpty (some head) links' = .ok (nodes.isEmpty, links') ∧
        ∀ fuel, nodes.length < fuel →
          listForEach (fun _ => pure ()) (some head) fuel links' =
            .ok (nodes.map some, links') ∧
          listForEachPrev (fun _ => pure ()) (some head) fuel links' =
            .ok (nodes.reverse.map some, links') :=
  list_refines (by decide) ⟨fun _ => none, fun _ => none⟩

example : sampleCalls.foldl Call.onLists (fun _ => none) 0 = some [3, 2] := by
  decide

/-! ## Loops that take entries out -/

/-- A call that takes `x` out of the list of `head`, to another list or to none -/
def TakesOut (lists : HeadLists ρ) (head x : ρ) : Call ρ → Prop
  | .del entry => entry = x
  | .delInit entry => entry = x
  | .move list other => list = x ∧ (lists other).isSome ∧ other ≠ head
  | .moveTail list other => list = x ∧ (lists other).isSome ∧ other ≠ head
  | _ => False

/-- The body that makes a call for the entries that have one -/
def chosen (choice : ρ → Option (Call ρ)) : Option ρ → Code ρ Unit
  | none => throw .null
  | some x =>
      match choice x with
      | none => pure ()
      | some call => call.run

namespace TakesOut

variable {head x : ρ} {call : Call ρ}

omit [DecidableEq ρ] in
theorem allowed (hcall : TakesOut lists head x call)
    (hx : lists.IsMember x) : call.Allowed lists := by
  cases call with
  | del entry => exact hcall ▸ hx
  | delInit entry => exact Or.inl (hcall ▸ hx)
  | move list other => exact ⟨hcall.1 ▸ hx, hcall.2.1⟩
  | moveTail list other => exact ⟨hcall.1 ▸ hx, hcall.2.1⟩
  | _ => exact hcall.elim

theorem erase_isSome {h : ρ} (hh : (lists h).isSome) (x : ρ) :
    (lists.erase x h).isSome := by
  unfold HeadLists.erase
  rw [Option.isSome_map]
  exact hh

/-- A head is a head also after the call. -/
theorem isSome (hcall : TakesOut lists head x call) (hrings : Rings links lists)
    (hx : lists.IsMember x) {h : ρ} (hh : (lists h).isSome) :
    (call.onLists lists h).isSome := by
  have hne : h ≠ x := by
    rintro rfl
    obtain ⟨nodes, hnodes⟩ := Option.isSome_iff_exists.mp hh
    exact hrings.head_notMember hnodes hx
  have herase := erase_isSome hh x
  have hput : ∀ other (f : List ρ → List ρ), (Function.update (Function.update
      (lists.erase x) x none) other ((lists.erase x other).map f) h).isSome := by
    intro other f
    by_cases hother : h = other
    · subst hother
      rw [Function.update_self, Option.isSome_map]
      exact herase
    · rw [Function.update_of_ne hother, Function.update_of_ne hne]
      exact herase
  cases call with
  | del entry =>
      cases hcall
      exact herase
  | delInit entry =>
      cases hcall
      have heq : Call.onLists lists (.delInit x) h = lists.erase x h :=
        Function.update_of_ne hne ..
      rw [heq]
      exact herase
  | move list other =>
      obtain ⟨rfl, -, -⟩ := hcall
      exact hput other _
  | moveTail list other =>
      obtain ⟨rfl, -, -⟩ := hcall
      exact hput other _
  | _ => exact hcall.elim

/-- Of the list of `head` the call takes `x` and nothing else. -/
theorem onLists_head (hcall : TakesOut lists head x call)
    (hrings : Rings links lists) {xs ys : List ρ}
    (hhead : lists head = some (xs ++ x :: ys)) :
    call.onLists lists head = some (xs ++ ys) := by
  have hne : head ≠ x := by
    rintro rfl
    exact hrings.head_notMember hhead ⟨head, _, hhead, by simp⟩
  have herase : lists.erase x head = some (xs ++ ys) := by
    rw [hrings.erase_eq hhead, Function.update_self]
  cases call with
  | del entry =>
      cases hcall
      exact herase
  | delInit entry =>
      cases hcall
      exact (Function.update_of_ne hne ..).trans herase
  | move list other =>
      obtain ⟨rfl, -, hother⟩ := hcall
      exact (Function.update_of_ne (Ne.symm hother) ..).trans
        ((Function.update_of_ne hne ..).trans herase)
  | moveTail list other =>
      obtain ⟨rfl, -, hother⟩ := hcall
      exact (Function.update_of_ne (Ne.symm hother) ..).trans
        ((Function.update_of_ne hne ..).trans herase)
  | _ => exact hcall.elim

omit [DecidableEq ρ] in
theorem of_isSome {lists' : HeadLists ρ} (hcall : TakesOut lists head x call)
    (hheads : ∀ h, (lists h).isSome → (lists' h).isSome) :
    TakesOut lists' head x call := by
  cases call with
  | del entry => exact hcall
  | delInit entry => exact hcall
  | move list other => exact ⟨hcall.1, hheads other hcall.2.1, hcall.2.2⟩
  | moveTail list other => exact ⟨hcall.1, hheads other hcall.2.1, hcall.2.2⟩
  | _ => exact hcall.elim

end TakesOut

theorem chosen_of_none {choice : ρ → Option (Call ρ)} {x : ρ}
    (hcall : choice x = none) : chosen choice (some x) = pure () := by
  unfold chosen
  dsimp only
  rw [hcall]

theorem chosen_of_some {choice : ρ → Option (Call ρ)} {x : ρ} {call : Call ρ}
    (hcall : choice x = some call) : chosen choice (some x) = call.run := by
  unfold chosen
  dsimp only
  rw [hcall]

/-- What the body does at one entry, and what of the list stays -/
theorem chosen_spec {choice : ρ → Option (Call ρ)} {head x : ρ}
    {kept nodes : List ρ} (hrings : Rings links lists)
    (hhead : lists head = some (kept ++ x :: nodes))
    (hchoice : ∀ y ∈ x :: nodes, ∀ call, choice y = some call →
      TakesOut lists head y call) :
    ∃ links₁ lists₁ kept₁, chosen choice (some x) links = .ok ((), links₁) ∧
      Rings links₁ lists₁ ∧ lists₁ head = some (kept₁ ++ nodes) ∧
      (∀ y ∈ nodes, ∀ call, choice y = some call →
        TakesOut lists₁ head y call) ∧
      ((x :: nodes).filterMap choice).foldl Call.onLists lists =
        (nodes.filterMap choice).foldl Call.onLists lists₁ ∧
      kept ++ (x :: nodes).filter (fun x => (choice x).isNone) =
        kept₁ ++ nodes.filter fun x => (choice x).isNone := by
  have hx : lists.IsMember x := ⟨head, _, hhead, by simp⟩
  have hrest : ∀ y ∈ nodes, ∀ call, choice y = some call →
      TakesOut lists head y call :=
    fun y hy => hchoice y (List.mem_cons_of_mem x hy)
  cases hcall : choice x with
  | none =>
      have hfilter : (x :: nodes).filter (fun x => (choice x).isNone) =
          x :: nodes.filter fun x => (choice x).isNone :=
        List.filter_cons_of_pos (by rw [hcall]; rfl)
      refine ⟨links, lists, kept ++ [x], ?_, hrings, ?_, hrest, ?_, ?_⟩
      · rw [chosen_of_none hcall]
        rfl
      · rw [hhead, List.append_assoc, List.singleton_append]
      · rw [List.filterMap_cons_none hcall]
      · rw [hfilter, List.append_assoc, List.singleton_append]
  | some call =>
      have hfilter : (x :: nodes).filter (fun x => (choice x).isNone) =
          nodes.filter fun x => (choice x).isNone :=
        List.filter_cons_of_neg (by rw [hcall]; simp)
      have htakes := hchoice x List.mem_cons_self call hcall
      obtain ⟨links₁, hrun, hrings₁⟩ := Call.run_spec hrings (htakes.allowed hx)
      refine ⟨links₁, call.onLists lists, kept, ?_, hrings₁,
        htakes.onLists_head hrings hhead, ?_, ?_, ?_⟩
      · rw [chosen_of_some hcall]
        exact hrun
      · exact fun y hy call' hcall' => (hrest y hy call' hcall').of_isSome
          fun h hh => htakes.isSome hrings hx hh
      · rw [List.filterMap_cons_some hcall, List.foldl_cons]
      · rw [hfilter]

theorem forEachSafeFrom_spec {choice : ρ → Option (Call ρ)} {head : ρ}
    {nodes kept : List ρ} {n : Option ρ} (hrings : Rings links lists)
    (hhead : lists head = some (kept ++ nodes))
    (hchoice : ∀ x ∈ nodes, ∀ call, choice x = some call →
      TakesOut lists head x call)
    (hn : nodes ≠ [] → n = some (nodes.tail.headD head)) {fuel : ℕ}
    (hfuel : nodes.length < fuel) :
    ∃ links', forEachSafeFrom (chosen choice) (some head) fuel
        (some (nodes.headD head)) n links = .ok (nodes.map some, links') ∧
      Rings links' ((nodes.filterMap choice).foldl Call.onLists lists) ∧
      (nodes.filterMap choice).foldl Call.onLists lists head =
        some (kept ++ nodes.filter fun x => (choice x).isNone) := by
  obtain ⟨fuel, rfl⟩ :=
    Nat.exists_eq_add_one_of_ne_zero (Nat.ne_zero_of_lt hfuel)
  induction nodes generalizing links lists kept n fuel with
  | nil =>
      refine ⟨links, ?_, hrings, hhead⟩
      unfold forEachSafeFrom
      rw [if_pos (by rfl)]
      rfl
  | cons x nodes ih =>
      have hlt : nodes.length < fuel := Nat.lt_of_succ_lt_succ hfuel
      obtain ⟨fuel, rfl⟩ :=
        Nat.exists_eq_add_one_of_ne_zero (Nat.ne_zero_of_lt hlt)
      have hx : lists.IsMember x := ⟨head, _, hhead, by simp⟩
      have hne : x ≠ head := by
        rintro rfl
        exact hrings.head_notMember hhead hx
      have hnext : n = some (nodes.headD head) := hn (List.cons_ne_nil x nodes)
      obtain ⟨links₁, lists₁, kept₁, hbody, hrings₁, hhead₁, hchoice₁, hrun,
        hkept⟩ := chosen_spec hrings hhead hchoice
      -- what is read behind the body, for the round after the next
      obtain ⟨next, hread, hafter⟩ : ∃ next,
          readNext n links₁ = .ok (next, links₁) ∧
          (nodes ≠ [] → next = some (nodes.tail.headD head)) := by
        rw [hnext]
        refine ⟨_, readNext_run links₁ _, fun hnil => ?_⟩
        obtain ⟨y, nodes, rfl⟩ := List.exists_cons_of_ne_nil hnil
        have hring := hrings₁.ring hhead₁
        exact hring.joined_next.1
      obtain ⟨links', hloop, hrings', hhead'⟩ :=
        ih hrings₁ hhead₁ hchoice₁ hafter fuel hlt
      refine ⟨links', ?_, ?_, ?_⟩
      · rw [List.headD_cons]
        conv_lhs => unfold forEachSafeFrom
        rw [if_neg (fun h => hne (Option.some.inj h)), hnext]
        rw [hnext] at hread
        exact (run_bind hbody).trans ((run_bind hread).trans (run_bind hloop))
      · rw [hrun]
        exact hrings'
      · rw [hrun, hkept]
        exact hhead'

theorem listForEachSafe_spec {choice : ρ → Option (Call ρ)} {head : ρ}
    {nodes : List ρ} (hrings : Rings links lists)
    (hhead : lists head = some nodes)
    (hchoice : ∀ x ∈ nodes, ∀ call, choice x = some call →
      TakesOut lists head x call) {fuel : ℕ} (hfuel : nodes.length < fuel) :
    ∃ links', listForEachSafe (chosen choice) (some head) fuel links =
        .ok (nodes.map some, links') ∧
      Rings links' ((nodes.filterMap choice).foldl Call.onLists lists) ∧
      (nodes.filterMap choice).foldl Call.onLists lists head =
        some (nodes.filter fun x => (choice x).isNone) := by
  have hring := hrings.ring hhead
  obtain ⟨n, hn, hbehind⟩ : ∃ n,
      readNext (some (nodes.headD head)) links = .ok (n, links) ∧
      (nodes ≠ [] → n = some (nodes.tail.headD head)) := by
    refine ⟨_, readNext_run links _, fun hnil => ?_⟩
    obtain ⟨x, nodes, rfl⟩ := List.exists_cons_of_ne_nil hnil
    have hring' : links.Ring head ([] ++ x :: nodes) := hring
    exact hring'.joined_next.1
  have hkept : lists head = some ([] ++ nodes) := hhead
  obtain ⟨links', hloop, hrings', hhead'⟩ :=
    forEachSafeFrom_spec hrings hkept hchoice hbehind hfuel
  refine ⟨links', ?_, hrings', hhead'⟩
  have hfirst : readNext (some head) links =
      .ok (some (nodes.headD head), links) := by
    rw [readNext_run, hring.joined_head.1]
  exact (run_bind hfirst).trans ((run_bind hn).trans hloop)

/-- `list_for_each_safe` comes to every entry of a list once and in order,
whichever of them the body takes out of it; the others stay, in order, and the
other lists have what was moved to them. -/
theorem forEachSafe_visits {calls : List (Call ρ)}
    (hallowed : AllowedRun (fun _ => none) calls) (links : Links ρ)
    {choice : ρ → Option (Call ρ)} {head : ρ} {nodes : List ρ}
    (hhead : calls.foldl Call.onLists (fun _ => none) head = some nodes)
    (hchoice : ∀ x ∈ nodes, ∀ call, choice x = some call →
      TakesOut (calls.foldl Call.onLists fun _ => none) head x call) {fuel : ℕ}
    (hfuel : nodes.length < fuel) :
    ∃ links₁ links', runCalls calls links = .ok ((), links₁) ∧
      listForEachSafe (chosen choice) (some head) fuel links₁ =
        .ok (nodes.map some, links') ∧
      (calls ++ nodes.filterMap choice).foldl Call.onLists (fun _ => none) head =
        some (nodes.filter fun x => (choice x).isNone) ∧
      ∀ head' nodes', (calls ++ nodes.filterMap choice).foldl Call.onLists
          (fun _ => none) head' = some nodes' →
        listForEach (fun _ => pure ()) (some head') (nodes'.length + 1) links' =
          .ok (nodes'.map some, links') := by
  obtain ⟨links₁, hrun, hrings₁⟩ := runCalls_spec (Rings.none links) hallowed
  obtain ⟨links', hloop, hrings', hkept⟩ :=
    listForEachSafe_spec hrings₁ hhead hchoice hfuel
  rw [List.foldl_append]
  exact ⟨links₁, links', hrun, hloop, hkept, fun head' nodes' hhead' =>
    listForEach_spec hrings' hhead' (Nat.lt_succ_self _)⟩

def sampleChoice (x : Fin 5) : Option (Call (Fin 5)) :=
  if x = 3 then some (.moveTail 3 1) else none

theorem forEachSafe_visits_sample :
    ∃ links₁ links', runCalls sampleCalls ⟨fun _ => none, fun _ => none⟩ =
        .ok ((), links₁) ∧
      listForEachSafe (chosen sampleChoice) (some 0) 3 links₁ =
        .ok ([3, 2].map some, links') ∧
      (sampleCalls ++ [3, 2].filterMap sampleChoice).foldl Call.onLists
          (fun _ => none) 0 =
        some ([3, 2].filter fun x => (sampleChoice x).isNone) ∧
      ∀ head' nodes', (sampleCalls ++ [3, 2].filterMap sampleChoice).foldl
          Call.onLists (fun _ => none) head' = some nodes' →
        listForEach (fun _ => pure ()) (some head') (nodes'.length + 1) links' =
          .ok (nodes'.map some, links') := by
  apply forEachSafe_visits (by decide) _ (by decide) _ (by decide)
  intro x hx call hcall
  unfold sampleChoice at hcall
  by_cases h3 : x = 3
  · rw [if_pos h3] at hcall
    cases hcall
    exact ⟨h3.symm, by decide, by decide⟩
  · rw [if_neg h3] at hcall
    cases hcall

/-! ## The loop that is not safe -/

/-- An entry that is linked to itself is never left. -/
theorem forEachFrom_alone (hrings : Rings links lists) {head x : ρ}
    (hne : x ≠ head) (hx : lists x = some []) (fuel : ℕ) :
    forEachFrom listDelInit (some head) readNext fuel (some x) links =
      .error .fuel := by
  induction fuel generalizing links lists with
  | zero => rfl
  | succ fuel ih =>
      obtain ⟨links₁, hbody, hrings₁⟩ := listDelInit_spec hrings (Or.inr hx)
      have hx₁ := Function.update_self x (some []) (lists.erase x)
      have hnext : readNext (some x) links₁ = .ok (some x, links₁) := by
        rw [readNext_run, (hrings₁.ring hx₁).joined_head.1]
        rfl
      rw [forEachFrom_round fuel hne hbody hnext]
      exact run_bind_error (ih hrings₁ hx₁)

theorem forEach_del (hrings : Rings links lists) {head x : ρ} {xs : List ρ}
    (hhead : lists head = some (x :: xs)) (fuel : ℕ) :
    listForEach listDel (some head) (fuel + 2) links = .error .null := by
  have hx : lists.IsMember x := ⟨head, _, hhead, List.mem_cons_self⟩
  have hne : x ≠ head := by
    rintro rfl
    exact hrings.head_notMember hhead hx
  have hfirst : readNext (some head) links = .ok (some x, links) := by
    rw [readNext_run, (hrings.ring hhead).joined_head.1]
    rfl
  obtain ⟨links', hbody, hnext⟩ : ∃ links',
      listDel (some x) links = .ok ((), links') ∧ links'.next x = none := by
    obtain ⟨links₁, hdel, -⟩ := listDelEntry_spec hrings hx
    exact ⟨⟨Function.update links₁.next x none,
      Function.update links₁.pre x none⟩, run_bind hdel, Function.update_self ..⟩
  have hread : readNext (some x) links' = .ok (none, links') := by
    rw [readNext_run, hnext]
  have hnull : forEachFrom listDel (some head) readNext (fuel + 1) none links' =
      .error .null := by
    unfold forEachFrom
    rw [if_neg (by simp)]
    rfl
  refine (run_bind hfirst).trans ?_
  unfold forEachFrom
  rw [if_neg (fun h => hne (Option.some.inj h))]
  exact (run_bind hbody).trans ((run_bind hread).trans (run_bind_error hnull))

theorem forEach_delInit (hrings : Rings links lists) {head x : ρ} {xs : List ρ}
    (hhead : lists head = some (x :: xs)) (fuel : ℕ) :
    listForEach listDelInit (some head) fuel links = .error .fuel := by
  have hx : lists.IsMember x := ⟨head, _, hhead, List.mem_cons_self⟩
  have hne : x ≠ head := by
    rintro rfl
    exact hrings.head_notMember hhead hx
  have hfirst : readNext (some head) links = .ok (some x, links) := by
    rw [readNext_run, (hrings.ring hhead).joined_head.1]
    rfl
  refine (run_bind hfirst).trans ?_
  cases fuel with
  | zero => rfl
  | succ fuel =>
      obtain ⟨links₁, hbody, hrings₁⟩ := listDelInit_spec hrings (Or.inl hx)
      have hx₁ := Function.update_self x (some []) (lists.erase x)
      have hnext : readNext (some x) links₁ = .ok (some x, links₁) := by
        rw [readNext_run, (hrings₁.ring hx₁).joined_head.1]
        rfl
      rw [forEachFrom_round fuel hne hbody hnext]
      exact run_bind_error (forEachFrom_alone hrings₁ hne hx₁ fuel)

/-- Of any list that calls have made, `list_for_each` with `list_del` in its body
faults in the second round, and with `list_del_init` it never ends. -/
theorem forEach_unsafe {calls : List (Call ρ)}
    (hallowed : AllowedRun (fun _ => none) calls) (links : Links ρ)
    {head x : ρ} {xs : List ρ}
    (hhead : calls.foldl Call.onLists (fun _ => none) head = some (x :: xs)) :
    ∃ links', runCalls calls links = .ok ((), links') ∧
      ∀ fuel,
        listForEach listDel (some head) (fuel + 2) links' = .error .null ∧
        listForEach listDelInit (some head) fuel links' = .error .fuel := by
  obtain ⟨links', hrun, hrings⟩ := runCalls_spec (Rings.none links) hallowed
  exact ⟨links', hrun, fun fuel =>
    ⟨forEach_del hrings hhead fuel, forEach_delInit hrings hhead fuel⟩⟩

theorem forEach_unsafe_sample :
    ∃ links', runCalls sampleCalls ⟨fun _ => none, fun _ => none⟩ =
        .ok ((), links') ∧
      ∀ fuel,
        listForEach listDel (some 0) (fuel + 2) links' = .error .null ∧
        listForEach listDelInit (some 0) fuel links' = .error .fuel := by
  have hhead : sampleCalls.foldl Call.onLists (fun _ => none) 0 = some [3, 2] := by
    decide
  exact forEach_unsafe (by decide) ⟨fun _ => none, fun _ => none⟩ hhead

end KernelList

end ClpszDemos
