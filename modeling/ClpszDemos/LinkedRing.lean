import Mathlib.Tactic

/-!
# Rings of linked nodes

Nodes are linked in two directions.  They form a ring when a walk along `next`
goes from the head through all of them and back to the head, and every link of
the walk has its inverse along `pre`.  Joining two nodes sets one link in each
direction; a node is inserted by two joins and removed by one.
-/

namespace ClpszDemos

/-- Two links of each node; `none` is null. -/
structure Links (ρ : Type*) where
  next : ρ → Option ρ
  pre : ρ → Option ρ

namespace Links

variable {ρ : Type*} {links : Links ρ} {head : ρ}

def Joined (links : Links ρ) (a b : ρ) : Prop :=
  links.next a = some b ∧ links.pre b = some a

structure Ring (links : Links ρ) (head : ρ) (nodes : List ρ) : Prop where
  nodup : (head :: nodes).Nodup
  joined : List.IsChain links.Joined (head :: (nodes ++ [head]))

/-! ## A ring cut in two -/

theorem head?_append_head (ys : List ρ) (head : ρ) :
    (ys ++ [head]).head? = some (ys.headD head) := by
  cases ys with
  | nil => rfl
  | cons y ys => rfl

theorem headD_mem (ys : List ρ) (head : ρ) : ys.headD head ∈ head :: ys := by
  cases ys with
  | nil => exact List.mem_cons_self
  | cons y ys => exact List.mem_cons_of_mem head List.mem_cons_self

/-- The part up to the cut, the part behind it, and the joint -/
theorem joined_append_iff {xs ys : List ρ} :
    List.IsChain links.Joined (head :: (xs ++ ys ++ [head])) ↔
      List.IsChain links.Joined (head :: xs) ∧
      List.IsChain links.Joined (ys ++ [head]) ∧
      links.Joined (xs.getLastD head) (ys.headD head) := by
  have hlist : head :: (xs ++ ys ++ [head]) =
      (head :: xs) ++ (ys ++ [head]) := by simp
  have hlast : (head :: xs).getLast? = some (xs.getLastD head) := by
    simp [List.getLast?_cons, List.getLastD_eq_getLast?]
  rw [hlist, List.isChain_append, hlast, head?_append_head]
  simp

namespace Ring

theorem joined_next {xs ys : List ρ} {x : ρ}
    (hring : links.Ring head (xs ++ x :: ys)) :
    links.Joined x (ys.headD head) := by
  have hjoined := hring.joined
  have hcut : xs ++ x :: ys = (xs ++ [x]) ++ ys := List.append_cons xs x ys
  rw [hcut, joined_append_iff] at hjoined
  have hjoint := hjoined.2.2
  rw [List.getLastD_eq_getLast?, List.getLast?_concat] at hjoint
  exact hjoint

theorem joined_pre {xs ys : List ρ} {x : ρ}
    (hring : links.Ring head (xs ++ x :: ys)) :
    links.Joined (xs.getLastD head) x :=
  (joined_append_iff.mp hring.joined).2.2

theorem joined_head {nodes : List ρ} (hring : links.Ring head nodes) :
    links.Joined head (nodes.headD head) :=
  (@joined_append_iff _ links head [] nodes |>.mp hring.joined).2.2

theorem joined_last {nodes : List ρ} (hring : links.Ring head nodes) :
    links.Joined (nodes.getLastD head) head := by
  have hjoined := hring.joined
  rw [← List.append_nil nodes, joined_append_iff] at hjoined
  exact hjoined.2.2

/-- A ring depends on the links of its nodes only. -/
theorem congr {links' : Links ρ} {nodes : List ρ}
    (hring : links.Ring head nodes)
    (hsame : ∀ a ∈ head :: nodes,
      links'.next a = links.next a ∧ links'.pre a = links.pre a) :
    links'.Ring head nodes where
  nodup := hring.nodup
  joined := by
    apply hring.joined.imp_of_mem_imp
    intro a b ha hb hab
    have hmem : ∀ c ∈ head :: (nodes ++ [head]), c ∈ head :: nodes := by
      intro c hc
      simp only [List.mem_cons, List.mem_append, List.not_mem_nil,
        or_false] at hc ⊢
      tauto
    constructor
    · rw [(hsame a (hmem a ha)).1]
      exact hab.1
    · rw [(hsame b (hmem b hb)).2]
      exact hab.2

theorem single {a : ρ} (hnext : links.next a = some a)
    (hpre : links.pre a = some a) : links.Ring a [] where
  nodup := List.nodup_singleton a
  joined := by
    show List.IsChain links.Joined [a, a]
    rw [List.isChain_pair]
    exact ⟨hnext, hpre⟩

/-- The last node in front of a cut is nowhere else. -/
theorem notMem_last {xs ys : List ρ} (hnodup : (head :: (xs ++ ys)).Nodup) :
    xs.getLastD head ∉ (head :: xs).dropLast ∧ xs.getLastD head ∉ ys := by
  rcases List.eq_nil_or_concat xs with rfl | ⟨front, last, rfl⟩
  · have hhead := (List.nodup_cons.mp hnodup).1
    exact ⟨List.not_mem_nil, hhead⟩
  · have hdrop : (head :: (front ++ [last])).dropLast = head :: front := by
      rw [← List.cons_append, List.dropLast_concat]
    rw [List.concat_eq_append, List.getLastD_concat, hdrop]
    simp only [List.concat_eq_append, List.nodup_cons, List.nodup_append,
      List.mem_append, List.mem_cons] at hnodup
    grind

/-- The first node behind a cut is nowhere else. -/
theorem notMem_first {xs ys : List ρ} (hnodup : (head :: (xs ++ ys)).Nodup) :
    ys.headD head ∉ xs ∧ ys.headD head ∉ (ys ++ [head]).tail := by
  cases ys with
  | nil =>
      have hhead := (List.nodup_cons.mp hnodup).1
      rw [List.append_nil] at hhead
      exact ⟨hhead, List.not_mem_nil⟩
  | cons first rest =>
      simp only [List.nodup_cons, List.nodup_append, List.mem_append,
        List.mem_cons] at hnodup
      simp only [List.headD_cons, List.cons_append, List.tail_cons]
      grind

end Ring

/-! ## Joining -/

section Join

variable [DecidableEq ρ]

def join (links : Links ρ) (a b : ρ) : Links ρ :=
  { next := Function.update links.next a (some b)
    pre := Function.update links.pre b (some a) }

theorem joined_join (links : Links ρ) (a b : ρ) :
    (links.join a b).Joined a b :=
  ⟨Function.update_self .., Function.update_self ..⟩

theorem Joined.join {a b x y : ρ} (hjoined : links.Joined x y) (hx : x ≠ a)
    (hy : y ≠ b) : (links.join a b).Joined x y := by
  constructor
  · rw [← hjoined.1]
    exact Function.update_of_ne hx ..
  · rw [← hjoined.2]
    exact Function.update_of_ne hy ..

/-- A chain keeps its links when the join starts behind it and ends in front
of it. -/
theorem isChain_join {a b : ρ} {nodes : List ρ}
    (hchain : List.IsChain links.Joined nodes) (ha : a ∉ nodes.dropLast)
    (hb : b ∉ nodes.tail) : List.IsChain (links.join a b).Joined nodes := by
  induction hchain with
  | nil => exact .nil
  | singleton x => exact .singleton x
  | @cons_cons x y rest hxy hrest ih =>
      rw [List.dropLast_cons_of_ne_nil (List.cons_ne_nil y rest),
        List.mem_cons, not_or] at ha
      rw [List.tail_cons, List.mem_cons, not_or] at hb
      exact .cons_cons (hxy.join (Ne.symm ha.1) (Ne.symm hb.1)) (ih ha.2 hb.2)

namespace Ring

/-- A join over a cut keeps the links of both parts. -/
theorem parts_join {xs ys : List ρ} (hnodup : (head :: (xs ++ ys)).Nodup)
    (hxs : List.IsChain links.Joined (head :: xs))
    (hys : List.IsChain links.Joined (ys ++ [head])) :
    List.IsChain
        (links.join (xs.getLastD head) (ys.headD head)).Joined (head :: xs) ∧
      List.IsChain
        (links.join (xs.getLastD head) (ys.headD head)).Joined
        (ys ++ [head]) := by
  have hlast := notMem_last hnodup
  have hfirst := notMem_first hnodup
  constructor
  · exact isChain_join hxs hlast.1 hfirst.1
  · apply isChain_join hys
    · rw [List.dropLast_concat]
      exact hlast.2
    · exact hfirst.2

/-- One join removes the node between its ends. -/
theorem remove {xs ys : List ρ} {x : ρ}
    (hring : links.Ring head (xs ++ x :: ys)) :
    (links.join (xs.getLastD head) (ys.headD head)).Ring head (xs ++ ys) := by
  have hsub : (xs ++ ys).Sublist (xs ++ x :: ys) :=
    (List.Sublist.refl xs).append (List.sublist_cons_self x ys)
  have hnodup : (head :: (xs ++ ys)).Nodup :=
    (hsub.cons_cons head).nodup hring.nodup
  have hparts := joined_append_iff.mp hring.joined
  have hys : List.IsChain links.Joined (ys ++ [head]) := hparts.2.1.tail
  have hjoined := parts_join hnodup hparts.1 hys
  exact ⟨hnodup, joined_append_iff.mpr
    ⟨hjoined.1, hjoined.2, joined_join links _ _⟩⟩

/-- A removed node still leads to the node behind it. -/
theorem next_removed {xs ys : List ρ} {x : ρ}
    (hring : links.Ring head (xs ++ x :: ys)) :
    (links.join (xs.getLastD head) (ys.headD head)).next x =
      some (ys.headD head) := by
  have hnodup := hring.nodup
  rw [← List.cons_append, List.nodup_append] at hnodup
  have hne : x ≠ xs.getLastD head :=
    Ne.symm (hnodup.2.2 _ List.getLastD_mem_cons x List.mem_cons_self)
  rw [← hring.joined_next.1]
  exact Function.update_of_ne hne ..

/-- Two joins insert a new node at a cut. -/
theorem insert {xs ys : List ρ} {x : ρ} (hring : links.Ring head (xs ++ ys))
    (hx : x ∉ head :: (xs ++ ys)) :
    ((links.join (xs.getLastD head) x).join x (ys.headD head)).Ring head
      (xs ++ x :: ys) := by
  have hxxs : x ∉ head :: xs := by
    intro hmem
    exact hx ((List.sublist_append_left xs ys).cons_cons head |>.subset hmem)
  have hxys : x ∉ head :: ys := by
    intro hmem
    exact hx ((List.sublist_append_right xs ys).cons_cons head |>.subset hmem)
  have hnodup : (head :: (xs ++ x :: ys)).Nodup := by
    rw [← List.cons_append, List.nodup_middle, List.cons_append]
    exact List.nodup_cons.mpr ⟨hx, hring.nodup⟩
  have hlast := notMem_last hring.nodup
  have hfirst := notMem_first hring.nodup
  have hlastx : xs.getLastD head ≠ x := by
    intro hsame
    exact hxxs (hsame ▸ List.getLastD_mem_cons)
  have hxfirst : x ≠ ys.headD head := by
    intro hsame
    exact hxys (hsame ▸ headD_mem ys head)
  have hparts := joined_append_iff.mp hring.joined
  have hxs : List.IsChain ((links.join (xs.getLastD head) x).join x
      (ys.headD head)).Joined (head :: xs) := by
    apply isChain_join
    · exact isChain_join hparts.1 hlast.1 fun hmem =>
        hxxs (List.mem_cons_of_mem head hmem)
    · exact fun hmem => hxxs (List.dropLast_subset _ hmem)
    · exact hfirst.1
  have hys : List.IsChain ((links.join (xs.getLastD head) x).join x
      (ys.headD head)).Joined (ys ++ [head]) := by
    apply isChain_join
    · apply isChain_join hparts.2.1
      · rw [List.dropLast_concat]
        exact hlast.2
      · intro hmem
        have hmem := List.mem_of_mem_tail hmem
        rw [List.mem_append, List.mem_singleton] at hmem
        rcases hmem with hmem | hsame
        · exact hxys (List.mem_cons_of_mem head hmem)
        · exact hxys (hsame ▸ List.mem_cons_self)
    · rw [List.dropLast_concat]
      exact fun hmem => hxys (List.mem_cons_of_mem head hmem)
    · exact hfirst.2
  have hxchain : List.IsChain ((links.join (xs.getLastD head) x).join x
      (ys.headD head)).Joined (x :: (ys ++ [head])) := by
    rw [List.isChain_cons, head?_append_head]
    refine ⟨?_, hys⟩
    intro y hy
    injection hy with hy
    rw [← hy]
    exact joined_join _ _ _
  exact ⟨hnodup, joined_append_iff.mpr ⟨hxs, hxchain,
    (joined_join links (xs.getLastD head) x).join hlastx hxfirst⟩⟩

end Ring

end Join

/-! ## Walks -/

/-- The nodes that a walk along a link comes to -/
def walk (link : ρ → Option ρ) : ℕ → ρ → List ρ
  | 0, _ => []
  | n + 1, a =>
      match link a with
      | none => []
      | some b => b :: walk link n b

theorem walk_of_isChain {link : ρ → Option ρ} {R : ρ → ρ → Prop}
    (hlink : ∀ {a b}, R a b → link a = some b) {a : ρ} {nodes : List ρ}
    (hchain : List.IsChain R (a :: nodes)) :
    walk link nodes.length a = nodes := by
  induction nodes generalizing a with
  | nil => rfl
  | cons b rest ih =>
      have hab := List.isChain_cons_cons.mp hchain
      rw [List.length_cons, walk, hlink hab.1]
      dsimp only
      rw [ih hab.2]

namespace Ring

/-- A walk along `next` goes around the ring. -/
theorem walk_next {nodes : List ρ} (hring : links.Ring head nodes) :
    walk links.next (nodes.length + 1) head = nodes ++ [head] := by
  have hwalk := @walk_of_isChain ρ links.next links.Joined
    (fun hab => hab.1) head (nodes ++ [head]) hring.joined
  rw [List.length_append] at hwalk
  exact hwalk

/-- A walk along `pre` goes around it the other way. -/
theorem walk_pre {nodes : List ρ} (hring : links.Ring head nodes) :
    walk links.pre (nodes.length + 1) head = nodes.reverse ++ [head] := by
  have hchain := List.isChain_reverse.mpr hring.joined
  have hreverse : (head :: (nodes ++ [head])).reverse =
      head :: (nodes.reverse ++ [head]) := by simp
  rw [hreverse] at hchain
  have hwalk := @walk_of_isChain ρ links.pre (flip links.Joined)
    (fun hab => hab.2) head (nodes.reverse ++ [head]) hchain
  rw [List.length_append, List.length_reverse] at hwalk
  exact hwalk

/-- Each node of the ring is behind the one in front of it and in front of the
one behind it. -/
theorem inverse {nodes : List ρ} (hring : links.Ring head nodes) {a : ρ}
    (ha : a ∈ head :: nodes) :
    (∃ b ∈ head :: nodes, links.next a = some b ∧ links.pre b = some a) ∧
      ∃ b ∈ head :: nodes, links.pre a = some b ∧ links.next b = some a := by
  rcases List.mem_cons.mp ha with rfl | ha
  · have hlast := hring.joined_last
    exact ⟨⟨_, headD_mem nodes a, hring.joined_head⟩,
      ⟨_, List.getLastD_mem_cons, hlast.2, hlast.1⟩⟩
  · obtain ⟨xs, ys, rfl⟩ := List.append_of_mem ha
    have hpre := hring.joined_pre
    have hys : (head :: ys).Sublist (head :: (xs ++ a :: ys)) :=
      ((List.sublist_cons_self a ys).trans
        (List.sublist_append_right xs (a :: ys))).cons_cons head
    have hxs : (head :: xs).Sublist (head :: (xs ++ a :: ys)) :=
      (List.sublist_append_left xs (a :: ys)).cons_cons head
    exact ⟨⟨_, hys.subset (headD_mem ys head), hring.joined_next⟩,
      ⟨_, hxs.subset (List.getLastD_mem_cons), hpre.2, hpre.1⟩⟩

end Ring

/-! ## Places -/

/-- The node that a walk of some steps from the head ends at -/
def place (head : ρ) (nodes : List ρ) (j : ℕ) : ρ :=
  (head :: nodes).getD (j % (nodes.length + 1)) head

theorem place_of_lt {nodes : List ρ} {j : ℕ} (hj : j < nodes.length + 1) :
    place head nodes j = (head :: nodes)[j] := by
  unfold place
  rw [Nat.mod_eq_of_lt hj]
  rw [List.getD_eq_getElem?_getD, List.getElem?_eq_getElem hj]
  rfl

theorem place_mod (nodes : List ρ) (j : ℕ) :
    place head nodes (j % (nodes.length + 1)) = place head nodes j := by
  unfold place
  rw [Nat.mod_mod]

namespace Ring

theorem next_place {nodes : List ρ} (hring : links.Ring head nodes) (j : ℕ) :
    links.next (place head nodes j) = some (place head nodes (j + 1)) := by
  have hchain : List.IsChain links.Joined ((head :: nodes) ++ [head]) :=
    hring.joined
  rw [List.isChain_iff_getElem] at hchain
  have hm : j % (nodes.length + 1) < nodes.length + 1 :=
    Nat.mod_lt j (Nat.succ_pos _)
  have hjoined := hchain (j % (nodes.length + 1)) (by simp; omega)
  rw [List.getElem_append_left hm, ← place_of_lt hm, place_mod] at hjoined
  rw [hjoined.1, ← place_mod nodes (j + 1),
    ← Nat.mod_add_mod j (nodes.length + 1) 1]
  by_cases hlast : j % (nodes.length + 1) + 1 < nodes.length + 1
  · rw [List.getElem_append_left hlast, place_mod, place_of_lt hlast]
  · have hfull : j % (nodes.length + 1) + 1 = (head :: nodes).length := by
      rw [List.length_cons]
      omega
    have hzero : (j % (nodes.length + 1) + 1) % (nodes.length + 1) = 0 := by
      rw [hfull]
      exact Nat.mod_self _
    rw [hzero, List.getElem_append_right hfull.ge]
    simp only [hfull, Nat.sub_self]
    rfl

/-- Steps that differ by turns end at the same node, and no others. -/
theorem place_eq_iff {nodes : List ρ} (hring : links.Ring head nodes)
    {i j : ℕ} :
    place head nodes i = place head nodes j ↔
      i % (nodes.length + 1) = j % (nodes.length + 1) := by
  have hi := Nat.mod_lt i (Nat.succ_pos nodes.length)
  have hj := Nat.mod_lt j (Nat.succ_pos nodes.length)
  rw [← place_mod nodes i, ← place_mod nodes j, place_of_lt hi,
    place_of_lt hj]
  exact hring.nodup.getElem_inj_iff

end Ring

end Links
end ClpszDemos
