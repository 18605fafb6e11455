import ClpszDemos.LinkedRing

/-!
# Several rings in one memory

The heads of some rings that share no node, each with the nodes behind it.
A join that touches the nodes of one ring only leaves the others as they are,
so nodes are inserted, removed and moved, and whole rings joined, one ring at a
time.
-/

namespace ClpszDemos

namespace Links

variable {ρ : Type*} {links links' : Links ρ}

/-- The nodes behind each head; other nodes are no heads. -/
abbrev HeadLists (ρ : Type*) := ρ → Option (List ρ)

namespace HeadLists

def IsMember (lists : HeadLists ρ) (x : ρ) : Prop :=
  ∃ head nodes, lists head = some nodes ∧ x ∈ nodes

/-- In no list, and no head of one that has nodes -/
structure IsLoose (lists : HeadLists ρ) (x : ρ) : Prop where
  notMember : ¬lists.IsMember x
  noNodes : ∀ nodes, lists x = some nodes → nodes = []

variable {lists : HeadLists ρ} {x : ρ}

theorem isMember_iff : lists.IsMember x ↔ ∃ head, x ∈ (lists head).getD [] := by
  constructor
  · rintro ⟨head, nodes, hhead, hmem⟩
    exact ⟨head, by rw [hhead]; exact hmem⟩
  · rintro ⟨head, hmem⟩
    cases hhead : lists head with
    | none =>
        rw [hhead] at hmem
        exact absurd hmem List.not_mem_nil
    | some nodes =>
        rw [hhead] at hmem
        exact ⟨head, nodes, hhead, hmem⟩

theorem isLoose_iff :
    lists.IsLoose x ↔ ¬lists.IsMember x ∧ (lists x).getD [] = [] := by
  constructor
  · intro hloose
    refine ⟨hloose.notMember, ?_⟩
    cases hhead : lists x with
    | none => rfl
    | some nodes => exact hloose.noNodes nodes hhead
  · rintro ⟨hmem, hnodes⟩
    refine ⟨hmem, fun nodes hhead => ?_⟩
    rwa [hhead] at hnodes

instance [Fintype ρ] [DecidableEq ρ] : Decidable (lists.IsMember x) :=
  decidable_of_iff _ isMember_iff.symm

instance [Fintype ρ] [DecidableEq ρ] : Decidable (lists.IsLoose x) :=
  decidable_of_iff _ isLoose_iff.symm

def erase [DecidableEq ρ] (lists : HeadLists ρ) (x : ρ) : HeadLists ρ :=
  fun head => (lists head).map (·.erase x)

end HeadLists

open HeadLists

structure Rings (links : Links ρ) (lists : HeadLists ρ) : Prop where
  ring : ∀ {head nodes}, lists head = some nodes → links.Ring head nodes
  apart : ∀ {head nodes head' nodes'}, lists head = some nodes →
    lists head' = some nodes' → head ≠ head' →
      List.Disjoint (head :: nodes) (head' :: nodes')

/-- The links of a node are the same in both memories. -/
def SameAt (links links' : Links ρ) (a : ρ) : Prop :=
  links'.next a = links.next a ∧ links'.pre a = links.pre a

theorem sameAt_join [DecidableEq ρ] {a b c : ρ} (ha : c ≠ a) (hb : c ≠ b) :
    links.SameAt (links.join a b) c :=
  ⟨Function.update_of_ne ha .., Function.update_of_ne hb ..⟩

theorem SameAt.trans {links'' : Links ρ} {a : ρ} (h : links.SameAt links' a)
    (h' : links'.SameAt links'' a) : links.SameAt links'' a :=
  ⟨h'.1.trans h.1, h'.2.trans h.2⟩

namespace Rings

variable {lists lists' : HeadLists ρ} {head x : ρ} {xs ys nodes : List ρ}

theorem none (links : Links ρ) : Rings links fun _ => none where
  ring h := nomatch h
  apart h := nomatch h

/-- The links of a node that is in no ring do not matter. -/
theorem congr_except (hrings : Rings links lists) (hx : ¬lists.IsMember x)
    (hnone : lists x = .none) (hsame : ∀ a, a ≠ x → links.SameAt links' a) :
    Rings links' lists where
  ring := by
    intro head nodes hhead
    apply (hrings.ring hhead).congr
    intro a ha
    apply hsame
    rintro rfl
    rcases List.mem_cons.mp ha with rfl | ha
    · rw [hnone] at hhead
      cases hhead
    · exact hx ⟨head, nodes, hhead, ha⟩
  apart := hrings.apart

theorem mono (hrings : Rings links lists)
    (hle : ∀ head nodes, lists' head = some nodes → lists head = some nodes) :
    Rings links lists' where
  ring hhead := hrings.ring (hle _ _ hhead)
  apart hhead hhead' := hrings.apart (hle _ _ hhead) (hle _ _ hhead')

/-- The heads are in no list. -/
theorem head_notMember (hrings : Rings links lists)
    (hhead : lists head = some nodes) : ¬lists.IsMember head := by
  rintro ⟨head', nodes', hhead', hmem⟩
  by_cases hsame : head' = head
  · subst hsame
    exact (List.nodup_cons.mp (hrings.ring hhead').nodup).1 hmem
  · exact hrings.apart hhead' hhead hsame (List.mem_cons_of_mem head' hmem)
      List.mem_cons_self

/-- A node is in one list at most. -/
theorem eq_of_mem (hrings : Rings links lists) {head' : ρ} {nodes' : List ρ}
    (hhead : lists head = some nodes) (hx : x ∈ nodes)
    (hhead' : lists head' = some nodes') (hx' : x ∈ nodes') : head' = head := by
  by_contra hne
  exact hrings.apart hhead' hhead hne (List.mem_cons_of_mem head' hx')
    (List.mem_cons_of_mem head hx)

/-- A loose node is in no ring but its own. -/
theorem loose_notMem (hloose : lists.IsLoose x) (hne : x ≠ head)
    (hhead : lists head = some nodes) : x ∉ head :: nodes := by
  intro hx
  rcases List.mem_cons.mp hx with rfl | hx
  · exact hne rfl
  · exact hloose.notMember ⟨head, nodes, hhead, hx⟩

variable [DecidableEq ρ]

/-- One ring is made anew, apart from the others and without a change to them. -/
theorem replace (hrings : Rings links lists) (hring : links'.Ring head nodes)
    (hapart : ∀ {head' nodes'}, head' ≠ head → lists head' = some nodes' →
      List.Disjoint (head' :: nodes') (head :: nodes))
    (hsame : ∀ {head' nodes'}, head' ≠ head → lists head' = some nodes' →
      ∀ a ∈ head' :: nodes', links.SameAt links' a) :
    Rings links' (Function.update lists head (some nodes)) where
  ring := by
    intro head' nodes' hhead'
    by_cases hne : head' = head
    · subst hne
      rw [Function.update_self] at hhead'
      cases hhead'
      exact hring
    · rw [Function.update_of_ne hne] at hhead'
      exact (hrings.ring hhead').congr (hsame hne hhead')
  apart := by
    intro head₁ nodes₁ head₂ nodes₂ hhead₁ hhead₂ hne
    by_cases h₁ : head₁ = head
    · subst h₁
      rw [Function.update_self] at hhead₁
      rw [Function.update_of_ne (Ne.symm hne)] at hhead₂
      cases hhead₁
      exact (hapart (Ne.symm hne) hhead₂).symm
    · rw [Function.update_of_ne h₁] at hhead₁
      by_cases h₂ : head₂ = head
      · subst h₂
        rw [Function.update_self] at hhead₂
        cases hhead₂
        exact hapart h₁ hhead₁
      · rw [Function.update_of_ne h₂] at hhead₂
        exact hrings.apart hhead₁ hhead₂ hne

theorem forget (hrings : Rings links lists) (x : ρ) :
    Rings links (Function.update lists x .none) := by
  apply hrings.mono
  intro head nodes hhead
  by_cases hne : head = x
  · subst hne
    rw [Function.update_self] at hhead
    cases hhead
  · rwa [Function.update_of_ne hne] at hhead

theorem insert (hrings : Rings links lists)
    (hhead : lists head = some (xs ++ ys)) (hloose : lists.IsLoose x)
    (hne : x ≠ head) :
    Rings ((links.join (xs.getLastD head) x).join x (ys.headD head))
      (Function.update (Function.update lists x .none) head
        (some (xs ++ x :: ys))) := by
  have hlast : xs.getLastD head ∈ head :: (xs ++ ys) :=
    (List.sublist_append_left xs ys).cons_cons head |>.subset
      List.getLastD_mem_cons
  have hfirst : ys.headD head ∈ head :: (xs ++ ys) :=
    (List.sublist_append_right xs ys).cons_cons head |>.subset (headD_mem ys head)
  have hother : ∀ {head' nodes'}, head' ≠ head →
      Function.update lists x .none head' = some nodes' →
      List.Disjoint (head' :: nodes') (head :: (xs ++ ys)) ∧
        x ∉ head' :: nodes' := by
    intro head' nodes' hne' hhead'
    by_cases hx : head' = x
    · subst hx
      rw [Function.update_self] at hhead'
      cases hhead'
    · rw [Function.update_of_ne hx] at hhead'
      exact ⟨hrings.apart hhead' hhead hne',
        loose_notMem hloose (Ne.symm hx) hhead'⟩
  apply (hrings.forget x).replace
  · exact (hrings.ring hhead).insert (loose_notMem hloose hne hhead)
  · intro head' nodes' hne' hhead'
    obtain ⟨hdisjoint, hx⟩ := hother hne' hhead'
    rw [List.disjoint_right]
    intro a ha
    simp only [List.mem_cons, List.mem_append] at ha
    have hmem : a = x ∨ a ∈ head :: (xs ++ ys) := by
      simp only [List.mem_cons, List.mem_append]
      tauto
    rcases hmem with rfl | hmem
    · exact hx
    · exact List.disjoint_right.mp hdisjoint hmem
  · intro head' nodes' hne' hhead' a ha
    obtain ⟨hdisjoint, hx⟩ := hother hne' hhead'
    have hax : a ≠ x := fun h => hx (h ▸ ha)
    have hne := List.disjoint_iff_ne.mp hdisjoint a ha
    exact (sameAt_join (hne _ hlast) hax).trans
      (sameAt_join hax (hne _ hfirst))

theorem remove (hrings : Rings links lists)
    (hhead : lists head = some (xs ++ x :: ys)) :
    Rings (links.join (xs.getLastD head) (ys.headD head))
      (Function.update lists head (some (xs ++ ys))) := by
  have hsub : (head :: (xs ++ ys)).Sublist (head :: (xs ++ x :: ys)) :=
    ((List.Sublist.refl xs).append (List.sublist_cons_self x ys)).cons_cons head
  have hlast : xs.getLastD head ∈ head :: (xs ++ ys) :=
    (List.sublist_append_left xs ys).cons_cons head |>.subset
      List.getLastD_mem_cons
  have hfirst : ys.headD head ∈ head :: (xs ++ ys) :=
    (List.sublist_append_right xs ys).cons_cons head |>.subset (headD_mem ys head)
  have hother : ∀ {head' nodes'}, head' ≠ head → lists head' = some nodes' →
      List.Disjoint (head' :: nodes') (head :: (xs ++ ys)) := by
    intro head' nodes' hne hhead'
    exact List.disjoint_of_subset_right hsub.subset
      (hrings.apart hhead' hhead hne)
  apply hrings.replace (hrings.ring hhead).remove hother
  intro head' nodes' hne hhead' a ha
  have hne := List.disjoint_iff_ne.mp (hother hne hhead') a ha
  exact sameAt_join (hne _ hlast) (hne _ hfirst)

/-- Taking a node out of every list takes it out of the one that it is in. -/
theorem erase_eq (hrings : Rings links lists)
    (hhead : lists head = some (xs ++ x :: ys)) :
    lists.erase x = Function.update lists head (some (xs ++ ys)) := by
  funext head'
  unfold HeadLists.erase
  by_cases hne : head' = head
  · subst hne
    have hnodup := (List.nodup_cons.mp (hrings.ring hhead).nodup).2
    have hx : x ∉ xs := fun hmem =>
      List.disjoint_of_nodup_append hnodup hmem List.mem_cons_self
    rw [hhead, Function.update_self, Option.map_some,
      List.erase_append_right _ hx, List.erase_cons_head]
  · rw [Function.update_of_ne hne]
    cases hhead' : lists head' with
    | none => rfl
    | some nodes' =>
        have hx : x ∉ nodes' := fun hmem =>
          hne (hrings.eq_of_mem hhead (by simp) hhead' hmem)
        rw [Option.map_some, List.erase_of_not_mem hx]

theorem erase_of_notMember (hx : ¬lists.IsMember x) : lists.erase x = lists := by
  funext head
  unfold HeadLists.erase
  cases hhead : lists head with
  | none => rfl
  | some nodes =>
      have hmem : x ∉ nodes := fun hmem => hx ⟨head, nodes, hhead, hmem⟩
      rw [Option.map_some, List.erase_of_not_mem hmem]

theorem erase_head (hrings : Rings links lists) (hx : lists.IsMember x) :
    lists.erase x x = .none := by
  unfold HeadLists.erase
  cases hhead : lists x with
  | none => rfl
  | some nodes => exact absurd hx (hrings.head_notMember hhead)

/-- A node that was taken out is loose. -/
theorem erase_loose (hrings : Rings links lists) (hx : lists.IsMember x) :
    (lists.erase x).IsLoose x := by
  obtain ⟨head, nodes, hhead, hmem⟩ := hx
  constructor
  · rintro ⟨head', nodes', hhead', hmem'⟩
    unfold HeadLists.erase at hhead'
    rw [Option.map_eq_some_iff] at hhead'
    obtain ⟨nodes₀, hnodes₀, rfl⟩ := hhead'
    have hnodup := (List.nodup_cons.mp (hrings.ring hnodes₀).nodup).2
    exact (List.Nodup.mem_erase_iff hnodup).mp hmem' |>.1 rfl
  · intro nodes' hhead'
    unfold HeadLists.erase at hhead'
    rw [Option.map_eq_some_iff] at hhead'
    obtain ⟨nodes₀, hnodes₀, -⟩ := hhead'
    exact absurd ⟨head, nodes, hhead, hmem⟩ (hrings.head_notMember hnodes₀)

/-- A node that is in no list becomes the head of an empty one. -/
theorem alone (hrings : Rings links lists) (hx : ¬lists.IsMember x) :
    Rings (links.join x x) (Function.update lists x (some [])) := by
  have hother : ∀ {head' nodes'}, head' ≠ x → lists head' = some nodes' →
      x ∉ head' :: nodes' := by
    intro head' nodes' hne hhead' hmem
    rcases List.mem_cons.mp hmem with rfl | hmem
    · exact hne rfl
    · exact hx ⟨head', nodes', hhead', hmem⟩
  apply hrings.replace
  · exact Ring.single (Function.update_self ..) (Function.update_self ..)
  · intro head' nodes' hne hhead'
    rw [List.disjoint_singleton]
    exact hother hne hhead'
  · intro head' nodes' hne hhead' a ha
    have hax : a ≠ x := fun h => hother hne hhead' (h ▸ ha)
    exact sameAt_join hax hax

end Rings

/-- Two joins put the nodes of one ring in front of those of another. -/
theorem Ring.splice [DecidableEq ρ] {head head' x : ρ} {xs ys : List ρ}
    (hring : links.Ring head ys) (hring' : links.Ring head' (x :: xs))
    (hapart : List.Disjoint (head' :: x :: xs) (head :: ys)) :
    ((links.join head x).join ((x :: xs).getLastD head) (ys.headD head)).Ring
      head (x :: xs ++ ys) := by
  have hnodup' := (List.nodup_cons.mp hring'.nodup).2
  have hnodup : (head :: (x :: xs ++ ys)).Nodup := by
    have happend : ((x :: xs) ++ (head :: ys)).Nodup :=
      List.Nodup.append hnodup' hring.nodup
        (List.disjoint_of_subset_left (List.subset_cons_self head' _) hapart)
    rw [List.nodup_middle] at happend
    exact happend
  have hhead : head ∉ x :: xs := fun hmem =>
    hapart (List.mem_cons_of_mem head' hmem) List.mem_cons_self
  have hx : x ∉ head :: ys :=
    hapart (List.mem_cons_of_mem head' List.mem_cons_self)
  -- the nodes that are put in front
  have hnodes : List.IsChain links.Joined (x :: xs) := by
    have hchain := hring'.joined.tail
    rw [List.tail_cons] at hchain
    exact hchain.left_of_append
  have hfront : List.IsChain (links.join head x).Joined (head :: x :: xs) := by
    refine .cons_cons (joined_join links head x) ?_
    apply isChain_join hnodes
    · exact fun hmem => hhead (List.dropLast_subset _ hmem)
    · exact (List.nodup_cons.mp hnodup').1
  -- the nodes that stay behind them
  have hback : List.IsChain (links.join head x).Joined (ys ++ [head]) := by
    have hchain := hring.joined.tail
    rw [List.tail_cons] at hchain
    apply isChain_join hchain
    · rw [List.dropLast_concat]
      exact (List.nodup_cons.mp hring.nodup).1
    · intro hmem
      have hmem := List.mem_of_mem_tail hmem
      rw [List.mem_append, List.mem_singleton] at hmem
      exact hx (List.mem_cons.mpr hmem.symm)
  have hparts := Ring.parts_join hnodup hfront hback
  exact ⟨hnodup, joined_append_iff.mpr
    ⟨hparts.1, hparts.2, joined_join _ _ _⟩⟩

theorem Rings.splice [DecidableEq ρ] {lists : HeadLists ρ} {head head' x : ρ}
    {xs ys : List ρ} (hrings : Rings links lists) (hhead : lists head = some ys)
    (hhead' : lists head' = some (x :: xs)) (hne : head' ≠ head) :
    Rings ((links.join head x).join ((x :: xs).getLastD head) (ys.headD head))
      (Function.update (Function.update lists head' .none) head
        (some (x :: xs ++ ys))) := by
  have hapart := hrings.apart hhead' hhead hne
  have hother : ∀ {h nodes}, h ≠ head →
      Function.update lists head' .none h = some nodes →
      List.Disjoint (h :: nodes) (head :: ys) ∧
        List.Disjoint (h :: nodes) (x :: xs) := by
    intro h nodes hh hnodes
    by_cases hsame : h = head'
    · subst hsame
      rw [Function.update_self] at hnodes
      cases hnodes
    · rw [Function.update_of_ne hsame] at hnodes
      exact ⟨hrings.apart hnodes hhead hh,
        List.disjoint_of_subset_right (List.subset_cons_self head' _)
          (hrings.apart hnodes hhead' hsame)⟩
  have hlast : (x :: xs).getLastD head ∈ x :: xs := by
    rw [List.getLastD_cons]
    exact List.getLastD_mem_cons
  apply (hrings.forget head').replace
  · exact (hrings.ring hhead).splice (hrings.ring hhead') hapart
  · intro h nodes hh hnodes
    obtain ⟨hys, hxs⟩ := hother hh hnodes
    rw [List.disjoint_right]
    intro a ha
    have hmem : a ∈ x :: xs ∨ a ∈ head :: ys := by
      simp only [List.mem_cons, List.mem_append] at ha ⊢
      tauto
    rcases hmem with hmem | hmem
    · exact List.disjoint_right.mp hxs hmem
    · exact List.disjoint_right.mp hys hmem
  · intro h nodes hh hnodes a ha
    obtain ⟨hys, hxs⟩ := hother hh hnodes
    have hneys := List.disjoint_iff_ne.mp hys a ha
    have hnexs := List.disjoint_iff_ne.mp hxs a ha
    exact (sameAt_join (hneys _ List.mem_cons_self)
        (hnexs _ List.mem_cons_self)).trans
      (sameAt_join (hnexs _ hlast) (hneys _ (headD_mem ys head)))

/-- The head of the nodes that were put in front is in no list. -/
theorem Rings.notMember_splice [DecidableEq ρ] {lists : HeadLists ρ}
    {head head' x : ρ} {xs ys : List ρ} (hrings : Rings links lists)
    (hhead : lists head = some ys) (hhead' : lists head' = some (x :: xs))
    (hne : head' ≠ head) :
    ¬HeadLists.IsMember (Function.update (Function.update lists head' .none) head
      (some (x :: xs ++ ys))) head' := by
  rintro ⟨h, nodes, hnodes, hmem⟩
  have hnotMem := hrings.head_notMember hhead'
  by_cases hh : h = head
  · subst hh
    rw [Function.update_self] at hnodes
    cases hnodes
    rcases List.mem_append.mp hmem with hmem | hmem
    · exact hnotMem ⟨head', _, hhead', hmem⟩
    · exact hnotMem ⟨h, ys, hhead, hmem⟩
  · rw [Function.update_of_ne hh] at hnodes
    by_cases hh' : h = head'
    · subst hh'
      rw [Function.update_self] at hnodes
      cases hnodes
    · rw [Function.update_of_ne hh'] at hnodes
      exact hnotMem ⟨h, nodes, hnodes, hmem⟩

end Links

end ClpszDemos
