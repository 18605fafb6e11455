import Mathlib.Tactic

/-!
# Programs that collect

A collector appends to a list and may end early with an error, which leaves in
the list what was appended before.  `Collects m source` says that `m` appends
items of `source`, each at most once and in their order there, however it
ends.
-/

namespace ClpszDemos

/-- A program over a list that grows -/
abbrev Collector (ε α : Type) : Type → Type :=
  ExceptT ε (StateM (List α))

namespace Collector

variable {ε α : Type}

/-- How the program ends, and the list then -/
def exec (m : Collector ε α Unit) (items : List α) : Except ε Unit × List α :=
  m items

/-- The list that the program ends with, unless it ends early. -/
def result (m : Collector ε α Unit) (items : List α) : Except ε (List α) :=
  match m.exec items with
  | (.ok _, out) => .ok out
  | (.error error, _) => .error error

def collect (item : α) : Collector ε α Unit :=
  modify fun items => items ++ [item]

/-! ## Results -/

@[simp] theorem result_pure (items : List α) :
    result (pure () : Collector ε α Unit) items = .ok items := rfl

@[simp] theorem result_throw (error : ε) (items : List α) :
    result (throw error : Collector ε α Unit) items = .error error := rfl

@[simp] theorem result_collect (item : α) (items : List α) :
    result (collect item : Collector ε α Unit) items = .ok (items ++ [item]) := rfl

theorem exec_bind (m k : Collector ε α Unit) (items : List α) :
    exec (m >>= fun _ => k) items =
      match m.exec items with
      | (.ok _, out) => k.exec out
      | (.error error, out) => (.error error, out) := by
  unfold exec
  simp only [bind, ExceptT.bind, ExceptT.mk, ExceptT.bindCont, StateT.bind]
  rcases m items with ⟨_ | _, out⟩
  · rfl
  · rfl

@[simp] theorem result_bind (m k : Collector ε α Unit) (items : List α) :
    result (m >>= fun _ => k) items =
      (m.result items >>= fun out => k.result out) := by
  unfold result
  rw [exec_bind]
  rcases m.exec items with ⟨_ | _, out⟩
  · rfl
  · rfl

theorem result_of_ok {m : Collector ε α Unit} {items : List α}
    (hexec : (m.exec items).1 = .ok ()) :
    m.result items = .ok (m.exec items).2 := by
  unfold result
  rcases hm : m.exec items with ⟨_ | _, out⟩
  · rw [hm] at hexec
    cases hexec
  · rfl

theorem result_of_error {m : Collector ε α Unit} {items : List α} {error : ε}
    (hexec : (m.exec items).1 = .error error) :
    m.result items = .error error := by
  unfold result
  rcases hm : m.exec items with ⟨_ | _, out⟩
  · rw [hm] at hexec
    injection hexec with herror
    rw [herror]
  · rw [hm] at hexec
    cases hexec

/-! ## What is collected -/

def Collects (m : Collector ε α Unit) (source : List α) : Prop :=
  ∀ items, ∃ added, added.Sublist source ∧ (m.exec items).2 = items ++ added

namespace Collects

theorem nothing : Collects (pure () : Collector ε α Unit) [] := by
  intro items
  exact ⟨[], .slnil, (List.append_nil items).symm⟩

theorem throw (error : ε) : Collects (throw error : Collector ε α Unit) [] := by
  intro items
  exact ⟨[], .slnil, (List.append_nil items).symm⟩

theorem collect (item : α) :
    Collects (Collector.collect item : Collector ε α Unit) [item] := by
  intro items
  exact ⟨[item], List.Sublist.refl _, rfl⟩

theorem mono {m : Collector ε α Unit} {source source' : List α}
    (hm : Collects m source) (hsource : source.Sublist source') :
    Collects m source' := by
  intro items
  obtain ⟨added, hadded, hlist⟩ := hm items
  exact ⟨added, hadded.trans hsource, hlist⟩

theorem bind {m k : Collector ε α Unit} {first second : List α}
    (hm : Collects m first) (hk : Collects k second) :
    Collects (m >>= fun _ => k) (first ++ second) := by
  intro items
  obtain ⟨added, hadded, hlist⟩ := hm items
  rw [exec_bind]
  rcases hexec : m.exec items with ⟨_ | _, out⟩
  · rw [hexec] at hlist
    exact ⟨added, hadded.trans (List.sublist_append_left first second), hlist⟩
  · rw [hexec] at hlist
    obtain ⟨more, hmore, hout⟩ := hk out
    refine ⟨added ++ more, hadded.append hmore, ?_⟩
    rw [← List.append_assoc, ← hlist]
    exact hout

end Collects

end Collector
end ClpszDemos
