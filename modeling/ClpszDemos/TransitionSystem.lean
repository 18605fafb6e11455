import Mathlib.Data.Nat.Notation
import Mathlib.Logic.Basic

/-!
# Transition systems with guarded runs

A system is driven by actions.  An action that is not enabled has no
successor, so a concrete schedule can be replayed by evaluation.  Runs carry
a guard on the pairs of action and state they may use; the unguarded runs
are the reachable states, and a guard states an assumption on the steps of a
run.  The induction over a run is made once, in `Run.invariant`.
-/

namespace ClpszDemos

/-- A transition system whose steps are named by actions. -/
structure TransitionSystem (σ α : Type*) where
  init : σ → Prop
  step : α → σ → Option σ

namespace TransitionSystem

variable {σ α : Type*}

/-- `T.Run Guard s t`: enabled steps lead from `s` to `t`, and every action
meets the guard in the state where it is taken. -/
inductive Run (T : TransitionSystem σ α) (Guard : α → σ → Prop) :
    σ → σ → Prop
  | refl (s : σ) : Run T Guard s s
  | tail {s t u : σ} {a : α} :
      Run T Guard s t → Guard a t → T.step a t = some u → Run T Guard s u

/-- States reached by runs all of whose steps meet the guard. -/
def ReachableBy (T : TransitionSystem σ α) (Guard : α → σ → Prop)
    (s : σ) : Prop :=
  ∃ start, T.init start ∧ T.Run Guard start s

/-- States reached by runs of any steps. -/
def Reachable (T : TransitionSystem σ α) (s : σ) : Prop :=
  T.ReachableBy (fun _ _ => True) s

variable {T : TransitionSystem σ α} {Guard : α → σ → Prop}

/-- A predicate which every guarded step preserves is preserved by every
guarded run. -/
theorem Run.invariant (Inv : σ → Prop)
    (hstep : ∀ a s t, Guard a s → T.step a s = some t → Inv s → Inv t)
    {s t : σ} (hrun : T.Run Guard s t) (hs : Inv s) : Inv t := by
  induction hrun with
  | refl => exact hs
  | tail _ hguard hnext ih => exact hstep _ _ _ hguard hnext ih

/-- Invariance from the initial states. -/
theorem ReachableBy.invariant (Inv : σ → Prop)
    (hinit : ∀ s, T.init s → Inv s)
    (hstep : ∀ a s t, Guard a s → T.step a s = some t → Inv s → Inv t)
    {s : σ} (hs : T.ReachableBy Guard s) : Inv s := by
  obtain ⟨start, hstart, hrun⟩ := hs
  exact hrun.invariant Inv hstep (hinit start hstart)

theorem Reachable.step {s t : σ} {a : α} (hs : T.Reachable s)
    (hstep : T.step a s = some t) : T.Reachable t := by
  obtain ⟨start, hstart, hrun⟩ := hs
  exact ⟨start, hstart, hrun.tail trivial hstep⟩

theorem ReachableBy.trans {s t : σ}
    (hs : T.ReachableBy Guard s) (hrun : T.Run Guard s t) :
    T.ReachableBy Guard t := by
  obtain ⟨start, hstart, hprefix⟩ := hs
  refine ⟨start, hstart, ?_⟩
  induction hrun with
  | refl => exact hprefix
  | tail _ hguard hnext ih => exact ih.tail hguard hnext

/-- Replay a schedule; `none` when one of its actions is not enabled or does
not meet the guard. -/
def exec (T : TransitionSystem σ α) (Guard : α → σ → Prop)
    [∀ a s, Decidable (Guard a s)] : List α → σ → Option σ
  | [], s => some s
  | a :: schedule, s =>
      if Guard a s then (T.step a s).bind (T.exec Guard schedule) else none

variable [∀ a s, Decidable (Guard a s)]

theorem exec_cons_eq_some {schedule : List α} {s u : σ} {a : α} :
    T.exec Guard (a :: schedule) s = some u ↔
      Guard a s ∧ ∃ t, T.step a s = some t ∧
        T.exec Guard schedule t = some u := by
  by_cases hguard : Guard a s
  · simp [exec, hguard, Option.bind_eq_some_iff]
  · simp [exec, hguard]

theorem Run.of_exec {schedule : List α} {s t u : σ}
    (hrun : T.Run Guard s t) (hexec : T.exec Guard schedule t = some u) :
    T.Run Guard s u := by
  induction schedule generalizing t with
  | nil =>
      simp only [exec, Option.some.injEq] at hexec
      exact hexec ▸ hrun
  | cons a schedule ih =>
      by_cases hguard : Guard a t
      · simp only [exec, if_pos hguard] at hexec
        rcases Option.bind_eq_some_iff.mp hexec with ⟨next, hnext, hrest⟩
        exact ih (hrun.tail hguard hnext) hrest
      · simp only [exec, if_neg hguard] at hexec
        cases hexec

/-- The end of an executable schedule is a reachable state. -/
theorem reachableBy_of_exec {schedule : List α} {s t : σ}
    (hinit : T.init s) (hexec : T.exec Guard schedule s = some t) :
    T.ReachableBy Guard t :=
  ⟨s, hinit, (Run.refl s).of_exec hexec⟩

/-! ## Several processes -/

/-- After a step of process `k` every process is the one that it has become,
or one of the others. -/
theorem process_cases {π : Type*} {processes : List π} {next process : π}
    {j k : ℕ} (hprocess : (processes.set k next)[j]? = some process) :
    j = k ∧ process = next ∨ j ≠ k ∧ processes[j]? = some process := by
  by_cases hjk : k = j
  · rw [List.getElem?_set, if_pos hjk] at hprocess
    by_cases hlt : k < processes.length
    · rw [if_pos hlt] at hprocess
      exact .inl ⟨hjk.symm, (Option.some.inj hprocess).symm⟩
    · rw [if_neg hlt] at hprocess
      cases hprocess
  · rw [List.getElem?_set_ne hjk] at hprocess
    exact .inr ⟨Ne.symm hjk, hprocess⟩

end TransitionSystem

end ClpszDemos
