import Mathlib.Tactic

/-!
# Recursive procedures

Procedures that call each other without a bound, given by their texts.  A text
performs operations on a state and calls procedures; `Runs` is what it does,
with the number of its steps, and only exists for a run that ends.  `Calls` is
which calls a call makes.  If no chain of calls is infinite then every call
ends, and what all operations keep between two states holds between the state
of a call and the states of all calls below it.
-/

namespace ClpszDemos

namespace Procedures

universe u v

/-- The text of a procedure that returns an `α`. -/
inductive Script (Op : Type → Type u) (Proc : Type → Type v) (ε α : Type) :
    Type (max 1 u v)
  | ret (a : α)
  | fail (error : ε)
  | op {β : Type} (op : Op β) (next : β → Script Op Proc ε α)
  | call {β : Type} (proc : Proc β) (next : β → Script Op Proc ε α)

/-- A call of a procedure in some state. -/
structure Call (Proc : Type → Type v) (σ : Type) where
  {result : Type}
  proc : Proc result
  state : σ

/-- What a text can do on the way: an operation or a call, in some state. -/
inductive Action (Op : Type → Type u) (Proc : Type → Type v) (σ : Type)
  | op {β : Type} (op : Op β) (state : σ)
  | call (c : Call Proc σ)

def Action.state {Op : Type → Type u} {Proc : Type → Type v} {σ : Type} :
    Action Op Proc σ → σ
  | .op _ state => state
  | .call c => c.state

/-- What the operations do and the text of each procedure. -/
structure Program (Op : Type → Type u) (Proc : Type → Type v) (σ ε : Type) where
  exec : {β : Type} → Op β → StateT σ (Except ε) β
  body : {β : Type} → Proc β → Script Op Proc ε β

namespace Program

variable {Op : Type → Type u} {Proc : Type → Type v} {σ ε : Type}

section Semantics

variable (program : Program Op Proc σ ε)

/-- The text ends after that many steps. -/
inductive Runs : {α : Type} → Script Op Proc ε α → σ → ℕ →
    Except ε (α × σ) → Prop
  | ret {α : Type} (a : α) (s : σ) : Runs (.ret a) s 0 (.ok (a, s))
  | fail {α : Type} (error : ε) (s : σ) :
      Runs (.fail error : Script Op Proc ε α) s 0 (.error error)
  | op {α β : Type} {op : Op β} {next : β → Script Op Proc ε α} {s t : σ}
      {b : β} {n : ℕ} {r : Except ε (α × σ)}
      (exec : program.exec op s = .ok (b, t)) (rest : Runs (next b) t n r) :
      Runs (.op op next) s (n + 1) r
  | opFails {α β : Type} {op : Op β} {next : β → Script Op Proc ε α} {s : σ}
      {error : ε} (exec : program.exec op s = .error error) :
      Runs (.op op next) s 1 (.error error)
  | call {α β : Type} {proc : Proc β} {next : β → Script Op Proc ε α} {s t : σ}
      {b : β} {m n : ℕ} {r : Except ε (α × σ)}
      (body : Runs (program.body proc) s m (.ok (b, t)))
      (rest : Runs (next b) t n r) :
      Runs (.call proc next) s (m + n + 1) r
  | callFails {α β : Type} {proc : Proc β} {next : β → Script Op Proc ε α}
      {s : σ} {m : ℕ} {error : ε}
      (body : Runs (program.body proc) s m (.error error)) :
      Runs (.call proc next) s (m + 1) (.error error)

/-- From `s` on, the text comes to the action. -/
def Does {α : Type} : Script Op Proc ε α → σ → Action Op Proc σ → Prop
  | .ret _, _, _ => False
  | .fail _, _, _ => False
  | .op op next, s, action =>
      action = .op op s ∨
        ∃ b t, program.exec op s = .ok (b, t) ∧ Does (next b) t action
  | .call proc next, s, action =>
      action = .call ⟨proc, s⟩ ∨
        ∃ n b t, program.Runs (program.body proc) s n (.ok (b, t)) ∧
          Does (next b) t action

def Calls (c d : Call Proc σ) : Prop :=
  program.Does (program.body c.proc) c.state (.call d)

def Performs (c : Call Proc σ) {β : Type} (op : Op β) (state : σ) : Prop :=
  program.Does (program.body c.proc) c.state (.op op state)

/-- All calls below a call, and the call itself. -/
def Reaches : Call Proc σ → Call Proc σ → Prop :=
  Relation.ReflTransGen program.Calls

/-- The call ends, normally or not. -/
def Ends (c : Call Proc σ) : Prop :=
  ∃ n r, program.Runs (program.body c.proc) c.state n r

end Semantics

variable {program : Program Op Proc σ ε}

/-! ## Termination -/

/-- A text ends if all calls that it comes to end. -/
theorem runs_of_ends {α : Type} {script : Script Op Proc ε α} {s : σ}
    (hends : ∀ c, program.Does script s (.call c) → program.Ends c) :
    ∃ n r, program.Runs script s n r := by
  induction script generalizing s with
  | ret a => exact ⟨0, _, Runs.ret a s⟩
  | fail error => exact ⟨0, _, Runs.fail error s⟩
  | op op next ih =>
      cases hexec : program.exec op s with
      | error error => exact ⟨1, _, Runs.opFails hexec⟩
      | ok result =>
          have hrest : ∃ n r, program.Runs (next result.1) result.2 n r := by
            apply ih
            intro c hc
            exact hends c (Or.inr ⟨result.1, result.2, hexec, hc⟩)
          obtain ⟨n, r, hrun⟩ := hrest
          exact ⟨n + 1, r, Runs.op hexec hrun⟩
  | call proc next ih =>
      obtain ⟨m, result, hbody⟩ := hends ⟨proc, s⟩ (Or.inl rfl)
      cases result with
      | error error => exact ⟨m + 1, _, Runs.callFails hbody⟩
      | ok result =>
          have hrest : ∃ n r, program.Runs (next result.1) result.2 n r := by
            apply ih
            intro c hc
            exact hends c (Or.inr ⟨m, result.1, result.2, hbody, hc⟩)
          obtain ⟨n, r, hrun⟩ := hrest
          exact ⟨m + n + 1, r, Runs.call hbody hrun⟩

theorem ends_of_wellFounded
    (hwf : WellFounded fun d c : Call Proc σ => program.Calls c d)
    (c : Call Proc σ) : program.Ends c := by
  induction c using hwf.induction with
  | _ c ih => exact runs_of_ends ih

/-! ## What operations keep -/

section Preserves

variable {R : σ → σ → Prop}

/-- Every operation leads to a state that is related to the one before. -/
structure Preserves (program : Program Op Proc σ ε) (R : σ → σ → Prop) :
    Prop where
  refl : ∀ s, R s s
  trans : ∀ {s t u}, R s t → R t u → R s u
  exec : ∀ {β : Type} (op : Op β) (s t : σ) (b : β),
    program.exec op s = .ok (b, t) → R t s

theorem Runs.preserves (hR : program.Preserves R) {α : Type}
    {script : Script Op Proc ε α} {s : σ} {n : ℕ} {r : Except ε (α × σ)}
    (hrun : program.Runs script s n r) :
    ∀ a t, r = .ok (a, t) → R t s := by
  induction hrun with
  | ret a s =>
      intro b t heq
      cases heq
      exact hR.refl s
  | fail error s =>
      intro b t heq
      cases heq
  | op exec rest ih =>
      intro a u heq
      exact hR.trans (ih a u heq) (hR.exec _ _ _ _ exec)
  | opFails exec =>
      intro b t heq
      cases heq
  | call body rest ihbody ihrest =>
      intro a u heq
      exact hR.trans (ihrest a u heq) (ihbody _ _ rfl)
  | callFails body ih =>
      intro b t heq
      cases heq

theorem Does.preserves (hR : program.Preserves R) {α : Type}
    {script : Script Op Proc ε α} {s : σ} {action : Action Op Proc σ}
    (hdoes : program.Does script s action) : R (Action.state action) s := by
  induction script generalizing s with
  | ret a => exact hdoes.elim
  | fail error => exact hdoes.elim
  | op op next ih =>
      rcases hdoes with rfl | ⟨b, t, hop, hrest⟩
      · exact hR.refl s
      · exact hR.trans (ih b hrest) (hR.exec op s t b hop)
  | call proc next ih =>
      rcases hdoes with rfl | ⟨n, b, t, hbody, hrest⟩
      · exact hR.refl s
      · exact hR.trans (ih b hrest) (hbody.preserves hR b t rfl)

theorem Reaches.preserves (hR : program.Preserves R) {c d : Call Proc σ}
    (hreaches : program.Reaches c d) : R d.state c.state := by
  induction hreaches with
  | refl => exact hR.refl c.state
  | tail hbefore hcall ih =>
      exact hR.trans (Does.preserves hR hcall) ih

end Preserves

/-! ## The functions that procedures compute -/

section Denotation

variable (program : Program Op Proc σ ε)
  (run : {β : Type} → Proc β → StateT σ (Except ε) β)

/-- A text with a function in place of each procedure. -/
def denote {α : Type} : Script Op Proc ε α → StateT σ (Except ε) α
  | .ret a => pure a
  | .fail error => throw error
  | .op op next => do
      let b ← program.exec op
      denote (next b)
  | .call proc next => do
      let b ← run proc
      denote (next b)

/-- Functions that satisfy the equations of the procedures are what they
compute. -/
theorem Runs.denote_eq
    (hrun : ∀ {β : Type} (proc : Proc β),
      run proc = program.denote run (program.body proc))
    {α : Type} {script : Script Op Proc ε α} {s : σ} {n : ℕ}
    {r : Except ε (α × σ)} (hruns : program.Runs script s n r) :
    program.denote run script s = r := by
  induction hruns with
  | ret a s => rfl
  | fail error s => rfl
  | @op α β op next s t b n r exec rest ih =>
      show (program.exec op s >>= fun p =>
        program.denote run (next p.1) p.2) = r
      rw [exec]
      exact ih
  | @opFails α β op next s error exec =>
      show (program.exec op s >>= fun p =>
        program.denote run (next p.1) p.2) = _
      rw [exec]
      rfl
  | @call α β proc next s t b m n r body rest ihbody ihrest =>
      show (run proc s >>= fun p => program.denote run (next p.1) p.2) = r
      rw [hrun, ihbody]
      exact ihrest
  | @callFails α β proc next s m error body ih =>
      show (run proc s >>= fun p => program.denote run (next p.1) p.2) = _
      rw [hrun, ih]
      rfl

end Denotation

end Program

end Procedures

end ClpszDemos
