import Mathlib.Tactic

/-!
# Triples for stateful programs that can panic

A program takes a state and ends with a value and a new state, or with an
error.  `Triple P m Q E` says that from a state in `P` it ends with a value and
a state in `Q`, or with an error in `E`; nothing else can happen.
-/

namespace ClpszDemos

section Bind

variable {σ ε α β : Type}

theorem except_bind_eq_ok_iff {x : Except ε α} {f : α → Except ε β} {b : β} :
    (x >>= f) = .ok b ↔ ∃ a, x = .ok a ∧ f a = .ok b := by
  cases x with
  | ok a => simp [bind, Except.bind]
  | error error => simp [bind, Except.bind]

theorem except_bind_eq_ok {x : Except ε α} {f : α → Except ε β} {b : β}
    (hrun : (x >>= f) = .ok b) : ∃ a, x = .ok a ∧ f a = .ok b :=
  except_bind_eq_ok_iff.mp hrun

/-- A sequence of two programs that ends normally, cut between the two. -/
theorem bind_eq_ok {m : StateT σ (Except ε) α} {f : α → StateT σ (Except ε) β}
    {s s'' : σ} {b : β} (hrun : (m >>= f) s = .ok (b, s'')) :
    ∃ a s', m s = .ok (a, s') ∧ f a s' = .ok (b, s'') := by
  have hbind : (m >>= f) s = (m s >>= fun p => f p.1 p.2) := rfl
  rw [hbind] at hrun
  obtain ⟨result, hm, hf⟩ := except_bind_eq_ok hrun
  exact ⟨result.1, result.2, hm, hf⟩

theorem map_eq_ok {m : StateT σ (Except ε) α} {f : α → β} {s s' : σ} {b : β}
    (hrun : (f <$> m) s = .ok (b, s')) :
    ∃ a, m s = .ok (a, s') ∧ f a = b := by
  have hmap : (f <$> m) s = (m >>= fun a => pure (f a)) s := rfl
  rw [hmap] at hrun
  obtain ⟨a, s'', hm, hpure⟩ := bind_eq_ok hrun
  injection hpure with hpair
  injection hpair with hvalue hstate
  rw [← hstate]
  exact ⟨a, hm, hvalue⟩

end Bind

section Triple

variable {σ ε α β : Type}

/-- The postconditions of a result: `Q` of a normal one, `E` of an error. -/
def Ends (Q : α → σ → Prop) (E : ε → Prop) : Except ε (α × σ) → Prop
  | .ok (value, state) => Q value state
  | .error error => E error

def Triple (P : σ → Prop) (m : StateT σ (Except ε) α) (Q : α → σ → Prop)
    (E : ε → Prop) : Prop :=
  ∀ s, P s → Ends Q E (m s)

namespace Triple

variable {P : σ → Prop} {E : ε → Prop}

theorem pure {Q : α → σ → Prop} {value : α} (hQ : ∀ s, P s → Q value s) :
    Triple P (Pure.pure value : StateT σ (Except ε) α) Q E :=
  hQ

theorem throw {Q : α → σ → Prop} {error : ε} (hE : E error) :
    Triple P (throw error : StateT σ (Except ε) α) Q E :=
  fun _ _ => hE

theorem mono {P' : σ → Prop} {Q Q' : α → σ → Prop} {E' : ε → Prop}
    {m : StateT σ (Except ε) α} (htriple : Triple P m Q E)
    (hP : ∀ s, P' s → P s) (hQ : ∀ a s, Q a s → Q' a s)
    (hE : ∀ e, E e → E' e) : Triple P' m Q' E' := by
  intro s hs
  have hends := htriple s (hP s hs)
  cases hm : m s with
  | ok result =>
      rw [hm] at hends
      exact hQ _ _ hends
  | error error =>
      rw [hm] at hends
      exact hE _ hends

theorem post {Q Q' : α → σ → Prop} {m : StateT σ (Except ε) α}
    (htriple : Triple P m Q E) (hQ : ∀ a s, Q a s → Q' a s) :
    Triple P m Q' E :=
  htriple.mono (fun _ hs => hs) hQ fun _ he => he

theorem of_left {R : σ → Prop} {Q : α → σ → Prop} {m : StateT σ (Except ε) α}
    (htriple : Triple P m Q E) : Triple (fun s => P s ∧ R s) m Q E :=
  fun s hs => htriple s hs.1

theorem bind {R : α → σ → Prop} {Q : β → σ → Prop}
    {m : StateT σ (Except ε) α} {f : α → StateT σ (Except ε) β}
    (hm : Triple P m R E) (hf : ∀ a, Triple (R a) (f a) Q E) :
    Triple P (m >>= f) Q E := by
  intro s hs
  have hends := hm s hs
  show Ends Q E (do let (a, s') ← m s; f a s')
  cases hresult : m s with
  | ok result =>
      rw [hresult] at hends
      exact hf result.1 result.2 hends
  | error error =>
      rw [hresult] at hends
      exact hends

/-- The case where the first program's value is known. -/
theorem bind_value {R : σ → Prop} {Q : β → σ → Prop}
    {m : StateT σ (Except ε) α} {f : α → StateT σ (Except ε) β} {value : α}
    (hm : Triple P m (fun a s => a = value ∧ R s) E)
    (hf : Triple R (f value) Q E) : Triple P (m >>= f) Q E := by
  apply hm.bind
  rintro a s ⟨rfl, hs⟩
  exact hf s hs

/-- A program that ends in no error of `E` ends normally. -/
theorem ok {Q : α → σ → Prop} {m : StateT σ (Except ε) α} {s : σ}
    (htriple : Triple P m Q fun _ => False) (hs : P s) :
    ∃ value state, m s = .ok (value, state) ∧ Q value state := by
  have hends := htriple s hs
  cases hm : m s with
  | ok result =>
      rw [hm] at hends
      exact ⟨result.1, result.2, rfl, hends⟩
  | error error =>
      rw [hm] at hends
      exact hends.elim

end Triple

end Triple

/-! ## A part of the state -/

section Zoom

variable {σ τ ε α : Type}

/-- Run a program on one field of the state. -/
def zoom (get : σ → τ) (set : τ → σ → σ) (m : StateT τ (Except ε) α) :
    StateT σ (Except ε) α := fun s =>
  match m (get s) with
  | .ok (value, part) => .ok (value, set part s)
  | .error error => .error error

theorem Triple.zoom {P : τ → Prop} {P' : σ → Prop} {Q : α → τ → Prop}
    {Q' : α → σ → Prop} {E : ε → Prop} {m : StateT τ (Except ε) α}
    {get : σ → τ} {set : τ → σ → σ} (htriple : Triple P m Q E)
    (hP : ∀ s, P' s → P (get s))
    (hQ : ∀ s a part, P' s → Q a part → Q' a (set part s)) :
    Triple P' (zoom get set m) Q' E := by
  intro s hs
  have hends := htriple (get s) (hP s hs)
  unfold ClpszDemos.zoom
  cases hm : m (get s) with
  | ok result =>
      rw [hm] at hends
      exact hQ s result.1 result.2 hs hends
  | error error =>
      rw [hm] at hends
      exact hends

end Zoom

/-! ## A part of the state that a program does not use -/

section Ignores

variable {σ τ ε α β : Type}

/-- The program neither reads nor changes what `replace` replaces. -/
def Ignores (replace : σ → σ) (m : StateT σ (Except ε) α) : Prop :=
  ∀ s, m (replace s) = (m s).map fun p => (p.1, replace p.2)

namespace Ignores

variable {replace : σ → σ}

theorem bind {m : StateT σ (Except ε) α}
    {f : α → StateT σ (Except ε) β} (hm : Ignores replace m)
    (hf : ∀ a, Ignores replace (f a)) : Ignores replace (m >>= f) := by
  intro s
  have hbind : ∀ s, (m >>= f) s = (m s >>= fun p => f p.1 p.2) :=
    fun _ => rfl
  rw [hbind, hbind, hm s]
  cases m s with
  | ok result => exact hf result.1 result.2
  | error error => rfl

theorem zoom {get : σ → τ} {set : τ → σ → σ} (m : StateT τ (Except ε) α)
    (hget : ∀ s, get (replace s) = get s)
    (hset : ∀ part s, set part (replace s) = replace (set part s)) :
    Ignores replace (ClpszDemos.zoom get set m) := by
  intro s
  unfold ClpszDemos.zoom
  rw [hget]
  cases m (get s) with
  | ok result => simp only [Except.map, hset]
  | error error => rfl

end Ignores

end Ignores

end ClpszDemos
