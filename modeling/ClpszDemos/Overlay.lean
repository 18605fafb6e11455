import Mathlib.Data.List.Induction

/-!
# Writing over the beginning of a list

A write replaces the elements at the beginning of a list.  After any number of
writes each element is the one of the last write that came as far.
-/

namespace ClpszDemos

namespace Overlay

variable {α : Type}

def overlay (base written : List α) : List α :=
  written ++ base.drop written.length

/-- The element of the last of the lists that comes as far, or of the base. -/
def lastAt (base : List α) (writes : List (List α)) (p : ℕ) : Option α :=
  match writes.reverse.find? fun written => p < written.length with
  | some written => written[p]?
  | none => base[p]?

theorem getElem?_overlay (base written : List α) (p : ℕ) :
    (overlay base written)[p]? =
      if p < written.length then written[p]? else base[p]? := by
  unfold overlay
  by_cases hp : p < written.length
  · rw [if_pos hp, List.getElem?_append_left hp]
  · rw [if_neg hp, List.getElem?_append_right (Nat.not_lt.mp hp),
      List.getElem?_drop, Nat.add_sub_cancel' (Nat.not_lt.mp hp)]

theorem length_overlay {base written : List α}
    (hle : written.length ≤ base.length) :
    (overlay base written).length = base.length := by
  unfold overlay
  rw [List.length_append, List.length_drop]
  omega

theorem lastAt_concat (base : List α) (writes : List (List α))
    (written : List α) (p : ℕ) :
    lastAt base (writes ++ [written]) p =
      if p < written.length then written[p]? else lastAt base writes p := by
  unfold lastAt
  rw [List.reverse_append, List.reverse_singleton, List.singleton_append,
    List.find?_cons]
  by_cases hp : p < written.length
  · simp [hp]
  · simp [hp]

theorem getElem?_foldl_overlay (base : List α) (writes : List (List α))
    (p : ℕ) : (writes.foldl overlay base)[p]? = lastAt base writes p := by
  induction writes using List.reverseRecOn with
  | nil => rfl
  | append_singleton writes written ih =>
      rw [List.foldl_append, List.foldl_cons, List.foldl_nil,
        getElem?_overlay, lastAt_concat, ih]

end Overlay

end ClpszDemos
