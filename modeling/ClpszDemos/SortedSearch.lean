import Mathlib

/-!
# Binary search in a sorted table

A table is a list of keys with their values.  Looking a key up from the front
is always defined; where the keys are sorted and distinct, halving the table
finds the same value.
-/

namespace ClpszDemos

section BinarySearch

variable {κ ν : Type*} [LinearOrder κ]

/-- The keys are in ascending order, each of them once. -/
def SortedByKey (entries : List (κ × ν)) : Prop :=
  entries.Pairwise fun p q => p.1 < q.1

/-- The search for a key among the entries from `low` up to `high`. -/
def binarySearch (entries : List (κ × ν)) (key : κ) (low high : ℕ) :
    Option ν :=
  if low < high then
    match entries[(low + high) / 2]? with
    | none => none
    | some entry =>
        if key < entry.1 then binarySearch entries key low ((low + high) / 2)
        else if entry.1 < key then
          binarySearch entries key ((low + high) / 2 + 1) high
        else some entry.2
  else none
termination_by high - low

/-- A key is nowhere but between `low` and `high`. -/
def KeyWithin (entries : List (κ × ν)) (key : κ) (low high : ℕ) : Prop :=
  ∀ i entry, entries[i]? = some entry → entry.1 = key → low ≤ i ∧ i < high

variable {entries : List (κ × ν)} {key : κ} {low high middle : ℕ}

theorem SortedByKey.key_lt (hsorted : SortedByKey entries) {i j : ℕ}
    {p q : κ × ν} (hp : entries[i]? = some p) (hq : entries[j]? = some q)
    (hlt : i < j) : p.1 < q.1 := by
  obtain ⟨hi, rfl⟩ := List.getElem?_eq_some_iff.mp hp
  obtain ⟨hj, rfl⟩ := List.getElem?_eq_some_iff.mp hq
  exact List.pairwise_iff_getElem.mp hsorted i j hi hj hlt

theorem SortedByKey.lookup_eq_some (hsorted : SortedByKey entries) {i : ℕ}
    {entry : κ × ν} (hentry : entries[i]? = some entry) :
    entries.lookup entry.1 = some entry.2 := by
  induction entries generalizing i with
  | nil => simp at hentry
  | cons first rest ih =>
      cases i with
      | zero =>
          rw [List.getElem?_cons_zero] at hentry
          rw [← Option.some.inj hentry, List.lookup_cons_self]
      | succ i =>
          have hfirst := hsorted.key_lt (i := 0) (j := i + 1) rfl hentry
            (Nat.succ_pos i)
          have hne : (entry.1 == first.1) = false :=
            beq_eq_false_iff_ne.mpr (ne_of_gt hfirst)
          rw [List.getElem?_cons_succ] at hentry
          rw [List.lookup_cons, hne]
          exact ih (List.pairwise_cons.mp hsorted).2 hentry

theorem SortedByKey.index_lt (hsorted : SortedByKey entries) {i j : ℕ}
    {p q : κ × ν} (hp : entries[i]? = some p) (hq : entries[j]? = some q)
    (hlt : p.1 < q.1) : i < j := by
  rcases Nat.lt_trichotomy i j with hij | rfl | hji
  · exact hij
  · rw [Option.some.inj (hp.symm.trans hq)] at hlt
    exact absurd hlt (lt_irrefl q.1)
  · exact absurd hlt (lt_asymm (hsorted.key_lt hq hp hji))

theorem KeyWithin.below (hwithin : KeyWithin entries key low high)
    (hsorted : SortedByKey entries) {entry : κ × ν}
    (hentry : entries[middle]? = some entry) (hlt : key < entry.1) :
    KeyWithin entries key low middle := by
  intro i other hother hkey
  have hbelow : i < middle := by
    rw [← hkey] at hlt
    exact hsorted.index_lt hother hentry hlt
  exact ⟨(hwithin i other hother hkey).1, hbelow⟩

theorem KeyWithin.above (hwithin : KeyWithin entries key low high)
    (hsorted : SortedByKey entries) {entry : κ × ν}
    (hentry : entries[middle]? = some entry) (hlt : entry.1 < key) :
    KeyWithin entries key (middle + 1) high := by
  intro i other hother hkey
  have habove : middle < i := by
    rw [← hkey] at hlt
    exact hsorted.index_lt hentry hother hlt
  exact ⟨habove, (hwithin i other hother hkey).2⟩

theorem KeyWithin.lookup_eq_none (hwithin : KeyWithin entries key low high)
    (hempty : ¬ low < high) : entries.lookup key = none := by
  rw [List.lookup_eq_none_iff]
  intro entry hmem
  obtain ⟨i, hi, hentry⟩ := List.getElem_of_mem hmem
  have hget : entries[i]? = some entry := List.getElem?_eq_some_iff.mpr
    ⟨hi, hentry⟩
  have hne : entry.1 ≠ key := by
    intro hkey
    obtain ⟨hlow, hhigh⟩ := hwithin i entry hget hkey
    omega
  exact bne_iff_ne.mpr hne.symm

theorem binarySearch_within (hsorted : SortedByKey entries)
    (hhigh : high ≤ entries.length)
    (hwithin : KeyWithin entries key low high) :
    binarySearch entries key low high = entries.lookup key := by
  fun_induction binarySearch entries key low high with
  | case1 low high hlt hnone =>
      rw [List.getElem?_eq_none_iff] at hnone
      omega
  | case2 low high hlt entry hentry hkey ih =>
      exact ih (by omega) (hwithin.below hsorted hentry hkey)
  | case3 low high hlt entry hentry hge hkey ih =>
      exact ih hhigh (hwithin.above hsorted hentry hkey)
  | case4 low high hlt entry hentry hge hle =>
      have hkey : entry.1 = key := le_antisymm (not_lt.mp hge) (not_lt.mp hle)
      rw [← hkey, hsorted.lookup_eq_some hentry]
  | case5 low high hempty => rw [hwithin.lookup_eq_none hempty]

/-- In a sorted table, halving finds what looking from the front finds. -/
theorem binarySearch_eq_lookup (hsorted : SortedByKey entries) (key : κ) :
    binarySearch entries key 0 entries.length = entries.lookup key := by
  apply binarySearch_within hsorted (Nat.le_refl _)
  intro i entry hentry _
  obtain ⟨hi, _⟩ := List.getElem?_eq_some_iff.mp hentry
  exact ⟨Nat.zero_le i, hi⟩

end BinarySearch

end ClpszDemos
