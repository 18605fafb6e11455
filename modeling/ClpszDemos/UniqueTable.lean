import Mathlib.Data.List.Nodup
import Mathlib.Algebra.BigOperators.Group.List.Basic
import Mathlib.Tactic

/-!
# Tables with an auto-increment primary key and a unique key

A table is a list of rows.  Its primary keys come from a counter, and a
second column is declared unique, so an insertion with a key that is already
there is refused.  Both facts are fields of the table: a table that violates
them cannot be built.  Rows are found by the unique key and updated by the
primary key, which is how the data access objects of both demos work.
-/

namespace ClpszDemos

class KeyedRow (ρ : Type) where
  primaryKey : ρ → ℕ
  uniqueKey : ρ → ℕ

structure KeyedRow.Update (ρ : Type) [KeyedRow ρ] where
  apply : ρ → ρ
  primaryKey_apply : ∀ row, primaryKey (apply row) = primaryKey row
  uniqueKey_apply : ∀ row, uniqueKey (apply row) = uniqueKey row

open KeyedRow

structure UniqueTable (ρ : Type) [KeyedRow ρ] where
  rows : List ρ
  nextKey : ℕ
  primaryKey_lt : ∀ row ∈ rows, primaryKey row < nextKey
  primaryKey_nodup : (rows.map primaryKey).Nodup
  uniqueKey_nodup : (rows.map uniqueKey).Nodup

namespace UniqueTable

variable {ρ : Type} [KeyedRow ρ]

def empty (ρ : Type) [KeyedRow ρ] : UniqueTable ρ where
  rows := []
  nextKey := 1
  primaryKey_lt := by simp
  primaryKey_nodup := by simp
  uniqueKey_nodup := by simp

/-- `select * from t where unique_key = key` -/
def find (table : UniqueTable ρ) (key : ℕ) : Option ρ :=
  table.rows.find? fun row => uniqueKey row == key

theorem find_eq_some_iff {table : UniqueTable ρ} {key : ℕ} {row : ρ} :
    table.find key = some row ↔ row ∈ table.rows ∧ uniqueKey row = key := by
  constructor
  · intro hfind
    exact ⟨List.mem_of_find?_eq_some hfind, by
      simpa using List.find?_some hfind⟩
  · rintro ⟨hmem, hkey⟩
    obtain ⟨found, hfound⟩ : ∃ found, table.find key = some found := by
      apply Option.isSome_iff_exists.mp
      simp only [find, List.find?_isSome, beq_iff_eq]
      exact ⟨row, hmem, hkey⟩
    have hfoundKey : uniqueKey found = key := by
      simpa using List.find?_some hfound
    have hsame : found = row :=
      List.inj_on_of_nodup_map table.uniqueKey_nodup
        (List.mem_of_find?_eq_some hfound) hmem (hfoundKey.trans hkey.symm)
    exact hsame ▸ hfound

theorem find_eq_none_iff {table : UniqueTable ρ} {key : ℕ} :
    table.find key = none ↔ ∀ row ∈ table.rows, uniqueKey row ≠ key := by
  simp [find, List.find?_eq_none]

/-- `insert into t ...`: the row is built from the generated key, and the
insertion is refused when its unique key is taken. -/
def insert (table : UniqueTable ρ) (make : ℕ → ρ)
    (hmake : ∀ key, primaryKey (make key) = key) :
    Option (UniqueTable ρ) :=
  if hfresh : table.find (uniqueKey (make table.nextKey)) = none then
    some {
      rows := table.rows ++ [make table.nextKey]
      nextKey := table.nextKey + 1
      primaryKey_lt := by
        intro row hrow
        rcases List.mem_append.mp hrow with hold | hnew
        · exact (table.primaryKey_lt row hold).trans (Nat.lt_succ_self _)
        · rw [List.mem_singleton.mp hnew, hmake]
          exact Nat.lt_succ_self _
      primaryKey_nodup := by
        rw [List.map_append, List.map_singleton]
        refine table.primaryKey_nodup.append (by simp) ?_
        simp only [List.disjoint_singleton, List.mem_map, not_exists,
          not_and, hmake]
        intro row hrow heq
        exact (table.primaryKey_lt row hrow).ne heq
      uniqueKey_nodup := by
        rw [List.map_append, List.map_singleton]
        refine table.uniqueKey_nodup.append (by simp) ?_
        simp only [List.disjoint_singleton, List.mem_map, not_exists,
          not_and]
        exact fun row hrow => find_eq_none_iff.mp hfresh row hrow }
  else none

/-- `update t set ... where primary_key = key` -/
def modify (table : UniqueTable ρ) (key : ℕ) (update : Update ρ) :
    UniqueTable ρ where
  rows := table.rows.map fun row =>
    if primaryKey row = key then update.apply row else row
  nextKey := table.nextKey
  primaryKey_lt := by
    intro row hrow
    obtain ⟨old, hold, rfl⟩ := List.mem_map.mp hrow
    have hlt := table.primaryKey_lt old hold
    split
    · rwa [update.primaryKey_apply]
    · exact hlt
  primaryKey_nodup := by
    have hsame : (fun row => primaryKey
        (if primaryKey row = key then update.apply row else row)) =
          primaryKey := by
      funext row
      split <;> simp [update.primaryKey_apply]
    simpa [List.map_map, Function.comp_def, hsame] using
      table.primaryKey_nodup
  uniqueKey_nodup := by
    have hsame : (fun row => uniqueKey
        (if primaryKey row = key then update.apply row else row)) =
          uniqueKey := by
      funext row
      split <;> simp [update.uniqueKey_apply]
    simpa [List.map_map, Function.comp_def, hsame] using
      table.uniqueKey_nodup

/-! ## What the statements do to a lookup -/

@[simp] theorem find_empty (key : ℕ) : (empty ρ).find key = none := rfl

@[simp] theorem rows_empty : (empty ρ).rows = [] := rfl

theorem insert_eq_some {table next : UniqueTable ρ} {make : ℕ → ρ}
    {hmake : ∀ key, primaryKey (make key) = key}
    (hinsert : table.insert make hmake = some next) :
    table.find (uniqueKey (make table.nextKey)) = none ∧
      next.rows = table.rows ++ [make table.nextKey] ∧
      next.nextKey = table.nextKey + 1 := by
  unfold insert at hinsert
  split at hinsert
  · rename_i hfresh
    cases hinsert
    exact ⟨hfresh, rfl, rfl⟩
  · cases hinsert

theorem mem_insert {table next : UniqueTable ρ} {make : ℕ → ρ}
    {hmake : ∀ key, primaryKey (make key) = key}
    (hinsert : table.insert make hmake = some next) {row : ρ}
    (hrow : row ∈ next.rows) :
    row ∈ table.rows ∨ row = make table.nextKey := by
  rw [(insert_eq_some hinsert).2.1] at hrow
  simpa using hrow

theorem insert_isSome {table : UniqueTable ρ} (make : ℕ → ρ)
    (hmake : ∀ key, primaryKey (make key) = key)
    (hfresh : table.find (uniqueKey (make table.nextKey)) = none) :
    ∃ next, table.insert make hmake = some next := by
  simp [insert, hfresh]

theorem find_insert {table next : UniqueTable ρ} {make : ℕ → ρ}
    {hmake : ∀ key, primaryKey (make key) = key}
    (hinsert : table.insert make hmake = some next) (key : ℕ) :
    next.find key =
      if uniqueKey (make table.nextKey) = key then
        some (make table.nextKey)
      else table.find key := by
  obtain ⟨hfresh, hrows, _⟩ := insert_eq_some hinsert
  unfold find at hfresh ⊢
  rw [hrows, List.find?_append]
  by_cases hkey : uniqueKey (make table.nextKey) = key
  · rw [← hkey, hfresh]
    simp
  · cases hold : table.rows.find? fun row => uniqueKey row == key <;>
      simp [hkey]

/-- Updating the row found under a unique key changes the lookup of that key
and of no other. -/
theorem find_modify {table : UniqueTable ρ} {found : ρ} {key : ℕ}
    (hfound : table.find key = some found) (update : Update ρ)
    (other : ℕ) :
    (table.modify (primaryKey found) update).find other =
      if other = key then some (update.apply found)
      else table.find other := by
  obtain ⟨hmem, hkey⟩ := find_eq_some_iff.mp hfound
  split
  · rename_i hother
    subst hother
    apply find_eq_some_iff.mpr
    refine ⟨List.mem_map.mpr ⟨found, hmem, by simp⟩, ?_⟩
    rw [update.uniqueKey_apply, hkey]
  · rename_i hother
    cases hold : table.find other with
    | some row =>
        obtain ⟨hrow, hrowKey⟩ := find_eq_some_iff.mp hold
        have hne : primaryKey row ≠ primaryKey found := by
          intro heq
          have := List.inj_on_of_nodup_map table.primaryKey_nodup
            hrow hmem heq
          exact hother (hrowKey ▸ hkey ▸ congrArg uniqueKey this)
        apply find_eq_some_iff.mpr
        exact ⟨List.mem_map.mpr ⟨row, hrow, by simp [hne]⟩, hrowKey⟩
    | none =>
        rw [find_eq_none_iff] at hold ⊢
        intro row hrow
        obtain ⟨old, hmemOld, rfl⟩ := List.mem_map.mp hrow
        split
        · rw [update.uniqueKey_apply]
          exact hold old hmemOld
        · exact hold old hmemOld

theorem find_insert_self {table next : UniqueTable ρ} {make : ℕ → ρ}
    {hmake : ∀ key, primaryKey (make key) = key}
    (hinsert : table.insert make hmake = some next) {key : ℕ}
    (hkey : uniqueKey (make table.nextKey) = key) :
    next.find key = some (make table.nextKey) := by
  rw [find_insert hinsert, if_pos hkey]

theorem find_modify_self {table : UniqueTable ρ} {found : ρ} {key : ℕ}
    (hfound : table.find key = some found) (update : Update ρ) :
    (table.modify (primaryKey found) update).find key =
      some (update.apply found) := by
  rw [find_modify hfound, if_pos rfl]

theorem find_insert_of_ne {table next : UniqueTable ρ} {make : ℕ → ρ}
    {hmake : ∀ key, primaryKey (make key) = key}
    (hinsert : table.insert make hmake = some next) {key : ℕ}
    (hkey : uniqueKey (make table.nextKey) ≠ key) :
    next.find key = table.find key := by
  rw [find_insert hinsert, if_neg hkey]

theorem find_modify_of_ne {table : UniqueTable ρ} {found : ρ} {key : ℕ}
    (hfound : table.find key = some found) (update : Update ρ)
    {other : ℕ} (hother : other ≠ key) :
    (table.modify (primaryKey found) update).find other =
      table.find other := by
  rw [find_modify hfound, if_neg hother]

/-- A row found after an insertion was there, or it is the new one. -/
theorem find_insert_cases {table next : UniqueTable ρ} {make : ℕ → ρ}
    {hmake : ∀ key, primaryKey (make key) = key}
    (hinsert : table.insert make hmake = some next) {key : ℕ} {row : ρ}
    (hfind : next.find key = some row) :
    table.find key = some row ∨
      uniqueKey (make table.nextKey) = key ∧ row = make table.nextKey := by
  by_cases hkey : uniqueKey (make table.nextKey) = key
  · rw [find_insert hinsert, if_pos hkey] at hfind
    exact .inr ⟨hkey, (Option.some.inj hfind).symm⟩
  · rw [find_insert_of_ne hinsert hkey] at hfind
    exact .inl hfind

/-- A row found after an update was there, or it is the updated one. -/
theorem find_modify_cases {table : UniqueTable ρ} {found : ρ} {key : ℕ}
    (hfound : table.find key = some found) {update : Update ρ} {other : ℕ}
    {row : ρ}
    (hfind : (table.modify (primaryKey found) update).find other =
      some row) :
    table.find other = some row ∨
      other = key ∧ row = update.apply found := by
  by_cases hother : other = key
  · rw [find_modify hfound, if_pos hother] at hfind
    exact .inr ⟨hother, (Option.some.inj hfind).symm⟩
  · rw [find_modify_of_ne hfound update hother] at hfind
    exact .inl hfind

/-! ## Sums over the rows -/

def total (table : UniqueTable ρ) (weight : ρ → ℕ) : ℕ :=
  (table.rows.map weight).sum

@[simp] theorem total_empty (weight : ρ → ℕ) :
    (empty ρ).total weight = 0 := rfl

theorem total_insert {table next : UniqueTable ρ} {make : ℕ → ρ}
    {hmake : ∀ key, primaryKey (make key) = key}
    (hinsert : table.insert make hmake = some next) (weight : ρ → ℕ) :
    next.total weight =
      table.total weight + weight (make table.nextKey) := by
  simp [total, (insert_eq_some hinsert).2.1]

private theorem sum_map_ite_primaryKey (rows : List ρ)
    (hnodup : (rows.map primaryKey).Nodup) {found : ρ}
    (hmem : found ∈ rows) (apply : ρ → ρ) (weight : ρ → ℕ) :
    ((rows.map fun row =>
        if primaryKey row = primaryKey found then apply row
        else row).map weight).sum + weight found =
      (rows.map weight).sum + weight (apply found) := by
  induction rows with
  | nil => simp at hmem
  | cons row rows ih =>
      obtain ⟨hhead, htail⟩ := List.nodup_cons.mp hnodup
      rcases List.mem_cons.mp hmem with heq | hrest
      · subst heq
        have hsame : (rows.map fun row =>
            if primaryKey row = primaryKey found then apply row
            else row) = rows := by
          refine (List.map_congr_left ?_).trans (List.map_id rows)
          intro row hrow
          have hne : primaryKey row ≠ primaryKey found := fun hkey =>
            hhead (List.mem_map.mpr ⟨row, hrow, hkey⟩)
          rw [if_neg hne, id]
        simp only [List.map_cons, if_true, List.sum_cons, hsame]
        omega
      · have hne : primaryKey row ≠ primaryKey found := by
          intro hkey
          exact hhead (List.mem_map.mpr ⟨found, hrest, hkey.symm⟩)
        have hrec := ih htail hrest
        simp only [List.map_cons, if_neg hne, List.sum_cons]
        omega

/-- An update moves the sum by the change of the one row it writes. -/
theorem total_modify {table : UniqueTable ρ} {found : ρ} {key : ℕ}
    (hfound : table.find key = some found) (update : Update ρ)
    (weight : ρ → ℕ) :
    (table.modify (primaryKey found) update).total weight +
        weight found =
      table.total weight + weight (update.apply found) :=
  sum_map_ite_primaryKey table.rows table.primaryKey_nodup
    (find_eq_some_iff.mp hfound).1 update.apply weight

theorem weight_le_total {table : UniqueTable ρ} {row : ρ}
    (hrow : row ∈ table.rows) (weight : ρ → ℕ) :
    weight row ≤ table.total weight :=
  List.single_le_sum (by simp) _ (List.mem_map_of_mem hrow)

end UniqueTable

end ClpszDemos
