import Mathlib.Data.Multiset.Range
import Mathlib.Tactic

/-!
# The blocks of a memory

A memory is a list of blocks; the index of a block is its address, and a block
that was freed leaves its index empty.  `Owns` says that a collection is all
that a memory holds, and that it has each address once.  Whoever owns a block may
write it or free it, and the other blocks stay as they are.
-/

namespace ClpszDemos

variable {α : Type*}

structure Owns (memory : List (Option α)) (blocks : Multiset (ℕ × α)) : Prop where
  nodup : (blocks.map Prod.fst).Nodup
  mem_iff : ∀ address value,
    memory[address]? = some (some value) ↔ (address, value) ∈ blocks

namespace Owns

variable {memory : List (Option α)} {blocks rest : Multiset (ℕ × α)}
  {address : ℕ} {value : α}

theorem nil : Owns ([] : List (Option α)) 0 where
  nodup := Multiset.nodup_zero
  mem_iff := by simp

theorem read (howns : Owns memory blocks) (hmem : (address, value) ∈ blocks) :
    memory[address]? = some (some value) :=
  (howns.mem_iff address value).mpr hmem

theorem address_lt (howns : Owns memory blocks)
    (hmem : (address, value) ∈ blocks) : address < memory.length :=
  (List.getElem?_eq_some_iff.mp (howns.read hmem)).1

/-- There are no more blocks than addresses. -/
theorem card_le (howns : Owns memory blocks) :
    blocks.card ≤ memory.length := by
  have hsub : blocks.map Prod.fst ⊆ Multiset.range memory.length := by
    intro address haddress
    obtain ⟨⟨_, value⟩, hmem, rfl⟩ := Multiset.mem_map.mp haddress
    exact Multiset.mem_range.mpr (howns.address_lt hmem)
  have hle := Multiset.card_le_card
    ((Multiset.le_iff_subset howns.nodup).mpr hsub)
  simpa using hle

theorem head_mem : (address, value) ∈ {(address, value)} + rest :=
  Multiset.mem_add.mpr (.inl (Multiset.mem_singleton_self _))

theorem head_lt (howns : Owns memory ({(address, value)} + rest)) :
    address < memory.length :=
  howns.address_lt head_mem

theorem nodup_add (howns : Owns memory ({(address, value)} + rest)) :
    address ∉ rest.map Prod.fst ∧ (rest.map Prod.fst).Nodup := by
  have hnodup := howns.nodup
  rw [Multiset.map_add, Multiset.map_singleton, Multiset.singleton_add,
    Multiset.nodup_cons] at hnodup
  exact hnodup

theorem notMem (howns : Owns memory ({(address, value)} + rest)) (new : α) :
    (address, new) ∉ rest := fun hmem =>
  howns.nodup_add.1 (Multiset.mem_map_of_mem Prod.fst hmem)

theorem write (howns : Owns memory ({(address, value)} + rest)) (new : α) :
    Owns (memory.set address (some new)) ({(address, new)} + rest) where
  nodup := by
    rw [Multiset.map_add, Multiset.map_singleton, Multiset.singleton_add,
      Multiset.nodup_cons]
    exact howns.nodup_add
  mem_iff := by
    intro other value'
    have hlt := howns.head_lt
    by_cases hsame : address = other
    · subst hsame
      have hrest := howns.notMem value'
      rw [List.getElem?_set_self hlt]
      simp [hrest, eq_comm]
    · rw [List.getElem?_set_ne hsame, howns.mem_iff]
      simp [Ne.symm hsame]

theorem free (howns : Owns memory ({(address, value)} + rest)) :
    Owns (memory.set address none) rest where
  nodup := howns.nodup_add.2
  mem_iff := by
    intro other value'
    have hlt := howns.head_lt
    by_cases hsame : address = other
    · subst hsame
      have hrest := howns.notMem value'
      rw [List.getElem?_set_self hlt]
      simp [hrest]
    · rw [List.getElem?_set_ne hsame, howns.mem_iff]
      simp [Ne.symm hsame]

/-- A fresh block has the next address. -/
theorem alloc (howns : Owns memory blocks) (new : α) :
    Owns (memory ++ [some new]) ({(memory.length, new)} + blocks) where
  nodup := by
    rw [Multiset.map_add, Multiset.map_singleton, Multiset.singleton_add,
      Multiset.nodup_cons]
    refine ⟨?_, howns.nodup⟩
    intro haddress
    obtain ⟨⟨other, value⟩, hmem, hsame⟩ := Multiset.mem_map.mp haddress
    have hlt := howns.address_lt hmem
    have hlength : other = memory.length := hsame
    omega
  mem_iff := by
    intro other value'
    rcases lt_trichotomy other memory.length with hlt | rfl | hlt
    · rw [List.getElem?_append_left hlt, howns.mem_iff]
      simp [hlt.ne]
    · rw [List.getElem?_concat_length]
      have hnew : (memory.length, value') ∉ blocks := fun hmem =>
        absurd (howns.address_lt hmem) (lt_irrefl _)
      simp [hnew, eq_comm]
    · have hnew : (other, value') ∉ blocks := fun hmem =>
        absurd (howns.address_lt hmem) hlt.not_gt
      rw [List.getElem?_eq_none (by simp; omega)]
      simp [hnew, hlt.ne']

/-- An allocation that fails leaves an empty address. -/
theorem fail (howns : Owns memory blocks) : Owns (memory ++ [none]) blocks where
  nodup := howns.nodup
  mem_iff := by
    intro other value'
    rw [← howns.mem_iff]
    rcases lt_trichotomy other memory.length with hlt | rfl | hlt
    · rw [List.getElem?_append_left hlt]
    · simp
    · rw [List.getElem?_eq_none (by simp; omega),
        List.getElem?_eq_none hlt.le]

end Owns

end ClpszDemos
