import Mathlib.Tactic

/-!
# Byte memory of a C program

Memory is a list of blocks; a pointer to a block is its index.  A block that
was freed, and an allocation that failed, leave an index with no block.  An
access outside a block, and one through a pointer to no block, are traps.
What an allocation does is up to the environment, and so are the bytes of a
fresh block.
-/

namespace ClpszDemos

/-- Undefined behaviour that ends the program. -/
inductive Trap
  | pointer
  | bounds
  | nullCall
  deriving DecidableEq, Repr

abbrev Block : Type := List UInt8

namespace Block

def load (block : Block) (i : ℕ) : Except Trap UInt8 :=
  match block[i]? with
  | some byte => .ok byte
  | none => .error .bounds

def store (block : Block) (i : ℕ) (byte : UInt8) : Except Trap Block :=
  if i < block.length then .ok (block.set i byte) else .error .bounds

/-- `memcpy(block + offset, source, len)` -/
def memcpy (block : Block) (offset : ℕ) (source : Block) (len : ℕ) :
    Except Trap Block :=
  if len ≤ source.length ∧ offset + len ≤ block.length then
    .ok (block.take offset ++ source.take len ++ block.drop (offset + len))
  else .error .bounds

theorem load_eq_ok {block : Block} {i : ℕ} (hi : i < block.length) :
    block.load i = .ok block[i] := by
  simp [load, hi]

theorem store_eq_ok {block : Block} {i : ℕ} (hi : i < block.length)
    (byte : UInt8) : block.store i byte = .ok (block.set i byte) :=
  if_pos hi

theorem memcpy_eq_ok {block source : Block} {offset len : ℕ}
    (hsource : len ≤ source.length) (hblock : offset + len ≤ block.length) :
    block.memcpy offset source len = .ok (block.take offset ++
      source.take len ++ block.drop (offset + len)) :=
  if_pos ⟨hsource, hblock⟩

end Block

/-! ## The heap -/

abbrev Heap : Type := List (Option Block)

/-- What the allocation with this number does: it fails, or it finds a block
with these bytes in it. -/
abbrev Allocator : Type := ℕ → Option (ℕ → UInt8)

def Allocator.Succeeds (alloc : Allocator) : Prop :=
  ∀ n, (alloc n).isSome = true

namespace Heap

/-- The block that a pointer points to; `none` is the null pointer. -/
def block (heap : Heap) (pointer : Option ℕ) : Except Trap Block :=
  match pointer with
  | none => .error .pointer
  | some p =>
      match heap[p]? with
      | some (some block) => .ok block
      | _ => .error .pointer

def update (heap : Heap) (pointer : Option ℕ) (block : Block) : Heap :=
  match pointer with
  | none => heap
  | some p => heap.set p (some block)

def malloc (heap : Heap) (alloc : Allocator) (size : ℕ) :
    Option ℕ × Heap :=
  match alloc heap.length with
  | none => (none, heap ++ [none])
  | some fill =>
      (some heap.length, heap ++ [some ((List.range size).map fill)])

/-- Freeing the null pointer does nothing. -/
def free (heap : Heap) (pointer : Option ℕ) : Except Trap Heap :=
  match pointer with
  | none => .ok heap
  | some p =>
      match heap[p]? with
      | some (some _) => .ok (heap.set p none)
      | _ => .error .pointer

theorem block_eq_ok_iff {heap : Heap} {pointer : Option ℕ} {b : Block} :
    heap.block pointer = .ok b ↔
      ∃ p, pointer = some p ∧ heap[p]? = some (some b) := by
  unfold block
  cases pointer with
  | none => simp
  | some p =>
      dsimp only
      cases hp : heap[p]? with
      | none => simp [hp]
      | some found =>
          cases found with
          | none => simp [hp]
          | some b' => simp [hp]

/-- An allocation that succeeds adds a block of its size at the end. -/
theorem malloc_some {alloc : Allocator} {heap : Heap}
    (hsome : (alloc heap.length).isSome = true) (size : ℕ) :
    ∃ fresh : Block, fresh.length = size ∧
      heap.malloc alloc size = (some heap.length, heap ++ [some fresh]) := by
  rcases Option.isSome_iff_exists.mp hsome with ⟨fill, hfill⟩
  refine ⟨(List.range size).map fill, by simp, ?_⟩
  unfold malloc
  rw [hfill]

theorem malloc_none {alloc : Allocator} {heap : Heap}
    (hnone : alloc heap.length = none) (size : ℕ) :
    heap.malloc alloc size = (none, heap ++ [none]) := by
  unfold malloc
  rw [hnone]

theorem malloc_eq {alloc : Allocator} (halloc : alloc.Succeeds)
    (heap : Heap) (size : ℕ) :
    ∃ fresh : Block, fresh.length = size ∧
      heap.malloc alloc size = (some heap.length, heap ++ [some fresh]) :=
  malloc_some (halloc heap.length) size

@[simp] theorem block_append_self (heap : Heap) (b : Block) :
    block (heap ++ [some b]) (some heap.length) = .ok b := by
  simp [block]

@[simp] theorem update_append_self (heap : Heap) (old b : Block) :
    update (heap ++ [some old]) (some heap.length) b = heap ++ [some b] := by
  simp [update]

@[simp] theorem free_append_self (heap : Heap) (b : Block) :
    free (heap ++ [some b]) (some heap.length) = .ok (heap ++ [none]) := by
  simp [free]

/-- What is added at the end leaves every block in its place. -/
theorem block_append {heap : Heap} {pointer : Option ℕ} {b : Block}
    (hblock : heap.block pointer = .ok b) (rest : Heap) :
    block (heap ++ rest) pointer = .ok b := by
  rcases block_eq_ok_iff.mp hblock with ⟨p, hp, hb⟩
  have hlt := (List.getElem?_eq_some_iff.mp hb).1
  refine block_eq_ok_iff.mpr ⟨p, hp, ?_⟩
  rw [List.getElem?_append_left hlt, hb]

theorem free_append {heap next : Heap} {pointer : Option ℕ}
    (hfree : heap.free pointer = .ok next) (rest : Heap) :
    free (heap ++ rest) pointer = .ok (next ++ rest) := by
  unfold free at hfree ⊢
  cases pointer with
  | none =>
      cases hfree
      rfl
  | some p =>
      dsimp only at hfree ⊢
      cases hp : heap[p]? with
      | none =>
          rw [hp] at hfree
          cases hfree
      | some found =>
          have hlt := (List.getElem?_eq_some_iff.mp hp).1
          rw [List.getElem?_append_left hlt, hp]
          rw [hp] at hfree
          cases found with
          | none => cases hfree
          | some b =>
              cases hfree
              rw [List.set_append_left _ _ hlt]

theorem free_eq_ok {heap : Heap} {pointer : Option ℕ} {b : Block}
    (hblock : heap.block pointer = .ok b) :
    ∃ next, heap.free pointer = .ok next := by
  rcases block_eq_ok_iff.mp hblock with ⟨p, hp, hb⟩
  refine ⟨heap.set p none, ?_⟩
  simp [free, hp, hb]

theorem block_update {heap : Heap} {pointer : Option ℕ} {old : Block}
    (hblock : heap.block pointer = .ok old) (b : Block) :
    (heap.update pointer b).block pointer = .ok b := by
  rcases block_eq_ok_iff.mp hblock with ⟨p, hp, hb⟩
  have hlt := (List.getElem?_eq_some_iff.mp hb).1
  refine block_eq_ok_iff.mpr ⟨p, hp, ?_⟩
  simp [update, hp, hlt]

theorem block_update_ne {heap : Heap} {pointer other : Option ℕ}
    (hne : other ≠ pointer) (b : Block) :
    (heap.update pointer b).block other = heap.block other := by
  cases pointer with
  | none => rfl
  | some p =>
      cases other with
      | none => rfl
      | some q =>
          have hindex : p ≠ q := fun hsame => hne (by rw [hsame])
          simp [update, block, List.getElem?_set_ne hindex]

theorem length_update (heap : Heap) (pointer : Option ℕ) (b : Block) :
    (heap.update pointer b).length = heap.length := by
  cases pointer with
  | none => rfl
  | some p => exact List.length_set

/-- Freeing takes one block away, or none. -/
theorem free_cases {heap next : Heap} {pointer : Option ℕ}
    (hfree : heap.free pointer = .ok next) :
    pointer = none ∧ next = heap ∨
      ∃ p, pointer = some p ∧ next = heap.set p none := by
  unfold free at hfree
  cases pointer with
  | none => exact Or.inl ⟨rfl, (Except.ok.inj hfree).symm⟩
  | some p =>
      dsimp only at hfree
      split at hfree
      · exact Or.inr ⟨p, rfl, (Except.ok.inj hfree).symm⟩
      · cases hfree

theorem block_free_ne {heap next : Heap} {pointer other : Option ℕ}
    (hfree : heap.free pointer = .ok next) (hne : other ≠ pointer) :
    next.block other = heap.block other := by
  rcases free_cases hfree with ⟨_, rfl⟩ | ⟨p, rfl, rfl⟩
  · rfl
  · cases other with
    | none => rfl
    | some q =>
        have hindex : p ≠ q := fun hsame => hne (by rw [hsame])
        simp [block, List.getElem?_set_ne hindex]

theorem length_free {heap next : Heap} {pointer : Option ℕ}
    (hfree : heap.free pointer = .ok next) : next.length = heap.length := by
  rcases free_cases hfree with ⟨_, rfl⟩ | ⟨p, _, rfl⟩
  · rfl
  · exact List.length_set

theorem lt_length_of_block {heap : Heap} {p : ℕ} {b : Block}
    (hblock : heap.block (some p) = .ok b) : p < heap.length := by
  obtain ⟨q, hq, hb⟩ := block_eq_ok_iff.mp hblock
  cases hq
  exact (List.getElem?_eq_some_iff.mp hb).1

end Heap

/-! ## The exclusive or of bytes -/

def xorSum (bytes : List UInt8) : UInt8 :=
  bytes.foldr (· ^^^ ·) 0

@[simp] theorem xorSum_nil : xorSum [] = 0 := rfl

@[simp] theorem xorSum_cons (byte : UInt8) (bytes : List UInt8) :
    xorSum (byte :: bytes) = byte ^^^ xorSum bytes := rfl

theorem xorSum_append (first second : List UInt8) :
    xorSum (first ++ second) = xorSum first ^^^ xorSum second := by
  induction first with
  | nil => simp
  | cons byte bytes ih =>
      rw [List.cons_append, xorSum_cons, xorSum_cons, ih, UInt8.xor_assoc]

/-- Reading a block byte by byte sums up its prefix. -/
theorem foldlM_load_eq {block : Block} {n : ℕ} (hn : n ≤ block.length)
    (sum : UInt8) :
    ((List.range n).foldlM (fun sum i => do
      return sum ^^^ (← block.load i)) sum : Except Trap UInt8) =
      .ok (sum ^^^ xorSum (block.take n)) := by
  induction n with
  | zero => simp [pure, Except.pure]
  | succ n ih =>
      have hlt : n < block.length := by omega
      rw [List.range_succ, List.foldlM_append, ih (by omega)]
      have hload := Block.load_eq_ok hlt
      have hsplit : block.take (n + 1) = block.take n ++ [block[n]] := by
        rw [List.take_append_getElem]
      rw [hsplit, xorSum_append]
      simp [bind, Except.bind, pure, Except.pure, hload, UInt8.xor_assoc]

end ClpszDemos
