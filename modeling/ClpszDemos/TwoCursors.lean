import ClpszDemos.ByteMemory

/-!
# Rewriting a block in place

One pointer reads a block from its beginning to its end, a second one writes
what is kept of it to the same block from the beginning on.  As long as the
second pointer is not ahead of the first, nothing is overwritten before it is
read: the first pointer sees the rest of the old contents, and what the second
one has passed is the new contents.
-/

namespace ClpszDemos

/-- A block with the index that is written next and the index that is read next -/
structure TwoCursors where
  block : Block
  into : ℕ
  source : ℕ

namespace TwoCursors

def peek (c : TwoCursors) : Except Trap UInt8 := c.block.load c.source

/-- `source[1]` -/
def peekNext (c : TwoCursors) : Except Trap UInt8 := c.block.load (c.source + 1)

/-- `source++` -/
def pass (c : TwoCursors) : TwoCursors := { c with source := c.source + 1 }

/-- `*into++ = *source++` -/
def copy (c : TwoCursors) : Except Trap TwoCursors := do
  let byte ← c.peek
  let block ← c.block.store c.into byte
  return { block := block, into := c.into + 1, source := c.source + 1 }

/-- `*into = byte` -/
def put (c : TwoCursors) (byte : UInt8) : Except Trap Block :=
  c.block.store c.into byte

/-- What is kept so far, and what is still to be read -/
structure Stands (c : TwoCursors) (kept rest : List UInt8) : Prop where
  into : c.into = kept.length
  kept : kept <+: c.block
  rest : c.block.drop c.source = rest
  behind : c.into ≤ c.source

theorem stands_start (block : Block) :
    Stands { block := block, into := 0, source := 0 } [] block where
  into := rfl
  kept := List.nil_prefix
  rest := rfl
  behind := le_rfl

namespace Stands

variable {c : TwoCursors} {kept rest : List UInt8} {byte : UInt8}

theorem source_lt (h : c.Stands kept (byte :: rest)) :
    c.source < c.block.length := by
  by_contra hge
  have hnil : c.block.drop c.source = [] :=
    List.drop_eq_nil_of_le (Nat.le_of_not_lt hge)
  rw [h.rest] at hnil
  exact List.cons_ne_nil _ _ hnil

theorem length_le (h : c.Stands kept rest) : rest.length ≤ c.block.length := by
  rw [← h.rest, List.length_drop]
  exact Nat.sub_le _ _

theorem getElem_source (h : c.Stands kept (byte :: rest)) :
    c.block[c.source]? = some byte := by
  have hhead : (c.block.drop c.source)[0]? = some byte := by
    rw [h.rest]
    rfl
  rwa [List.getElem?_drop, Nat.add_zero] at hhead

theorem drop_succ (h : c.Stands kept (byte :: rest)) :
    c.block.drop (c.source + 1) = rest := by
  rw [← List.tail_drop, h.rest, List.tail_cons]

theorem peek_eq (h : c.Stands kept (byte :: rest)) : c.peek = .ok byte := by
  unfold peek Block.load
  rw [h.getElem_source]

theorem peekNext_eq {next : UInt8}
    (h : c.Stands kept (byte :: next :: rest)) : c.peekNext = .ok next := by
  have hnext : c.block[c.source + 1]? = some next := by
    have hhead : (c.block.drop (c.source + 1))[0]? = some next := by
      rw [h.drop_succ]
      rfl
    rwa [List.getElem?_drop, Nat.add_zero] at hhead
  unfold peekNext Block.load
  rw [hnext]

theorem pass (h : c.Stands kept (byte :: rest)) : c.pass.Stands kept rest where
  into := h.into
  kept := h.kept
  rest := h.drop_succ
  behind := Nat.le_succ_of_le h.behind

theorem into_lt (h : c.Stands kept (byte :: rest)) :
    c.into < c.block.length :=
  lt_of_le_of_lt h.behind h.source_lt

/-- A write behind everything that was kept -/
theorem kept_set (h : c.Stands kept (byte :: rest)) (last : UInt8) :
    kept ++ [last] <+: c.block.set c.into last := by
  have hinto := h.into_lt
  obtain ⟨tail, htail⟩ := h.kept
  rw [h.into, ← htail] at hinto
  rw [h.into, ← htail]
  have hne : tail ≠ [] := by
    rintro rfl
    rw [List.append_nil] at hinto
    exact lt_irrefl _ hinto
  obtain ⟨old, tail, rfl⟩ := List.exists_cons_of_ne_nil hne
  refine ⟨tail, ?_⟩
  rw [List.set_append_right _ _ le_rfl, Nat.sub_self, List.set_cons_zero,
    List.append_assoc, List.singleton_append]

/-- The byte that is overwritten has been read before. -/
theorem copy (h : c.Stands kept (byte :: rest)) :
    ∃ c', c.copy = .ok c' ∧ c'.Stands (kept ++ [byte]) rest ∧
      c'.block.length = c.block.length := by
  refine ⟨{ block := c.block.set c.into byte
            into := c.into + 1
            source := c.source + 1 }, ?_, ?_, List.length_set⟩
  · unfold TwoCursors.copy
    rw [h.peek_eq]
    show c.block.store c.into byte >>= _ = _
    rw [Block.store_eq_ok h.into_lt]
    rfl
  · refine ⟨?_, h.kept_set byte, ?_, Nat.succ_le_succ h.behind⟩
    · rw [List.length_append, List.length_singleton, ← h.into]
    · show (c.block.set c.into byte).drop (c.source + 1) = rest
      rw [List.drop_set_of_lt (Nat.lt_succ_of_le h.behind)]
      exact h.drop_succ

theorem put (h : c.Stands kept (byte :: rest)) (last : UInt8) :
    ∃ block, c.put last = .ok block ∧ kept ++ [last] <+: block ∧
      block.length = c.block.length :=
  ⟨_, Block.store_eq_ok h.into_lt last, h.kept_set last, List.length_set⟩

end Stands

end TwoCursors

end ClpszDemos
