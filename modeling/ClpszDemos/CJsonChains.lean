import ClpszDemos.CJsonTree
import ClpszDemos.ProgramLogic

/-!
# Chains of items and the blocks they own

What a `cJSON *` points to is a chain: an item, what is below it and what is
behind it, with the addresses of all blocks.  A chain determines its cells but
for the pointers at its two ends, which are parameters.  What code does is said
of all blocks that it finds and leaves.
-/

namespace ClpszDemos

namespace CJsonTree

open CJson

variable {δ : Type}

/-! ## Chains -/

/-- An item with the addresses of its own block and of its texts. -/
structure Label (δ : Type) where
  addr : ℕ
  type : BitVec 32
  valuestring : Option (ℕ × CString)
  valueint : BitVec 32
  valuedouble : δ
  string : Option (ℕ × CString)
  own : isReference type = false

namespace Label

def fields (label : Label δ) : Fields δ where
  type := label.type
  valuestring := label.valuestring.map Prod.snd
  valueint := label.valueint
  valuedouble := label.valuedouble
  string := label.string.map Prod.snd

def cell (label : Label δ) (next prev child : Ptr) : Cell δ where
  next := next
  prev := prev
  child := child
  type := label.type
  valuestring := label.valuestring.map Prod.fst
  valueint := label.valueint
  valuedouble := label.valuedouble
  string := label.string.map Prod.fst

def texts (label : Label δ) : Multiset (ℕ × CString) :=
  label.valuestring.toList + label.string.toList

end Label

inductive Chain (δ : Type)
  | null
  | item (label : Label δ) (child next : Chain δ)

namespace Chain

/-- Without the addresses -/
def items : Chain δ → Items δ
  | null => .null
  | item label child next => .item label.fields child.items next.items

/-- The first item, or what is behind the chain -/
def head (tail : Ptr) : Chain δ → Ptr
  | null => tail
  | item label _ _ => some label.addr

/-- The last item, or what is in front of the chain -/
def last (prev : Ptr) : Chain δ → Ptr
  | null => prev
  | item label _ next => next.last (some label.addr)

def append : Chain δ → Chain δ → Chain δ
  | null, other => other
  | item label child next, other => item label child (next.append other)

def size : Chain δ → ℕ
  | null => 0
  | item _ child next => 1 + child.size + next.size

/-- The number of items in the chain itself -/
def length : Chain δ → ℕ
  | null => 0
  | item _ _ next => next.length + 1

def take : ℕ → Chain δ → Chain δ
  | 0, _ => null
  | _ + 1, null => null
  | n + 1, item label child next => item label child (next.take n)

def drop : ℕ → Chain δ → Chain δ
  | 0, chain => chain
  | _ + 1, null => null
  | n + 1, item _ _ next => next.drop n

/-- The item at a position, alone, or nothing -/
def nth (n : ℕ) (chain : Chain δ) : Chain δ := (chain.drop n).take 1

/-- The chain without the item at a position, if there is one -/
def without (n : ℕ) (chain : Chain δ) : Chain δ :=
  (chain.take n).append (chain.drop (n + 1))

/-- The cells of a chain between `prev` and `tail` -/
def cells (prev tail : Ptr) : Chain δ → Multiset (ℕ × Cell δ)
  | null => 0
  | item label child next =>
      {(label.addr, label.cell (next.head tail) prev (child.head none))} +
        child.cells none none + next.cells (some label.addr) tail

def texts : Chain δ → Multiset (ℕ × CString)
  | null => 0
  | item label child next => label.texts + child.texts + next.texts

variable {chain other : Chain δ} {prev tail : Ptr}

@[simp] theorem head_null : (null : Chain δ).head tail = tail := rfl

@[simp] theorem head_item {label : Label δ} {child next : Chain δ} :
    (item label child next).head tail = some label.addr := rfl

@[simp] theorem null_append : null.append other = other := rfl

@[simp] theorem append_null : chain.append null = chain := by
  induction chain with
  | null => rfl
  | item label child next _ ih => rw [append, ih]

@[simp] theorem head_append :
    (chain.append other).head tail = chain.head (other.head tail) := by
  cases chain <;> rfl

@[simp] theorem last_append :
    (chain.append other).last prev = other.last (chain.last prev) := by
  induction chain generalizing prev with
  | null => rfl
  | item label child next _ ih => exact ih

theorem append_assoc (first second third : Chain δ) :
    (first.append second).append third = first.append (second.append third) := by
  induction first with
  | null => rfl
  | item label child next _ ih => simp [append, ih]

theorem take_append_drop (n : ℕ) (chain : Chain δ) :
    (chain.take n).append (chain.drop n) = chain := by
  induction n generalizing chain with
  | zero => rfl
  | succ n ih =>
      cases chain with
      | null => rfl
      | item label child next => simp [take, drop, append, ih]

theorem drop_succ (n : ℕ) (chain : Chain δ) :
    chain.drop (n + 1) = (chain.drop n).drop 1 := by
  induction n generalizing chain with
  | zero => rfl
  | succ n ih =>
      cases chain with
      | null => rfl
      | item label child next => exact ih next

theorem take_append_nth (n : ℕ) (chain : Chain δ) :
    (chain.take n).append ((chain.nth n).append (chain.drop (n + 1))) =
      chain := by
  rw [nth, drop_succ, take_append_drop, take_append_drop]

theorem nth_eq_null {n : ℕ} (hdrop : chain.drop n = null) :
    chain.nth n = null := by
  rw [nth, hdrop]
  rfl

theorem without_eq_self {n : ℕ} (hdrop : chain.drop n = null) :
    chain.without n = chain := by
  have hparts := take_append_drop n chain
  rw [hdrop, append_null] at hparts
  rw [without, drop_succ, hdrop, hparts]
  exact append_null

theorem cells_append :
    (chain.append other).cells prev tail =
      chain.cells prev (other.head tail) +
        other.cells (chain.last prev) tail := by
  induction chain generalizing prev with
  | null => simp [cells, last]
  | item label child next _ ih =>
      simp only [append, cells, last, ih, head_append]
      abel

theorem texts_append :
    (chain.append other).texts = chain.texts + other.texts := by
  induction chain with
  | null => simp [texts]
  | item label child next _ ih =>
      simp only [append, texts, ih]
      abel

theorem size_append : (chain.append other).size = chain.size + other.size := by
  induction chain with
  | null => simp [size]
  | item label child next _ ih =>
      simp only [append, size, ih]
      omega

theorem texts_eq_nth (n : ℕ) (chain : Chain δ) :
    chain.texts = (chain.nth n).texts + (chain.without n).texts := by
  have hparts := congrArg texts (take_append_nth n chain)
  rw [texts_append, texts_append] at hparts
  rw [← hparts, without, texts_append]
  abel

theorem size_eq_nth (n : ℕ) (chain : Chain δ) :
    chain.size = (chain.nth n).size + (chain.without n).size := by
  have hparts := congrArg size (take_append_nth n chain)
  rw [size_append, size_append] at hparts
  rw [← hparts, without, size_append]
  omega

theorem card_cells : (chain.cells prev tail).card = chain.size := by
  induction chain generalizing prev tail with
  | null => rfl
  | item label child next ihChild ihNext =>
      simp only [cells, size, Multiset.card_add, Multiset.card_singleton, ihChild,
        ihNext]

theorem length_le_size : chain.length ≤ chain.size := by
  induction chain with
  | null => exact le_rfl
  | item label child next _ ih =>
      simp only [length, size]
      omega

/-- The pointer to what is behind the chain is in its last cell only. -/
theorem exists_last (hne : chain ≠ null) (prev : Ptr) :
    ∃ (addr : ℕ) (cell : Cell δ) (rest : Multiset (ℕ × Cell δ)),
      (∀ p, chain.last p = some addr) ∧ ∀ tail,
        chain.cells prev tail = {(addr, { cell with next := tail })} + rest := by
  induction chain generalizing prev with
  | null => exact absurd rfl hne
  | item label child next _ ih =>
      cases next with
      | null =>
          refine ⟨label.addr, label.cell none prev (child.head none),
            child.cells none none, fun _ => rfl, fun tail => ?_⟩
          simp [cells, Label.cell]
      | item label' child' next' =>
          obtain ⟨addr, cell, rest, hlast, hcells⟩ :=
            ih (by simp) (some label.addr)
          refine ⟨addr, cell, {(label.addr, label.cell (some label'.addr) prev
            (child.head none))} + child.cells none none + rest,
            fun _ => hlast none, fun tail => ?_⟩
          rw [cells, hcells tail, head_item]
          abel

/-- The pointer to what is in front of the chain is in its first cell only. -/
theorem exists_first (hne : chain ≠ null) (tail : Ptr) :
    ∃ (addr : ℕ) (cell : Cell δ) (rest : Multiset (ℕ × Cell δ)),
      (∀ p, chain.head p = some addr) ∧ ∀ prev,
        chain.cells prev tail = {(addr, { cell with prev := prev })} + rest := by
  cases chain with
  | null => exact absurd rfl hne
  | item label child next =>
      refine ⟨label.addr, label.cell (next.head tail) none (child.head none),
        child.cells none none + next.cells (some label.addr) tail,
        fun _ => rfl, fun prev => ?_⟩
      rw [cells, add_assoc]
      rfl

end Chain

/-! ## Blocks and code -/

/-- The number of addresses so far -/
structure Counts where
  cells : ℕ
  texts : ℕ
  deriving DecidableEq

def Counts.allocations (counts : Counts) : ℕ := counts.cells + counts.texts

def Counts.addCell (counts : Counts) : Counts :=
  { counts with cells := counts.cells + 1 }

def Counts.addText (counts : Counts) : Counts :=
  { counts with texts := counts.texts + 1 }

/-- All blocks of a memory -/
structure Blocks (δ : Type) where
  counts : Counts
  cells : Multiset (ℕ × Cell δ)
  texts : Multiset (ℕ × CString)

structure Laid (memory : Memory δ) (blocks : Blocks δ) : Prop where
  cellCount : memory.cells.length = blocks.counts.cells
  textCount : memory.texts.length = blocks.counts.texts
  cells : Owns memory.cells blocks.cells
  texts : Owns memory.texts blocks.texts

theorem Laid.allocations {memory : Memory δ} {blocks : Blocks δ}
    (hlaid : Laid memory blocks) :
    memory.allocations = blocks.counts.allocations := by
  unfold Memory.allocations Counts.allocations
  rw [hlaid.cellCount, hlaid.textCount]

/-- From a memory with these blocks the code returns `a` and leaves those. -/
def Does {α : Type} (code : Code δ α) (before : Blocks δ) (a : α)
    (after : Blocks δ) : Prop :=
  Triple (Laid · before) code
    (fun value memory => value = a ∧ Laid memory after) fun _ => False

/-- What `cJSON_strdup` makes of a text -/
def copyText (alloc : ℕ → Bool) (k : Counts) (str : CString) :
    Option (ℕ × CString) :=
  if alloc k.allocations then some (k.texts, str) else none

namespace Does

variable {α β : Type} {code : Code δ α} {f : α → Code δ β} {a : α} {b : β}
  {before middle after : Blocks δ} {k : Counts} {C R : Multiset (ℕ × Cell δ)}
  {T U : Multiset (ℕ × CString)} {addr : ℕ} {cell : Cell δ}

theorem of_run (hrun : ∀ memory, Laid memory before → ∃ memory',
    code memory = .ok (a, memory') ∧ Laid memory' after) :
    Does code before a after := by
  intro memory hlaid
  obtain ⟨memory', hcode, hlaid'⟩ := hrun memory hlaid
  rw [hcode]
  exact ⟨rfl, hlaid'⟩

theorem run (hdoes : Does code before a after) {memory : Memory δ}
    (hlaid : Laid memory before) :
    ∃ memory', code memory = .ok (a, memory') ∧ Laid memory' after := by
  obtain ⟨value, memory', hrun, rfl, hlaid'⟩ := Triple.ok hdoes hlaid
  exact ⟨memory', hrun, hlaid'⟩

theorem pure (a : α) : Does (Pure.pure a : Code δ α) before a before :=
  Triple.pure fun _ hlaid => ⟨rfl, hlaid⟩

theorem bind (hcode : Does code before a middle)
    (hf : Does (f a) middle b after) : Does (code >>= f) before b after :=
  Triple.bind_value hcode hf

/-- No two cells have one address. -/
theorem of_nodup (hdoes : (C.map Prod.fst).Nodup →
    Does code ⟨k, C, T⟩ a after) : Does code ⟨k, C, T⟩ a after :=
  fun memory hlaid => hdoes hlaid.cells.nodup memory hlaid

/-! ### Accesses -/

theorem readCell (hmem : (addr, cell) ∈ C) :
    Does (readCell (some addr)) ⟨k, C, T⟩ cell ⟨k, C, T⟩ := by
  apply of_run
  intro memory hlaid
  refine ⟨memory, ?_, hlaid⟩
  have hread := hlaid.cells.read hmem
  simp [CJsonTree.readCell, hread]

theorem readText {text : ℕ × CString} (hmem : text ∈ T) :
    Does (readText (some text.1)) ⟨k, C, T⟩ text.2 ⟨k, C, T⟩ := by
  apply of_run
  intro memory hlaid
  refine ⟨memory, ?_, hlaid⟩
  have hread := hlaid.texts.read hmem
  simp [CJsonTree.readText, hread]

theorem write (change : Cell δ → Cell δ) (hC : C = {(addr, cell)} + R) :
    Does (writeCell change (some addr)) ⟨k, C, T⟩ ()
      ⟨k, {(addr, change cell)} + R, T⟩ := by
  subst hC
  apply of_run
  intro memory hlaid
  have hread := hlaid.cells.read Owns.head_mem
  refine ⟨{ memory with
    cells := memory.cells.set addr (some (change cell)) }, ?_, ?_⟩
  · simp [writeCell, hread]
  · refine ⟨?_, hlaid.textCount, hlaid.cells.write (change cell), hlaid.texts⟩
    rw [← hlaid.cellCount]
    exact List.length_set

theorem freeCell (hC : C = {(addr, cell)} + R) :
    Does (freeCell addr) ⟨k, C, T⟩ () ⟨k, R, T⟩ := by
  subst hC
  apply of_run
  intro memory hlaid
  have hread := hlaid.cells.read Owns.head_mem
  refine ⟨{ memory with cells := memory.cells.set addr none }, ?_, ?_⟩
  · simp [CJsonTree.freeCell, hread]
  · refine ⟨?_, hlaid.textCount, hlaid.cells.free, hlaid.texts⟩
    rw [← hlaid.cellCount]
    exact List.length_set

theorem freeText (text : Option (ℕ × CString)) (hT : T = text.toList + U) :
    Does (freeText (text.map Prod.fst)) ⟨k, C, T⟩ () ⟨k, C, U⟩ := by
  subst hT
  cases text with
  | none =>
      rw [Option.toList_none, Multiset.coe_nil, zero_add]
      exact pure ()
  | some text =>
      rw [Option.toList_some, Multiset.coe_singleton]
      apply of_run
      intro memory hlaid
      have hread := hlaid.texts.read Owns.head_mem
      refine ⟨{ memory with texts := memory.texts.set text.1 none }, ?_, ?_⟩
      · simp [CJsonTree.freeText, hread]
      · refine ⟨hlaid.cellCount, ?_, hlaid.cells, hlaid.texts.free⟩
        rw [← hlaid.textCount]
        exact List.length_set

/-! ### Allocation -/

variable {alloc : ℕ → Bool}

theorem mallocCell (halloc : alloc k.allocations = true) (cell : Cell δ) :
    Does (mallocCell alloc cell) ⟨k, C, T⟩ (some k.cells)
      ⟨k.addCell, {(k.cells, cell)} + C, T⟩ := by
  apply of_run
  intro memory hlaid
  have hallocations := hlaid.allocations
  refine ⟨{ memory with cells := memory.cells ++ [some cell] }, ?_, ?_⟩
  · simp [CJsonTree.mallocCell, hallocations, halloc, hlaid.cellCount]
  · have hcells := hlaid.cells.alloc cell
    rw [hlaid.cellCount] at hcells
    refine ⟨?_, hlaid.textCount, hcells, hlaid.texts⟩
    rw [List.length_append, hlaid.cellCount]
    rfl

theorem mallocCell_fails (halloc : alloc k.allocations = false)
    (cell : Cell δ) :
    Does (CJsonTree.mallocCell alloc cell) ⟨k, C, T⟩ none
      ⟨k.addCell, C, T⟩ := by
  apply of_run
  intro memory hlaid
  have hallocations := hlaid.allocations
  refine ⟨{ memory with cells := memory.cells ++ [none] }, ?_, ?_⟩
  · simp [CJsonTree.mallocCell, hallocations, halloc]
  · refine ⟨?_, hlaid.textCount, hlaid.cells.fail, hlaid.texts⟩
    rw [List.length_append, hlaid.cellCount]
    rfl

theorem strdup (str : CString) :
    Does (strdup alloc str) ⟨k, C, T⟩
      ((copyText alloc k str).map Prod.fst)
      ⟨k.addText, C, (copyText alloc k str).toList + T⟩ := by
  apply of_run
  intro memory hlaid
  have hallocations := hlaid.allocations
  unfold copyText
  cases halloc : alloc k.allocations with
  | true =>
      refine ⟨{ memory with texts := memory.texts ++ [some str] }, ?_, ?_⟩
      · simp [CJsonTree.strdup, hallocations, halloc, hlaid.textCount]
      · have htexts := hlaid.texts.alloc str
        rw [hlaid.textCount] at htexts
        refine ⟨hlaid.cellCount, ?_, hlaid.cells, htexts⟩
        rw [List.length_append, hlaid.textCount]
        rfl
  | false =>
      refine ⟨{ memory with texts := memory.texts ++ [none] }, ?_, ?_⟩
      · simp [CJsonTree.strdup, hallocations, halloc]
      · have htexts := hlaid.texts.fail
        rw [← zero_add T] at htexts
        refine ⟨hlaid.cellCount, ?_, hlaid.cells, htexts⟩
        rw [List.length_append, hlaid.textCount]
        rfl

/-! ### The ends of a chain -/

/-- The last item of a chain gets another one behind it. -/
theorem relinkLast {chain : Chain δ} (hne : chain ≠ .null) {p prev tail : Ptr}
    (value : Ptr) (hC : C = chain.cells prev tail + R) :
    Does (setNext (chain.last p) value) ⟨k, C, T⟩ ()
      ⟨k, chain.cells prev value + R, T⟩ := by
  obtain ⟨addr, cell, rest, hlast, hcells⟩ := chain.exists_last hne prev
  rw [hcells tail, add_assoc] at hC
  rw [hlast p, hcells value, add_assoc]
  have hwrite := write (T := T) (k := k)
    (fun cell : Cell δ => { cell with next := value }) hC
  exact hwrite

/-- The first item of a chain gets another one in front of it. -/
theorem relinkFirst {chain : Chain δ} (hne : chain ≠ .null) {p prev tail : Ptr}
    (value : Ptr) (hC : C = chain.cells prev tail + R) :
    Does (setPrev (chain.head p) value) ⟨k, C, T⟩ ()
      ⟨k, chain.cells value tail + R, T⟩ := by
  obtain ⟨addr, cell, rest, hhead, hcells⟩ := chain.exists_first hne tail
  rw [hcells prev, add_assoc] at hC
  rw [hhead p, hcells value, add_assoc]
  have hwrite := write (T := T) (k := k)
    (fun cell : Cell δ => { cell with prev := value }) hC
  exact hwrite

end Does

end CJsonTree

end ClpszDemos
