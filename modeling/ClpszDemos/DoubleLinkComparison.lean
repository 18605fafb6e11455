import Mathlib.Tactic
import ClpszDemos.DoubleLinkRing
import ClpszDemos.PhpStrings

/-!
# How PHP compares keys and nodes

`==` of two objects of a class compares their properties one after the other,
and so goes along `next` through both rings at once: a node is told from the
sentinel by the first place where the ring, turned by the distance of the two,
holds something else.  When there is no such place PHP ends the call because
of the nesting level.
-/

namespace ClpszDemos
namespace DoubleLink

open PhpStrings

/-! ## The comparison -/

/-- `==` of two keys or two values, which are null or strings -/
def looseEqual : Option PhpString → Option PhpString → Bool
  | none, none => true
  | none, some t => t.isEmpty
  | some s, none => s.isEmpty
  | some s, some t => stringsEqual s t

/-- `==` of two nodes: the same object, or the same properties in the order of
the class.  The objects on the left that are being compared are protected: to
come to one of them again is an error. -/
def nodesEqual (heap : Heap PhpString PhpString) :
    ℕ → List Handle → Option Handle → Option Handle → Except Stop Bool
  | 0, _, _, _ => throw .outOfFuel
  | _ + 1, _, none, none => return true
  | _ + 1, _, none, some _ => return false
  | _ + 1, _, some _, none => return false
  | fuel + 1, guarded, some a, some b =>
      if a = b then return true
      else if a ∈ guarded then throw .nestingLevel
      else if !looseEqual (heap.node a).key (heap.node b).key then return false
      else if !looseEqual (heap.node a).value (heap.node b).value then
        return false
      else do
        let nextEqual ← nodesEqual heap fuel (a :: guarded)
          (heap.node a).next (heap.node b).next
        if nextEqual then
          nodesEqual heap fuel (a :: guarded)
            (heap.node a).pre (heap.node b).pre
        else
          return false

/-- No more objects can be protected than there are. -/
def phpComparison : Comparison PhpString PhpString where
  keysEqual := fun itKey key => looseEqual itKey (some key)
  differs := fun heap it head =>
    (nodesEqual heap (heap.size + 1) [] it head).map not

/-! ## Places of the ring -/

/-- What a sentinel and some items hold -/
def contents (list : List (PhpString × PhpString)) :
    List (Option PhpString × Option PhpString) :=
  (none, none) :: list.map fun item => (some item.1, some item.2)

/-- Both keys and both values are equal. -/
def contentsEqual (c d : Option PhpString × Option PhpString) : Bool :=
  looseEqual c.1 d.1 && looseEqual c.2 d.2

section Places

variable {heap : Heap PhpString PhpString} {head : Handle}
  {cells : List (Cell PhpString PhpString)}

theorem contents_items (hholds : Holds heap head cells) :
    contents (items cells) = (head :: handles cells).map heap.content := by
  unfold contents items handles
  rw [List.map_cons, hholds.sentinel, List.map_map, List.map_map]
  congr 1
  apply List.map_congr_left
  intro c hc
  exact (hholds.content c hc).symm

theorem length_handles : (handles cells).length = cells.length :=
  List.length_map _

theorem length_lt_size (hholds : Holds heap head cells) :
    cells.length < heap.size := by
  have hsubset : head :: handles cells ⊆ List.range heap.size := by
    intro r hr
    exact List.mem_range.mpr (hholds.allocated r hr)
  have hlength := (hholds.ring.nodup.subperm hsubset).length_le
  rw [List.length_cons, length_handles, List.length_range] at hlength
  exact hlength

section Steps

variable {fuel : ℕ} {guarded : List Handle} {a b : Handle}

theorem nodesEqual_same :
    nodesEqual heap (fuel + 1) guarded (some a) (some a) = .ok true := by
  unfold nodesEqual
  rw [if_pos rfl]
  rfl

theorem nodesEqual_guarded (hne : a ≠ b) (hguarded : a ∈ guarded) :
    nodesEqual heap (fuel + 1) guarded (some a) (some b) =
      .error .nestingLevel := by
  unfold nodesEqual
  rw [if_neg hne, if_pos hguarded]
  rfl

theorem nodesEqual_of_contents_ne (hne : a ≠ b) (hguarded : a ∉ guarded)
    (hcontents :
      contentsEqual (heap.content a) (heap.content b) = false) :
    nodesEqual heap (fuel + 1) guarded (some a) (some b) = .ok false := by
  unfold nodesEqual
  rw [if_neg hne, if_neg hguarded]
  unfold contentsEqual Heap.content at hcontents
  cases hkey : looseEqual (heap.node a).key (heap.node b).key with
  | false => rfl
  | true =>
      rw [hkey, Bool.true_and] at hcontents
      rw [hcontents]
      rfl

theorem nodesEqual_of_contents (hne : a ≠ b) (hguarded : a ∉ guarded)
    (hcontents : contentsEqual (heap.content a) (heap.content b) = true) :
    nodesEqual heap (fuel + 1) guarded (some a) (some b) =
      (nodesEqual heap fuel (a :: guarded) (heap.node a).next
          (heap.node b).next >>= fun nextEqual =>
        if nextEqual then
          nodesEqual heap fuel (a :: guarded) (heap.node a).pre
            (heap.node b).pre
        else pure false) := by
  unfold contentsEqual Heap.content at hcontents
  rw [Bool.and_eq_true] at hcontents
  rw [nodesEqual, if_neg hne, if_neg hguarded, hcontents.1, hcontents.2]
  rfl

end Steps

/-- What the ring holds behind two places is the same. -/
def SameFrom (heap : Heap PhpString PhpString) (head : Handle)
    (cells : List (Cell PhpString PhpString)) (i j : ℕ) : Prop :=
  ∀ t, j ≤ t → t < cells.length + 1 →
    contentsEqual (heap.content (Links.place head (handles cells) (i + t)))
      (heap.content (Links.place head (handles cells) t)) = true

theorem sameFrom_succ_iff {i j : ℕ} (hj : j < cells.length + 1) :
    SameFrom heap head cells i j ↔
      contentsEqual (heap.content (Links.place head (handles cells) (i + j)))
        (heap.content (Links.place head (handles cells) j)) = true ∧
      SameFrom heap head cells i (j + 1) := by
  constructor
  · intro hsame
    exact ⟨hsame j le_rfl hj, fun t ht => hsame t (Nat.le_of_succ_le ht)⟩
  · rintro ⟨hfirst, hrest⟩ t ht hlt
    rcases Nat.eq_or_lt_of_le ht with rfl | ht
    · exact hfirst
    · exact hrest t ht hlt

/-- Places that differ by a whole number of turns are the same. -/
theorem place_eq_iff (hholds : Holds heap head cells) {s t : ℕ} :
    Links.place head (handles cells) s = Links.place head (handles cells) t ↔
      s % (cells.length + 1) = t % (cells.length + 1) := by
  rw [hholds.ring.place_eq_iff, length_handles]

theorem place_turned_ne (hholds : Holds heap head cells) {i : ℕ}
    (hi : i % (cells.length + 1) ≠ 0) (j : ℕ) :
    Links.place head (handles cells) (i + j) ≠
      Links.place head (handles cells) j := by
  intro hsame
  have hmod : i + j ≡ 0 + j [MOD cells.length + 1] := by
    rw [Nat.zero_add]
    exact (place_eq_iff hholds).mp hsame
  exact hi (Nat.ModEq.add_right_cancel' j hmod)

/-- Within a turn no place comes twice. -/
theorem place_turned_injective (hholds : Holds heap head cells) {i j t : ℕ}
    (hj : j < cells.length + 1) (ht : t < cells.length + 1)
    (hsame : Links.place head (handles cells) (i + j) =
      Links.place head (handles cells) (i + t)) : j = t := by
  have hmod : i + j ≡ i + t [MOD cells.length + 1] :=
    (place_eq_iff hholds).mp hsame
  have hjt : j % (cells.length + 1) = t % (cells.length + 1) :=
    Nat.ModEq.add_left_cancel' i hmod
  rwa [Nat.mod_eq_of_lt hj, Nat.mod_eq_of_lt ht] at hjt

/-- From two places on the comparison goes through the ring until the places
that it has come to hold something else, or until it is back. -/
theorem nodesEqual_place (hholds : Holds heap head cells) {i : ℕ}
    (hi : i % (cells.length + 1) ≠ 0) (left : ℕ) {j fuel : ℕ}
    {guarded : List Handle} (hleft : j + left = cells.length + 1)
    (hfuel : left < fuel)
    (hguarded : ∀ r, r ∈ guarded ↔
      ∃ t < j, r = Links.place head (handles cells) (i + t)) :
    (SameFrom heap head cells i j →
      nodesEqual heap fuel guarded
          (some (Links.place head (handles cells) (i + j)))
          (some (Links.place head (handles cells) j)) =
        .error .nestingLevel) ∧
    (¬ SameFrom heap head cells i j →
      nodesEqual heap fuel guarded
          (some (Links.place head (handles cells) (i + j)))
          (some (Links.place head (handles cells) j)) =
        .ok false) := by
  have hne := place_turned_ne hholds hi
  induction left generalizing j fuel guarded with
  | zero =>
      obtain ⟨fuel, rfl⟩ := Nat.exists_eq_succ_of_ne_zero
        (Nat.ne_of_gt hfuel)
      -- the comparison is back at the first node on the left
      have hback : Links.place head (handles cells) (i + j) ∈ guarded := by
        refine (hguarded _).mpr ⟨0, by omega, ?_⟩
        rw [place_eq_iff hholds]
        show (i + (j + 0)) % (cells.length + 1) = i % (cells.length + 1)
        rw [hleft, Nat.add_mod_right]
      constructor
      · intro _
        exact nodesEqual_guarded (hne j) hback
      · intro hdiffer
        exact absurd (fun t ht hlt => absurd hlt (by omega)) hdiffer
  | succ left ih =>
      obtain ⟨fuel, rfl⟩ := Nat.exists_eq_succ_of_ne_zero
        (Nat.ne_of_gt (Nat.zero_lt_of_lt hfuel))
      have hj : j < cells.length + 1 := by omega
      have hnew : Links.place head (handles cells) (i + j) ∉ guarded := by
        intro hmem
        obtain ⟨t, ht, hsame⟩ := (hguarded _).mp hmem
        have hjt := place_turned_injective hholds hj (ht.trans hj) hsame
        omega
      rw [sameFrom_succ_iff hj]
      cases hcontents : contentsEqual
          (heap.content (Links.place head (handles cells) (i + j)))
          (heap.content (Links.place head (handles cells) j)) with
      | false =>
          constructor
          · rintro ⟨hsame, _⟩
            cases hsame
          · intro _
            exact nodesEqual_of_contents_ne (hne j) hnew hcontents
      | true =>
          have hnextA : (heap.node (Links.place head (handles cells)
              (i + j))).next =
                some (Links.place head (handles cells) (i + (j + 1))) :=
            hholds.ring.next_place (i + j)
          have hnextB : (heap.node (Links.place head (handles cells)
              j)).next = some (Links.place head (handles cells) (j + 1)) :=
            hholds.ring.next_place j
          have hrest := @ih (j + 1) fuel
            (Links.place head (handles cells) (i + j) :: guarded) (by omega)
            (by omega) (by
              intro r
              rw [List.mem_cons, hguarded, Nat.exists_lt_succ_right]
              exact or_comm)
          rw [nodesEqual_of_contents (hne j) hnew hcontents, hnextA, hnextB]
          constructor
          · rintro ⟨_, hsame⟩
            rw [hrest.1 hsame]
            rfl
          · intro hdiffer
            rw [hrest.2 fun hsame => hdiffer ⟨rfl, hsame⟩]
            rfl

theorem length_contents (list : List (PhpString × PhpString)) :
    (contents list).length = list.length + 1 := by
  unfold contents
  rw [List.length_cons, List.length_map]

theorem getElem_contents (hholds : Holds heap head cells) {t : ℕ}
    (ht : t < (contents (items cells)).length) :
    (contents (items cells))[t] =
      heap.content (Links.place head (handles cells) t) := by
  have hlt : t < (handles cells).length + 1 := by
    rw [length_contents, items, List.length_map] at ht
    rw [length_handles]
    exact ht
  rw [Links.place_of_lt hlt]
  simp only [contents_items hholds, List.getElem_map]

/-- The ring, turned by some places -/
theorem getElem_rotate_contents (hholds : Holds heap head cells) {i t : ℕ}
    (ht : t < ((contents (items cells)).rotate i).length) :
    ((contents (items cells)).rotate i)[t] =
      heap.content (Links.place head (handles cells) (i + t)) := by
  have hlength : (contents (items cells)).length =
      (handles cells).length + 1 := by
    rw [length_contents, items, handles, List.length_map, List.length_map]
  rw [List.getElem_rotate, getElem_contents hholds, hlength, Links.place_mod,
    Nat.add_comm t i]

/-- A ring that holds the same behind two places holds the same when it is
turned by their distance. -/
theorem sameFrom_zero_iff (hholds : Holds heap head cells) (i : ℕ) :
    SameFrom heap head cells i 0 ↔
      List.Forall₂ (fun c d => contentsEqual c d = true)
        ((contents (items cells)).rotate i) (contents (items cells)) := by
  have hlength : (contents (items cells)).length = cells.length + 1 := by
    rw [length_contents, items, List.length_map]
  rw [List.forall₂_iff_get]
  simp only [List.get_eq_getElem]
  constructor
  · intro hsame
    refine ⟨List.length_rotate .., ?_⟩
    intro t hrotated ht
    rw [getElem_rotate_contents hholds, getElem_contents hholds]
    exact hsame t (Nat.zero_le t) (hlength ▸ ht)
  · rintro ⟨_, hequal⟩ t _ ht
    have hlt : t < (contents (items cells)).length := by
      rw [hlength]
      exact ht
    have hrotated : t < ((contents (items cells)).rotate i).length := by
      rw [List.length_rotate]
      exact hlt
    rw [← getElem_rotate_contents hholds hrotated,
      ← getElem_contents hholds hlt]
    exact hequal t hrotated hlt

/-! ## The loop test -/

theorem differs_head (heap : Heap PhpString PhpString) (head : Handle) :
    phpComparison.differs heap (some head) (some head) = .ok false := by
  show (nodesEqual heap (heap.size + 1) [] (some head) (some head)).map not = _
  rw [nodesEqual_same]
  rfl

/-- The test at the node of an item is true, unless the ring is the same when
it is turned to the node. -/
theorem differs_place (hholds : Holds heap head cells) {i : ℕ} (hpos : 0 < i)
    (hi : i < cells.length + 1) :
    (List.Forall₂ (fun c d => contentsEqual c d = true)
        ((contents (items cells)).rotate i) (contents (items cells)) →
      phpComparison.differs heap
          (some (Links.place head (handles cells) i)) (some head) =
        .error .nestingLevel) ∧
    (¬ List.Forall₂ (fun c d => contentsEqual c d = true)
        ((contents (items cells)).rotate i) (contents (items cells)) →
      phpComparison.differs heap
          (some (Links.place head (handles cells) i)) (some head) =
        .ok true) := by
  have hmod : i % (cells.length + 1) ≠ 0 := by
    rw [Nat.mod_eq_of_lt hi]
    exact Nat.ne_of_gt hpos
  have hsize := length_lt_size hholds
  have hequal := @nodesEqual_place heap head cells hholds i hmod
    (cells.length + 1) 0 (heap.size + 1) [] (Nat.zero_add _) (by omega)
    (by simp)
  have hhead : Links.place head (handles cells) 0 = head := by
    unfold Links.place
    rw [Nat.zero_mod]
    rfl
  simp only [hhead, Nat.add_zero] at hequal
  rw [← sameFrom_zero_iff hholds]
  constructor
  · intro hsame
    show (nodesEqual heap (heap.size + 1) [] _ _).map not = _
    rw [hequal.1 hsame]
    rfl
  · intro hdiffer
    show (nodesEqual heap (heap.size + 1) [] _ _).map not = _
    rw [hequal.2 hdiffer]
    rfl

theorem exists_place {c : Cell PhpString PhpString} (hc : c ∈ cells) :
    ∃ i, 0 < i ∧ i < cells.length + 1 ∧
      Links.place head (handles cells) i = c.1 := by
  obtain ⟨k, hk, hget⟩ := List.getElem_of_mem hc
  have hlt : k + 1 < (handles cells).length + 1 := by
    rw [length_handles]
    omega
  refine ⟨k + 1, Nat.succ_pos k, Nat.succ_lt_succ hk, ?_⟩
  rw [Links.place_of_lt hlt, ← hget]
  simp [handles]

theorem place_mem {i : ℕ} (hpos : 0 < i) (hi : i < cells.length + 1) :
    ∃ c ∈ cells, Links.place head (handles cells) i = c.1 := by
  obtain ⟨k, rfl⟩ := Nat.exists_eq_succ_of_ne_zero (Nat.ne_of_gt hpos)
  have hk : k < cells.length := Nat.lt_of_succ_lt_succ hi
  have hlt : k + 1 < (handles cells).length + 1 := by
    rw [length_handles]
    exact hi
  refine ⟨cells[k], List.getElem_mem hk, ?_⟩
  rw [Links.place_of_lt hlt]
  simp [handles]

/-- The test tells every node from the sentinel or ends the call. -/
theorem detects_phpComparison :
    Detects phpComparison fun stop => stop = .nestingLevel := by
  intro heap head cells hholds
  refine ⟨differs_head heap head, ?_⟩
  intro c hc
  obtain ⟨i, hpos, hi, hplace⟩ := @exists_place head cells c hc
  have hdiffers := differs_place hholds hpos hi
  rw [hplace] at hdiffers
  by_cases hsame : List.Forall₂ (fun c d => contentsEqual c d = true)
      ((contents (items cells)).rotate i) (contents (items cells))
  · exact Or.inr ⟨.nestingLevel, hdiffers.1 hsame, rfl⟩
  · exact Or.inl (hdiffers.2 hsame)

/-! ## Keys -/

/-- The methods select the nodes with the identical key, and the loop test is
true at every node with an item. -/
def KeysCompared (heap : Heap PhpString PhpString) (head : Handle)
    (cells : List (Cell PhpString PhpString)) (key : PhpString) : Prop :=
  ∀ c ∈ cells,
    (phpComparison.keysEqual (heap.node c.1).key key = true ↔
      (heap.node c.1).key = some key) ∧
    phpComparison.differs heap (some c.1) (some head) = .ok true

/-- No other key is the same number as the key, and no turn of the ring by
less than its length holds the same as the ring. -/
def Distinct (list : List (PhpString × PhpString)) (key : PhpString) : Prop :=
  (∀ item ∈ list, item.1 ≠ key → ¬ SameNumber item.1 key) ∧
  ∀ i, 0 < i → i < list.length + 1 →
    ¬ List.Forall₂ (fun c d => contentsEqual c d = true)
      ((contents list).rotate i) (contents list)

theorem keysCompared_iff_distinct (hholds : Holds heap head cells)
    (key : PhpString) :
    KeysCompared heap head cells key ↔ Distinct (items cells) key := by
  have hkeys : ∀ c ∈ cells,
      (phpComparison.keysEqual (heap.node c.1).key key = true ↔
        (heap.node c.1).key = some key) ↔
      (c.2.1 ≠ key → ¬ SameNumber c.2.1 key) := by
    intro c hc
    have hkey : (heap.node c.1).key = some c.2.1 :=
      congrArg Prod.fst (hholds.content c hc)
    rw [hkey, Option.some.injEq]
    show (stringsEqual c.2.1 key = true ↔ c.2.1 = key) ↔ _
    rw [stringsEqual_iff]
    tauto
  have hlength : (items cells).length = cells.length := List.length_map _
  constructor
  · intro hcompared
    constructor
    · intro item hitem
      obtain ⟨c, hc, rfl⟩ := List.mem_map.mp hitem
      exact (hkeys c hc).mp (hcompared c hc).1
    · intro i hpos hi hsame
      rw [hlength] at hi
      obtain ⟨c, hc, hplace⟩ := @place_mem head cells i hpos hi
      have herror := (differs_place hholds hpos hi).1 hsame
      rw [hplace, (hcompared c hc).2] at herror
      cases herror
  · intro hdistinct c hc
    obtain ⟨i, hpos, hi, hplace⟩ := @exists_place head cells c hc
    refine ⟨(hkeys c hc).mpr (hdistinct.1 c.2 (List.mem_map_of_mem hc)), ?_⟩
    rw [← hplace]
    apply (differs_place hholds hpos hi).2
    apply hdistinct.2 i hpos
    rw [hlength]
    exact hi

end Places

/-- What a run leaves, unless it was ended because of the nesting level -/
theorem program_holds {calls : List (Call PhpString PhpString)} {fuel : ℕ}
    (hfuel : calls.length ≤ fuel) {start heap : Heap PhpString PhpString}
    {head : Handle} {replies : List (Reply PhpString PhpString)}
    (hrun : program phpComparison fuel calls start =
      .ok ((head, replies), heap)) :
    replies = (callsOnList phpComparison.keysEqual calls []).1 ∧
    ∃ cells, Holds heap head cells ∧
      items cells = (callsOnList phpComparison.keysEqual calls []).2 := by
  have hends := program_spec detects_phpComparison calls hfuel start trivial
  rw [hrun] at hends
  exact hends

/-- In every `DoubleLink` with strings, the comparisons select the identical
keys and find the sentinel exactly when the items are distinct. -/
theorem keysCompared_iff {calls : List (Call PhpString PhpString)} {fuel : ℕ}
    (hfuel : calls.length ≤ fuel) {start heap : Heap PhpString PhpString}
    {head : Handle} {replies : List (Reply PhpString PhpString)}
    (hrun : program phpComparison fuel calls start =
      .ok ((head, replies), heap)) :
    ∃ cells, Holds heap head cells ∧
      items cells = (callsOnList phpComparison.keysEqual calls []).2 ∧
      ∀ key, KeysCompared heap head cells key ↔
        Distinct (items cells) key := by
  obtain ⟨_, cells, hcells, hitems⟩ := program_holds hfuel hrun
  exact ⟨cells, hcells, hitems, keysCompared_iff_distinct hcells⟩

def noObjects : Heap PhpString PhpString :=
  { size := 0, node := fun _ => ⟨none, none, none, none⟩ }

theorem keysCompared_iff_mars :
    ∃ head replies heap,
      program phpComparison 1 [.addTail (php "Mars") (php "Unknown")]
          noObjects = .ok ((head, replies), heap) ∧
      ∃ cells, Holds heap head cells ∧
        items cells = [(php "Mars", php "Unknown")] ∧
        ∀ key, KeysCompared heap head cells key ↔
          Distinct (items cells) key :=
  ⟨_, _, _, rfl, @keysCompared_iff
    [.addTail (php "Mars") (php "Unknown")] 1 (by decide) noObjects _ _ _ rfl⟩

/-- The key `1` selects the node with the key `01`; and a single node with an
empty key and an empty value is compared with the sentinel without end. -/
theorem not_keysCompared :
    (∃ head replies heap cells,
      program phpComparison 1 [.addTail (php "01") (php "a")] noObjects =
        .ok ((head, replies), heap) ∧
      Holds heap head cells ∧ ¬ KeysCompared heap head cells (php "1")) ∧
    ∃ head replies heap cells,
      program phpComparison 1 [.addTail (php "") (php "")] noObjects =
        .ok ((head, replies), heap) ∧
      Holds heap head cells ∧ ∀ key, ¬ KeysCompared heap head cells key := by
  constructor
  · obtain ⟨_, cells, hcells, hitems⟩ := @program_holds
      [.addTail (php "01") (php "a")] 1 (by decide) noObjects _ _ _ rfl
    refine ⟨_, _, _, cells, rfl, hcells, ?_⟩
    intro hcompared
    have hdistinct := (keysCompared_iff_distinct hcells _).mp hcompared
    rw [hitems] at hdistinct
    exact hdistinct.1 (php "01", php "a") List.mem_cons_self (by decide)
      ⟨.int 1, .int 1, by decide, by decide, rfl⟩
  · obtain ⟨_, cells, hcells, hitems⟩ := @program_holds
      [.addTail (php "") (php "")] 1 (by decide) noObjects _ _ _ rfl
    refine ⟨_, _, _, cells, rfl, hcells, ?_⟩
    intro key hcompared
    have hdistinct := (keysCompared_iff_distinct hcells _).mp hcompared
    rw [hitems] at hdistinct
    apply hdistinct.2 1 (by decide) (by decide)
    exact .cons (by decide) (.cons (by decide) .nil)

end DoubleLink
end ClpszDemos
