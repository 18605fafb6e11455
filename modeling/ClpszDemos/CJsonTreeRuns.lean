import ClpszDemos.CJsonCopying
import ClpszDemos.CJsonDouble

/-!
# Trees of cJSON over whole runs

The roots are the items that are in no other one.  They are kept in a chain,
though nothing links them.  A call changes this forest; whoever calls passes
items that are in it, and adds only roots, to items that are not below them.
-/

namespace ClpszDemos

namespace CJsonTree

open CJson

variable {δ : Type} {unit : DoubleUnit δ} {alloc : ℕ → Bool}

/-! ## Forests -/

namespace Chain

/-- An item with its children, wherever it is -/
def find (addr : ℕ) : Chain δ → Option (Label δ × Chain δ)
  | null => none
  | item label child next =>
      if label.addr = addr then some (label, child)
      else if (child.find addr).isSome then child.find addr
      else next.find addr

/-- An item gets other children. -/
def put : Chain δ → ℕ → Chain δ → Chain δ
  | null, _, _ => null
  | item label child next, addr, new =>
      if label.addr = addr then item label new next
      else if (child.find addr).isSome then item label (child.put addr new) next
      else item label child (next.put addr new)

/-- The children of an item -/
def row (addr : ℕ) (forest : Chain δ) : Chain δ :=
  (forest.find addr).elim null Prod.snd

/-- A root, and the forest without it -/
def takeOut (addr : ℕ) : Chain δ → Option ((Label δ × Chain δ) × Chain δ)
  | null => none
  | item label child next =>
      if label.addr = addr then some ((label, child), next)
      else (next.takeOut addr).map fun found =>
        (found.1, item label child found.2)

def rootCells : Chain δ → Multiset (ℕ × Cell δ)
  | null => 0
  | item label child next => label.alone child + next.rootCells

variable {chain child forest rest : Chain δ} {label : Label δ} {addr : ℕ}

theorem head_put {tail : Ptr} {new : Chain δ} :
    (chain.put addr new).head tail = chain.head tail := by
  cases chain with
  | null => rfl
  | item label child next =>
      unfold put
      split_ifs <;> rfl

theorem find_cells (hfind : chain.find addr = some (label, child))
    (prev tail : Ptr) : ∃ np pp R,
      chain.cells prev tail = label.holding np pp child + R ∧
        ∀ new, (chain.put addr new).cells prev tail =
          label.holding np pp new + R := by
  induction chain generalizing prev tail with
  | null => cases hfind
  | item other below next ihChild ihNext =>
      unfold find at hfind
      unfold put
      by_cases hhere : other.addr = addr
      · rw [if_pos hhere] at hfind
        cases hfind
        refine ⟨next.head tail, prev, next.cells (some label.addr) tail, rfl, ?_⟩
        intro new
        rw [if_pos hhere]
        rfl
      rw [if_neg hhere] at hfind
      by_cases hbelow : (below.find addr).isSome
      · rw [if_pos hbelow] at hfind
        obtain ⟨np, pp, R, hcells, hput⟩ := ihChild hfind none none
        refine ⟨np, pp, {(other.addr, other.cell (next.head tail) prev
          (below.head none))} + R + next.cells (some other.addr) tail, ?_, ?_⟩
        · rw [cells, hcells]
          abel
        · intro new
          rw [if_neg hhere, if_pos hbelow, cells, hput, head_put]
          abel
      · rw [if_neg hbelow] at hfind
        obtain ⟨np, pp, R, hcells, hput⟩ := ihNext hfind (some other.addr) tail
        refine ⟨np, pp, {(other.addr, other.cell (next.head tail) prev
          (below.head none))} + below.cells none none + R, ?_, ?_⟩
        · rw [cells, hcells]
          abel
        · intro new
          rw [if_neg hhere, if_neg hbelow, cells, hput, head_put]
          abel

theorem find_texts (hfind : chain.find addr = some (label, child)) :
    label.addr = addr ∧ ∃ U, chain.texts = label.texts + child.texts + U ∧
      ∀ new, (chain.put addr new).texts = label.texts + new.texts + U := by
  induction chain with
  | null => cases hfind
  | item other below next ihChild ihNext =>
      unfold find at hfind
      unfold put
      by_cases hhere : other.addr = addr
      · rw [if_pos hhere] at hfind
        cases hfind
        refine ⟨hhere, next.texts, rfl, ?_⟩
        intro new
        rw [if_pos hhere]
        rfl
      rw [if_neg hhere] at hfind
      by_cases hbelow : (below.find addr).isSome
      · rw [if_pos hbelow] at hfind
        obtain ⟨haddr, U, htexts, hput⟩ := ihChild hfind
        refine ⟨haddr, other.texts + U + next.texts, ?_, ?_⟩
        · rw [texts, htexts]
          abel
        · intro new
          rw [if_neg hhere, if_pos hbelow, texts, hput]
          abel
      · rw [if_neg hbelow] at hfind
        obtain ⟨haddr, U, htexts, hput⟩ := ihNext hfind
        refine ⟨haddr, other.texts + below.texts + U, ?_, ?_⟩
        · rw [texts, htexts]
          abel
        · intro new
          rw [if_neg hhere, if_neg hbelow, texts, hput]
          abel

theorem find_rootCells (hfind : forest.find addr = some (label, child)) :
    ∃ np pp R, forest.rootCells = label.holding np pp child + R ∧
      ∀ new, (forest.put addr new).rootCells = label.holding np pp new + R := by
  induction forest with
  | null => cases hfind
  | item other below next _ ih =>
      unfold find at hfind
      unfold put
      by_cases hhere : other.addr = addr
      · rw [if_pos hhere] at hfind
        cases hfind
        refine ⟨none, none, next.rootCells, rfl, ?_⟩
        intro new
        rw [if_pos hhere]
        rfl
      rw [if_neg hhere] at hfind
      by_cases hbelow : (below.find addr).isSome
      · rw [if_pos hbelow] at hfind
        obtain ⟨np, pp, R, hcells, hput⟩ := find_cells hfind none none
        refine ⟨np, pp, {(other.addr, other.cell none none (below.head none))} +
          R + next.rootCells, ?_, ?_⟩
        · rw [rootCells, Label.alone_eq, hcells]
          abel
        · intro new
          rw [if_neg hhere, if_pos hbelow, rootCells, Label.alone_eq, hput,
            head_put]
          abel
      · rw [if_neg hbelow] at hfind
        obtain ⟨np, pp, R, hcells, hput⟩ := ih hfind
        refine ⟨np, pp, other.alone below + R, ?_, ?_⟩
        · rw [rootCells, hcells]
          abel
        · intro new
          rw [if_neg hhere, if_neg hbelow, rootCells, hput]
          abel

theorem takeOut_cells
    (htake : forest.takeOut addr = some ((label, child), rest)) :
    label.addr = addr ∧ forest.rootCells = label.alone child + rest.rootCells ∧
      forest.texts = label.texts + child.texts + rest.texts := by
  induction forest generalizing rest with
  | null => cases htake
  | item other below next _ ih =>
      unfold takeOut at htake
      by_cases hhere : other.addr = addr
      · rw [if_pos hhere] at htake
        cases htake
        exact ⟨hhere, rfl, rfl⟩
      rw [if_neg hhere] at htake
      obtain ⟨⟨found, rest'⟩, hfound, hpair⟩ := Option.map_eq_some_iff.mp htake
      cases hpair
      obtain ⟨haddr, hcells, htexts⟩ := ih hfound
      refine ⟨haddr, ?_, ?_⟩
      · rw [rootCells, rootCells, hcells]
        abel
      · rw [texts, texts, htexts]
        abel

end Chain

/-! ## Calls -/

inductive Created (δ : Type)
  | null
  | true
  | false
  | bool (b : Bool)
  | number (num : δ)
  | array
  | object

def Created.code (unit : DoubleUnit δ) (alloc : ℕ → Bool) :
    Created δ → Code δ Ptr
  | null => createNull unit alloc
  | true => createTrue unit alloc
  | false => createFalse unit alloc
  | bool b => createBool unit alloc b
  | number num => createNumber unit alloc num
  | array => createArray unit alloc
  | object => createObject unit alloc

inductive Call (δ : Type)
  | create (kind : Created δ)
  | createString (string : CString)
  | getArraySize (array : ℕ)
  | getArrayItem (array : ℕ) (item : ℤ)
  | getObjectItem (object : ℕ) (string : CString)
  | addItemToArray (array : ℕ) (item : Ptr)
  | addItemToObject (object : ℕ) (string : CString) (item : Ptr)
  | detachItemFromArray (array : ℕ) (which : ℤ)
  | detachItemFromObject (object : ℕ) (string : CString)
  | deleteItemFromArray (array : ℕ) (which : ℤ)
  | deleteItemFromObject (object : ℕ) (string : CString)
  | replaceItemInArray (array : ℕ) (which : ℤ) (newitem : ℕ)
  | replaceItemInObject (object : ℕ) (string : CString) (newitem : ℕ)
  | duplicate (item : Ptr) (recurse : Bool)
  | delete (c : Ptr)

inductive Value
  | none
  | ptr (p : Ptr)
  | int (i : ℤ)
  deriving DecidableEq

def Call.code (unit : DoubleUnit δ) (alloc : ℕ → Bool) (fuel : ℕ) :
    Call δ → Code δ Value
  | create kind => do return .ptr (← kind.code unit alloc)
  | createString string => do
      return .ptr (← CJsonTree.createString unit alloc string)
  | getArraySize array => do
      return .int (← CJsonTree.getArraySize fuel (some array))
  | getArrayItem array item => do
      return .ptr (← CJsonTree.getArrayItem fuel (some array) item)
  | getObjectItem object string => do
      return .ptr (← CJsonTree.getObjectItem fuel (some object) string)
  | addItemToArray array item => do
      CJsonTree.addItemToArray fuel (some array) item
      return .none
  | addItemToObject object string item => do
      CJsonTree.addItemToObject alloc fuel (some object) string item
      return .none
  | detachItemFromArray array which => do
      return .ptr (← CJsonTree.detachItemFromArray fuel (some array) which)
  | detachItemFromObject object string => do
      return .ptr (← CJsonTree.detachItemFromObject fuel (some object) string)
  | deleteItemFromArray array which => do
      CJsonTree.deleteItemFromArray fuel (some array) which
      return .none
  | deleteItemFromObject object string => do
      CJsonTree.deleteItemFromObject fuel (some object) string
      return .none
  | replaceItemInArray array which newitem => do
      CJsonTree.replaceItemInArray fuel (some array) which (some newitem)
      return .none
  | replaceItemInObject object string newitem => do
      CJsonTree.replaceItemInObject alloc fuel (some object) string
        (some newitem)
      return .none
  | duplicate item recurse => do
      return .ptr (← CJsonTree.duplicate unit alloc fuel item recurse)
  | delete c => do
      CJsonTree.delete fuel c
      return .none

/-! ## What a call means -/

/-- The items, the names that no item has any more, and the addresses so far -/
structure Store (δ : Type) where
  forest : Chain δ
  leaked : Multiset (ℕ × CString)
  counts : Counts

def Store.blocks (store : Store δ) : Blocks δ :=
  ⟨store.counts, store.forest.rootCells, store.forest.texts + store.leaked⟩

def Store.empty : Store δ := ⟨.null, 0, ⟨0, 0⟩⟩

def Created.label (unit : DoubleUnit δ) : Created δ → ℕ → Label δ
  | null, addr => .new unit addr typeNull rfl
  | true, addr => .new unit addr typeTrue rfl
  | false, addr => .new unit addr typeFalse rfl
  | bool b, addr =>
      .new unit addr (if b then typeTrue else typeFalse) (by cases b <;> rfl)
  | number num, addr => { Label.new unit addr typeNumber rfl with
      valueint := unit.toInt num, valuedouble := num }
  | array, addr => .new unit addr typeArray own_typeArray
  | object, addr => .new unit addr typeObject rfl

/-- `row` is the children of the item that gets a new one. -/
def Store.add (store : Store δ) (addr : ℕ) (item : Label δ)
    (child rest : Chain δ) : Store δ :=
  let row := (rest.row addr).append (.item item child .null)
  { store with forest := rest.put addr row }

/-- The item at a position leaves the children of another one. -/
def Store.cut (store : Store δ) (addr n : ℕ) : Store δ :=
  let row := (store.forest.row addr).without n
  { store with forest := store.forest.put addr row }

/-- The item at a position gives way to another one, if there is one. -/
def Store.exchange (store : Store δ) (addr n : ℕ) (item : Label δ)
    (child rest : Chain δ) : Store δ :=
  match (rest.row addr).drop n with
  | .null => store
  | .item _ _ next =>
      let row := ((rest.row addr).take n).append (.item item child next)
      { store with forest := rest.put addr row }

/-- The effect of a call on the items, and what it returns -/
def Call.onStore (unit : DoubleUnit δ) (alloc : ℕ → Bool) (store : Store δ) :
    Call δ → Value × Store δ
  | create kind =>
      let item := createdItem alloc store.counts (kind.label unit)
      (.ptr (item.head none), { store with
        forest := item.append store.forest, counts := store.counts.addCell })
  | createString string =>
      let item := createdString unit alloc store.counts string
      (.ptr (item.1.head none), { store with
        forest := item.1.append store.forest, counts := item.2 })
  | getArraySize array => (.int (store.forest.row array).length, store)
  | getArrayItem array item =>
      (.ptr (((store.forest.row array).drop item.toNat).head none), store)
  | getObjectItem object string =>
      let row := store.forest.row object
      (.ptr ((row.drop (row.index string)).head none), store)
  | addItemToArray _ none => (.none, store)
  | addItemToArray array (some item) =>
      match store.forest.takeOut item with
      | none => (.none, store)
      | some ((label, child), rest) => (.none, store.add array label child rest)
  | addItemToObject _ _ none => (.none, store)
  | addItemToObject object string (some item) =>
      match store.forest.takeOut item with
      | none => (.none, store)
      | some ((label, child), rest) =>
          let named := label.rename (copyText alloc store.counts string)
          (.none, { store.add object named child rest with
            counts := store.counts.addText })
  | detachItemFromArray array which =>
      let item := (store.forest.row array).nth which.toNat
      let cut := store.cut array which.toNat
      (.ptr (item.head none), { cut with forest := item.append cut.forest })
  | detachItemFromObject object string =>
      let n := (store.forest.row object).index string
      let item := (store.forest.row object).nth n
      let cut := store.cut object n
      (.ptr (item.head none), { cut with forest := item.append cut.forest })
  | deleteItemFromArray array which => (.none, store.cut array which.toNat)
  | deleteItemFromObject object string =>
      (.none, store.cut object ((store.forest.row object).index string))
  | replaceItemInArray array which newitem =>
      match store.forest.takeOut newitem with
      | none => (.none, store)
      | some ((label, child), rest) =>
          (.none, store.exchange array which.toNat label child rest)
  | replaceItemInObject object string newitem =>
      match store.forest.takeOut newitem with
      | none => (.none, store)
      | some ((label, child), rest) =>
          let n := (rest.row object).index string
          match (rest.row object).drop n with
          | .null => (.none, store)
          | .item _ _ _ =>
              let named := label.rename (copyText alloc store.counts string)
              (.none, { store.exchange object n named child rest with
                leaked := label.string.toList + store.leaked
                counts := store.counts.addText })
  | duplicate none _ => (.ptr none, store)
  | duplicate (some item) recurse =>
      match store.forest.find item with
      | none => (.ptr none, store)
      | some (label, child) =>
          let copy := if recurse then copyItem alloc store.counts label child
            else (soleItem (copyLabel alloc store.counts label).1,
              (copyLabel alloc store.counts label).2)
          (.ptr (copy.1.head none), { store with
            forest := copy.1.append store.forest, counts := copy.2 })
  | delete none => (.none, store)
  | delete (some c) =>
      match store.forest.takeOut c with
      | none => (.none, store)
      | some (_, rest) => (.none, { store with forest := rest })

/-- The first item is a root, and the second one is not below it. -/
def Store.separate (store : Store δ) (item addr : ℕ) : Bool :=
  match store.forest.takeOut item with
  | none => false
  | some (_, rest) => (rest.find addr).isSome

/-- What a call asks of its arguments -/
def Call.allowed (store : Store δ) : Call δ → Bool
  | create _ => true
  | createString _ => true
  | getArraySize array => (store.forest.find array).isSome
  | getArrayItem array _ => (store.forest.find array).isSome
  | getObjectItem object _ => (store.forest.find object).isSome
  | addItemToArray array none => (store.forest.find array).isSome
  | addItemToArray array (some item) => store.separate item array
  | addItemToObject _ _ none => true
  | addItemToObject object _ (some item) => store.separate item object
  | detachItemFromArray array _ => (store.forest.find array).isSome
  | detachItemFromObject object _ => (store.forest.find object).isSome
  | deleteItemFromArray array _ => (store.forest.find array).isSome
  | deleteItemFromObject object _ => (store.forest.find object).isSome
  | replaceItemInArray array _ newitem => store.separate newitem array
  | replaceItemInObject object _ newitem => store.separate newitem object
  | duplicate none _ => true
  | duplicate (some item) _ => (store.forest.find item).isSome
  | delete none => true
  | delete (some c) => (store.forest.takeOut c).isSome

/-! ## One call -/

namespace Chain

variable {forest rest chain other : Chain δ} {label : Label δ} {child : Chain δ}
  {addr : ℕ} {np pp : Ptr}

theorem rootCells_append :
    (chain.append other).rootCells = chain.rootCells + other.rootCells := by
  induction chain with
  | null => rw [null_append, rootCells, zero_add]
  | item label child next _ ih =>
      rw [append, rootCells, rootCells, ih, add_assoc]

theorem rootCells_of_length (hlength : chain.length ≤ 1) :
    chain.rootCells = chain.cells none none := by
  cases chain with
  | null => rfl
  | item label child next =>
      cases next with
      | null => rfl
      | item _ _ next => simp [length] at hlength

theorem length_nth_le (n : ℕ) : (chain.nth n).length ≤ 1 := by
  unfold nth
  cases chain.drop n <;> simp [take, length]

theorem card_holding : (label.holding np pp child).card = 1 + child.size := by
  rw [Label.holding, Multiset.card_add, Multiset.card_singleton, card_cells]

theorem card_rootCells : forest.rootCells.card = forest.size := by
  induction forest with
  | null => rfl
  | item label child next _ ih =>
      rw [rootCells, Multiset.card_add, Label.alone, card_holding, ih, size]

theorem size_takeOut
    (htake : forest.takeOut addr = some ((label, child), rest)) :
    forest.size = 1 + child.size + rest.size := by
  have hcells := (takeOut_cells htake).2.1
  have hcard := congrArg Multiset.card hcells
  rwa [Multiset.card_add, Label.alone, card_holding, card_rootCells,
    card_rootCells] at hcard

/-- An item with its children, what else there is, and what other children would
make of it -/
structure Holds (forest : Chain δ) (label : Label δ) (child : Chain δ)
    (np pp : Ptr) (R : Multiset (ℕ × Cell δ)) (U : Multiset (ℕ × CString)) :
    Prop where
  find : forest.find label.addr = some (label, child)
  row : forest.row label.addr = child
  size : 1 + child.size ≤ forest.size
  cells : forest.rootCells = label.holding np pp child + R
  texts : forest.texts = child.texts + (label.texts + U)
  putCells : ∀ new, (forest.put label.addr new).rootCells =
    label.holding np pp new + R
  putTexts : ∀ new, (forest.put label.addr new).texts =
    new.texts + (label.texts + U)

theorem exists_holds (hfind : (forest.find addr).isSome) :
    ∃ label child np pp R U, label.addr = addr ∧
      forest.Holds label child np pp R U := by
  obtain ⟨⟨label, child⟩, hfind⟩ := Option.isSome_iff_exists.mp hfind
  obtain ⟨np, pp, R, hcells, hputCells⟩ := find_rootCells hfind
  obtain ⟨rfl, U, htexts, hputTexts⟩ := find_texts hfind
  refine ⟨label, child, np, pp, R, U, rfl, hfind, ?_, ?_, hcells, ?_,
    hputCells, ?_⟩
  · unfold row
    rw [hfind]
    rfl
  · have hcard := congrArg Multiset.card hcells
    rw [Multiset.card_add, card_holding, card_rootCells] at hcard
    omega
  · rw [htexts]
    abel
  · intro new
    rw [hputTexts]
    abel

theorem Holds.length_le {R : Multiset (ℕ × Cell δ)}
    {U : Multiset (ℕ × CString)}
    (hholds : forest.Holds label chain np pp R U) :
    chain.length ≤ forest.size := by
  have hlength := chain.length_le_size
  have hsize := hholds.size
  omega

theorem Holds.texts_le {R : Multiset (ℕ × Cell δ)}
    {U V : Multiset (ℕ × CString)}
    (hholds : forest.Holds label chain np pp R U) :
    chain.texts ≤ forest.texts + V := by
  rw [hholds.texts, add_assoc]
  exact Multiset.le_add_right _ _

theorem Holds.cut {R : Multiset (ℕ × Cell δ)} {U : Multiset (ℕ × CString)}
    (hholds : forest.Holds label chain np pp R U) (n : ℕ) :
    ((chain.nth n).append (forest.put label.addr (chain.without n))).rootCells =
        label.holding np pp (chain.without n) +
          ((chain.nth n).cells none none + R) ∧
      ((chain.nth n).append (forest.put label.addr (chain.without n))).texts =
        forest.texts := by
  constructor
  · rw [rootCells_append, rootCells_of_length (length_nth_le n),
      hholds.putCells]
    abel
  · rw [texts_append, hholds.putTexts, hholds.texts, chain.texts_eq_nth n]
    abel

end Chain

/-- A root, the store without it, and an item that is not below it -/
structure Store.Separate (store : Store δ) (label : Label δ)
    (child rest : Chain δ) (owner : Label δ) (chain : Chain δ) (np pp : Ptr)
    (R : Multiset (ℕ × Cell δ)) (U : Multiset (ℕ × CString)) : Prop where
  takeOut : store.forest.takeOut label.addr = some ((label, child), rest)
  holds : rest.Holds owner chain np pp R U
  cells : store.forest.rootCells =
    owner.holding np pp chain + (label.alone child + R)
  texts : store.forest.texts =
    chain.texts + (label.texts + (child.texts + (owner.texts + U)))
  size : chain.size ≤ store.forest.size

theorem Store.exists_separate {store : Store δ} {item addr : ℕ}
    (hseparate : store.separate item addr = true) :
    ∃ label child rest owner chain np pp R U, label.addr = item ∧
      owner.addr = addr ∧
      store.Separate label child rest owner chain np pp R U := by
  unfold Store.separate at hseparate
  rcases htake : store.forest.takeOut item with _ | ⟨⟨label, child⟩, rest⟩
  · rw [htake] at hseparate
    cases hseparate
  · rw [htake] at hseparate
    obtain ⟨owner, chain, np, pp, R, U, haddr, hholds⟩ :=
      Chain.exists_holds hseparate
    obtain ⟨rfl, hcells, htexts⟩ := Chain.takeOut_cells htake
    have hforest := Chain.size_takeOut htake
    have hsize := hholds.size
    refine ⟨label, child, rest, owner, chain, np, pp, R, U, rfl, haddr, htake,
      hholds, ?_, ?_, by omega⟩
    · rw [hcells, hholds.cells]
      abel
    · rw [htexts, hholds.texts]
      abel

theorem Store.Separate.length_le {store : Store δ} {label owner : Label δ}
    {child rest chain : Chain δ} {np pp : Ptr} {R : Multiset (ℕ × Cell δ)}
    {U : Multiset (ℕ × CString)}
    (hapart : store.Separate label child rest owner chain np pp R U) :
    chain.length ≤ store.forest.size :=
  Chain.length_le_size.trans hapart.size

/-- The code of a call does to the blocks what the call means. -/
def Call.Agrees (unit : DoubleUnit δ) (alloc : ℕ → Bool) (fuel : ℕ)
    (store : Store δ) (call : Call δ) : Prop :=
  Does (call.code unit alloc fuel) store.blocks
    (call.onStore unit alloc store).1 (call.onStore unit alloc store).2.blocks

theorem Does.returns {α : Type} {code : Code δ α} {a : α}
    {before after : Blocks δ} (hdoes : Does code before a after)
    (value : α → Value) :
    Does (do return value (← code)) before (value a) after :=
  hdoes.bind (Does.pure _)

/-- An item that is new is a root. -/
theorem Does.newRoot {store : Store δ} {code : Code δ Ptr} {p : Ptr}
    {item : Chain δ} {k : Counts} (hitem : item.length ≤ 1)
    (hdoes : Does code store.blocks p
      ⟨k, item.cells none none + store.forest.rootCells,
        item.texts + (store.forest.texts + store.leaked)⟩) :
    Does (do return .ptr (← code)) store.blocks (Value.ptr p)
      (Store.blocks { store with
        forest := item.append store.forest, counts := k }) := by
  refine (hdoes.returns Value.ptr).congr ?_ ?_
  · rw [Chain.rootCells_append, Chain.rootCells_of_length hitem]
  · rw [Chain.texts_append, add_assoc]

section Agreement

variable {store : Store δ} {fuel : ℕ}

theorem create_agrees (kind : Created δ) :
    (Call.create kind).Agrees unit alloc fuel store := by
  have hlength : (createdItem alloc store.counts (kind.label unit)).length ≤ 1 := by
    unfold createdItem
    split_ifs <;> simp [Chain.length]
  apply Does.newRoot hlength
  cases kind
  · exact create_does rfl rfl rfl
  · exact create_does rfl rfl rfl
  · exact create_does rfl rfl rfl
  · exact create_does rfl rfl rfl
  · exact create_does rfl rfl rfl
  · exact create_does rfl rfl rfl
  · exact create_does rfl rfl rfl

theorem createString_agrees (string : CString) :
    (Call.createString string).Agrees unit alloc fuel store := by
  have hlength : (createdString unit alloc store.counts string).1.length ≤ 1 := by
    unfold createdString
    split_ifs <;> simp [Chain.length]
  exact Does.newRoot hlength (createString_does string)

theorem addItemToArray_none_agrees {array : ℕ}
    (hfind : (store.forest.find array).isSome) :
    (Call.addItemToArray array none).Agrees unit alloc fuel store := by
  obtain ⟨owner, chain, np, pp, R, U, rfl, hholds⟩ := Chain.exists_holds hfind
  have howner := owner.mem_holding np pp chain R
  rw [← hholds.cells] at howner
  have hread := (Does.readCell (k := store.counts)
    (T := store.forest.texts + store.leaked) howner).bind
      (f := fun _ => (pure () : Code δ Unit)) (Does.pure ())
  exact hread.bind (Does.pure Value.none)

variable (hfuel : store.forest.size ≤ fuel)

include hfuel

/-! ### Looking up -/

theorem getArraySize_agrees (hcounted : store.forest.size < 2 ^ 31)
    {array : ℕ} (hfind : (store.forest.find array).isSome) :
    (Call.getArraySize array).Agrees unit alloc fuel store := by
  obtain ⟨owner, chain, np, pp, R, U, rfl, hholds⟩ := Chain.exists_holds hfind
  simp only [Call.Agrees, Call.onStore, hholds.row]
  exact (getArraySize_does hholds.cells (hholds.length_le.trans hfuel)
    (hholds.length_le.trans_lt hcounted)).returns Value.int

theorem getArrayItem_agrees {array : ℕ} (item : ℤ)
    (hfind : (store.forest.find array).isSome) :
    (Call.getArrayItem array item).Agrees unit alloc fuel store := by
  obtain ⟨owner, chain, np, pp, R, U, rfl, hholds⟩ := Chain.exists_holds hfind
  simp only [Call.Agrees, Call.onStore, hholds.row]
  exact (getArrayItem_does hholds.cells (hholds.length_le.trans hfuel)
    item).returns Value.ptr

theorem getObjectItem_agrees {object : ℕ} (string : CString)
    (hfind : (store.forest.find object).isSome) :
    (Call.getObjectItem object string).Agrees unit alloc fuel store := by
  obtain ⟨owner, chain, np, pp, R, U, rfl, hholds⟩ := Chain.exists_holds hfind
  simp only [Call.Agrees, Call.onStore, hholds.row]
  exact (getObjectItem_does hholds.cells (hholds.length_le.trans hfuel)
    hholds.texts_le string).returns Value.ptr

/-! ### Adding -/

theorem addItemToArray_agrees {array item : ℕ}
    (hseparate : store.separate item array) :
    (Call.addItemToArray array (some item)).Agrees unit alloc fuel store := by
  obtain ⟨label, child, rest, owner, chain, np, pp, R, U, rfl, rfl, hapart⟩ :=
    store.exists_separate hseparate
  have hholds := hapart.holds
  simp only [Call.Agrees, Call.onStore, hapart.takeOut, Store.add, hholds.row]
  refine ((addItemToArray_does (hapart.length_le.trans hfuel)
    hapart.cells).bind (Does.pure Value.none)).congr ?_ ?_
  · exact (hholds.putCells _).symm
  · rw [hholds.putTexts, Chain.texts_append, hapart.texts, Chain.texts,
      Chain.texts]
    abel

theorem addItemToObject_agrees {object item : ℕ} (string : CString)
    (hseparate : store.separate item object) :
    (Call.addItemToObject object string (some item)).Agrees unit alloc fuel
      store := by
  obtain ⟨label, child, rest, owner, chain, np, pp, R, U, rfl, rfl, hapart⟩ :=
    store.exists_separate hseparate
  have hholds := hapart.holds
  have hT : store.forest.texts + store.leaked = label.texts +
      (chain.texts + child.texts + (owner.texts + U) + store.leaked) := by
    rw [hapart.texts]
    abel
  simp only [Call.Agrees, Call.onStore, hapart.takeOut, Store.add, hholds.row]
  refine ((addItemToObject_does string (hapart.length_le.trans hfuel)
    hapart.cells hT).bind (Does.pure Value.none)).congr ?_ ?_
  · exact (hholds.putCells _).symm
  · rw [hholds.putTexts, Chain.texts_append, Chain.texts, Chain.texts]
    abel

/-! ### Detaching and deleting -/

theorem detachItemFromArray_agrees {array : ℕ} (which : ℤ)
    (hfind : (store.forest.find array).isSome) :
    (Call.detachItemFromArray array which).Agrees unit alloc fuel store := by
  obtain ⟨owner, chain, np, pp, R, U, rfl, hholds⟩ := Chain.exists_holds hfind
  obtain ⟨hcells, htexts⟩ := hholds.cut which.toNat
  simp only [Call.Agrees, Call.onStore, Store.cut, hholds.row]
  refine ((detachItemFromArray_does which (hholds.length_le.trans hfuel)
    hholds.cells).returns Value.ptr).congr hcells.symm ?_
  rw [htexts]

theorem detachItemFromObject_agrees (hcounted : store.forest.size < 2 ^ 31)
    {object : ℕ} (string : CString)
    (hfind : (store.forest.find object).isSome) :
    (Call.detachItemFromObject object string).Agrees unit alloc fuel store := by
  obtain ⟨owner, chain, np, pp, R, U, rfl, hholds⟩ := Chain.exists_holds hfind
  obtain ⟨hcells, htexts⟩ := hholds.cut (chain.index string)
  simp only [Call.Agrees, Call.onStore, Store.cut, hholds.row]
  refine ((detachItemFromObject_does string (hholds.length_le.trans hfuel)
    (hholds.length_le.trans_lt hcounted) hholds.cells
    hholds.texts_le).returns Value.ptr).congr hcells.symm ?_
  rw [htexts]

theorem deleteItemFromArray_agrees {array : ℕ} (which : ℤ)
    (hfind : (store.forest.find array).isSome) :
    (Call.deleteItemFromArray array which).Agrees unit alloc fuel store := by
  obtain ⟨owner, chain, np, pp, R, U, rfl, hholds⟩ := Chain.exists_holds hfind
  have hsize := hholds.size
  have hT : store.forest.texts + store.leaked =
      chain.texts + (owner.texts + U + store.leaked) := by
    rw [hholds.texts, add_assoc]
  simp only [Call.Agrees, Call.onStore, Store.cut, hholds.row]
  refine ((deleteItemFromArray_does which (by omega) hholds.cells hT).bind
    (Does.pure Value.none)).congr (hholds.putCells _).symm ?_
  rw [hholds.putTexts]
  exact (add_assoc _ _ _).symm

theorem deleteItemFromObject_agrees (hcounted : store.forest.size < 2 ^ 31)
    {object : ℕ} (string : CString)
    (hfind : (store.forest.find object).isSome) :
    (Call.deleteItemFromObject object string).Agrees unit alloc fuel store := by
  obtain ⟨owner, chain, np, pp, R, U, rfl, hholds⟩ := Chain.exists_holds hfind
  have hsize := hholds.size
  have hT : store.forest.texts + store.leaked =
      chain.texts + (owner.texts + U + store.leaked) := by
    rw [hholds.texts, add_assoc]
  simp only [Call.Agrees, Call.onStore, Store.cut, hholds.row]
  refine ((deleteItemFromObject_does string (by omega)
    (hholds.length_le.trans_lt hcounted) hholds.cells hT).bind
    (Does.pure Value.none)).congr (hholds.putCells _).symm ?_
  rw [hholds.putTexts]
  exact (add_assoc _ _ _).symm

theorem delete_agrees {c : ℕ} (htake : (store.forest.takeOut c).isSome) :
    (Call.delete (some c)).Agrees unit alloc fuel store := by
  obtain ⟨⟨⟨label, child⟩, rest⟩, htake⟩ := Option.isSome_iff_exists.mp htake
  obtain ⟨rfl, hcells, htexts⟩ := Chain.takeOut_cells htake
  have hsize : (Chain.item label child .null).size ≤ fuel := by
    have hforest := Chain.size_takeOut htake
    show 1 + child.size + 0 ≤ fuel
    omega
  have hC : store.forest.rootCells =
      (Chain.item label child .null).cells none none + rest.rootCells := by
    rw [hcells, Chain.cells, Label.alone_eq, Chain.cells, add_zero]
    rfl
  have hT : store.forest.texts + store.leaked =
      (Chain.item label child .null).texts + (rest.texts + store.leaked) := by
    rw [htexts, Chain.texts, Chain.texts]
    abel
  simp only [Call.Agrees, Call.onStore, htake]
  exact (delete_does hsize hC hT).bind (Does.pure Value.none)

/-! ### Replacing -/

theorem replaceItemInArray_agrees {array newitem : ℕ} (which : ℤ)
    (hseparate : store.separate newitem array) :
    (Call.replaceItemInArray array which newitem).Agrees unit alloc fuel
      store := by
  obtain ⟨label, child, rest, owner, chain, np, pp, R, U, rfl, rfl, hapart⟩ :=
    store.exists_separate hseparate
  have hholds := hapart.holds
  simp only [Call.Agrees, Call.onStore, hapart.takeOut, Store.exchange,
    hholds.row]
  rcases hdrop : chain.drop which.toNat with _ | ⟨old, below, next⟩
  · exact (replaceItemInArray_none which hdrop (some label.addr)
      (hapart.length_le.trans hfuel) hapart.cells).bind (Does.pure Value.none)
  · have hchain := chain.take_append_drop which.toNat
    rw [hdrop] at hchain
    have hT : store.forest.texts + store.leaked = old.texts + below.texts +
        ((chain.take which.toNat).texts + next.texts + (owner.texts + U) +
          (label.texts + child.texts) + store.leaked) := by
      have hparts := congrArg Chain.texts hchain
      rw [Chain.texts_append, Chain.texts] at hparts
      rw [hapart.texts, ← hparts]
      abel
    refine ((replaceItemInArray_does which hchain.symm hdrop
      (hapart.size.trans hfuel) hapart.cells hT).bind
      (Does.pure Value.none)).congr (hholds.putCells _).symm ?_
    dsimp only
    rw [hholds.putTexts, Chain.texts_append, Chain.texts]
    abel

theorem replaceItemInObject_agrees (hcounted : store.forest.size < 2 ^ 31)
    {object newitem : ℕ} (string : CString)
    (hseparate : store.separate newitem object) :
    (Call.replaceItemInObject object string newitem).Agrees unit alloc fuel
      store := by
  obtain ⟨label, child, rest, owner, chain, np, pp, R, U, rfl, rfl, hapart⟩ :=
    store.exists_separate hseparate
  have hholds := hapart.holds
  have hT : store.forest.texts + store.leaked = chain.texts +
      (label.texts + (child.texts + (owner.texts + U) + store.leaked)) := by
    rw [hapart.texts]
    abel
  simp only [Call.Agrees, Call.onStore, hapart.takeOut, Store.exchange,
    hholds.row]
  rcases hdrop : chain.drop (chain.index string) with _ | ⟨old, below, next⟩
  · have hnames : chain.texts ≤ store.forest.texts + store.leaked := by
      rw [hT]
      exact Multiset.le_add_right _ _
    exact (replaceItemInObject_none string hdrop (some label.addr)
      (hapart.length_le.trans hfuel) hapart.cells hnames).bind
      (Does.pure Value.none)
  · have hchain := chain.take_append_drop (chain.index string)
    rw [hdrop] at hchain
    refine ((replaceItemInObject_does string hchain.symm hdrop
      (hapart.size.trans hfuel) (hapart.length_le.trans_lt hcounted)
      hapart.cells hT).bind (Does.pure Value.none)).congr
      (hholds.putCells _).symm ?_
    dsimp only
    rw [hholds.putTexts, Chain.texts_append, Chain.texts]
    abel

/-! ### Duplicating -/

theorem duplicate_agrees {item : ℕ} (recurse : Bool)
    (hfind : (store.forest.find item).isSome) :
    (Call.duplicate (some item) recurse).Agrees unit alloc fuel store := by
  obtain ⟨label, child, np, pp, R, U, rfl, hholds⟩ := Chain.exists_holds hfind
  have hsize := hholds.size
  have hcells : label.holding np pp child ≤ store.forest.rootCells := by
    rw [hholds.cells]
    exact Multiset.le_add_right _ _
  have htexts : label.texts + child.texts ≤
      store.forest.texts + store.leaked := by
    have hsum : store.forest.texts + store.leaked =
        label.texts + child.texts + (U + store.leaked) := by
      rw [hholds.texts]
      abel
    rw [hsum]
    exact Multiset.le_add_right _ _
  simp only [Call.Agrees, Call.onStore, hholds.find]
  cases recurse with
  | true =>
      have hlength : (copyItem alloc store.counts label child).1.length ≤ 1 := by
        unfold copyItem
        rcases copyLabel alloc store.counts label with ⟨_ | copy, k⟩
        · exact Nat.zero_le 1
        · rcases hrow : (copyRow alloc k child).1 with _ | row <;>
            simp [hrow, Label.hang, Chain.length]
      exact Does.newRoot hlength (duplicate_does fuel label child np pp
        store.counts store.forest.rootCells
        (store.forest.texts + store.leaked) hcells htexts (by omega))
  | false =>
      obtain ⟨rounds, rfl⟩ : ∃ rounds, fuel = rounds + 1 :=
        ⟨fuel - 1, by omega⟩
      have hlength : (soleItem (copyLabel alloc store.counts label).1).length
          ≤ 1 := by
        rcases (copyLabel alloc store.counts label).1 with _ | copy <;>
          simp [soleItem, Label.hang, Chain.length]
      exact Does.newRoot hlength (duplicate_alone hcells
        ((Multiset.le_add_right _ _).trans htexts))

/-- Every call does what it means. -/
theorem call_agrees (hcounted : store.forest.size < 2 ^ 31) (call : Call δ)
    (hallowed : call.allowed store = true) :
    call.Agrees unit alloc fuel store := by
  cases call with
  | create kind => exact create_agrees kind
  | createString string => exact createString_agrees string
  | getArraySize array => exact getArraySize_agrees hfuel hcounted hallowed
  | getArrayItem array item => exact getArrayItem_agrees hfuel item hallowed
  | getObjectItem object string =>
      exact getObjectItem_agrees hfuel string hallowed
  | addItemToArray array item =>
      cases item with
      | none => exact addItemToArray_none_agrees hallowed
      | some item => exact addItemToArray_agrees hfuel hallowed
  | addItemToObject object string item =>
      cases item with
      | none => exact (Does.pure ()).bind (Does.pure Value.none)
      | some item => exact addItemToObject_agrees hfuel string hallowed
  | detachItemFromArray array which =>
      exact detachItemFromArray_agrees hfuel which hallowed
  | detachItemFromObject object string =>
      exact detachItemFromObject_agrees hfuel hcounted string hallowed
  | deleteItemFromArray array which =>
      exact deleteItemFromArray_agrees hfuel which hallowed
  | deleteItemFromObject object string =>
      exact deleteItemFromObject_agrees hfuel hcounted string hallowed
  | replaceItemInArray array which newitem =>
      exact replaceItemInArray_agrees hfuel which hallowed
  | replaceItemInObject object string newitem =>
      exact replaceItemInObject_agrees hfuel hcounted string hallowed
  | duplicate item recurse =>
      cases item with
      | none =>
          have hnone : duplicate unit alloc fuel none recurse = pure none := by
            cases fuel <;> rfl
          simp only [Call.Agrees, Call.code, hnone]
          exact (Does.pure none).returns Value.ptr
      | some item => exact duplicate_agrees hfuel recurse hallowed
  | delete c =>
      cases c with
      | none =>
          have hnone : CJsonTree.delete (δ := δ) fuel none = pure () := by
            cases fuel <;> rfl
          simp only [Call.Agrees, Call.code, hnone]
          exact (Does.pure ()).bind (Does.pure Value.none)
      | some c => exact delete_agrees hfuel hallowed

end Agreement

/-! ## Runs -/

/-- A call has as many rounds as there are addresses of items. -/
def Call.run (unit : DoubleUnit δ) (alloc : ℕ → Bool) (call : Call δ) :
    Code δ Value := fun memory =>
  call.code unit alloc memory.cells.length memory

def runCalls (unit : DoubleUnit δ) (alloc : ℕ → Bool) :
    List (Call δ) → Code δ (List Value)
  | [] => return []
  | call :: calls => do
      let value ← call.run unit alloc
      let values ← runCalls unit alloc calls
      return value :: values

def Store.runCalls (unit : DoubleUnit δ) (alloc : ℕ → Bool) :
    List (Call δ) → Store δ → List Value × Store δ
  | [], store => ([], store)
  | call :: calls, store =>
      let (value, next) := call.onStore unit alloc store
      let (values, last) := Store.runCalls unit alloc calls next
      (value :: values, last)

/-- Each call is allowed in the store that it finds, and finds fewer than
`2 ^ 31` items. -/
def allowedRun (unit : DoubleUnit δ) (alloc : ℕ → Bool) :
    List (Call δ) → Store δ → Bool
  | [], _ => true
  | call :: calls, store => decide (store.forest.size < 2 ^ 31) &&
      (call.allowed store &&
        allowedRun unit alloc calls (call.onStore unit alloc store).2)

theorem run_agrees {store : Store δ} {call : Call δ}
    (hcounted : store.forest.size < 2 ^ 31)
    (hallowed : call.allowed store = true) :
    Does (call.run unit alloc) store.blocks (call.onStore unit alloc store).1
      (call.onStore unit alloc store).2.blocks := by
  apply Does.of_run
  intro memory hlaid
  have hfuel : store.forest.size ≤ memory.cells.length := by
    rw [← Chain.card_rootCells]
    exact hlaid.cells.card_le
  exact (call_agrees hfuel hcounted call hallowed).run hlaid

theorem runCalls_does {store : Store δ} {calls : List (Call δ)}
    (hallowed : allowedRun unit alloc calls store = true) :
    Does (runCalls unit alloc calls) store.blocks
      (store.runCalls unit alloc calls).1
      (store.runCalls unit alloc calls).2.blocks := by
  induction calls generalizing store with
  | nil => exact Does.pure []
  | cons call calls ih =>
      obtain ⟨hcounted, hboth⟩ := (Bool.and_eq_true _ _).mp hallowed
      obtain ⟨hcall, hcalls⟩ := (Bool.and_eq_true _ _).mp hboth
      exact (run_agrees (of_decide_eq_true hcounted) hcall).bind
        ((ih hcalls).bind (Does.pure _))

theorem laid_empty : Laid (⟨[], []⟩ : Memory δ) Store.empty.blocks where
  cellCount := rfl
  textCount := rfl
  cells := Owns.nil
  texts := Owns.nil

def sampleCalls : List (Call ℚ) :=
  [.create .array, .createString (literal "a"), .addItemToArray 0 (some 1),
    .duplicate (some 0) true, .create .object, .detachItemFromArray 0 0,
    .addItemToObject 4 (literal "k") (some 1), .getObjectItem 4 (literal "K"),
    .delete (some 4)]

end CJsonTree

end ClpszDemos
