import Mathlib.Tactic
import ClpszDemos.ProgramLogic
import ClpszDemos.LinkedRing

/-!
# `DoubleLink`

The class keeps its nodes in a ring through a sentinel, which the constructor
makes.  Nodes are PHP objects, which live in a heap and are known by handles;
a property that is not set is null.  How PHP compares two keys and two nodes
is a parameter here, and so is the number of iterations that a loop may take.
-/

namespace ClpszDemos
namespace DoubleLink

/-! ## Objects -/

/-- The handle of an object -/
abbrev Handle := ℕ

structure DoubleLinkNode (K V : Type) where
  key : Option K
  value : Option V
  next : Option Handle
  pre : Option Handle

/-- The nodes that exist are those below `size`. -/
structure Heap (K V : Type) where
  size : ℕ
  node : Handle → DoubleLinkNode K V

/-- How a call ends early; `outOfFuel` stands for a loop that has not ended
yet. -/
inductive Stop
  | nullProperty
  | nestingLevel
  | outOfFuel
  deriving DecidableEq

abbrev Php (K V : Type) : Type → Type :=
  StateT (Heap K V) (Except Stop)

section Class

variable {K V α : Type}

namespace Heap

def set (heap : Heap K V) (r : Handle) (node : DoubleLinkNode K V) :
    Heap K V :=
  { heap with node := Function.update heap.node r node }

/-- A heap with one more object, all of whose properties are null -/
def alloc (heap : Heap K V) : Heap K V :=
  { size := heap.size + 1
    node := Function.update heap.node heap.size ⟨none, none, none, none⟩ }

end Heap

/-- `new DoubleLinkNode()` -/
def newNode : Php K V Handle := do
  let heap ← get
  set heap.alloc
  return heap.size

/-- `$it->property`: of null it is null, with a warning. -/
def readProperty (it : Option Handle)
    (property : DoubleLinkNode K V → Option α) : Php K V (Option α) := do
  let heap ← get
  return it.bind fun r => property (heap.node r)

/-- `$it->property = ...` -/
def assign (it : Option Handle)
    (change : DoubleLinkNode K V → DoubleLinkNode K V) : Php K V Unit :=
  match it with
  | none => throw .nullProperty
  | some r => modify fun heap => heap.set r (change (heap.node r))

def setKey (it : Option Handle) (key : K) : Php K V Unit :=
  assign it fun node => { node with key := some key }

def setValue (it : Option Handle) (value : V) : Php K V Unit :=
  assign it fun node => { node with value := some value }

def setNext (it next : Option Handle) : Php K V Unit :=
  assign it fun node => { node with next := next }

def setPre (it pre : Option Handle) : Php K V Unit :=
  assign it fun node => { node with pre := pre }

/-! ## The methods -/

/-- The constructor, which gives the sentinel `$this->head` -/
def construct : Php K V Handle := do
  let head ← newNode
  setNext (some head) (some head)
  setPre (some head) (some head)
  return head

/-- `__add` -/
def addBetween (newNode pre next : Option Handle) : Php K V Unit := do
  setNext pre newNode
  setPre newNode pre
  setNext newNode next
  setPre next newNode

/-- `__delete` -/
def deleteBetween (pre next : Option Handle) : Php K V Unit := do
  setNext pre next
  setPre next pre

/-- A node with a key and a value that is linked to itself, as `add` and
`add_tail` make it -/
def newData (key : K) (value : V) : Php K V Handle := do
  let node ← newNode
  setKey (some node) key
  setValue (some node) value
  setNext (some node) (some node)
  setPre (some node) (some node)
  return node

def add (head : Handle) (key : K) (value : V) : Php K V Unit := do
  let node ← newData key value
  let next ← readProperty (some head) fun node => node.next
  addBetween (some node) (some head) next

def addTail (head : Handle) (key : K) (value : V) : Php K V Unit := do
  let node ← newData key value
  let pre ← readProperty (some head) fun node => node.pre
  addBetween (some node) pre (some head)

/-- What `$it->key == $key` and `$it != $this->head` give -/
structure Comparison (K V : Type) where
  keysEqual : Option K → K → Bool
  differs : Heap K V → Option Handle → Option Handle → Except Stop Bool

variable (cmp : Comparison K V)

/-- `while ($it != $this->head) { ... $it = $it->next; }`, where the body
either goes on with a value or returns one -/
def whileLoop (head : Handle)
    (body : Option Handle → α → Php K V (ForInStep α)) :
    ℕ → Option Handle → α → Php K V α
  | 0, _, _ => throw .outOfFuel
  | fuel + 1, it, a => do
      let heap ← get
      let differs ← cmp.differs heap it (some head)
      if differs then
        match ← body it a with
        | .done b => return b
        | .yield b =>
            let next ← readProperty it fun node => node.next
            whileLoop head body fuel next b
      else
        return a

/-- The loop from the first node on -/
def traverse (head : Handle)
    (body : Option Handle → α → Php K V (ForInStep α)) (fuel : ℕ) (a : α) :
    Php K V α := do
  let it ← readProperty (some head) fun node => node.next
  whileLoop cmp head body fuel it a

def deleteBody (key : K) (it : Option Handle) (deleted : ℕ) :
    Php K V (ForInStep ℕ) := do
  let itKey ← readProperty it fun node => node.key
  if cmp.keysEqual itKey key then
    let pre ← readProperty it fun node => node.pre
    let next ← readProperty it fun node => node.next
    deleteBetween pre next
    return .yield (deleted + 1)
  else
    return .yield deleted

def delete (fuel : ℕ) (head : Handle) (key : K) : Php K V ℕ :=
  traverse cmp head (deleteBody cmp key) fuel 0

def queryBody (key : K) (it : Option Handle) (result : Option V) :
    Php K V (ForInStep (Option V)) := do
  let itKey ← readProperty it fun node => node.key
  if cmp.keysEqual itKey key then
    let value ← readProperty it fun node => node.value
    return .done value
  else
    return .yield result

/-- The value of the first node that matches, or null -/
def query (fuel : ℕ) (head : Handle) (key : K) : Php K V (Option V) :=
  traverse cmp head (queryBody cmp key) fuel none

def updateBody (key : K) (newVal : V) (it : Option Handle) (updated : ℕ) :
    Php K V (ForInStep ℕ) := do
  let itKey ← readProperty it fun node => node.key
  if cmp.keysEqual itKey key then
    setValue it newVal
    return .yield (updated + 1)
  else
    return .yield updated

def update (fuel : ℕ) (head : Handle) (key : K) (newVal : V) : Php K V ℕ :=
  traverse cmp head (updateBody cmp key newVal) fuel 0

def showBody (it : Option Handle) (lines : List (Option K × Option V)) :
    Php K V (ForInStep (List (Option K × Option V))) := do
  let key ← readProperty it fun node => node.key
  let value ← readProperty it fun node => node.value
  return .yield (lines ++ [(key, value)])

/-- `show`, which prints a line for each key and value -/
def showLines (fuel : ℕ) (head : Handle) :
    Php K V (List (Option K × Option V)) :=
  traverse cmp head showBody fuel []

/-! ## Calls -/

inductive Call (K V : Type)
  | add (key : K) (value : V)
  | addTail (key : K) (value : V)
  | delete (key : K)
  | update (key : K) (newVal : V)
  | query (key : K)
  | showLines
  deriving DecidableEq

/-- What a call returns or prints -/
inductive Reply (K V : Type)
  | nothing
  | count (n : ℕ)
  | value (value : Option V)
  | lines (lines : List (Option K × Option V))
  deriving DecidableEq

def Call.run (fuel : ℕ) (head : Handle) : Call K V → Php K V (Reply K V)
  | .add key value => do
      DoubleLink.add head key value
      return .nothing
  | .addTail key value => do
      DoubleLink.addTail head key value
      return .nothing
  | .delete key => do
      let deleted ← DoubleLink.delete cmp fuel head key
      return .count deleted
  | .update key newVal => do
      let updated ← DoubleLink.update cmp fuel head key newVal
      return .count updated
  | .query key => do
      let value ← DoubleLink.query cmp fuel head key
      return .value value
  | .showLines => do
      let lines ← DoubleLink.showLines cmp fuel head
      return .lines lines

def runCalls (fuel : ℕ) (head : Handle) :
    List (Call K V) → Php K V (List (Reply K V))
  | [] => return []
  | call :: rest => do
      let reply ← call.run cmp fuel head
      let replies ← runCalls fuel head rest
      return reply :: replies

/-- A new `DoubleLink` and some calls of its methods -/
def program (fuel : ℕ) (calls : List (Call K V)) :
    Php K V (Handle × List (Reply K V)) := do
  let head ← construct
  let replies ← runCalls cmp fuel head calls
  return (head, replies)

end Class

/-! ## The list that a `DoubleLink` stands for -/

section ListModel

variable {K V : Type} (keysEqual : Option K → K → Bool)

/-- The item's key is equal to the key. -/
def selects (key : K) (item : K × V) : Bool :=
  keysEqual (some item.1) key

/-- A call on a plain list -/
def Call.onList : Call K V → List (K × V) → Reply K V × List (K × V)
  | .add key value, items => (.nothing, (key, value) :: items)
  | .addTail key value, items => (.nothing, items ++ [(key, value)])
  | .delete key, items =>
      (.count (items.countP (selects keysEqual key)),
        items.filter fun item => !selects keysEqual key item)
  | .update key newVal, items =>
      (.count (items.countP (selects keysEqual key)),
        items.map fun item =>
          if selects keysEqual key item then (item.1, newVal) else item)
  | .query key, items =>
      (.value ((items.find? (selects keysEqual key)).map Prod.snd), items)
  | .showLines, items =>
      (.lines (items.map fun item => (some item.1, some item.2)), items)

def callsOnList :
    List (Call K V) → List (K × V) → List (Reply K V) × List (K × V)
  | [], items => ([], items)
  | call :: rest, items =>
      let result := call.onList keysEqual items
      let others := callsOnList rest result.2
      (result.1 :: others.1, others.2)

end ListModel

end DoubleLink
end ClpszDemos
