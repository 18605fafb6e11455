import ClpszDemos.LinkedRing

/-!
# The list of the Linux kernel

`list.h` links its entries in rings through their heads.  Heads and entries are
the same `struct list_head`; all of them lie in one memory, with the pointer as
the address.  An access through a null pointer is a fault, and the loops get a
number of rounds that they may take.
-/

namespace ClpszDemos

namespace KernelList

inductive Fault
  | null
  | fuel
  deriving DecidableEq, Repr

abbrev Code (ρ α : Type) : Type := StateT (Links ρ) (Except Fault) α

variable {ρ α : Type} [DecidableEq ρ]

/-! ## Accesses -/

/-- `ptr->next` -/
def readNext : Option ρ → Code ρ (Option ρ)
  | none => throw .null
  | some a => do
      let links ← get
      return links.next a

/-- `ptr->prev` -/
def readPrev : Option ρ → Code ρ (Option ρ)
  | none => throw .null
  | some a => do
      let links ← get
      return links.pre a

/-- `ptr->next = value` -/
def setNext (ptr value : Option ρ) : Code ρ Unit :=
  match ptr with
  | none => throw .null
  | some a => modify fun links =>
      { links with next := Function.update links.next a value }

/-- `ptr->prev = value` -/
def setPrev (ptr value : Option ρ) : Code ρ Unit :=
  match ptr with
  | none => throw .null
  | some a => modify fun links =>
      { links with pre := Function.update links.pre a value }

/-! ## The functions -/

/-- `INIT_LIST_HEAD` -/
def initListHead (ptr : Option ρ) : Code ρ Unit := do
  setNext ptr ptr
  setPrev ptr ptr

/-- `__list_add` -/
def listAddBetween (new prev next : Option ρ) : Code ρ Unit := do
  setPrev next new
  setNext new next
  setPrev new prev
  setNext prev new

def listAdd (new head : Option ρ) : Code ρ Unit := do
  let next ← readNext head
  listAddBetween new head next

def listAddTail (new head : Option ρ) : Code ρ Unit := do
  let prev ← readPrev head
  listAddBetween new prev head

/-- `__list_del` -/
def listDelBetween (prev next : Option ρ) : Code ρ Unit := do
  setPrev next prev
  setNext prev next

/-- The arguments are read before the call. -/
def listDelEntry (entry : Option ρ) : Code ρ Unit := do
  let prev ← readPrev entry
  let next ← readNext entry
  listDelBetween prev next

def listDel (entry : Option ρ) : Code ρ Unit := do
  listDelEntry entry
  setNext entry none
  setPrev entry none

def listDelInit (entry : Option ρ) : Code ρ Unit := do
  listDelEntry entry
  initListHead entry

def listMove (list head : Option ρ) : Code ρ Unit := do
  listDelEntry list
  listAdd list head

def listMoveTail (list head : Option ρ) : Code ρ Unit := do
  listDelEntry list
  listAddTail list head

def listEmpty (head : Option ρ) : Code ρ Bool := do
  let next ← readNext head
  return next = head

/-- `__list_splice` -/
def listSpliceBetween (list head : Option ρ) : Code ρ Unit := do
  let first ← readNext list
  let last ← readPrev list
  let behind ← readNext head
  setPrev first head
  setNext head first
  setNext last behind
  setPrev behind last

def listSplice (list head : Option ρ) : Code ρ Unit := do
  if !(← listEmpty list) then
    listSpliceBetween list head

def listSpliceInit (list head : Option ρ) : Code ρ Unit := do
  if !(← listEmpty list) then
    listSpliceBetween list head
    initListHead list

/-! ## The loops -/

section Loops

variable (body : Option ρ → Code ρ Unit) (head : Option ρ)

/-- The rounds of a loop from `pos` on, and the positions that the body is run
at -/
def forEachFrom (step : Option ρ → Code ρ (Option ρ)) :
    ℕ → Option ρ → Code ρ (List (Option ρ))
  | 0, _ => throw .fuel
  | fuel + 1, pos => do
      if pos = head then return []
      else
        body pos
        let next ← step pos
        let rest ← forEachFrom step fuel next
        return pos :: rest

def listForEach (fuel : ℕ) : Code ρ (List (Option ρ)) := do
  let pos ← readNext head
  forEachFrom body head readNext fuel pos

def listForEachPrev (fuel : ℕ) : Code ρ (List (Option ρ)) := do
  let pos ← readPrev head
  forEachFrom body head readPrev fuel pos

def forEachSafeFrom : ℕ → Option ρ → Option ρ → Code ρ (List (Option ρ))
  | 0, _, _ => throw .fuel
  | fuel + 1, pos, n => do
      if pos = head then return []
      else
        body pos
        let next ← readNext n
        let rest ← forEachSafeFrom fuel n next
        return pos :: rest

def listForEachSafe (fuel : ℕ) : Code ρ (List (Option ρ)) := do
  let pos ← readNext head
  let n ← readNext pos
  forEachSafeFrom body head fuel pos n

end Loops

end KernelList

end ClpszDemos
