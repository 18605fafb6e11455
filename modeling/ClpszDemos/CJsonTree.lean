import ClpszDemos.CJsonItems
import ClpszDemos.OwnedBlocks

/-!
# Trees of cJSON in memory

An item points to its neighbours, to its first child and to its texts, each a
block of its own.  An access through a null pointer, or to a block that was
freed, is a fault, and so is freeing it again.  The recursions and the loops get
a number of rounds; whether an allocation succeeds is up to the environment.
A position that is passed is in `ℤ`, since it only counts down; an `int` that
counts items wraps.
-/

namespace ClpszDemos

namespace CJsonTree

open CJson

inductive Fault
  | pointer
  | fuel
  deriving DecidableEq, Repr

abbrev Ptr : Type := Option ℕ

/-- `struct cJSON` -/
structure Cell (δ : Type) where
  next : Ptr
  prev : Ptr
  child : Ptr
  type : BitVec 32
  valuestring : Ptr
  valueint : BitVec 32
  valuedouble : δ
  string : Ptr
  deriving DecidableEq

structure Memory (δ : Type) where
  cells : List (Option (Cell δ))
  texts : List (Option CString)

abbrev Code (δ α : Type) : Type := StateT (Memory δ) (Except Fault) α

variable {δ : Type}

/-- `if (condition) code;` -/
def onlyIf (condition : Bool) (code : Code δ Unit) : Code δ Unit :=
  if condition then code else pure ()

/-! ## Accesses -/

def readCell : Ptr → Code δ (Cell δ)
  | none => throw .pointer
  | some c => fun memory =>
      match memory.cells[c]? with
      | some (some cell) => .ok (cell, memory)
      | _ => .error .pointer

def writeCell (change : Cell δ → Cell δ) : Ptr → Code δ Unit
  | none => throw .pointer
  | some c => fun memory =>
      match memory.cells[c]? with
      | some (some cell) =>
          .ok ((), { memory with
            cells := memory.cells.set c (some (change cell)) })
      | _ => .error .pointer

def setNext (ptr value : Ptr) : Code δ Unit :=
  writeCell (fun cell => { cell with next := value }) ptr

def setPrev (ptr value : Ptr) : Code δ Unit :=
  writeCell (fun cell => { cell with prev := value }) ptr

def setChild (ptr value : Ptr) : Code δ Unit :=
  writeCell (fun cell => { cell with child := value }) ptr

def setString (ptr value : Ptr) : Code δ Unit :=
  writeCell (fun cell => { cell with string := value }) ptr

def readText : Ptr → Code δ CString
  | none => throw .pointer
  | some s => fun memory =>
      match memory.texts[s]? with
      | some (some text) => .ok (text, memory)
      | _ => .error .pointer

/-- `cJSON_free` of an item -/
def freeCell (c : ℕ) : Code δ Unit := fun memory =>
  match memory.cells[c]? with
  | some (some _) =>
      .ok ((), { memory with cells := memory.cells.set c none })
  | _ => .error .pointer

/-- `if (s) cJSON_free(s);` -/
def freeText : Ptr → Code δ Unit
  | none => pure ()
  | some s => fun memory =>
      match memory.texts[s]? with
      | some (some _) =>
          .ok ((), { memory with texts := memory.texts.set s none })
      | _ => .error .pointer

/-! ## Allocation -/

/-- The number of allocations so far -/
def Memory.allocations (memory : Memory δ) : ℕ :=
  memory.cells.length + memory.texts.length

/-- `cJSON_malloc` of an item -/
def mallocCell (alloc : ℕ → Bool) (cell : Cell δ) : Code δ Ptr := fun memory =>
  if alloc memory.allocations then
    .ok (some memory.cells.length,
      { memory with cells := memory.cells ++ [some cell] })
  else .ok (none, { memory with cells := memory.cells ++ [none] })

/-- `cJSON_strdup` -/
def strdup (alloc : ℕ → Bool) (str : CString) : Code δ Ptr := fun memory =>
  if alloc memory.allocations then
    .ok (some memory.texts.length,
      { memory with texts := memory.texts ++ [some str] })
  else .ok (none, { memory with texts := memory.texts ++ [none] })

/-- All bytes are zero. -/
def zeroCell (unit : DoubleUnit δ) : Cell δ where
  next := none
  prev := none
  child := none
  type := 0
  valuestring := none
  valueint := 0
  valuedouble := unit.ofInt 0
  string := none

def newItem (unit : DoubleUnit δ) (alloc : ℕ → Bool) : Code δ Ptr :=
  mallocCell alloc (zeroCell unit)

abbrev isReferenceBit : BitVec 32 := 256

def isReference (type : BitVec 32) : Bool := type &&& isReferenceBit != 0

/-! ## Deleting -/

def delete : ℕ → Ptr → Code δ Unit
  | _, none => pure ()
  | 0, some _ => throw .fuel
  | fuel + 1, some c => do
      let next := (← readCell (some c)).next
      let cell ← readCell (some c)
      onlyIf (!isReference cell.type) (delete fuel cell.child)
      let cell ← readCell (some c)
      onlyIf (!isReference cell.type) (freeText cell.valuestring)
      let cell ← readCell (some c)
      freeText cell.string
      freeCell c
      delete fuel next

/-! ## Names -/

/-- `tolower` in the C locale -/
def tolower (c : UInt8) : UInt8 :=
  if byte 'A' ≤ c ∧ c ≤ byte 'Z' then c + 32 else c

/-- The loop of `cJSON_strcasecmp` -/
def compareLoop : CString → CString → ℤ
  | [], s2 =>
      if tolower 0 = tolower (CString.deref s2) then 0
      else (tolower 0).toNat - (tolower (CString.deref s2)).toNat
  | c :: s1, s2 =>
      if tolower c = tolower (CString.deref s2) then
        if c = 0 then 0 else compareLoop s1 (s2.drop 1)
      else (tolower c).toNat - (tolower (CString.deref s2)).toNat

def strcasecmp (s1 : Option CString) (s2 : CString) : ℤ :=
  match s1 with
  | none => 1
  | some s1 => compareLoop s1 s2

/-- `cJSON_strcasecmp(c->string, string)` -/
def compareName (cell : Cell δ) (string : CString) : Code δ ℤ :=
  match cell.string with
  | none => pure (strcasecmp none string)
  | some s => do
      let name ← readText (some s)
      return strcasecmp (some name) string

/-! ## Arrays and objects -/

/-- `while (c) i++, c = c->next;` -/
def countLoop : ℕ → Ptr → BitVec 32 → Code δ (BitVec 32)
  | _, none, i => pure i
  | 0, some _, _ => throw .fuel
  | fuel + 1, some c, i => do
      let cell ← readCell (some c)
      countLoop fuel cell.next (i + 1)

def getArraySize (fuel : ℕ) (array : Ptr) : Code δ ℤ := do
  let c := (← readCell array).child
  let i ← countLoop fuel c 0
  return i.toInt

/-- `while (c && which > 0) c = c->next, which--;` -/
def walkLoop : ℕ → Ptr → ℤ → Code δ Ptr
  | _, none, _ => pure none
  | 0, some c, which => if which > 0 then throw .fuel else pure (some c)
  | fuel + 1, some c, which =>
      if which > 0 then do
        let cell ← readCell (some c)
        walkLoop fuel cell.next (which - 1)
      else pure (some c)

def getArrayItem (fuel : ℕ) (array : Ptr) (item : ℤ) : Code δ Ptr := do
  let c := (← readCell array).child
  walkLoop fuel c item

/-- `while (c && cJSON_strcasecmp(c->string, string)) i++, c = c->next;` -/
def findLoop (string : CString) :
    ℕ → Ptr → BitVec 32 → Code δ (BitVec 32 × Ptr)
  | _, none, i => pure (i, none)
  | 0, some _, _ => throw .fuel
  | fuel + 1, some c, i => do
      let cell ← readCell (some c)
      let order ← compareName cell string
      if order ≠ 0 then findLoop string fuel cell.next (i + 1)
      else return (i, some c)

def getObjectItem (fuel : ℕ) (object : Ptr) (string : CString) : Code δ Ptr := do
  let c := (← readCell object).child
  let (_, c) ← findLoop string fuel c 0
  return c

def suffixObject (prev item : Ptr) : Code δ Unit := do
  setNext prev item
  setPrev item prev

/-- `while (c && c->next) c = c->next;` -/
def lastLoop : ℕ → Ptr → Code δ Ptr
  | _, none => pure none
  | 0, some _ => throw .fuel
  | fuel + 1, some c => do
      let cell ← readCell (some c)
      match cell.next with
      | none => return some c
      | some next => lastLoop fuel (some next)

def addItemToArray (fuel : ℕ) (array item : Ptr) : Code δ Unit := do
  let c := (← readCell array).child
  match item, c with
  | none, _ => return ()
  | some _, none => setChild array item
  | some _, some _ => do
      let c ← lastLoop fuel c
      suffixObject c item

def addItemToObject (alloc : ℕ → Bool) (fuel : ℕ) (object : Ptr)
    (string : CString) (item : Ptr) : Code δ Unit :=
  match item with
  | none => return ()
  | some _ => do
      freeText (← readCell item).string
      setString item (← strdup alloc string)
      addItemToArray fuel object item

def detachItemFromArray (fuel : ℕ) (array : Ptr) (which : ℤ) : Code δ Ptr := do
  let c ← walkLoop fuel (← readCell array).child which
  match c with
  | none => return none
  | some _ => do
      let cell ← readCell c
      onlyIf cell.prev.isSome (setNext cell.prev cell.next)
      let cell ← readCell c
      onlyIf cell.next.isSome (setPrev cell.next cell.prev)
      let first := (← readCell array).child
      onlyIf (c = first) do setChild array (← readCell c).next
      setNext c none
      setPrev c none
      return c

def deleteItemFromArray (fuel : ℕ) (array : Ptr) (which : ℤ) : Code δ Unit := do
  delete fuel (← detachItemFromArray fuel array which)

def detachItemFromObject (fuel : ℕ) (object : Ptr) (string : CString) :
    Code δ Ptr := do
  let (i, c) ← findLoop string fuel (← readCell object).child 0
  if c.isSome then detachItemFromArray fuel object i.toInt else return none

def deleteItemFromObject (fuel : ℕ) (object : Ptr) (string : CString) :
    Code δ Unit := do
  delete fuel (← detachItemFromObject fuel object string)

def replaceItemInArray (fuel : ℕ) (array : Ptr) (which : ℤ) (newitem : Ptr) :
    Code δ Unit := do
  let c ← walkLoop fuel (← readCell array).child which
  match c with
  | none => return ()
  | some _ => do
      setNext newitem (← readCell c).next
      setPrev newitem (← readCell c).prev
      let new ← readCell newitem
      onlyIf new.next.isSome (setPrev new.next newitem)
      let first := (← readCell array).child
      (if c = first then setChild array newitem
        else do setNext (← readCell newitem).prev newitem)
      setNext c none
      setPrev c none
      delete fuel c

/-- The old name of the new item is not freed. -/
def replaceItemInObject (alloc : ℕ → Bool) (fuel : ℕ) (object : Ptr)
    (string : CString) (newitem : Ptr) : Code δ Unit := do
  let (i, c) ← findLoop string fuel (← readCell object).child 0
  if c.isSome then do
    setString newitem (← strdup alloc string)
    replaceItemInArray fuel object i.toInt newitem
  else return ()

/-! ## Creating -/

/-- The functions that create an item set some of its fields. -/
def create (unit : DoubleUnit δ) (alloc : ℕ → Bool) (change : Cell δ → Cell δ) :
    Code δ Ptr := do
  let item ← newItem unit alloc
  match item with
  | none => return none
  | some _ => do
      writeCell change item
      return item

section Create

variable (unit : DoubleUnit δ) (alloc : ℕ → Bool)

def createNull : Code δ Ptr :=
  create unit alloc fun item => { item with type := typeNull }

def createTrue : Code δ Ptr :=
  create unit alloc fun item => { item with type := typeTrue }

def createFalse : Code δ Ptr :=
  create unit alloc fun item => { item with type := typeFalse }

def createBool (b : Bool) : Code δ Ptr :=
  create unit alloc fun item =>
    { item with type := if b then typeTrue else typeFalse }

def createNumber (num : δ) : Code δ Ptr :=
  create unit alloc fun item => { item with
    type := typeNumber, valuedouble := num, valueint := unit.toInt num }

def createString (string : CString) : Code δ Ptr := do
  let item ← create unit alloc fun item => { item with type := typeString }
  match item with
  | none => return none
  | some _ => do
      let copy ← strdup alloc string
      writeCell (fun cell => { cell with valuestring := copy }) item
      return item

def createArray : Code δ Ptr :=
  create unit alloc fun item => { item with type := typeArray }

def createObject : Code δ Ptr :=
  create unit alloc fun item => { item with type := typeObject }

end Create

/-! ## Duplication -/

/-- The copy of a child is behind the one before it, or the first. -/
def linkChild (newitem nptr newchild : Ptr) : Code δ Unit :=
  match nptr with
  | some _ => do
      setNext nptr newchild
      setPrev newchild nptr
  | none => setChild newitem newchild

/-- The loop over the children of an item, which duplicates each. -/
def duplicateLoop (dup : Ptr → Code δ Ptr) (drop : Code δ Unit) (newitem : Ptr) :
    ℕ → Ptr → Ptr → Code δ Ptr
  | _, _, none => return newitem
  | 0, _, some _ => throw .fuel
  | fuel + 1, nptr, some cptr => do
      let newchild ← dup (some cptr)
      match newchild with
      | none => do
          drop
          return none
      | some _ => do
          linkChild newitem nptr newchild
          let cell ← readCell (some cptr)
          duplicateLoop dup drop newitem fuel newchild cell.next

/-- The copy of a text, if there is one; `none` when it could not be made. -/
def duplicateText (alloc : ℕ → Bool) : Ptr → Code δ (Option Ptr)
  | none => return some none
  | some s => do
      let copy ← strdup alloc (← readText (some s))
      match copy with
      | none => return none
      | some s => return some (some s)

/-- `cJSON_Duplicate` before it comes to the children -/
def duplicateItem (unit : DoubleUnit δ) (alloc : ℕ → Bool) (fuel : ℕ)
    (item : Ptr) : Code δ Ptr := do
  let newitem ← newItem unit alloc
  match newitem with
  | none => return none
  | some _ => do
      let old ← readCell item
      writeCell (fun cell => { cell with
        type := old.type &&& ~~~isReferenceBit
        valueint := old.valueint
        valuedouble := old.valuedouble }) newitem
      match ← duplicateText alloc old.valuestring with
      | none => do
          delete fuel newitem
          return none
      | some valuestring => do
          writeCell (fun cell => { cell with valuestring := valuestring })
            newitem
          match ← duplicateText alloc old.string with
          | none => do
              delete fuel newitem
              return none
          | some string => do
              setString newitem string
              return newitem

def duplicate (unit : DoubleUnit δ) (alloc : ℕ → Bool) :
    ℕ → Ptr → Bool → Code δ Ptr
  | _, none, _ => return none
  | 0, some _, _ => throw .fuel
  | fuel + 1, some item, recurse => do
      let newitem ← duplicateItem unit alloc (fuel + 1) (some item)
      match newitem with
      | none => return none
      | some _ =>
          if !recurse then return newitem
          else do
            let cptr := (← readCell (some item)).child
            duplicateLoop (fun cptr => duplicate unit alloc fuel cptr true)
              (delete (fuel + 1) newitem) newitem (fuel + 1) none cptr

end CJsonTree

end ClpszDemos
