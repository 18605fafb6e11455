import ClpszDemos.CJsonItems

/-!
# The printer of cJSON

Every text is put together in a buffer whose size was computed before, from the
sizes of the parts, as an `int`, which wraps.  The buffers are allocated with
success, whatever their size; a write behind the end of one is a trap.  No text
stands for the null pointer that `print_value` returns for a type that it does
not know.  `print_array` stops at such an entry; here the entries behind it are
printed all the same, and thrown away.
-/

namespace ClpszDemos

namespace CJson

open CString OutBuffer

variable {δ : Type} (unit : DoubleUnit δ)

/-! ## Numbers -/

/-- `%d` -/
def formatInt (n : BitVec 32) : CString :=
  let digits := (Nat.toDigits 10 n.toInt.natAbs).map byte
  if n.toInt < 0 then byte '-' :: digits else digits

/-- `sprintf` into a fresh buffer -/
def sprintfMalloc (size : ℕ) (text : CString) : Except Trap CString := do
  let out ← write text (malloc size)
  finish out

/-- `fabs(((double)item->valueint)-d)<=DBL_EPSILON && d<=INT_MAX && d>=INT_MIN` -/
def printsInt (item : Fields δ) : Bool :=
  let d := item.valuedouble
  unit.le (unit.fabs (unit.sub (unit.ofInt item.valueint.toInt) d)) unit.epsilon &&
    unit.le d (unit.ofInt (2 ^ 31 - 1)) && unit.le (unit.ofInt (-2 ^ 31)) d

def printNumber (item : Fields δ) : Except Trap CString :=
  let d := item.valuedouble
  if printsInt unit item then sprintfMalloc 21 (formatInt item.valueint)
  else if unit.le (unit.fabs (unit.sub (unit.floor d) d)) unit.epsilon &&
      unit.lt (unit.fabs d) (unit.ofInt (10 ^ 60)) then
    sprintfMalloc 64 (unit.sprintf .fixed0 d)
  else if unit.lt (unit.fabs d) unit.millionth ||
      unit.lt (unit.ofInt (10 ^ 9)) (unit.fabs d) then
    sprintfMalloc 64 (unit.sprintf .exponent d)
  else sprintfMalloc 64 (unit.sprintf .fixed d)

/-! ## Strings -/

/-- `strchr("\"\\\b\f\n\r\t",token)` -/
def hasShortEscape (token : UInt8) : Bool :=
  token ∈ [byte '"', byte '\\', byte '\x08', byte '\x0c', byte '\n', byte '\r',
    byte '\t']

/-- The loop that computes `len`; it ends when `++len` gives zero as well. -/
def printedLength (len : BitVec 32) : CString → BitVec 32
  | [] => len
  | token :: ptr =>
      if token = 0 then len
      else if len + 1 = 0 then len + 1
      else if hasShortEscape token then printedLength (len + 1 + 1) ptr
      else if token < 32 then printedLength (len + 1 + 5) ptr
      else printedLength (len + 1) ptr

def hexChar (d : UInt8) : UInt8 :=
  if d < 10 then byte '0' + d else byte 'a' + (d - 10)

/-- `%04x` of a byte -/
def format04x (token : UInt8) : CString :=
  [byte '0', byte '0', hexChar (token / 16), hexChar (token % 16)]

/-- The `switch (token=*ptr++)` -/
def writeEscape (token : UInt8) (out : OutBuffer) : Except Trap OutBuffer :=
  if token = byte '\\' then put (byte '\\') out
  else if token = byte '"' then put (byte '"') out
  else if token = byte '\x08' then put (byte 'b') out
  else if token = byte '\x0c' then put (byte 'f') out
  else if token = byte '\n' then put (byte 'n') out
  else if token = byte '\r' then put (byte 'r') out
  else if token = byte '\t' then put (byte 't') out
  else strcpy (byte 'u' :: format04x token) out

def writeString : CString → OutBuffer → Except Trap OutBuffer
  | [], out => .ok out
  | token :: ptr, out =>
      if token = 0 then .ok out
      else if 31 < token ∧ token ≠ byte '"' ∧ token ≠ byte '\\' then do
        let out ← put token out
        writeString ptr out
      else do
        let out ← put (byte '\\') out
        let out ← writeEscape token out
        writeString ptr out

/-- A null pointer is printed as nothing at all. -/
def printStringPtr : Option CString → Except Trap CString
  | none => .ok []
  | some str => do
      let len := printedLength 0 str
      let out ← put (byte '"') (malloc (sizeOfInt (len + 3)))
      let out ← writeString str out
      let out ← put (byte '"') out
      finish out

/-! ## Containers -/

/-- `for (j=0;j<depth;j++) *ptr++='\t';` -/
def tabs (depth : BitVec 32) : List UInt8 :=
  List.replicate depth.toInt.toNat (byte '\t')

/-- `for (i=0;i<numentries;i++)` of `print_array` -/
def writeEntries (fmt : Bool) : List CString → OutBuffer →
    Except Trap OutBuffer
  | [], out => .ok out
  | [entry], out => strcpy entry out
  | entry :: entries, out => do
      let out ← strcpy entry out
      let out ← put (byte ',') out
      let out ← onlyIf fmt (put (byte ' ')) out
      let out ← terminate out
      writeEntries fmt entries out

/-- `print_array`, from the texts of its entries on -/
def composeArray (fmt : Bool) (entries : List CString) : Except Trap CString :=
  if entries = [] then sprintfMalloc 3 (literal "[]")
  else do
    let len := entries.foldl (fun len entry =>
      len + BitVec.ofNat 32 (entry.length + 2 + if fmt then 1 else 0)) 5
    let out ← put (byte '[') (malloc (sizeOfInt len))
    let out ← terminate out
    let out ← writeEntries fmt entries out
    let out ← put (byte ']') out
    finish out

/-- `for (i=0;i<numentries;i++)` of `print_object` -/
def writeMembers (depth : BitVec 32) (fmt : Bool) : List (CString × CString) →
    OutBuffer → Except Trap OutBuffer
  | [], out => .ok out
  | (name, entry) :: members, out => do
      let out ← onlyIf fmt (write (tabs depth)) out
      let out ← strcpy name out
      let out ← put (byte ':') out
      let out ← onlyIf fmt (put (byte '\t')) out
      let out ← strcpy entry out
      let out ← onlyIf (!members.isEmpty) (put (byte ',')) out
      let out ← onlyIf fmt (put (byte '\n')) out
      let out ← terminate out
      writeMembers depth fmt members out

/-- `print_object`, from the texts of its names and entries on -/
def composeObject (depth : BitVec 32) (fmt : Bool)
    (members : List (CString × CString)) : Except Trap CString :=
  if members = [] then do
    let size := sizeOfInt (if fmt then depth + 4 else 3)
    let out ← put (byte '\x7b') (malloc size)
    let out ← onlyIf fmt (put (byte '\n')) out
    let out ← onlyIf fmt (write (tabs (depth - 1))) out
    let out ← put (byte '\x7d') out
    finish out
  else do
    let depth := depth + 1
    let len := members.foldl (fun len member =>
      len + BitVec.ofNat 32 (member.2.length + member.1.length + 2) +
        if fmt then 2 + depth else 0) (if fmt then 7 + depth else 7)
    let out ← put (byte '\x7b') (malloc (sizeOfInt len))
    let out ← onlyIf fmt (put (byte '\n')) out
    let out ← terminate out
    let out ← writeMembers depth fmt members out
    let out ← onlyIf fmt (write (tabs (depth - 1))) out
    let out ← put (byte '\x7d') out
    finish out

/-! ## Values -/

/-- What is known of one child of a container: its name, and its text if it has
one -/
abbrev Printed : Type := Option CString × Option CString

/-- `print_array`; an entry without a text makes it fail. -/
def printArray (fmt : Bool) (children : List Printed) :
    Except Trap (Option CString) :=
  match children.mapM Prod.snd with
  | none => .ok none
  | some entries => some <$> composeArray fmt entries

/-- `print_object`; an entry without a text makes it fail. -/
def printObject (depth : BitVec 32) (fmt : Bool) (children : List Printed) :
    Except Trap (Option CString) := do
  let names ← children.mapM fun child => printStringPtr child.1
  match children.mapM Prod.snd with
  | none => return none
  | some entries => some <$> composeObject depth fmt (names.zip entries)

/-- `print_value` for an item, from what its children are printed as -/
def printNode (fmt : Bool) (depth : BitVec 32) (item : Fields δ)
    (children : Except Trap (List Printed)) : Except Trap (Option CString) :=
  let type := item.type &&& 255
  if type = typeNull then .ok (some (literal "null"))
  else if type = typeFalse then .ok (some (literal "false"))
  else if type = typeTrue then .ok (some (literal "true"))
  else if type = typeNumber then some <$> printNumber unit item
  else if type = typeString then some <$> printStringPtr item.valuestring
  else if type = typeArray then children >>= printArray fmt
  else if type = typeObject then children >>= printObject depth fmt
  else .ok none

/-- The loop over a chain of children, each with everything below it -/
def printChildren (fmt : Bool) :
    BitVec 32 → Items δ → Except Trap (List Printed)
  | _, .null => .ok []
  | depth, .item fields child next => do
      let entry ← printNode unit fmt depth fields
        (printChildren fmt (depth + 1) child)
      let others ← printChildren fmt depth next
      return (fields.string, entry) :: others

/-- `print_value(item, depth, fmt)` -/
def printValue (fmt : Bool) (depth : BitVec 32) :
    Items δ → Except Trap (Option CString)
  | .null => .ok none
  | .item fields child _ =>
      printNode unit fmt depth fields (printChildren unit fmt (depth + 1) child)

/-- `cJSON_Print` -/
def print (item : Items δ) : Except Trap (Option CString) :=
  printValue unit true 0 item

def printUnformatted (item : Items δ) : Except Trap (Option CString) :=
  printValue unit false 0 item

end CJson

end ClpszDemos
