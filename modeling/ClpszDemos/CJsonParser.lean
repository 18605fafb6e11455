import ClpszDemos.CJsonItems

/-!
# The parser of cJSON

`parse_value` looks at the first bytes of the text and calls the function for
what is there; `parse_array` and `parse_object` call it back.  The recursion is
bounded by a number of nested calls, and every allocation succeeds.  A parse
ends with the item and the pointer behind it, or with the pointer that `ep` is
left with, or in a trap.
-/

namespace ClpszDemos

namespace CJson

open CString

inductive ParseError
  | failed (ep : CString)
  | trap (trap : Trap)
  | fuel
  deriving DecidableEq, Repr

variable {δ : Type} (unit : DoubleUnit δ)

def orTrap {α : Type} : Except Trap α → Except ParseError α
  | .ok a => .ok a
  | .error trap => .error (.trap trap)

/-! ## Numbers -/

/-- `do n=(n*10.0)+(*num++ -'0'); while (*num>='0' && *num<='9');`, at a digit -/
def integerLoop : δ → CString → δ × CString
  | n, [] => (n, [])
  | n, c :: num =>
      if isDigit c then
        integerLoop (unit.add (unit.mul n (unit.ofInt 10))
          (unit.ofInt (digitOf c))) num
      else (n, c :: num)

/-- The same loop with `scale--` in it -/
def fractionLoop : δ → δ → CString → δ × δ × CString
  | n, scale, [] => (n, scale, [])
  | n, scale, c :: num =>
      if isDigit c then
        fractionLoop (unit.add (unit.mul n (unit.ofInt 10))
          (unit.ofInt (digitOf c))) (unit.sub scale (unit.ofInt 1)) num
      else (n, scale, c :: num)

/-- `int` arithmetic wraps. -/
def exponentLoop : BitVec 32 → CString → BitVec 32 × CString
  | subscale, [] => (subscale, [])
  | subscale, c :: num =>
      if isDigit c then
        exponentLoop (subscale * 10 + BitVec.ofNat 32 (digitOf c)) num
      else (subscale, c :: num)

/-- The part from `e` or `E` on: `subscale`, `signsubscale` and the rest -/
def parseExponent (num : CString) : BitVec 32 × BitVec 32 × CString :=
  if deref num = byte 'e' ∨ deref num = byte 'E' then
    let num := num.drop 1
    if deref num = byte '+' then
      let (subscale, num) := exponentLoop 0 (num.drop 1)
      (subscale, 1, num)
    else if deref num = byte '-' then
      let (subscale, num) := exponentLoop 0 (num.drop 1)
      (subscale, -1, num)
    else
      let (subscale, num) := exponentLoop 0 num
      (subscale, 1, num)
  else (0, 1, num)

def parseNumber (item : Fields δ) (num : CString) : Fields δ × CString :=
  let (sign, num) := if deref num = byte '-' then (unit.ofInt (-1), num.drop 1)
    else (unit.ofInt 1, num)
  let num := if deref num = byte '0' then num.drop 1 else num
  let (n, num) := if byte '1' ≤ deref num ∧ deref num ≤ byte '9' then
      integerLoop unit (unit.ofInt 0) num
    else (unit.ofInt 0, num)
  let (n, scale, num) :=
    if deref num = byte '.' ∧ isDigit (deref (num.drop 1)) then
      fractionLoop unit n (unit.ofInt 0) (num.drop 1)
    else (n, unit.ofInt 0, num)
  let (subscale, signsubscale, num) := parseExponent num
  let n := unit.mul (unit.mul sign n) (unit.pow (unit.ofInt 10)
    (unit.add scale (unit.ofInt (subscale * signsubscale).toInt)))
  ({ item with
      valuedouble := n
      valueint := unit.toInt n
      type := typeNumber }, num)

/-! ## Strings -/

def hexDigit (c : UInt8) : Option UInt32 :=
  if byte '0' ≤ c ∧ c ≤ byte '9' then some (c - byte '0').toUInt32
  else if byte 'A' ≤ c ∧ c ≤ byte 'F' then some (10 + (c - byte 'A').toUInt32)
  else if byte 'a' ≤ c ∧ c ≤ byte 'f' then some (10 + (c - byte 'a').toUInt32)
  else none

/-- The digits are read one after the other, up to one that is none. -/
def parseHex4 (str : CString) : UInt32 :=
  let h : Option UInt32 := do
    let h ← hexDigit (deref str)
    let h := (h <<< 4) + (← hexDigit (deref (str.drop 1)))
    let h := (h <<< 4) + (← hexDigit (deref (str.drop 2)))
    let h := (h <<< 4) + (← hexDigit (deref (str.drop 3)))
    return h
  h.getD 0

def firstByteMark : ℕ → UInt32
  | 2 => 0xC0
  | 3 => 0xE0
  | 4 => 0xF0
  | _ => 0x00

/-- The bytes that the `switch (len)` writes from the last one backwards -/
def utf8Bytes (uc : UInt32) : List UInt8 :=
  let trail (uc : UInt32) : UInt8 := ((uc ||| 0x80) &&& 0xBF).toUInt8
  let lead (len : ℕ) (uc : UInt32) : UInt8 := (uc ||| firstByteMark len).toUInt8
  if uc < 0x80 then [lead 1 uc]
  else if uc < 0x800 then [lead 2 (uc >>> 6), trail uc]
  else if uc < 0x10000 then
    [lead 3 (uc >>> 6 >>> 6), trail (uc >>> 6), trail uc]
  else
    [lead 4 (uc >>> 6 >>> 6 >>> 6), trail (uc >>> 6 >>> 6), trail (uc >>> 6),
      trail uc]

/-- `case 'u'`, from the `u` on: what is written, and where `ptr` is left -/
def unicodeEscape (ptr : CString) : Except Trap (List UInt8 × CString) := do
  let uc := parseHex4 (ptr.drop 1)
  let ptr ← advance 4 ptr
  if (0xDC00 ≤ uc ∧ uc ≤ 0xDFFF) ∨ uc = 0 then return ([], ptr)
  else if 0xD800 ≤ uc ∧ uc ≤ 0xDBFF then
    if (← read 1 ptr) ≠ byte '\\' then return ([], ptr)
    else if (← read 2 ptr) ≠ byte 'u' then return ([], ptr)
    else
      let uc2 := parseHex4 (ptr.drop 3)
      let ptr ← advance 6 ptr
      if uc2 < 0xDC00 ∨ uc2 > 0xDFFF then return ([], ptr)
      else
        let high : UInt32 := (uc &&& 0x3FF) <<< 10
        let uc : UInt32 := 0x10000 + (high ||| (uc2 &&& 0x3FF))
        return (utf8Bytes uc, ptr)
  else return (utf8Bytes uc, ptr)

/-- The `switch (*ptr)`, from the byte behind the backslash on -/
def escape (ptr : CString) : Except Trap (List UInt8 × CString) :=
  if deref ptr = byte 'b' then .ok ([byte '\x08'], ptr)
  else if deref ptr = byte 'f' then .ok ([byte '\x0c'], ptr)
  else if deref ptr = byte 'n' then .ok ([byte '\n'], ptr)
  else if deref ptr = byte 'r' then .ok ([byte '\r'], ptr)
  else if deref ptr = byte 't' then .ok ([byte '\t'], ptr)
  else if deref ptr = byte 'u' then unicodeEscape ptr
  else .ok ([deref ptr], ptr)

/-- One round of the second loop: what it writes, and the rest -/
def stringRound (ptr : CString) : Except Trap (List UInt8 × CString) :=
  if deref ptr ≠ byte '\\' then do
    let rest ← advance 1 ptr
    return ([deref ptr], rest)
  else do
    let ptr ← advance 1 ptr
    let (written, ptr) ← escape ptr
    let ptr ← advance 1 ptr
    return (written, ptr)

def stringLoop : ℕ → CString → OutBuffer →
    Except ParseError (CString × OutBuffer)
  | 0, _, _ => .error .fuel
  | fuel + 1, ptr, out =>
      if deref ptr = byte '"' ∨ deref ptr = 0 then .ok (ptr, out)
      else do
        let (written, ptr) ← orTrap (stringRound ptr)
        let out ← orTrap (OutBuffer.write written out)
        stringLoop fuel ptr out

/-- `while (*ptr!='\"' && *ptr && ++len) if (*ptr++ == '\\') ptr++;`, which ends
when `++len` gives zero as well -/
def stringLength (len : BitVec 32) : CString → Except Trap (BitVec 32)
  | [] => .ok len
  | c :: ptr =>
      if c = byte '"' ∨ c = 0 then .ok len
      else if len + 1 = 0 then .ok (len + 1)
      else if c = byte '\\' then
        match ptr with
        | [] => .error .bounds
        | _ :: ptr => stringLength (len + 1) ptr
      else stringLength (len + 1) ptr

def parseString (item : Fields δ) (str : CString) :
    Except ParseError (Fields δ × CString) :=
  if deref str ≠ byte '"' then .error (.failed str)
  else do
    let len ← orTrap (stringLength 0 (str.drop 1))
    let (ptr, out) ← stringLoop (str.length + 1) (str.drop 1)
      (OutBuffer.malloc (sizeOfInt (len + 1)))
    let out ← orTrap out.finish
    let ptr := if deref ptr = byte '"' then ptr.drop 1 else ptr
    return ({ item with
      valuestring := some out
      type := typeString }, ptr)

/-! ## Values -/

/-- Bytes up to 32, the NUL excepted -/
def skip : CString → CString
  | [] => []
  | c :: value => if c ≠ 0 ∧ c ≤ 32 then skip value else c :: value

section Containers

variable (parseValue : Fields δ → CString → Except ParseError (Node δ × CString))

/-- The `while (*value==',')` of `parse_array`: the items behind the first -/
def arrayLoop : ℕ → CString → Except ParseError (Items δ × CString)
  | 0, _ => .error .fuel
  | fuel + 1, value =>
      if deref value = byte ',' then do
        let ((fields, child), value) ←
          parseValue (newItem unit) (skip (value.drop 1))
        let (next, value) ← arrayLoop fuel (skip value)
        return (.item fields child next, value)
      else .ok (.null, value)

def parseArray (item : Fields δ) (value : CString) :
    Except ParseError (Node δ × CString) :=
  if deref value ≠ byte '[' then .error (.failed value)
  else
    let item := { item with type := typeArray }
    let bound := value.length
    let value := skip (value.drop 1)
    if deref value = byte ']' then .ok ((item, .null), value.drop 1)
    else do
      let ((fields, child), value) ← parseValue (newItem unit) (skip value)
      let (next, value) ← arrayLoop unit parseValue bound (skip value)
      if deref value = byte ']' then
        return ((item, .item fields child next), value.drop 1)
      else .error (.failed value)

/-- A name, the colon and a value -/
def parseMember (value : CString) : Except ParseError (Node δ × CString) := do
  let (child, value) ← parseString (newItem unit) (skip value)
  let value := skip value
  let child := { child with
    string := child.valuestring
    valuestring := none }
  if deref value ≠ byte ':' then .error (.failed value)
  else
    let (node, value) ← parseValue child (skip (value.drop 1))
    return (node, skip value)

/-- The `while (*value==',')` of `parse_object` -/
def objectLoop : ℕ → CString → Except ParseError (Items δ × CString)
  | 0, _ => .error .fuel
  | fuel + 1, value =>
      if deref value = byte ',' then do
        let ((fields, child), value) ← parseMember unit parseValue (value.drop 1)
        let (next, value) ← objectLoop fuel value
        return (.item fields child next, value)
      else .ok (.null, value)

def parseObject (item : Fields δ) (value : CString) :
    Except ParseError (Node δ × CString) :=
  if deref value ≠ byte '\x7b' then .error (.failed value)
  else
    let item := { item with type := typeObject }
    let bound := value.length
    let value := skip (value.drop 1)
    if deref value = byte '\x7d' then .ok ((item, .null), value.drop 1)
    else do
      let ((fields, child), value) ← parseMember unit parseValue value
      let (next, value) ← objectLoop unit parseValue bound value
      if deref value = byte '\x7d' then
        return ((item, .item fields child next), value.drop 1)
      else .error (.failed value)

end Containers

/-- `parse_value`, with a bound on the depth of the calls -/
def parseValue : ℕ → Fields δ → CString → Except ParseError (Node δ × CString)
  | 0, _, _ => .error .fuel
  | fuel + 1, item, value =>
      if literal "null" <+: value then
        .ok (({ item with type := typeNull }, .null), value.drop 4)
      else if literal "false" <+: value then
        .ok (({ item with type := typeFalse }, .null), value.drop 5)
      else if literal "true" <+: value then
        .ok (({ item with
          type := typeTrue
          valueint := 1 }, .null), value.drop 4)
      else if deref value = byte '"' then do
        let (item, value) ← parseString item value
        return ((item, .null), value)
      else if deref value = byte '-' ∨
          byte '0' ≤ deref value ∧ deref value ≤ byte '9' then
        let (item, value) := parseNumber unit item value
        .ok ((item, .null), value)
      else if deref value = byte '[' then
        parseArray unit (parseValue fuel) item value
      else if deref value = byte '\x7b' then
        parseObject unit (parseValue fuel) item value
      else .error (.failed value)

/-- The item and what `return_parse_end` points to -/
def parseWithOpts (value : CString) (requireNullTerminated : Bool) :
    Except ParseError (Items δ × CString) := do
  let ((fields, child), rest) ←
    parseValue unit (value.length + 1) (newItem unit) (skip value)
  if requireNullTerminated then
    let rest := skip rest
    if deref rest ≠ 0 then .error (.failed rest)
    else return (.item fields child .null, rest)
  else return (.item fields child .null, rest)

/-- `cJSON_Parse` -/
def parse (value : CString) : Except ParseError (Items δ × CString) :=
  parseWithOpts unit value false

end CJson

end ClpszDemos
