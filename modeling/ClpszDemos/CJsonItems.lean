import ClpszDemos.CString

/-!
# The items of cJSON

An item is linked to its first child and to the item behind it, so a pointer to
an item stands for the item, everything below it and everything behind it.  The
pointers back, which no function read here follows, are left out.  `double` is
a parameter, with the operations of the C library that the code calls.
-/

namespace ClpszDemos

namespace CJson

/-! ## Characters -/

def byte (c : Char) : UInt8 := c.toNat.toUInt8

def literal (s : String) : CString := s.toList.map byte

def isDigit (c : UInt8) : Bool := byte '0' ≤ c && c ≤ byte '9'

/-- `c - '0'` -/
def digitOf (c : UInt8) : ℕ := c.toNat - (byte '0').toNat

/-! ## Floating point -/

inductive Conversion
  | fixed0
  | exponent
  | fixed
  deriving DecidableEq, Repr

/-- `double`, with `sprintf` for the conversions `%.0f`, `%e` and `%f`. -/
structure DoubleUnit (δ : Type) where
  ofInt : ℤ → δ
  toInt : δ → BitVec 32
  add : δ → δ → δ
  sub : δ → δ → δ
  mul : δ → δ → δ
  pow : δ → δ → δ
  fabs : δ → δ
  floor : δ → δ
  le : δ → δ → Bool
  lt : δ → δ → Bool
  /-- `DBL_EPSILON` -/
  epsilon : δ
  /-- `1.0e-6` -/
  millionth : δ
  sprintf : Conversion → δ → CString

/-! ## Items -/

abbrev typeFalse : BitVec 32 := 0
abbrev typeTrue : BitVec 32 := 1
abbrev typeNull : BitVec 32 := 2
abbrev typeNumber : BitVec 32 := 3
abbrev typeString : BitVec 32 := 4
abbrev typeArray : BitVec 32 := 5
abbrev typeObject : BitVec 32 := 6

/-- The data of one item; `none` is a null pointer. -/
structure Fields (δ : Type) where
  type : BitVec 32
  valuestring : Option CString
  valueint : BitVec 32
  valuedouble : δ
  string : Option CString
  deriving DecidableEq, Repr

/-- What a `cJSON *` points to: nothing, or an item with its children and with
the items behind it. -/
inductive Items (δ : Type)
  | null
  | item (fields : Fields δ) (child next : Items δ)
  deriving DecidableEq, Repr

/-- An item without its `next` -/
abbrev Node (δ : Type) : Type := Fields δ × Items δ

variable {δ : Type}

/-- `cJSON_New_Item`: all bytes are zero. -/
def newItem (unit : DoubleUnit δ) : Fields δ where
  type := 0
  valuestring := none
  valueint := 0
  valuedouble := unit.ofInt 0
  string := none

end CJson

end ClpszDemos
