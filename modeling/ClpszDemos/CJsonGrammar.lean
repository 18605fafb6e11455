import ClpszDemos.CJsonItems
import ClpszDemos.JavaText
import Mathlib.Data.Nat.Digits.Defs

/-!
# JSON texts

What a JSON text is, with what may stand between its tokens left open, what
items it stands for, and what is left of it without anything between the
tokens.  A string is UTF-8, or any other bytes.  A numeral stands for a rational
number, and which `double` that becomes is left open as well.
-/

namespace ClpszDemos

namespace CJson

open JavaText

/-! ## Between the tokens -/

def isBlank (c : UInt8) : Bool :=
  c = byte ' ' || c = byte '\t' || c = byte '\r' || c = byte '\n'

/-- White space -/
def Blank (text : CString) : Prop := ∀ c ∈ text, isBlank c = true

/-- White space and comments.  A block comment ends at the first `*/`, and does
not begin with `/*/`, where `cJSON_Minify` would end it; a comment to the end of
the line has its newline. -/
inductive Commented : CString → Prop
  | nil : Commented []
  | blank {c : UInt8} {rest : CString} (hblank : isBlank c = true)
      (hrest : Commented rest) : Commented (c :: rest)
  | line {body rest : CString} (hbody : ∀ c ∈ body, c ≠ 0 ∧ c ≠ byte '\n')
      (hrest : Commented rest) :
      Commented (byte '/' :: byte '/' :: (body ++ byte '\n' :: rest))
  | block {body rest : CString} (hbody : ∀ c ∈ body, c ≠ 0)
      (hends : ¬[byte '*', byte '/'] <:+: byte '*' :: body)
      (hrest : Commented rest) :
      Commented (byte '/' :: byte '*' :: (body ++
        byte '*' :: byte '/' :: rest))

/-! ## Numbers -/

def digitByte (d : Fin 10) : UInt8 := byte '0' + UInt8.ofNat d

inductive Sign
  | plus
  | minus
  deriving DecidableEq, Repr

structure Exponent where
  mark : UInt8
  sign : Option Sign
  digits : List (Fin 10)
  marked : mark = byte 'e' ∨ mark = byte 'E'
  nonempty : digits ≠ []

def Sign.text : Option Sign → CString
  | none => []
  | some .plus => [byte '+']
  | some .minus => [byte '-']

/-- The number of decimal digits, the first one in front -/
def digitsNumber (digits : List (Fin 10)) : ℕ :=
  Nat.ofDigits 10 (digits.map Fin.val).reverse

namespace Exponent

def text (e : Exponent) : CString :=
  e.mark :: (Sign.text e.sign ++ e.digits.map digitByte)

def power (e : Exponent) : ℤ :=
  if e.sign = some .minus then -(digitsNumber e.digits : ℤ)
  else digitsNumber e.digits

end Exponent

/-- No digits in front of the point stand for `0`, none behind it for no point. -/
structure NumberText where
  negative : Bool
  integer : List (Fin 10)
  fraction : List (Fin 10)
  exponent : Option Exponent
  leading : integer.head? ≠ some 0

namespace NumberText

def integerText (n : NumberText) : CString :=
  if n.integer = [] then [byte '0'] else n.integer.map digitByte

def fractionText (n : NumberText) : CString :=
  if n.fraction = [] then [] else byte '.' :: n.fraction.map digitByte

def exponentText (n : NumberText) : CString :=
  (n.exponent.map Exponent.text).getD []

def text (n : NumberText) : CString :=
  (if n.negative then [byte '-'] else []) ++ (n.integerText ++
    (n.fractionText ++ n.exponentText))

/-- The power of ten of the last digit -/
def power (n : NumberText) : ℤ :=
  (n.exponent.map Exponent.power).getD 0 - n.fraction.length

/-- The digits in front of the point and behind it -/
def significand (n : NumberText) : ℕ := digitsNumber (n.integer ++ n.fraction)

/-- The number that the numeral stands for -/
def rational (n : NumberText) : ℚ :=
  (if n.negative then -(n.significand : ℚ) else n.significand) * 10 ^ n.power

/-- A numeral that does not have to be rounded, `-0` excepted, if the numbers in
`R` are doubles: its digits make up an integer of 53 bits, the exponent fits an
`int`, and the power of ten and the number itself are doubles. -/
structure IsExact (R : ℚ → Prop) (n : NumberText) : Prop where
  significand_le : n.significand ≤ 2 ^ 53
  exponent_lt : |(n.exponent.map Exponent.power).getD 0| < 2 ^ 31
  fraction_lt : n.fraction.length < 2 ^ 31
  nonzero : n.negative = true → n.significand ≠ 0
  power : R (10 ^ n.power)
  rational : R n.rational

end NumberText

/-- Numerals become doubles: each one that does not have to be rounded the
double of its number. -/
def ReadsExactly {δ : Type} (R : ℚ → Prop) (ofRat : ℚ → δ)
    (value : NumberText → δ) : Prop :=
  ∀ n : NumberText, n.IsExact R → value n = ofRat n.rational

/-! ## Strings -/

def hexValue (c : UInt8) : Option ℕ :=
  if byte '0' ≤ c ∧ c ≤ byte '9' then some (c.toNat - (byte '0').toNat)
  else if byte 'A' ≤ c ∧ c ≤ byte 'F' then some (c.toNat - (byte 'A').toNat + 10)
  else if byte 'a' ≤ c ∧ c ≤ byte 'f' then some (c.toNat - (byte 'a').toNat + 10)
  else none

/-- The escape of one UTF-16 code unit, with digits in either case -/
inductive UnitEscape : UInt16 → CString → Prop
  | mk {a b c d : UInt8} {h i j k : ℕ} (ha : hexValue a = some h)
      (hb : hexValue b = some i) (hc : hexValue c = some j)
      (hd : hexValue d = some k) :
      UnitEscape (((h * 16 + i) * 16 + j) * 16 + k).toUInt16
        [byte '\\', byte 'u', a, b, c, d]

inductive UnitEscapes : JString → CString → Prop
  | nil : UnitEscapes [] []
  | cons {unit : UInt16} {units : JString} {text rest : CString}
      (hunit : UnitEscape unit text) (hunits : UnitEscapes units rest) :
      UnitEscapes (unit :: units) (text ++ rest)

/-- The escapes of one letter that stand for something else than the letter -/
def letterEscapes : List (UInt8 × UInt8) :=
  [(byte 'b', byte '\x08'), (byte 'f', byte '\x0c'), (byte 'n', byte '\n'),
    (byte 'r', byte '\r'), (byte 't', byte '\t')]

def IsHigh (unit : UInt16) : Prop := 0xD800 ≤ unit ∧ unit ≤ 0xDBFF

def IsLow (unit : UInt16) : Prop := 0xDC00 ≤ unit ∧ unit ≤ 0xDFFF

/-- Code units that are lost in front of `raw`: a NUL, which a C string cannot
have, and surrogates without the other half, for which UTF-8 has no bytes.  A
high one takes the unit that is escaped behind it along. -/
inductive Lost (raw : CString) : JString → Prop
  | nul : Lost raw [0]
  | low {unit : UInt16} (hlow : IsLow unit) : Lost raw [unit]
  | high {unit : UInt16} (hhigh : IsHigh unit)
      (hraw : ¬[byte '\\', byte 'u'] <+: raw) : Lost raw [unit]
  | two {unit next : UInt16} (hhigh : IsHigh unit) (hnext : ¬IsLow next) :
      Lost raw [unit, next]

/-- What stands between the quotes, and the bytes that it stands for -/
inductive StringText : CString → CString → Prop
  | nil : StringText [] []
  | plain {c : UInt8} {raw bytes : CString} (hnul : c ≠ 0)
      (hquote : c ≠ byte '"') (hback : c ≠ byte '\\')
      (hrest : StringText raw bytes) : StringText (c :: raw) (c :: bytes)
  | letter {c b : UInt8} {raw bytes : CString} (hletter : (c, b) ∈ letterEscapes)
      (hrest : StringText raw bytes) :
      StringText (byte '\\' :: c :: raw) (b :: bytes)
  | same {c : UInt8} {raw bytes : CString}
      (hsame : c ∈ [byte '"', byte '\\', byte '/'])
      (hrest : StringText raw bytes) :
      StringText (byte '\\' :: c :: raw) (c :: bytes)
  | character {c : Char} {text raw bytes : CString} (hnul : c ≠ '\x00')
      (hunits : UnitEscapes (utf16 c) text) (hrest : StringText raw bytes) :
      StringText (text ++ raw) (String.utf8EncodeChar c ++ bytes)
  | lost {units : JString} {text raw bytes : CString} (hlost : Lost raw units)
      (hunits : UnitEscapes units text) (hrest : StringText raw bytes) :
      StringText (text ++ raw) bytes

def quoted (raw : CString) : CString := byte '"' :: (raw ++ [byte '"'])

/-! ## Values -/

inductive Form
  | value
  | elements
  | members
  deriving DecidableEq, Repr

section

variable {δ : Type} (unit : DoubleUnit δ) (value : NumberText → δ)
  (gap : CString → Prop)

def plainItem (type : BitVec 32) : Fields δ :=
  { newItem unit with type := type }

def numberItem (d : δ) : Fields δ :=
  { newItem unit with
    type := typeNumber
    valueint := unit.toInt d
    valuedouble := d }

def stringItem (bytes : CString) : Fields δ :=
  { newItem unit with
    type := typeString
    valuestring := some bytes }

/-- A text, the same text with nothing between its tokens, and its items; the
elements of an array and the members of an object with the gaps around them -/
inductive Reads : Form → CString → CString → Items δ → Prop
  | null : Reads .value (literal "null") (literal "null")
      (.item (plainItem unit typeNull) .null .null)
  | false : Reads .value (literal "false") (literal "false")
      (.item (plainItem unit typeFalse) .null .null)
  | true : Reads .value (literal "true") (literal "true")
      (.item { plainItem unit typeTrue with valueint := 1 } .null .null)
  | number (n : NumberText) :
      Reads .value n.text n.text (.item (numberItem unit (value n)) .null .null)
  | string {raw bytes : CString} (hstring : StringText raw bytes) :
      Reads .value (quoted raw) (quoted raw)
        (.item (stringItem unit bytes) .null .null)
  | emptyArray {w : CString} (hgap : gap w) :
      Reads .value (byte '[' :: (w ++ [byte ']'])) (literal "[]")
        (.item (plainItem unit typeArray) .null .null)
  | array {text compact : CString} {children : Items δ}
      (helements : Reads .elements text compact children) :
      Reads .value (byte '[' :: (text ++ [byte ']']))
        (byte '[' :: (compact ++ [byte ']']))
        (.item (plainItem unit typeArray) children .null)
  | emptyObject {w : CString} (hgap : gap w) :
      Reads .value (byte '\x7b' :: (w ++ [byte '\x7d']))
        [byte '\x7b', byte '\x7d']
        (.item (plainItem unit typeObject) .null .null)
  | object {text compact : CString} {children : Items δ}
      (hmembers : Reads .members text compact children) :
      Reads .value (byte '\x7b' :: (text ++ [byte '\x7d']))
        (byte '\x7b' :: (compact ++ [byte '\x7d']))
        (.item (plainItem unit typeObject) children .null)
  | element {w w' text compact : CString} {fields : Fields δ} {child : Items δ}
      (hw : gap w) (hvalue : Reads .value text compact (.item fields child .null))
      (hw' : gap w') :
      Reads .elements (w ++ (text ++ w')) compact
        (.item { fields with string := none } child .null)
  | elements {w w' text compact more moreCompact : CString} {fields : Fields δ}
      {child next : Items δ} (hw : gap w)
      (hvalue : Reads .value text compact (.item fields child .null))
      (hw' : gap w') (hmore : Reads .elements more moreCompact next) :
      Reads .elements (w ++ (text ++ (w' ++ byte ',' :: more)))
        (compact ++ byte ',' :: moreCompact)
        (.item { fields with string := none } child next)
  | member {w w₁ w₂ w₃ raw name text compact : CString} {fields : Fields δ}
      {child : Items δ} (hw : gap w) (hname : StringText raw name) (hw₁ : gap w₁)
      (hw₂ : gap w₂) (hvalue : Reads .value text compact (.item fields child .null))
      (hw₃ : gap w₃) :
      Reads .members (w ++ (quoted raw ++ (w₁ ++ byte ':' :: (w₂ ++
          (text ++ w₃)))))
        (quoted raw ++ byte ':' :: compact)
        (.item { fields with string := some name } child .null)
  | members {w w₁ w₂ w₃ raw name text compact more moreCompact : CString}
      {fields : Fields δ} {child next : Items δ} (hw : gap w)
      (hname : StringText raw name) (hw₁ : gap w₁) (hw₂ : gap w₂)
      (hvalue : Reads .value text compact (.item fields child .null))
      (hw₃ : gap w₃) (hmore : Reads .members more moreCompact next) :
      Reads .members (w ++ (quoted raw ++ (w₁ ++ byte ':' :: (w₂ ++ (text ++
          (w₃ ++ byte ',' :: more))))))
        (quoted raw ++ byte ':' :: (compact ++ byte ',' :: moreCompact))
        (.item { fields with string := some name } child next)

/-- A value with gaps around it -/
def Document (text compact : CString) (items : Items δ) : Prop :=
  ∃ w token w', gap w ∧ Reads unit value gap .value token compact items ∧
    gap w' ∧ text = w ++ (token ++ w')

end

end CJson

end ClpszDemos
