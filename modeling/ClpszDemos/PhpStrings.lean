import Mathlib.Tactic
import ClpszDemos.JsText

/-!
# PHP strings and the loose comparison

A PHP string is a list of bytes.  Two strings are compared as numbers when
both are numeric, which is an optional sign and a decimal literal between
spaces, and byte by byte otherwise.  A literal without a point and an exponent
is an int as long as it is in the range of one; the others are doubles.  Two
literals that overflow to the same side are compared byte by byte.
-/

namespace ClpszDemos
namespace PhpStrings

open JsText

abbrev PhpString := List UInt8

/-- The bytes of an ASCII text -/
def php (s : String) : PhpString :=
  s.toList.map fun c => c.toNat.toUInt8

/-! ## Numeric strings -/

def isSpace (c : UInt8) : Bool :=
  c == 32 || (9 ≤ c && c ≤ 13)

def isDigit (c : UInt8) : Bool :=
  48 ≤ c && c ≤ 57

/-- The value of decimal digits -/
def digitsNumber (digits : PhpString) : ℕ :=
  digits.foldl (fun value c => 10 * value + (c.toNat - 48)) 0

/-- The number of a numeric string; digits that are too many for an int overflow
into a double. -/
inductive Numeric
  | int (n : ℤ)
  | overflow (negative : Bool) (value : JsNumber)
  | double (value : JsNumber)
  deriving DecidableEq

def signed (negative : Bool) (n : ℕ) : ℤ :=
  if negative then -n else n

def integerNumber (negative : Bool) (digits : PhpString) : Numeric :=
  let n := signed negative (digitsNumber digits)
  if -2 ^ 63 ≤ n ∧ n < 2 ^ 63 then .int n
  else .overflow negative (nearestDouble n)

/-- A literal with a point or an exponent; with twenty digits before these it
has overflowed before they are seen. -/
def doubleNumber (negative : Bool) (whole fraction : PhpString)
    (exponent : ℤ) : Numeric :=
  let value := nearestDouble
    (signed negative (digitsNumber (whole ++ fraction)) *
      10 ^ (exponent - fraction.length))
  if 20 ≤ (whole.dropWhile fun c => c == 48).length then
    .overflow negative value
  else .double value

/-- What stands behind the digits of a literal: nothing or an exponent -/
def exponentPart (s : PhpString) : Option ℤ :=
  if s = [] then some 0
  else if s.head? = some 69 ∨ s.head? = some 101 then
    let sign := s.tail.head?
    let digits :=
      if sign = some 43 ∨ sign = some 45 then s.tail.tail else s.tail
    if digits = [] ∨ !digits.all isDigit then none
    else some (signed (sign == some 45) (digitsNumber digits))
  else none

/-- A literal without a sign -/
def literal (negative : Bool) (s : PhpString) : Option Numeric :=
  let whole := s.takeWhile isDigit
  let rest := s.dropWhile isDigit
  if rest = [] then
    if whole = [] then none else some (integerNumber negative whole)
  else
    let point := rest.head? = some 46
    let fraction := if point then rest.tail.takeWhile isDigit else []
    let exponent := if point then rest.tail.dropWhile isDigit else rest
    if whole ++ fraction = [] then none
    else (exponentPart exponent).map (doubleNumber negative whole fraction)

def trim (s : PhpString) : PhpString :=
  ((s.dropWhile isSpace).reverse.dropWhile isSpace).reverse

/-- `is_numeric_string`: the number, or none of a string that is not
numeric -/
def numericString (s : PhpString) : Option Numeric :=
  let s := trim s
  if s.head? = some 45 then literal true s.tail
  else if s.head? = some 43 then literal false s.tail
  else literal false s

/-! ## Comparison -/

/-- Two doubles, or none when both have become the same infinity -/
def doublesEqual (x y : JsNumber) : Option Bool :=
  if x = y ∧ ∃ negative, x = .infinity negative then none
  else some (x == y)

/-- Whether two numbers are the same, or none when the strings decide -/
def Numeric.equal : Numeric → Numeric → Option Bool
  | .int m, .int n => some (m == n)
  | .int _, .overflow _ _ => some false
  | .overflow _ _, .int _ => some false
  | .overflow negative x, .overflow negative' y =>
      if negative = negative' then none else doublesEqual x y
  | .int m, .double y => some (nearestDouble m == y)
  | .double x, .int n => some (x == nearestDouble n)
  | .overflow _ x, .double y => doublesEqual x y
  | .double x, .overflow _ y => doublesEqual x y
  | .double x, .double y => doublesEqual x y

/-- `$s == $t` -/
def stringsEqual (s t : PhpString) : Bool :=
  match numericString s, numericString t with
  | some x, some y => (x.equal y).getD (s == t)
  | _, _ => s == t

/-- Both strings are numeric, and their numbers are the same. -/
def SameNumber (s t : PhpString) : Prop :=
  ∃ x y, numericString s = some x ∧ numericString t = some y ∧
    x.equal y = some true

theorem doublesEqual_self (x : JsNumber) : doublesEqual x x ≠ some false := by
  unfold doublesEqual
  split_ifs with hinfinite
  · simp
  · simp

theorem Numeric.equal_self (x : Numeric) : x.equal x ≠ some false := by
  cases x with
  | int n => simp [Numeric.equal]
  | overflow negative value => simp [Numeric.equal]
  | double value => exact doublesEqual_self value

theorem sameNumber_iff {s t : PhpString} {x y : Numeric}
    (hs : numericString s = some x) (ht : numericString t = some y) :
    SameNumber s t ↔ x.equal y = some true := by
  constructor
  · rintro ⟨x', y', hs', ht', hequal⟩
    rw [hs] at hs'
    rw [ht] at ht'
    injection hs' with hx
    injection ht' with hy
    rw [hx, hy]
    exact hequal
  · intro hequal
    exact ⟨x, y, hs, ht, hequal⟩

/-- A string is equal to itself and to the strings with the same number. -/
theorem stringsEqual_iff {s t : PhpString} :
    stringsEqual s t = true ↔ s = t ∨ SameNumber s t := by
  unfold stringsEqual
  cases hs : numericString s with
  | none =>
      have hnot : ¬ SameNumber s t := by
        rintro ⟨x, y, hs', _⟩
        rw [hs] at hs'
        cases hs'
      simp [hnot]
  | some x =>
      cases ht : numericString t with
      | none =>
          have hnot : ¬ SameNumber s t := by
            rintro ⟨x', y, _, ht', _⟩
            rw [ht] at ht'
            cases ht'
          simp [hnot]
      | some y =>
          rw [sameNumber_iff hs ht]
          cases hequal : x.equal y with
          | none => simp [hequal]
          | some equal =>
              cases equal with
              | true => simp [hequal]
              | false =>
                  have hne : s ≠ t := by
                    rintro rfl
                    rw [hs] at ht
                    injection ht with hxy
                    rw [hxy] at hequal
                    exact y.equal_self hequal
                  simp [hequal, hne]

/-- Two different strings are equal when their numbers are. -/
example : stringsEqual (php "1") (php "01") = true := by decide

end PhpStrings
end ClpszDemos
