import Mathlib.Tactic
import Mathlib.Data.Int.Log
import Mathlib.Data.List.TakeWhile
import Mathlib.Data.Rat.Floor
import ClpszDemos.JavaText

/-!
# JavaScript text and numbers

A JavaScript string is a list of UTF-16 code units as well.  Here are the
slice `substr` and the comparison of a string with a number, which reads the
string as a numeric literal and rounds it to a double.
-/

namespace ClpszDemos
namespace JsText

open JavaText

/-- `String.prototype.substr` with a length. -/
def substr (s : JString) (start : ℤ) (length : ℕ) : JString :=
  let start := if start < 0 then max (s.length + start) 0 else start
  (s.drop start.toNat).take length

/-! ## Numbers -/

/-- A number; the sign of a zero is left out. -/
inductive JsNumber
  | nan
  | infinity (negative : Bool)
  | finite (value : ℚ)
  deriving DecidableEq

def JsNumber.neg : JsNumber → JsNumber
  | nan => nan
  | infinity negative => infinity !negative
  | finite value => finite (-value)

/-- The nearest integer, the even one of two. -/
def roundHalfEven (q : ℚ) : ℤ :=
  if q - ⌊q⌋ < 1 / 2 then ⌊q⌋
  else if 1 / 2 < q - ⌊q⌋ then ⌊q⌋ + 1
  else if ⌊q⌋ % 2 = 0 then ⌊q⌋
  else ⌊q⌋ + 1

/-- The distance of the doubles around a rational. -/
def spacing (q : ℚ) : ℚ :=
  2 ^ (max (Int.log 2 |q|) (-1022) - 52)

/-- The double nearest to a rational. -/
def nearestDouble (q : ℚ) : JsNumber :=
  let rounded := roundHalfEven (q / spacing q) * spacing q
  if 2 ^ 1024 ≤ |rounded| then .infinity (decide (q < 0)) else .finite rounded

/-! ## Numeric literals -/

/-- White space and line terminators. -/
def isWhiteSpace (c : UInt16) : Bool :=
  (9 ≤ c && c ≤ 13) || c == 0x20 || c == 0xA0 || c == 0x1680 ||
    (0x2000 ≤ c && c ≤ 0x200A) || c == 0x2028 || c == 0x2029 || c == 0x202F ||
    c == 0x205F || c == 0x3000 || c == 0xFEFF

def trim (s : JString) : JString :=
  ((s.dropWhile isWhiteSpace).reverse.dropWhile isWhiteSpace).reverse

def isDigit (c : UInt16) : Bool :=
  48 ≤ c.toNat && c.toNat < 58

/-- The value of decimal digits. -/
def digitsNumber (digits : JString) : ℕ :=
  digits.foldl (fun value c => 10 * value + (c.toNat - 48)) 0

/-- A digit of a radix up to sixteen. -/
def radixDigit (radix : ℕ) (c : UInt16) : Option ℕ :=
  let digit :=
    if isDigit c then c.toNat - 48
    else if 65 ≤ c.toNat ∧ c.toNat < 71 then c.toNat - 55
    else if 97 ≤ c.toNat ∧ c.toNat < 103 then c.toNat - 87
    else 16
  if digit < radix then some digit else none

def radixLiteral (radix : ℕ) (digits : JString) : JsNumber :=
  match digits.mapM (radixDigit radix) with
  | none => .nan
  | some [] => .nan
  | some (digit :: rest) =>
      .finite ((digit :: rest).foldl (fun value d => radix * value + d) 0 : ℕ)

/-- What stands after the digits of a decimal literal: nothing or an
exponent. -/
def exponentPart : JString → Option ℤ
  | [] => some 0
  | c :: rest =>
      if c = 69 ∨ c = 101 then
        let (negative, digits) := match rest with
          | 43 :: digits => (false, digits)
          | 45 :: digits => (true, digits)
          | digits => (false, digits)
        if digits = [] ∨ !digits.all isDigit then none
        else if negative then some (-digitsNumber digits)
        else some (digitsNumber digits)
      else none

/-- The digits after the point of a decimal literal, and the rest. -/
def fractionPart : JString → JString × JString
  | 46 :: rest => rest.span isDigit
  | rest => ([], rest)

def unsignedLiteral (s : JString) : JsNumber :=
  if s = java "Infinity" then .infinity false
  else
    let whole := (s.span isDigit).1
    let (fraction, rest) := fractionPart (s.span isDigit).2
    if whole ++ fraction = [] then .nan
    else
      match exponentPart rest with
      | none => .nan
      | some exponent =>
          .finite (digitsNumber (whole ++ fraction) *
            10 ^ (exponent - fraction.length))

def numericLiteral : JString → JsNumber
  | [] => .finite 0
  | 43 :: rest => unsignedLiteral rest
  | 45 :: rest => (unsignedLiteral rest).neg
  | 48 :: c :: digits =>
      if c = 66 ∨ c = 98 then radixLiteral 2 digits
      else if c = 79 ∨ c = 111 then radixLiteral 8 digits
      else if c = 88 ∨ c = 120 then radixLiteral 16 digits
      else unsignedLiteral (48 :: c :: digits)
  | s => unsignedLiteral s

/-- The number that a string is converted to. -/
def toNumber (s : JString) : JsNumber :=
  match numericLiteral (trim s) with
  | .finite value => nearestDouble value
  | other => other

/-- `s >= bound`. -/
def geNumber (s : JString) (bound : ℕ) : Bool :=
  match toNumber s with
  | .nan => false
  | .infinity negative => !negative
  | .finite value => bound ≤ value

/-! ## Facts -/

/-- A slice counted from the end is the part of the string that lies there. -/
theorem substr_append
    (a b c : JString)
    {start : ℤ}
    (hstart : start = -(b.length + c.length : ℕ))
    (hpos : 0 < b.length + c.length) :
    substr (a ++ (b ++ c)) start b.length = b := by
  have hneg : start < 0 := by omega
  have hmax : max (((a ++ (b ++ c)).length : ℤ) + start) 0 = a.length := by
    simp only [List.length_append]
    omega
  unfold substr
  simp only [if_pos hneg, hmax, Int.toNat_natCast, List.drop_left,
    List.take_left]

/-- A slice that starts before the string starts with it. -/
theorem substr_short
    {s : JString}
    {start : ℤ}
    (hstart : start < 0)
    (hshort : s.length ≤ -start)
    (length : ℕ) :
    substr s start length = s.take length := by
  have hmax : max ((s.length : ℤ) + start) 0 = 0 := by omega
  unfold substr
  simp only [if_pos hstart, hmax, Int.toNat_zero, List.drop_zero]

theorem roundHalfEven_intCast
    (z : ℤ) :
    roundHalfEven z = z := by
  unfold roundHalfEven
  rw [Int.floor_intCast, if_pos]
  norm_num

/-- Whole numbers up to the size of the mantissa are doubles. -/
theorem nearestDouble_natCast
    {n : ℕ}
    (hn : n < 2 ^ 53) :
    nearestDouble n = .finite n := by
  have hlog : Nat.log 2 n ≤ 52 :=
    Nat.lt_succ_iff.mp (Nat.log_lt_of_lt_pow' (by omega) hn)
  have hspacing : spacing n = (2 ^ (52 - Nat.log 2 n) : ℚ)⁻¹ := by
    have hexponent : max (Int.log 2 |(n : ℚ)|) (-1022) - 52 =
        -((52 - Nat.log 2 n : ℕ) : ℤ) := by
      rw [Nat.abs_cast, Int.log_natCast]
      omega
    unfold spacing
    rw [hexponent, zpow_neg, zpow_natCast]
  have hscaled : (n : ℚ) / spacing n =
      ((n * 2 ^ (52 - Nat.log 2 n) : ℕ) : ℤ) := by
    rw [hspacing, div_inv_eq_mul]
    push_cast
    rfl
  have hrounded : (roundHalfEven ((n : ℚ) / spacing n) : ℚ) * spacing n =
      n := by
    rw [hscaled, roundHalfEven_intCast, ← hscaled]
    apply div_mul_cancel₀
    rw [hspacing]
    positivity
  have hsmall : ¬ (2 : ℚ) ^ 1024 ≤ |(n : ℚ)| := by
    have hcast : (n : ℚ) < 2 ^ 53 := by exact_mod_cast hn
    have hpow : (2 : ℚ) ^ 53 < 2 ^ 1024 :=
      pow_lt_pow_right₀ (by norm_num) (by omega)
    rw [Nat.abs_cast, not_le]
    exact hcast.trans hpow
  unfold nearestDouble
  simp only [hrounded, if_neg hsmall]

/-- The number of one digit. -/
theorem digitUnit_sub
    {d : ℕ}
    (hd : d < 10) :
    isDigit (digitUnit d) = true ∧ (digitUnit d).toNat - 48 = d := by
  interval_cases d <;> exact ⟨rfl, rfl⟩

theorem isDigit_decimal
    (n : ℕ) :
    (decimal n).all isDigit = true := by
  induction n using Nat.strong_induction_on with
  | _ n ih =>
      have hdigit : n % 10 < 10 := Nat.mod_lt n (by omega)
      by_cases hsmall : n < 10
      · rw [decimal_of_lt hsmall]
        simp [(digitUnit_sub hsmall).1]
      · have hfront := ih (n / 10) (by omega)
        rw [decimal_of_ge (by omega), List.all_append, hfront]
        simp [(digitUnit_sub hdigit).1]

theorem digitsNumber_append
    (digits : JString)
    (c : UInt16) :
    digitsNumber (digits ++ [c]) = 10 * digitsNumber digits + (c.toNat - 48) := by
  unfold digitsNumber
  rw [List.foldl_append]
  rfl

theorem digitsNumber_decimal
    (n : ℕ) :
    digitsNumber (decimal n) = n := by
  induction n using Nat.strong_induction_on with
  | _ n ih =>
      have hdigit : n % 10 < 10 := Nat.mod_lt n (by omega)
      by_cases hsmall : n < 10
      · rw [decimal_of_lt hsmall]
        simp [digitsNumber, (digitUnit_sub hsmall).2]
      · have hfront := ih (n / 10) (by omega)
        rw [decimal_of_ge (by omega), digitsNumber_append, hfront,
          (digitUnit_sub hdigit).2]
        omega

section Digits

variable {digits : JString}

theorem not_isWhiteSpace
    {c : UInt16}
    (hc : isDigit c = true) :
    isWhiteSpace c = false := by
  simp only [isDigit, Bool.and_eq_true, decide_eq_true_eq] at hc
  simp only [isWhiteSpace, Bool.or_eq_false_iff, Bool.and_eq_false_iff,
    decide_eq_false_iff_not, beq_eq_false_iff_ne, ne_eq, UInt16.le_iff_toNat_le,
    ← UInt16.toNat_inj, UInt16.reduceToNat]
  omega

theorem dropWhile_isWhiteSpace
    (hdigits : digits.all isDigit = true) :
    digits.dropWhile isWhiteSpace = digits := by
  cases digits with
  | nil => rfl
  | cons c rest =>
      have hc := List.all_eq_true.mp hdigits c List.mem_cons_self
      rw [List.dropWhile_cons, not_isWhiteSpace hc]
      rfl

theorem trim_digits
    (hdigits : digits.all isDigit = true) :
    trim digits = digits := by
  have hreverse : digits.reverse.all isDigit = true := by
    rw [List.all_reverse]
    exact hdigits
  unfold trim
  rw [dropWhile_isWhiteSpace hdigits, dropWhile_isWhiteSpace hreverse,
    List.reverse_reverse]

theorem unsignedLiteral_digits
    (hdigits : digits.all isDigit = true)
    (hne : digits ≠ []) :
    unsignedLiteral digits = .finite (digitsNumber digits) := by
  have hspan : digits.span isDigit = (digits, []) := by
    have hall := List.all_eq_true.mp hdigits
    rw [List.span_eq_takeWhile_dropWhile, List.takeWhile_eq_self_iff.mpr hall,
      List.dropWhile_eq_nil_iff.mpr hall]
  have hword : digits ≠ java "Infinity" := by
    rintro rfl
    exact absurd hdigits (by decide)
  unfold unsignedLiteral
  rw [if_neg hword, hspan]
  simp [fractionPart, exponentPart, hne]

/-- A string of digits is not read as a sign or as a literal of another
radix. -/
theorem numericLiteral_digits
    (hdigits : digits.all isDigit = true)
    (hne : digits ≠ []) :
    numericLiteral digits = .finite (digitsNumber digits) := by
  have hliteral := unsignedLiteral_digits hdigits hne
  unfold numericLiteral
  split
  · exact absurd rfl hne
  · simp [isDigit] at hdigits
  · simp [isDigit] at hdigits
  · rename_i c rest
    have hc : isDigit c = true :=
      List.all_eq_true.mp hdigits c (by simp)
    rw [if_neg, if_neg, if_neg, hliteral]
    all_goals
      rintro (rfl | rfl) <;> exact absurd hc (by decide)
  · exact hliteral

end Digits

theorem toNumber_decimal
    {n : ℕ}
    (hn : n < 2 ^ 53) :
    toNumber (decimal n) = .finite n := by
  have hdigits := isDigit_decimal n
  have hne : decimal n ≠ [] := List.ne_nil_of_length_pos (length_decimal_pos n)
  unfold toNumber
  rw [trim_digits hdigits, numericLiteral_digits hdigits hne,
    digitsNumber_decimal]
  exact nearestDouble_natCast hn

theorem geNumber_decimal
    {n : ℕ}
    (hn : n < 2 ^ 53)
    (bound : ℕ) :
    geNumber (decimal n) bound = decide (bound ≤ n) := by
  unfold geNumber
  rw [toNumber_decimal hn]
  simp

end JsText
end ClpszDemos
