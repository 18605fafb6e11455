import Mathlib.Tactic
import ClpszDemos.ProgramLogic

/-!
# Java text and decimal numbers

A Java string is the list of its UTF-16 code units, so `length`, `substring`
and `charAt` count code units.  The functions here are those of the standard
library and of commons-lang3 that routing by number and by key uses: printing
and parsing decimal numbers, padding and slicing.
-/

namespace ClpszDemos

abbrev JString := List UInt16

namespace JavaText

/-- The code units of one character: a surrogate pair from U+10000 on. -/
def utf16 (c : Char) : JString :=
  if c.toNat < 0x10000 then
    [c.toNat.toUInt16]
  else
    [(0xD800 + (c.toNat - 0x10000) / 0x400).toUInt16,
      (0xDC00 + (c.toNat - 0x10000) % 0x400).toUInt16]

def java (s : String) : JString :=
  s.toList.flatMap utf16

/-- The exceptions that code can throw; the message where the code sets it. -/
inductive Thrown
  | nullPointer
  | illegalArgument (message : JString)
  | numberFormat (message : JString)
  | sql (message : JString)
  | thrown (className : JString)
  deriving DecidableEq

/-! ## Printing numbers -/

def digitUnit (d : Nat) : UInt16 :=
  (48 + d).toUInt16

def decimal (n : Nat) : JString :=
  (Nat.toDigits 10 n).map fun c => c.toNat.toUInt16

/-- `Long.toString`. -/
def longToString (n : Int) : JString :=
  if n < 0 then 45 :: decimal n.natAbs else decimal n.natAbs

/-- The last `k` decimal digits of a number, leading zeros included. -/
def zeroPadded : Nat → Nat → JString
  | 0, _ => []
  | k + 1, n => zeroPadded k (n / 10) ++ [digitUnit (n % 10)]

/-! ## Parsing numbers -/

/-- The zeros of the decimal digit blocks of the basic multilingual plane. -/
def digitZeros : List Nat :=
  [0x0030, 0x0660, 0x06F0, 0x07C0, 0x0966, 0x09E6, 0x0A66, 0x0AE6, 0x0B66,
    0x0BE6, 0x0C66, 0x0CE6, 0x0D66, 0x0E50, 0x0ED0, 0x0F20, 0x1040, 0x1090,
    0x17E0, 0x1810, 0x1946, 0x19D0, 0x1A80, 0x1A90, 0x1B50, 0x1BB0, 0x1C40,
    0x1C50, 0xA620, 0xA8D0, 0xA900, 0xA9D0, 0xAA50, 0xABF0, 0xFF10]

/-- `Character.digit(c, 10)`, with no value for -1. -/
def characterDigit (c : UInt16) : Option Nat :=
  (digitZeros.find? fun base => base ≤ c.toNat && c.toNat < base + 10).map
    fun base => c.toNat - base

def digitsValue : JString → Nat → Option Nat
  | [], value => some value
  | c :: rest, value =>
      match characterDigit c with
      | none => none
      | some digit => digitsValue rest (10 * value + digit)

def unsignedValue (s : JString) : Option Nat :=
  if s = [] then none else digitsValue s 0

def signedValue : JString → Option Int
  | 45 :: digits => (unsignedValue digits).map fun n => -(n : Int)
  | 43 :: digits => (unsignedValue digits).map fun n => (n : Int)
  | digits => (unsignedValue digits).map fun n => (n : Int)

/-- The values of a `long`. -/
def InLong (n : Int) : Prop :=
  -2 ^ 63 ≤ n ∧ n < 2 ^ 63

instance (n : Int) : Decidable (InLong n) :=
  inferInstanceAs (Decidable (_ ∧ _))

/-- `Long.parseLong`; `none` is the null reference. -/
def parseLong : Option JString → Except Thrown Int
  | none => .error (.numberFormat (java "null"))
  | some s =>
      match signedValue s with
      | none =>
          .error (.numberFormat (java "For input string: \"" ++ s ++ java "\""))
      | some n =>
          if InLong n then
            .ok n
          else
            .error
              (.numberFormat (java "For input string: \"" ++ s ++ java "\""))

/-! ## `StringUtils` -/

def isEmpty : Option JString → Bool
  | none => true
  | some s => s.isEmpty

/-- `StringUtils.leftPad` with a pad string of one code unit. -/
def leftPad (s : JString) (size : Nat) (pad : UInt16) : JString :=
  List.leftpad size pad s

/-- `StringUtils.substring`: a negative position counts from the end. -/
def substring (s : JString) (start stop : Int) : JString :=
  let stop := if stop < 0 then s.length + stop else stop
  let start := if start < 0 then s.length + start else start
  let stop := if s.length < stop then (s.length : Int) else stop
  if stop < start then
    []
  else
    (s.take stop.toNat).drop start.toNat

/-! ## Facts -/

theorem digitChar_toUInt16
    {d : Nat}
    (hd : d < 10) :
    d.digitChar.toNat.toUInt16 = digitUnit d := by
  interval_cases d <;> rfl

@[simp] theorem characterDigit_digitUnit
    {d : Nat}
    (hd : d < 10) :
    characterDigit (digitUnit d) = some d := by
  interval_cases d <;> rfl

theorem decimal_of_lt
    {n : Nat}
    (hn : n < 10) :
    decimal n = [digitUnit n] := by
  unfold decimal
  rw [Nat.toDigits_of_lt_base hn]
  simp [digitChar_toUInt16 hn]

theorem decimal_of_ge
    {n : Nat}
    (hn : 10 ≤ n) :
    decimal n = decimal (n / 10) ++ [digitUnit (n % 10)] := by
  have hdigit : n % 10 < 10 := Nat.mod_lt n (by omega)
  unfold decimal
  rw [Nat.toDigits_of_base_le (by omega) hn]
  simp [digitChar_toUInt16 hdigit]

theorem length_decimal_pos
    (n : Nat) :
    0 < (decimal n).length := by
  unfold decimal
  rw [List.length_map]
  exact Nat.length_toDigits_pos

theorem digitsValue_append
    (digits rest : JString)
    (value : Nat) :
    digitsValue (digits ++ rest) value =
      (digitsValue digits value).bind (digitsValue rest) := by
  induction digits generalizing value with
  | nil => simp [digitsValue]
  | cons c digits ih =>
      simp only [List.cons_append, digitsValue]
      cases characterDigit c with
      | none => rfl
      | some digit => exact ih (10 * value + digit)

theorem digitsValue_decimal
    (n : Nat) :
    digitsValue (decimal n) 0 = some n := by
  induction n using Nat.strong_induction_on with
  | _ n ih =>
      by_cases hsmall : n < 10
      · rw [decimal_of_lt hsmall]
        simp [digitsValue, hsmall]
      · have hprefix := ih (n / 10) (by omega)
        have hdigit : n % 10 < 10 := Nat.mod_lt n (by omega)
        rw [decimal_of_ge (by omega), digitsValue_append, hprefix]
        simp only [Option.bind_some, digitsValue, characterDigit_digitUnit hdigit]
        congr 1
        omega

/-- The first unit of a printed number is a digit, not a sign. -/
theorem decimal_ne_sign
    (n : Nat)
    (rest : JString) :
    decimal n ≠ 45 :: rest ∧ decimal n ≠ 43 :: rest := by
  have hvalue := digitsValue_decimal n
  constructor
  · intro hsign
    rw [hsign] at hvalue
    simp [digitsValue, show characterDigit 45 = none from rfl] at hvalue
  · intro hsign
    rw [hsign] at hvalue
    simp [digitsValue, show characterDigit 43 = none from rfl] at hvalue

theorem unsignedValue_decimal
    (n : Nat) :
    unsignedValue (decimal n) = some n := by
  have hpos := length_decimal_pos n
  have hne : decimal n ≠ [] := List.ne_nil_of_length_pos hpos
  simp [unsignedValue, hne, digitsValue_decimal]

theorem signedValue_decimal
    (n : Nat) :
    signedValue (decimal n) = some (n : Int) := by
  unfold signedValue
  split
  · rename_i digits hsign
    exact absurd hsign (decimal_ne_sign n digits).1
  · rename_i digits hsign
    exact absurd hsign (decimal_ne_sign n digits).2
  · simp [unsignedValue_decimal]

theorem signedValue_longToString
    (n : Int) :
    signedValue (longToString n) = some n := by
  unfold longToString
  by_cases hneg : n < 0
  · have habs : -(n.natAbs : Int) = n := by omega
    rw [if_pos hneg]
    simp only [signedValue, unsignedValue_decimal]
    exact congrArg some habs
  · rw [if_neg hneg, signedValue_decimal]
    congr 1
    omega

theorem parseLong_longToString
    {n : Int}
    (hn : InLong n) :
    parseLong (some (longToString n)) = .ok n := by
  unfold parseLong
  simp [signedValue_longToString, hn]

theorem longToString_of_nonneg
    {n : Int}
    (hn : 0 ≤ n) :
    longToString n = decimal n.toNat := by
  unfold longToString
  rw [if_neg (by omega)]
  congr 1
  omega

theorem isEmpty_longToString
    (n : Int) :
    isEmpty (some (longToString n)) = false := by
  have hpos := length_decimal_pos n.natAbs
  unfold longToString isEmpty
  by_cases hneg : n < 0
  · rw [if_pos hneg]
    rfl
  · rw [if_neg hneg]
    simpa using List.ne_nil_of_length_pos hpos

@[simp] theorem length_zeroPadded
    (k n : Nat) :
    (zeroPadded k n).length = k := by
  induction k generalizing n with
  | zero => rfl
  | succ k ih => simp [zeroPadded, ih]

theorem zeroPadded_zero
    (k : Nat) :
    zeroPadded k 0 = List.replicate k 48 := by
  induction k with
  | zero => rfl
  | succ k ih =>
      have hunit : digitUnit 0 = 48 := rfl
      simp [zeroPadded, ih, hunit, List.replicate_succ']

theorem leftPad_concat
    (s : JString)
    (size : Nat)
    (pad unit : UInt16) :
    leftPad (s ++ [unit]) (size + 1) pad = leftPad s size pad ++ [unit] := by
  simp [leftPad, List.leftpad]

/-- Padding a number to a width it fits in writes its digits with zeros in
front. -/
theorem leftPad_decimal
    {k n : Nat}
    (hn : n < 10 ^ (k + 1)) :
    leftPad (decimal n) (k + 1) 48 = zeroPadded (k + 1) n := by
  induction k generalizing n with
  | zero =>
      have hsmall : n < 10 := by simpa using hn
      rw [decimal_of_lt hsmall]
      simp [leftPad, List.leftpad, zeroPadded, Nat.mod_eq_of_lt hsmall]
  | succ k ih =>
      by_cases hsmall : n < 10
      · have hquot : n / 10 = 0 := Nat.div_eq_of_lt hsmall
        have hrem : n % 10 = n := Nat.mod_eq_of_lt hsmall
        rw [decimal_of_lt hsmall, zeroPadded, hquot, hrem, zeroPadded_zero]
        simp [leftPad, List.leftpad]
      · have hquot : n / 10 < 10 ^ (k + 1) := by
          rw [Nat.pow_succ] at hn
          omega
        rw [decimal_of_ge (by omega), leftPad_concat, ih hquot]
        rfl

theorem leftPad_of_length_le
    {s : JString}
    {size : Nat}
    (hlength : size ≤ s.length)
    (pad : UInt16) :
    leftPad s size pad = s := by
  have hnone : size - s.length = 0 := by omega
  simp [leftPad, List.leftpad, hnone]

theorem substring_of_le
    {s : JString}
    {start stop : Nat}
    (horder : start ≤ stop)
    (hstop : stop ≤ s.length) :
    substring s start stop = (s.take stop).drop start := by
  have hstart' : ¬ ((start : Int) < 0) := by omega
  have hstop' : ¬ ((stop : Int) < 0) := by omega
  have hlength : ¬ ((s.length : Int) < stop) := by omega
  have horder' : ¬ ((stop : Int) < start) := by omega
  simp [substring, hstart', hstop', hlength, horder']

end JavaText
end ClpszDemos
