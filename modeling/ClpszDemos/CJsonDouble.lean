import ClpszDemos.CJsonItems
import Mathlib.Data.Rat.Floor
import Mathlib.Data.Int.Log

/-!
# Floating point

What the parser and the printer rely on in `double` and `sprintf`, and the
rational numbers as a `double` that never rounds.
-/

namespace ClpszDemos

namespace CJson

variable {δ : Type}

/-- What `sprintf` writes fits into 64 bytes with its NUL, for the numbers that
`print_number` writes in the format. -/
structure DoubleUnit.Formats (unit : DoubleUnit δ) : Prop where
  fixed0 : ∀ d, unit.lt (unit.fabs d) (unit.ofInt (10 ^ 60)) = true →
    (unit.sprintf .fixed0 d).length < 64
  exponent : ∀ d, (unit.sprintf .exponent d).length < 64
  fixed : ∀ d, unit.lt (unit.ofInt (10 ^ 9)) (unit.fabs d) = false →
    (unit.sprintf .fixed d).length < 64

/-- `double` is exact on integers up to `2^53`; a product is zero without a sign
when neither factor is negative. -/
structure DoubleUnit.ExactInts (unit : DoubleUnit δ) : Prop where
  add : ∀ a b : ℤ, |a| ≤ 2 ^ 53 → |b| ≤ 2 ^ 53 → |a + b| ≤ 2 ^ 53 →
    unit.add (unit.ofInt a) (unit.ofInt b) = unit.ofInt (a + b)
  mul : ∀ a b : ℤ, |a| ≤ 2 ^ 53 → |b| ≤ 2 ^ 53 → |a * b| ≤ 2 ^ 53 →
    0 ≤ a ∧ 0 ≤ b ∨ a * b ≠ 0 →
      unit.mul (unit.ofInt a) (unit.ofInt b) = unit.ofInt (a * b)
  pow : unit.pow (unit.ofInt 10) (unit.ofInt 0) = unit.ofInt 1
  toInt : ∀ n : BitVec 32, unit.toInt (unit.ofInt n.toInt) = n
  close : ∀ a : ℤ, |a| ≤ 2 ^ 53 → unit.le (unit.fabs
    (unit.sub (unit.ofInt a) (unit.ofInt a))) unit.epsilon = true
  le : ∀ a b : ℤ, |a| ≤ 2 ^ 53 → |b| ≤ 2 ^ 53 → a ≤ b →
    unit.le (unit.ofInt a) (unit.ofInt b) = true

/-- The numbers in `R` are doubles, among them the integers up to `2^53`, and an
operation with a result in `R` is exact, a power of ten included.  A product
is zero without a sign when neither factor is negative. -/
structure DoubleUnit.Exact (unit : DoubleUnit δ) (R : ℚ → Prop)
    (ofRat : ℚ → δ) : Prop where
  integers : ∀ n : ℤ, |n| ≤ 2 ^ 53 → R n
  ofInt : ∀ n : ℤ, |n| ≤ 2 ^ 53 → unit.ofInt n = ofRat n
  add : ∀ a b, R a → R b → R (a + b) →
    unit.add (ofRat a) (ofRat b) = ofRat (a + b)
  sub : ∀ a b, R a → R b → R (a - b) →
    unit.sub (ofRat a) (ofRat b) = ofRat (a - b)
  mul : ∀ a b, R a → R b → R (a * b) → 0 ≤ a ∧ 0 ≤ b ∨ a * b ≠ 0 →
    unit.mul (ofRat a) (ofRat b) = ofRat (a * b)
  pow : ∀ k : ℤ, |k| ≤ 2 ^ 53 → R (10 ^ k) →
    unit.pow (ofRat 10) (ofRat k) = ofRat (10 ^ k)

namespace DoubleUnit.Exact

variable {unit : DoubleUnit δ} {R : ℚ → Prop} {ofRat : ℚ → δ}
  (hexact : unit.Exact R ofRat) {a b : ℤ} (ha : |a| ≤ 2 ^ 53) (hb : |b| ≤ 2 ^ 53)

include hexact ha hb

theorem add_ofInt (hsum : |a + b| ≤ 2 ^ 53) :
    unit.add (unit.ofInt a) (unit.ofInt b) = unit.ofInt (a + b) := by
  have hR := hexact.integers (a + b) hsum
  rw [Int.cast_add] at hR
  rw [hexact.ofInt a ha, hexact.ofInt b hb, hexact.ofInt (a + b) hsum,
    Int.cast_add]
  exact hexact.add a b (hexact.integers a ha) (hexact.integers b hb) hR

theorem sub_ofInt (hdiff : |a - b| ≤ 2 ^ 53) :
    unit.sub (unit.ofInt a) (unit.ofInt b) = unit.ofInt (a - b) := by
  have hR := hexact.integers (a - b) hdiff
  rw [Int.cast_sub] at hR
  rw [hexact.ofInt a ha, hexact.ofInt b hb, hexact.ofInt (a - b) hdiff,
    Int.cast_sub]
  exact hexact.sub a b (hexact.integers a ha) (hexact.integers b hb) hR

theorem mul_ofInt (hproduct : |a * b| ≤ 2 ^ 53)
    (hsign : 0 ≤ a ∧ 0 ≤ b ∨ a * b ≠ 0) :
    unit.mul (unit.ofInt a) (unit.ofInt b) = unit.ofInt (a * b) := by
  have hR := hexact.integers (a * b) hproduct
  rw [Int.cast_mul] at hR
  rw [hexact.ofInt a ha, hexact.ofInt b hb, hexact.ofInt (a * b) hproduct,
    Int.cast_mul]
  apply hexact.mul a b (hexact.integers a ha) (hexact.integers b hb) hR
  exact_mod_cast hsign

end DoubleUnit.Exact

/-! ## Rational numbers -/

/-- A number with `places` digits behind the point -/
def fixedText (places : ℕ) (q : ℚ) : CString :=
  let digits := (Nat.toDigits 10 (round (|q| * 10 ^ places)).toNat).map byte
  let padded := List.replicate (places + 1 - digits.length) (byte '0') ++ digits
  let integer := padded.take (padded.length - places)
  (if q < 0 then [byte '-'] else []) ++ integer ++
    if places = 0 then [] else byte '.' :: padded.drop (padded.length - places)

def exponentText (q : ℚ) : CString :=
  let e := if q = 0 then 0 else Int.log 10 |q|
  let digits := (Nat.toDigits 10 e.natAbs).map byte
  fixedText 6 (q / 10 ^ e) ++ byte 'e' ::
    (if e < 0 then byte '-' else byte '+') ::
      (List.replicate (2 - digits.length) (byte '0') ++ digits)

/-- The rational numbers, with texts of at most 63 bytes -/
def rationals : DoubleUnit ℚ where
  ofInt n := n
  toInt q := BitVec.ofInt 32 (Int.tdiv q.num q.den)
  add := (· + ·)
  sub := (· - ·)
  mul := (· * ·)
  pow a b := a ^ b.num
  fabs q := |q|
  floor q := ⌊q⌋
  le a b := a ≤ b
  lt a b := a < b
  epsilon := 1 / 2 ^ 52
  millionth := 1 / 1000000
  sprintf
    | .fixed0, q => (fixedText 0 q).take 63
    | .exponent, q => (exponentText q).take 63
    | .fixed, q => (fixedText 6 q).take 63

theorem rationals_formats : rationals.Formats where
  fixed0 _ _ := Nat.lt_succ_of_le (List.length_take_le 63 _)
  exponent _ := Nat.lt_succ_of_le (List.length_take_le 63 _)
  fixed _ _ := Nat.lt_succ_of_le (List.length_take_le 63 _)

theorem rationals_exact : rationals.Exact (fun _ => True) id where
  integers _ _ := trivial
  ofInt _ _ := rfl
  add _ _ _ _ _ := rfl
  sub _ _ _ _ _ := rfl
  mul _ _ _ _ _ _ := rfl
  pow k _ _ := by
    show (10 : ℚ) ^ ((k : ℚ)).num = 10 ^ k
    rw [Rat.num_intCast]

theorem rationals_exactInts : rationals.ExactInts where
  add a b _ _ _ := (Int.cast_add a b).symm
  mul a b _ _ _ _ := (Int.cast_mul a b).symm
  pow := by
    show ((10 : ℤ) : ℚ) ^ ((0 : ℤ) : ℚ).num = ((1 : ℤ) : ℚ)
    norm_num
  toInt n := by
    show BitVec.ofInt 32 (Int.tdiv ((n.toInt : ℚ)).num ((n.toInt : ℚ)).den) = n
    rw [Rat.num_intCast, Rat.den_intCast, Nat.cast_one, Int.tdiv_one,
      BitVec.ofInt_toInt]
  close a _ := by
    show decide (|(a : ℚ) - a| ≤ 1 / 2 ^ 52) = true
    rw [sub_self, abs_zero]
    exact decide_eq_true (by norm_num)
  le a b _ _ hle := decide_eq_true (Int.cast_le.mpr hle)

end CJson

end ClpszDemos
