import ClpszDemos.CJsonDouble
import ClpszDemos.CJsonGrammar
import ClpszDemos.CJsonParser

/-!
# The numbers of cJSON

`parse_number` reads the digits of a numeral into a `double`, the exponent into
an `int`, and multiplies by a power of ten in the end.  What comes out depends
on the numeral alone, and where nothing has to be rounded it is the number that
the numeral stands for.
-/

namespace ClpszDemos

namespace CJson

open CString

variable {δ : Type} (unit : DoubleUnit δ)

/-! ## What is computed -/

/-- `n=(n*10.0)+(*num++ -'0')` -/
def shift (m : δ) (d : Fin 10) : δ :=
  unit.add (unit.mul m (unit.ofInt 10)) (unit.ofInt d.val)

/-- `subscale` -/
def Exponent.subscale (e : Exponent) : BitVec 32 :=
  e.digits.foldl (fun m d => m * 10 + BitVec.ofNat 32 d.val) 0

/-- `subscale*signsubscale` -/
def Exponent.scaled (e : Exponent) : BitVec 32 :=
  if e.sign = some .minus then -e.subscale else e.subscale

/-- The number of the first digits, with one more -/
def nextDigit (m : ℕ) (d : Fin 10) : ℕ := m * 10 + d.val

namespace NumberText

def scaled (n : NumberText) : BitVec 32 :=
  (n.exponent.map Exponent.scaled).getD 0

/-- The `double` of a numeral -/
def double (n : NumberText) : δ :=
  let sign := unit.ofInt (if n.negative then -1 else 1)
  let digits := (n.integer ++ n.fraction).foldl (shift unit) (unit.ofInt 0)
  let scale := n.fraction.foldl
    (fun scale _ => unit.sub scale (unit.ofInt 1)) (unit.ofInt 0)
  unit.mul (unit.mul sign digits) (unit.pow (unit.ofInt 10)
    (unit.add scale (unit.ofInt n.scaled.toInt)))

end NumberText

/-! ## Numerals that do not have to be rounded -/

theorem digitsNumber_eq (digits : List (Fin 10)) :
    digitsNumber digits = digits.foldl nextDigit 0 := by
  unfold digitsNumber
  rw [Nat.ofDigits_eq_foldr, List.foldr_reverse, List.foldl_map]
  congr 1
  funext m d
  show d.val + 10 * m = m * 10 + d.val
  omega

theorem le_foldl_nextDigit (digits : List (Fin 10)) (m : ℕ) :
    m ≤ digits.foldl nextDigit m := by
  induction digits generalizing m with
  | nil => exact le_rfl
  | cons d digits ih =>
      have hnext : m ≤ nextDigit m d := by
        unfold nextDigit
        omega
      exact hnext.trans (ih (nextDigit m d))

theorem Exponent.subscale_eq (e : Exponent) :
    e.subscale = BitVec.ofNat 32 (digitsNumber e.digits) := by
  have hnext : ∀ (m : ℕ) (d : Fin 10), BitVec.ofNat 32 m * 10 +
      BitVec.ofNat 32 d.val = BitVec.ofNat 32 (nextDigit m d) := by
    intro m d
    unfold nextDigit
    rw [BitVec.ofNat_add, BitVec.ofNat_mul]
    rfl
  rw [digitsNumber_eq]
  exact List.foldl_hom (BitVec.ofNat 32) (fun m d => hnext m d)

/-- An exponent that fits an `int` is read as it is. -/
theorem Exponent.scaled_toInt (e : Exponent) (hint : |e.power| < 2 ^ 31) :
    e.scaled.toInt = e.power := by
  have hsub : e.subscale.toInt = (digitsNumber e.digits : ℤ).bmod (2 ^ 32) := by
    rw [e.subscale_eq, BitVec.toInt_ofNat']
  unfold Exponent.power at hint ⊢
  unfold Exponent.scaled
  split_ifs at hint ⊢ with hminus
  · rw [abs_neg, Nat.abs_cast] at hint
    rw [BitVec.toInt_neg, hsub, Int.bmod_neg_bmod]
    exact Int.bmod_eq_of_le (by omega) (by omega)
  · rw [Nat.abs_cast] at hint
    rw [hsub]
    exact Int.bmod_eq_of_le (by omega) (by omega)

theorem NumberText.scaled_toInt (n : NumberText)
    (hint : |(n.exponent.map Exponent.power).getD 0| < 2 ^ 31) :
    n.scaled.toInt = (n.exponent.map Exponent.power).getD 0 := by
  unfold NumberText.scaled
  cases hexponent : n.exponent with
  | none => rfl
  | some e =>
      rw [hexponent] at hint
      exact e.scaled_toInt hint

section Exact

variable {unit} {R : ℚ → Prop} {ofRat : ℚ → δ} (hexact : unit.Exact R ofRat)

include hexact

theorem shift_ofInt {m : ℕ} {d : Fin 10} (hle : nextDigit m d ≤ 2 ^ 53) :
    shift unit (unit.ofInt m) d = unit.ofInt (nextDigit m d) := by
  have hd := d.isLt
  unfold nextDigit at hle
  have hm : |(m : ℤ)| ≤ 2 ^ 53 := abs_le.mpr ⟨by omega, by omega⟩
  have hten : |(m : ℤ) * 10| ≤ 2 ^ 53 := abs_le.mpr ⟨by omega, by omega⟩
  have hdigit : |(d.val : ℤ)| ≤ 2 ^ 53 := abs_le.mpr ⟨by omega, by omega⟩
  have hsum : |(m : ℤ) * 10 + d.val| ≤ 2 ^ 53 := abs_le.mpr ⟨by omega, by omega⟩
  unfold shift nextDigit
  rw [hexact.mul_ofInt hm (by norm_num) hten (Or.inl ⟨by omega, by norm_num⟩),
    hexact.add_ofInt hten hdigit hsum]
  rfl

theorem foldl_shift {digits : List (Fin 10)} {m : ℕ}
    (hle : digits.foldl nextDigit m ≤ 2 ^ 53) :
    digits.foldl (shift unit) (unit.ofInt m) =
      unit.ofInt (digits.foldl nextDigit m : ℕ) := by
  induction digits generalizing m with
  | nil => rfl
  | cons d digits ih =>
      have hnext : nextDigit m d ≤ 2 ^ 53 :=
        (le_foldl_nextDigit digits (nextDigit m d)).trans hle
      rw [List.foldl_cons, List.foldl_cons, shift_ofInt hexact hnext]
      exact ih hle

theorem foldl_scale {digits : List (Fin 10)} {places : ℕ}
    (hle : places + digits.length ≤ 2 ^ 53) :
    digits.foldl (fun scale _ => unit.sub scale (unit.ofInt 1))
        (unit.ofInt (-places)) = unit.ofInt (-(places + digits.length : ℕ)) := by
  induction digits generalizing places with
  | nil => rfl
  | cons d digits ih =>
      rw [List.length_cons] at hle
      have hplaces : |-(places : ℤ)| ≤ 2 ^ 53 := abs_le.mpr ⟨by omega, by omega⟩
      have hnext : |-(places : ℤ) - 1| ≤ 2 ^ 53 := abs_le.mpr ⟨by omega, by omega⟩
      have hone : -(places : ℤ) - 1 = -((places + 1 : ℕ) : ℤ) := by omega
      rw [List.foldl_cons, hexact.sub_ofInt hplaces (by norm_num) hnext, hone,
        ih (by omega), List.length_cons, Nat.add_right_comm, Nat.add_assoc]

/-- The power of ten of a numeral that does not have to be rounded -/
theorem scale_eq {n : NumberText} (hn : n.IsExact R) :
    unit.pow (unit.ofInt 10) (unit.add
        (n.fraction.foldl (fun scale _ => unit.sub scale (unit.ofInt 1))
          (unit.ofInt 0)) (unit.ofInt n.scaled.toInt)) =
      ofRat (10 ^ n.power) := by
  have hplaces := hn.fraction_lt
  have hexponent := abs_lt.mp hn.exponent_lt
  have hscale : n.fraction.foldl
      (fun scale _ => unit.sub scale (unit.ofInt 1)) (unit.ofInt (-(0 : ℕ))) =
        unit.ofInt (-(0 + n.fraction.length : ℕ)) :=
    foldl_scale hexact (by omega)
  rw [Nat.zero_add] at hscale
  have hsum : -(n.fraction.length : ℤ) + n.scaled.toInt = n.power := by
    rw [n.scaled_toInt hn.exponent_lt]
    unfold NumberText.power
    omega
  have hpower : |n.power| ≤ 2 ^ 53 := by
    unfold NumberText.power
    exact abs_le.mpr ⟨by omega, by omega⟩
  have hscaled : |n.scaled.toInt| ≤ 2 ^ 53 := by
    rw [n.scaled_toInt hn.exponent_lt]
    exact abs_le.mpr ⟨by omega, by omega⟩
  have hlength : |-(n.fraction.length : ℤ)| ≤ 2 ^ 53 :=
    abs_le.mpr ⟨by omega, by omega⟩
  rw [show unit.ofInt 0 = unit.ofInt (-(0 : ℕ)) from rfl, hscale,
    hexact.add_ofInt hlength hscaled (by rw [hsum]; exact hpower), hsum,
    hexact.ofInt 10 (by norm_num), hexact.ofInt n.power hpower]
  exact_mod_cast hexact.pow n.power hpower hn.power

/-- The digits of such a numeral, with its sign -/
theorem signed_eq {n : NumberText} (hn : n.IsExact R) :
    unit.mul (unit.ofInt (if n.negative then -1 else 1))
        ((n.integer ++ n.fraction).foldl (shift unit) (unit.ofInt 0)) =
      unit.ofInt (if n.negative then -(n.significand : ℤ) else n.significand) := by
  have hle := hn.significand_le
  have hdigits : (n.integer ++ n.fraction).foldl (shift unit) (unit.ofInt 0) =
      unit.ofInt n.significand := by
    unfold NumberText.significand at hle ⊢
    rw [digitsNumber_eq] at hle ⊢
    exact foldl_shift hexact hle
  have hplus : |(n.significand : ℤ)| ≤ 2 ^ 53 := abs_le.mpr ⟨by omega, by omega⟩
  rw [hdigits]
  cases hnegative : n.negative with
  | false =>
      have hone : (1 : ℤ) * n.significand = n.significand := one_mul _
      have hproduct := hexact.mul_ofInt (show |(1 : ℤ)| ≤ 2 ^ 53 by norm_num)
        hplus (by rw [hone]; exact hplus) (Or.inl ⟨by norm_num, by omega⟩)
      rwa [hone] at hproduct
  | true =>
      have hminus : (-1 : ℤ) * n.significand = -n.significand := by omega
      have hzero := hn.nonzero hnegative
      have hproduct := hexact.mul_ofInt (show |(-1 : ℤ)| ≤ 2 ^ 53 by norm_num)
        hplus (by rw [hminus, abs_neg]; exact hplus) (Or.inr (by omega))
      rwa [hminus] at hproduct

/-- A numeral that does not have to be rounded becomes its number. -/
theorem double_eq {n : NumberText} (hn : n.IsExact R) :
    n.double unit = ofRat n.rational := by
  have hle := hn.significand_le
  have hinteger : |(if n.negative then -(n.significand : ℤ) else n.significand)|
      ≤ 2 ^ 53 := by
    split_ifs
    · exact abs_le.mpr ⟨by omega, by omega⟩
    · exact abs_le.mpr ⟨by omega, by omega⟩
  have hpositive : (0 : ℚ) < 10 ^ n.power := zpow_pos (by norm_num) n.power
  have hcast : ((if n.negative then -(n.significand : ℤ) else n.significand : ℤ) :
      ℚ) = if n.negative then -(n.significand : ℚ) else n.significand := by
    push_cast
    rfl
  unfold NumberText.double
  dsimp only
  rw [signed_eq hexact hn, scale_eq hexact hn, hexact.ofInt _ hinteger, hcast]
  apply hexact.mul _ _ _ hn.power hn.rational
  · cases hnegative : n.negative with
    | false =>
        exact Or.inl ⟨by simp, hpositive.le⟩
    | true =>
        have hzero : (n.significand : ℚ) ≠ 0 :=
          Nat.cast_ne_zero.mpr (hn.nonzero hnegative)
        exact Or.inr (mul_ne_zero (neg_ne_zero.mpr hzero) hpositive.ne')
  · rw [← hcast]
    exact hexact.integers _ hinteger

/-- The numerals of JSON become doubles in a way that does not round where
nothing has to be rounded. -/
theorem readsExactly_double : ReadsExactly R ofRat (NumberText.double unit) :=
  fun _ hn => double_eq hexact hn

end Exact

/-! ## `parse_number` -/

theorem isDigit_digitByte (d : Fin 10) : isDigit (digitByte d) = true := by
  revert d
  decide

theorem digitOf_digitByte (d : Fin 10) : digitOf (digitByte d) = d.val := by
  revert d
  decide

theorem integerLoop_digits (digits : List (Fin 10)) (n : δ) {rest : CString}
    (hrest : isDigit (deref rest) = false) :
    integerLoop unit n (digits.map digitByte ++ rest) =
      (digits.foldl (shift unit) n, rest) := by
  induction digits generalizing n with
  | nil =>
      cases rest with
      | nil => rfl
      | cons c rest =>
          have hc : isDigit c = false := hrest
          show integerLoop unit n (c :: rest) = (n, c :: rest)
          unfold integerLoop
          rw [hc]
          rfl
  | cons d digits ih =>
      show integerLoop unit n (digitByte d :: (digits.map digitByte ++ rest)) = _
      unfold integerLoop
      rw [if_pos (isDigit_digitByte d), digitOf_digitByte, ih]
      rfl

theorem fractionLoop_digits (digits : List (Fin 10)) (n scale : δ)
    {rest : CString} (hrest : isDigit (deref rest) = false) :
    fractionLoop unit n scale (digits.map digitByte ++ rest) =
      (digits.foldl (shift unit) n,
        digits.foldl (fun scale _ => unit.sub scale (unit.ofInt 1)) scale,
        rest) := by
  induction digits generalizing n scale with
  | nil =>
      cases rest with
      | nil => rfl
      | cons c rest =>
          have hc : isDigit c = false := hrest
          show fractionLoop unit n scale (c :: rest) = (n, scale, c :: rest)
          unfold fractionLoop
          rw [hc]
          rfl
  | cons d digits ih =>
      show fractionLoop unit n scale
        (digitByte d :: (digits.map digitByte ++ rest)) = _
      unfold fractionLoop
      rw [if_pos (isDigit_digitByte d), digitOf_digitByte, ih]
      rfl

theorem exponentLoop_digits (digits : List (Fin 10)) (n : BitVec 32)
    {rest : CString} (hrest : isDigit (deref rest) = false) :
    exponentLoop n (digits.map digitByte ++ rest) =
      (digits.foldl (fun m d => m * 10 + BitVec.ofNat 32 d.val) n, rest) := by
  induction digits generalizing n with
  | nil =>
      cases rest with
      | nil => rfl
      | cons c rest =>
          have hc : isDigit c = false := hrest
          show exponentLoop n (c :: rest) = (n, c :: rest)
          unfold exponentLoop
          rw [hc]
          rfl
  | cons d digits ih =>
      show exponentLoop n (digitByte d :: (digits.map digitByte ++ rest)) = _
      unfold exponentLoop
      rw [if_pos (isDigit_digitByte d), digitOf_digitByte, ih]
      rfl

/-- Bytes that end a number -/
structure EndsNumber (rest : CString) : Prop where
  digit : isDigit (deref rest) = false
  point : deref rest ≠ byte '.'
  exponent : deref rest ≠ byte 'e' ∧ deref rest ≠ byte 'E'

theorem deref_digits {digits : List (Fin 10)} (hne : digits ≠ [])
    (rest : CString) :
    ∃ d, deref (digits.map digitByte ++ rest) = digitByte d ∧
      digits.head? = some d := by
  cases digits with
  | nil => exact absurd rfl hne
  | cons d digits => exact ⟨d, rfl, rfl⟩

theorem parseExponent_exponent (e : Exponent) {rest : CString}
    (hrest : EndsNumber rest) :
    ∃ signsubscale, parseExponent (e.text ++ rest) =
      (e.subscale, signsubscale, rest) ∧
        e.subscale * signsubscale = e.scaled := by
  have hmark : ∀ tail : CString, deref (e.mark :: tail) = byte 'e' ∨
      deref (e.mark :: tail) = byte 'E' := fun _ => e.marked
  have hnotsign : ∀ d : Fin 10, digitByte d ≠ byte '+' ∧
      digitByte d ≠ byte '-' := by decide
  obtain ⟨d, hd, -⟩ := deref_digits e.nonempty rest
  have hloop : exponentLoop 0 (e.digits.map digitByte ++ rest) =
      (e.subscale, rest) := exponentLoop_digits e.digits 0 hrest.digit
  unfold Exponent.scaled Exponent.text
  cases e.sign with
  | none =>
      refine ⟨1, ?_, BitVec.mul_one _⟩
      show parseExponent (e.mark :: (e.digits.map digitByte ++ rest)) = _
      unfold parseExponent
      rw [if_pos (hmark _)]
      simp only [List.drop_succ_cons, List.drop_zero]
      rw [hd, if_neg (hnotsign d).1, if_neg (hnotsign d).2, hloop]
  | some sign =>
      cases sign with
      | plus =>
          refine ⟨1, ?_, BitVec.mul_one _⟩
          show parseExponent (e.mark :: byte '+' ::
            (e.digits.map digitByte ++ rest)) = _
          unfold parseExponent
          rw [if_pos (hmark _)]
          simp only [List.drop_succ_cons, List.drop_zero, deref_cons]
          rw [if_pos trivial, hloop]
      | minus =>
          refine ⟨-1, ?_, ?_⟩
          · show parseExponent (e.mark :: byte '-' ::
              (e.digits.map digitByte ++ rest)) = _
            unfold parseExponent
            rw [if_pos (hmark _)]
            simp only [List.drop_succ_cons, List.drop_zero, deref_cons]
            rw [if_neg (by decide), if_pos trivial, hloop]
          · rw [BitVec.mul_neg, if_pos rfl]
            exact congrArg Neg.neg (BitVec.mul_one _)

theorem parseExponent_text (n : NumberText) {rest : CString}
    (hrest : EndsNumber rest) :
    ∃ subscale signsubscale, parseExponent (n.exponentText ++ rest) =
      (subscale, signsubscale, rest) ∧ subscale * signsubscale = n.scaled := by
  unfold NumberText.exponentText NumberText.scaled
  cases n.exponent with
  | none =>
      refine ⟨0, 1, ?_, rfl⟩
      show parseExponent rest = _
      unfold parseExponent
      rw [if_neg (not_or.mpr hrest.exponent)]
  | some e =>
      exact ⟨e.subscale, parseExponent_exponent e hrest⟩

/-- What stands behind the digits in front of the point -/
theorem endsDigits_exponent (n : NumberText) {rest : CString}
    (hrest : EndsNumber rest) :
    isDigit (deref (n.exponentText ++ rest)) = false ∧
      deref (n.exponentText ++ rest) ≠ byte '.' := by
  unfold NumberText.exponentText
  cases n.exponent with
  | none => exact ⟨hrest.digit, hrest.point⟩
  | some e =>
      show isDigit e.mark = false ∧ e.mark ≠ byte '.'
      rcases e.marked with h | h <;> rw [h] <;> decide

theorem endsDigits_fraction (n : NumberText) {rest : CString}
    (hrest : EndsNumber rest) :
    isDigit (deref (n.fractionText ++ (n.exponentText ++ rest))) = false := by
  unfold NumberText.fractionText
  split_ifs with hfraction
  · exact (endsDigits_exponent n hrest).1
  · exact show isDigit (byte '.') = false by decide

/-- The sign in front of digits -/
theorem deref_integerText (n : NumberText) (tail : CString) :
    ∃ d, deref (n.integerText ++ tail) = digitByte d := by
  unfold NumberText.integerText
  split_ifs with hinteger
  · exact ⟨0, rfl⟩
  · obtain ⟨d, hd, -⟩ := deref_digits hinteger tail
    exact ⟨d, hd⟩

theorem integerPart_text (n : NumberText) {tail : CString}
    (htail : isDigit (deref tail) = false) :
    (let num := if deref (n.integerText ++ tail) = byte '0' then
        (n.integerText ++ tail).drop 1 else n.integerText ++ tail
    if byte '1' ≤ deref num ∧ deref num ≤ byte '9' then
      integerLoop unit (unit.ofInt 0) num
    else (unit.ofInt 0, num)) =
      (n.integer.foldl (shift unit) (unit.ofInt 0), tail) := by
  have hloop := integerLoop_digits unit n.integer (unit.ofInt 0) htail
  unfold NumberText.integerText
  by_cases hinteger : n.integer = []
  · rw [if_pos hinteger, hinteger]
    simp only [List.singleton_append, deref_cons, List.drop_succ_cons,
      List.drop_zero, if_true]
    rw [if_neg]
    · rfl
    · rintro ⟨hone, hnine⟩
      have hdigit : isDigit (deref tail) = true := by
        unfold isDigit
        rw [Bool.and_eq_true, decide_eq_true_eq, decide_eq_true_eq]
        exact ⟨UInt8.le_trans (by decide) hone, hnine⟩
      rw [hdigit] at htail
      exact absurd htail (by decide)
  · obtain ⟨d, hd, hhead⟩ := deref_digits hinteger tail
    have hd0 : d ≠ 0 := by
      intro hzero
      exact n.leading (by rw [hhead, hzero])
    have hnonzero : ∀ d : Fin 10, d ≠ 0 → digitByte d ≠ byte '0' ∧
        byte '1' ≤ digitByte d ∧ digitByte d ≤ byte '9' := by decide
    rw [if_neg hinteger]
    dsimp only
    rw [hd, if_neg (hnonzero d hd0).1, hd, if_pos (hnonzero d hd0).2, hloop]

theorem fractionPart_text (n : NumberText) (m : δ) {rest : CString}
    (hrest : EndsNumber rest) :
    (if deref (n.fractionText ++ (n.exponentText ++ rest)) = byte '.' ∧
        isDigit (deref ((n.fractionText ++ (n.exponentText ++ rest)).drop 1)) then
      fractionLoop unit m (unit.ofInt 0)
        ((n.fractionText ++ (n.exponentText ++ rest)).drop 1)
    else (m, unit.ofInt 0, n.fractionText ++ (n.exponentText ++ rest))) =
      (n.fraction.foldl (shift unit) m,
        n.fraction.foldl (fun scale _ => unit.sub scale (unit.ofInt 1))
          (unit.ofInt 0), n.exponentText ++ rest) := by
  have hends := endsDigits_exponent n hrest
  unfold NumberText.fractionText
  by_cases hfraction : n.fraction = []
  · rw [if_pos hfraction, hfraction, List.nil_append,
      if_neg fun h => hends.2 h.1]
    rfl
  · obtain ⟨d, hd, -⟩ := deref_digits hfraction (n.exponentText ++ rest)
    rw [if_neg hfraction, List.cons_append, List.drop_succ_cons, List.drop_zero,
      if_pos ⟨rfl, by rw [hd]; exact isDigit_digitByte d⟩]
    exact fractionLoop_digits unit n.fraction m (unit.ofInt 0) hends.1

theorem parseNumber_text (n : NumberText) (item : Fields δ) {rest : CString}
    (hrest : EndsNumber rest) :
    parseNumber unit item (n.text ++ rest) =
      ({ item with
        valuedouble := n.double unit
        valueint := unit.toInt (n.double unit)
        type := typeNumber }, rest) := by
  have hsign : (if deref (n.text ++ rest) = byte '-' then
      (unit.ofInt (-1), (n.text ++ rest).drop 1)
      else (unit.ofInt 1, n.text ++ rest)) =
        (unit.ofInt (if n.negative then -1 else 1),
          n.integerText ++ (n.fractionText ++ (n.exponentText ++ rest))) := by
    have htext : n.text ++ rest = (if n.negative then [byte '-'] else []) ++
        (n.integerText ++ (n.fractionText ++ (n.exponentText ++ rest))) := by
      unfold NumberText.text
      simp only [List.append_assoc]
    rw [htext]
    cases n.negative with
    | true => rfl
    | false =>
        obtain ⟨d, hd⟩ := deref_integerText n
          (n.fractionText ++ (n.exponentText ++ rest))
        have hnotsign : ∀ d : Fin 10, digitByte d ≠ byte '-' := by decide
        simp only [Bool.false_eq_true, if_false, List.nil_append]
        rw [hd, if_neg (hnotsign d)]
  obtain ⟨subscale, signsubscale, hexponent, hpower⟩ :=
    parseExponent_text n hrest
  have hinteger := integerPart_text unit n (endsDigits_fraction n hrest)
  have hfraction := fractionPart_text unit n
    (n.integer.foldl (shift unit) (unit.ofInt 0)) hrest
  have hvalue : n.double unit = unit.mul
      (unit.mul (unit.ofInt (if n.negative then -1 else 1))
        (n.fraction.foldl (shift unit)
          (n.integer.foldl (shift unit) (unit.ofInt 0))))
      (unit.pow (unit.ofInt 10) (unit.add
        (n.fraction.foldl (fun scale _ => unit.sub scale (unit.ofInt 1))
          (unit.ofInt 0)) (unit.ofInt n.scaled.toInt))) := by
    unfold NumberText.double
    rw [List.foldl_append]
  unfold parseNumber
  rw [hsign]
  dsimp only at hinteger ⊢
  rw [hinteger]
  dsimp only
  rw [hfraction]
  dsimp only
  rw [hexponent]
  dsimp only
  rw [hpower, ← hvalue]

end CJson

end ClpszDemos
