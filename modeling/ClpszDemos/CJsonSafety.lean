import ClpszDemos.CJsonParsing

/-!
# The parser stays in its text

`parse_string` runs over a string once to measure it and a second time to copy
it, and the second loop takes more bytes for an escape than the first.  In a
text whose escapes are complete the two come to the same end; the parser then
reads nothing behind the text and writes nothing behind the block that it
measured, whatever else the text is.
-/

namespace ClpszDemos

namespace CJson

open CString

/-! ## Complete escapes -/

/-- From behind a quote to the byte that ends the string.  `\u` takes the four
bytes behind it along if they neither end the string nor begin an escape; they
need not be digits. -/
inductive Scans : CString → CString → Prop
  | stop {rest : CString} (hstop : deref rest = byte '"' ∨ deref rest = 0) :
      Scans rest rest
  | plain {c : UInt8} {raw rest : CString} (hplain : IsPlain c)
      (hraw : Scans raw rest) : Scans (c :: raw) rest
  | pair {c : UInt8} {raw rest : CString} (hc : c ≠ byte 'u')
      (hraw : Scans raw rest) : Scans (byte '\\' :: c :: raw) rest
  | unit {a b c d : UInt8} {raw rest : CString} (ha : IsPlain a)
      (hb : IsPlain b) (hc : IsPlain c) (hd : IsPlain d)
      (hraw : Scans raw rest) :
      Scans (byte '\\' :: byte 'u' :: a :: b :: c :: d :: raw) rest

/-- Behind each quote the escapes are complete up to the next one. -/
def Complete (text : CString) : Prop :=
  ∀ raw, byte '"' :: raw <:+ text → ∃ rest, Scans raw rest

theorem Complete.suffix {text rest : CString} (htext : Complete text)
    (hrest : rest <:+ text) : Complete rest :=
  fun raw hraw => htext raw (hraw.trans hrest)

namespace Scans

theorem ends {raw rest : CString} (h : Scans raw rest) :
    deref rest = byte '"' ∨ deref rest = 0 := by
  induction h with
  | stop hstop => exact hstop
  | plain hplain hraw ih => exact ih
  | pair hc hraw ih => exact ih
  | unit ha hb hc hd hraw ih => exact ih

theorem suffix {raw rest : CString} (h : Scans raw rest) : rest <:+ raw := by
  induction h with
  | stop hstop => exact List.suffix_refl _
  | plain hplain hraw ih => exact ih.trans (List.suffix_cons _ _)
  | pair hc hraw ih =>
      exact ih.trans ((List.suffix_cons _ _).trans (List.suffix_cons _ _))
  | @unit a b c d raw rest ha hb hc hd hraw ih =>
      exact ih.trans ⟨[byte '\\', byte 'u', a, b, c, d], rfl⟩

/-- What a backslash, a `u` and the scan behind them say about the next bytes -/
theorem unit_inv {raw rest : CString}
    (h : Scans (byte '\\' :: byte 'u' :: raw) rest) :
    ∃ a b c d tail, raw = a :: b :: c :: d :: tail ∧ IsPlain a ∧ IsPlain b ∧
      IsPlain c ∧ IsPlain d ∧ Scans tail rest := by
  cases h with
  | stop hstop =>
      rcases hstop with hstop | hstop
      · exact absurd hstop (show ¬byte '\\' = byte '"' by decide)
      · exact absurd hstop (show ¬byte '\\' = 0 by decide)
  | plain hplain hraw => exact absurd rfl hplain.2.2
  | pair hc hraw => exact absurd rfl hc
  | unit ha hb hc hd hraw => exact ⟨_, _, _, _, _, rfl, ha, hb, hc, hd, hraw⟩

end Scans

/-! ## One round -/

theorem length_utf8Bytes (uc : UInt32) : (utf8Bytes uc).length ≤ 4 := by
  unfold utf8Bytes
  dsimp only
  split_ifs <;> simp

theorem countedLength_unit {a b c d : UInt8} (ha : IsPlain a) (hb : IsPlain b)
    (hc : IsPlain c) (hd : IsPlain d) (ptr : CString) :
    countedLength (byte '\\' :: byte 'u' :: a :: b :: c :: d :: ptr) =
      (· + 5) <$> countedLength ptr := by
  rw [countedLength_backslash, countedLength_plain ha, countedLength_plain hb,
    countedLength_plain hc, countedLength_plain hd]
  simp only [Functor.map_map]

/-- `case 'u'` when no second unit follows -/
theorem unicodeEscape_alone (a b c d : UInt8) {raw : CString}
    (hraw : deref raw = byte '\\' → deref (raw.drop 1) ≠ byte 'u') :
    ∃ written, unicodeEscape (byte 'u' :: a :: b :: c :: d :: raw) =
      .ok (written, d :: raw) ∧ written.length ≤ 4 := by
  have hfour : advance 4 (byte 'u' :: a :: b :: c :: d :: raw) =
      .ok (d :: raw) := by
    simp only [advance_cons, advance_zero]
  unfold unicodeEscape
  rw [hfour]
  generalize parseHex4 _ = uc
  by_cases hinvalid : (0xDC00 ≤ uc ∧ uc ≤ 0xDFFF) ∨ uc = 0
  · exact ⟨[], if_pos hinvalid, Nat.zero_le _⟩
  by_cases hhigh : 0xD800 ≤ uc ∧ uc ≤ 0xDBFF
  · refine ⟨[], (if_neg hinvalid).trans ((if_pos hhigh).trans ?_), Nat.zero_le _⟩
    have hfirst : read 1 (d :: raw) = .ok (deref raw) := read_eq_ok (by simp)
    rw [hfirst]
    by_cases hback : deref raw = byte '\\'
    · obtain ⟨tail, rfl⟩ : ∃ tail, raw = byte '\\' :: tail := by
        have hnul : deref raw ≠ 0 := by
          rw [hback]
          decide
        have hcons := eq_cons_of_deref_ne hnul
        rw [hback] at hcons
        exact ⟨_, hcons⟩
      have hsecond : read 2 (d :: byte '\\' :: tail) = .ok (deref tail) :=
        read_eq_ok (by simp)
      show (read 2 (d :: byte '\\' :: tail) >>= fun second =>
        if second ≠ byte 'u' then Except.ok ([], d :: byte '\\' :: tail)
        else _) = _
      rw [hsecond]
      exact if_pos (hraw hback)
    · exact if_pos hback
  · exact ⟨utf8Bytes uc, (if_neg hinvalid).trans (if_neg hhigh),
      length_utf8Bytes uc⟩

/-- `case 'u'` with a second unit, which is taken along or not -/
theorem unicodeEscape_two (a b c d a' b' c' d' : UInt8) (tail : CString) :
    ∃ written last middle, unicodeEscape (byte 'u' :: a :: b :: c :: d ::
        byte '\\' :: byte 'u' :: a' :: b' :: c' :: d' :: tail) =
          .ok (written, last :: middle) ∧ written.length ≤ 4 ∧
      (middle = byte '\\' :: byte 'u' :: a' :: b' :: c' :: d' :: tail ∨
        middle = tail) := by
  have hfour : advance 4 (byte 'u' :: a :: b :: c :: d :: byte '\\' ::
      byte 'u' :: a' :: b' :: c' :: d' :: tail) =
        .ok (d :: byte '\\' :: byte 'u' :: a' :: b' :: c' :: d' :: tail) := by
    simp only [advance_cons, advance_zero]
  unfold unicodeEscape
  rw [hfour]
  generalize parseHex4 (List.drop 1 _) = uc
  by_cases hinvalid : (0xDC00 ≤ uc ∧ uc ≤ 0xDFFF) ∨ uc = 0
  · exact ⟨[], d, _, if_pos hinvalid, Nat.zero_le _, Or.inl rfl⟩
  by_cases hhigh : 0xD800 ≤ uc ∧ uc ≤ 0xDBFF
  · have hboth : ∀ uc2 bytes : UInt32, ∃ written,
        (if uc2 < 0xDC00 ∨ uc2 > 0xDFFF then Except.ok ([], d' :: tail)
          else Except.ok (utf8Bytes bytes, d' :: tail) :
            Except Trap (List UInt8 × CString)) = .ok (written, d' :: tail) ∧
        written.length ≤ 4 := by
      intro uc2 bytes
      by_cases hlow : uc2 < 0xDC00 ∨ uc2 > 0xDFFF
      · exact ⟨[], if_pos hlow, Nat.zero_le _⟩
      · exact ⟨utf8Bytes bytes, if_neg hlow, length_utf8Bytes bytes⟩
    obtain ⟨written, hwritten, hsize⟩ := hboth (parseHex4 (a' :: b' :: c' :: d' :: tail))
      ((0x10000 : UInt32) + (((uc &&& 0x3FF) <<< 10 : UInt32) |||
        (parseHex4 (a' :: b' :: c' :: d' :: tail) &&& 0x3FF)))
    exact ⟨written, d', tail, (if_neg hinvalid).trans ((if_pos hhigh).trans
      hwritten), hsize, Or.inr rfl⟩
  · exact ⟨utf8Bytes uc, d, _, (if_neg hinvalid).trans (if_neg hhigh),
      length_utf8Bytes uc, Or.inl rfl⟩

/-- One round of the second loop writes no more than the first loop counts for
the bytes that it passes. -/
theorem round_of_scans {raw rest : CString} (h : Scans raw rest) :
    raw = rest ∨ deref raw ≠ byte '"' ∧ deref raw ≠ 0 ∧
      ∃ written middle k, stringRound raw = .ok (written, middle) ∧
        Scans middle rest ∧ countedLength raw = (· + k) <$> countedLength middle ∧
        written.length ≤ k := by
  cases h with
  | stop hstop => exact Or.inl rfl
  | @plain c raw rest hplain hraw =>
      exact Or.inr ⟨hplain.2.1, hplain.1, [c], raw, 1,
        stringRound_plain hplain raw, hraw, countedLength_plain hplain raw, le_rfl⟩
  | @pair c raw rest hc hraw =>
      have hescape : ∃ written, escape (c :: raw) = .ok (written, c :: raw) ∧
          written.length ≤ 1 := by
        unfold escape
        rw [if_neg (show ¬deref (c :: raw) = byte 'u' from hc)]
        split_ifs <;> exact ⟨_, rfl, le_rfl⟩
      obtain ⟨written, hescape, hsize⟩ := hescape
      exact Or.inr ⟨show byte '\\' ≠ byte '"' by decide,
        show byte '\\' ≠ 0 by decide, written, raw, 1,
        stringRound_escape hescape, hraw, countedLength_backslash c raw, hsize⟩
  | @unit a b c d raw rest ha hb hc hd hraw =>
      refine Or.inr ⟨show byte '\\' ≠ byte '"' by decide,
        show byte '\\' ≠ 0 by decide, ?_⟩
      have hlength := countedLength_unit ha hb hc hd raw
      by_cases hsecond : deref raw = byte '\\' ∧ deref (raw.drop 1) = byte 'u'
      · obtain ⟨tail, rfl⟩ : ∃ tail, raw = byte '\\' :: byte 'u' :: tail := by
          rcases raw with _ | ⟨first, _ | ⟨second, tail⟩⟩
          · exact absurd hsecond.1 (by decide)
          · exact absurd hsecond.2 (show ¬(0 : UInt8) = byte 'u' by decide)
          · obtain ⟨rfl, rfl⟩ : first = byte '\\' ∧ second = byte 'u' := hsecond
            exact ⟨tail, rfl⟩
        obtain ⟨a', b', c', d', tail, rfl, ha', hb', hc', hd', htail⟩ :=
          hraw.unit_inv
        obtain ⟨written, last, middle, hescape, hsize, hmiddle⟩ :=
          unicodeEscape_two a b c d a' b' c' d' tail
        have hround := stringRound_escape ((escape_unicode _).trans hescape)
        rcases hmiddle with rfl | rfl
        · exact ⟨written, _, 5, hround, hraw, hlength, by omega⟩
        · refine ⟨written, _, 10, hround, htail, ?_, by omega⟩
          rw [hlength, countedLength_unit ha' hb' hc' hd', Functor.map_map]
      · obtain ⟨written, hescape, hsize⟩ := unicodeEscape_alone a b c d
          fun hfirst hu => hsecond ⟨hfirst, hu⟩
        exact ⟨written, raw, 5,
          stringRound_escape ((escape_unicode _).trans hescape), hraw, hlength,
          by omega⟩

/-! ## Strings -/

theorem rounds_of_scans {raw rest : CString} (h : Scans raw rest) :
    ∃ written len, countedLength raw = .ok len ∧ Rounds raw written rest ∧
      written.length ≤ len := by
  induction hn : raw.length using Nat.strong_induction_on generalizing raw with
  | _ n ih =>
      subst hn
      rcases round_of_scans h with rfl |
        ⟨hquote, hnul, written, middle, k, hround, hmiddle, hcount, hsize⟩
      · refine ⟨[], 0, ?_, .done raw, le_rfl⟩
        cases raw with
        | nil => rfl
        | cons c raw =>
            have hstop : c = byte '"' ∨ c = 0 := h.ends
            unfold countedLength
            rw [if_pos hstop]
      · obtain ⟨more, len, hlength, hrounds, hle⟩ :=
          ih middle.length (stringRound_suffix hround).2 hmiddle rfl
        refine ⟨written ++ more, len + k, ?_, .round hquote hnul hround hrounds, ?_⟩
        · rw [hcount, hlength]
          rfl
        · rw [List.length_append]
          omega

/-- What a parse ends with is in the text: it is neither a trap nor an end of
the fuel, and the pointer that is left points into the text. -/
def Within {α : Type} (text : CString) : Except ParseError (α × CString) → Prop
  | .ok (_, rest) => rest <:+ text
  | .error (.failed ep) => ep <:+ text
  | .error (.trap _) => False
  | .error .fuel => False

namespace Within

variable {α β : Type} {text : CString} {parse : Except ParseError (α × CString)}

theorem mono {text' : CString} (h : Within text parse) (htext : text <:+ text') :
    Within text' parse := by
  rcases parse with (ep | trap | _) | ⟨a, rest⟩
  · exact List.IsSuffix.trans h htext
  · exact h
  · exact h
  · exact List.IsSuffix.trans h htext

theorem bind (h : Within text parse)
    {f : α × CString → Except ParseError (β × CString)}
    (hf : ∀ a rest, rest <:+ text → Within text (f (a, rest))) :
    Within text (parse >>= f) := by
  rcases parse with (ep | trap | _) | ⟨a, rest⟩
  · exact h
  · exact h
  · exact h
  · exact hf a rest h

end Within

variable {δ : Type}

theorem parseString_within {str : CString} (hstr : Complete str)
    (hshort : str.length < 2 ^ 31) (item : Fields δ) :
    Within str (parseString item str) := by
  by_cases hquote : deref str = byte '"'
  · obtain ⟨raw, rfl⟩ : ∃ raw, str = byte '"' :: raw := by
      have hnul : deref str ≠ 0 := by
        rw [hquote]
        decide
      have hcons := eq_cons_of_deref_ne hnul
      rw [hquote] at hcons
      exact ⟨_, hcons⟩
    obtain ⟨rest, hscans⟩ := hstr raw (List.suffix_refl _)
    obtain ⟨written, len, hlength, hrounds, hle⟩ := rounds_of_scans hscans
    rw [List.length_cons] at hshort
    have hint : len + 1 < 2 ^ 31 :=
      (Nat.succ_le_succ (countedLength_le hlength)).trans_lt hshort
    rw [parseString_rounds hlength hint hrounds hscans.ends hle]
    apply List.IsSuffix.trans _ (List.suffix_cons (byte '"') raw)
    by_cases hend : deref rest = byte '"'
    · rw [if_pos hend]
      exact (List.drop_suffix 1 rest).trans hscans.suffix
    · rw [if_neg hend]
      exact hscans.suffix
  · unfold parseString
    rw [if_pos hquote]
    exact List.suffix_refl _

/-! ## Numbers -/

variable (unit : DoubleUnit δ)

theorem skip_suffix (value : CString) : skip value <:+ value := by
  induction value with
  | nil => exact List.suffix_refl _
  | cons c value ih =>
      unfold skip
      split_ifs
      · exact ih.trans (List.suffix_cons c value)
      · exact List.suffix_refl _

theorem integerLoop_suffix (n : δ) (num : CString) :
    (integerLoop unit n num).2 <:+ num := by
  induction num generalizing n with
  | nil => exact List.suffix_refl _
  | cons c num ih =>
      unfold integerLoop
      split_ifs
      · exact (ih _).trans (List.suffix_cons c num)
      · exact List.suffix_refl _

theorem fractionLoop_suffix (n scale : δ) (num : CString) :
    (fractionLoop unit n scale num).2.2 <:+ num := by
  induction num generalizing n scale with
  | nil => exact List.suffix_refl _
  | cons c num ih =>
      unfold fractionLoop
      split_ifs
      · exact (ih _ _).trans (List.suffix_cons c num)
      · exact List.suffix_refl _

theorem exponentLoop_suffix (subscale : BitVec 32) (num : CString) :
    (exponentLoop subscale num).2 <:+ num := by
  induction num generalizing subscale with
  | nil => exact List.suffix_refl _
  | cons c num ih =>
      unfold exponentLoop
      split_ifs
      · exact (ih _).trans (List.suffix_cons c num)
      · exact List.suffix_refl _

theorem parseExponent_suffix (num : CString) :
    (parseExponent num).2.2 <:+ num := by
  have hone := List.drop_suffix 1 num
  have htwo := (List.drop_suffix 1 (num.drop 1)).trans hone
  unfold parseExponent
  dsimp only
  split_ifs
  · exact (exponentLoop_suffix 0 _).trans htwo
  · exact (exponentLoop_suffix 0 _).trans htwo
  · exact (exponentLoop_suffix 0 _).trans hone
  · exact List.suffix_refl _

theorem parseNumber_suffix (item : Fields δ) (num : CString) :
    (parseNumber unit item num).2 <:+ num := by
  unfold parseNumber
  dsimp only
  refine (parseExponent_suffix _).trans ?_
  have hfraction : ∀ (n : δ) (num : CString),
      (if deref num = byte '.' ∧ isDigit (deref (num.drop 1)) = true then
        fractionLoop unit n (unit.ofInt 0) (num.drop 1)
      else (n, unit.ofInt 0, num)).2.2 <:+ num := by
    intro n num
    split_ifs
    · exact (fractionLoop_suffix unit n _ _).trans (List.drop_suffix 1 num)
    · exact List.suffix_refl _
  have hinteger : ∀ num : CString,
      (if byte '1' ≤ deref num ∧ deref num ≤ byte '9' then
        integerLoop unit (unit.ofInt 0) num
      else (unit.ofInt 0, num)).2 <:+ num := by
    intro num
    split_ifs
    · exact integerLoop_suffix unit _ num
    · exact List.suffix_refl _
  refine (hfraction _ _).trans ((hinteger _).trans ?_)
  split_ifs
  · exact (List.drop_suffix 1 _).trans (List.drop_suffix 1 num)
  · exact List.drop_suffix 1 num
  · exact List.drop_suffix 1 num
  · exact List.suffix_refl _

/-! ## Values -/

theorem skip_drop {value : CString} (hvalue : deref value ≠ 0) :
    skip (value.drop 1) <:+ value ∧ (skip (value.drop 1)).length < value.length := by
  have hpos : 0 < value.length := List.length_pos_iff.mpr (ne_nil_of_deref_ne hvalue)
  have hle := (skip_suffix (value.drop 1)).length_le
  rw [List.length_drop] at hle
  exact ⟨(skip_suffix _).trans (List.drop_suffix 1 value), by omega⟩

section

variable {parseValue : Fields δ → CString → Except ParseError (Node δ × CString)}
  {bound : ℕ} (hparse : ∀ item value, Complete value → value.length < bound →
    Within value (parseValue item value))

include hparse

theorem arrayLoop_within {fuel : ℕ} {value : CString} (hvalue : Complete value)
    (hbound : value.length ≤ bound) (hfuel : value.length < fuel) :
    Within value (arrayLoop unit parseValue fuel value) := by
  induction fuel generalizing value with
  | zero => exact absurd hfuel (Nat.not_lt_zero _)
  | succ fuel ih =>
      unfold arrayLoop
      by_cases hcomma : deref value = byte ','
      · rw [if_pos hcomma]
        have hnul : deref value ≠ 0 := by
          rw [hcomma]
          decide
        obtain ⟨hnext, hshorter⟩ := skip_drop hnul
        refine Within.mono ?_ hnext
        refine (hparse (newItem unit) _ (hvalue.suffix hnext)
          (by omega)).bind ?_
        rintro ⟨fields, child⟩ rest hrest
        have hskip := (skip_suffix rest).trans hrest
        have hle := hskip.length_le
        refine ((ih (hvalue.suffix (hskip.trans hnext)) (by omega)
          (by omega)).mono hskip).bind ?_
        rintro next rest' hrest'
        exact hrest'
      · rw [if_neg hcomma]
        exact List.suffix_refl _

theorem parseArray_within {value : CString} (hvalue : Complete value)
    (hbound : value.length ≤ bound) (item : Fields δ) :
    Within value (parseArray unit parseValue item value) := by
  unfold parseArray
  by_cases hopen : deref value = byte '['
  · rw [if_neg (not_not.mpr hopen)]
    dsimp only
    have hnul : deref value ≠ 0 := by
      rw [hopen]
      decide
    obtain ⟨hnext, hshorter⟩ := skip_drop hnul
    refine Within.mono ?_ hnext
    by_cases hclose : deref (skip (value.drop 1)) = byte ']'
    · rw [if_pos hclose]
      exact List.drop_suffix 1 _
    · rw [if_neg hclose, skip_skip]
      refine (hparse (newItem unit) _ (hvalue.suffix hnext) (by omega)).bind ?_
      rintro ⟨fields, child⟩ rest hrest
      have hskip := (skip_suffix rest).trans hrest
      have hle := hskip.length_le
      refine ((arrayLoop_within unit hparse (hvalue.suffix (hskip.trans hnext))
        (by omega) (by omega)).mono hskip).bind ?_
      rintro next rest' hrest'
      by_cases hend : deref rest' = byte ']'
      · exact (congrArg (Within _) (if_pos hend)).mpr
          ((List.drop_suffix 1 rest').trans hrest')
      · exact (congrArg (Within _) (if_neg hend)).mpr hrest'
  · rw [if_pos hopen]
    exact List.suffix_refl _

theorem parseMember_within (hint : bound < 2 ^ 31) {value : CString}
    (hvalue : Complete value) (hbound : value.length ≤ bound) :
    Within value (parseMember unit parseValue value) := by
  unfold parseMember
  have hskip := skip_suffix value
  refine Within.mono ?_ hskip
  have hshort := hskip.length_le
  refine (parseString_within (hvalue.suffix hskip) (by omega)
    (newItem unit)).bind ?_
  intro child rest hrest
  have hbehind := (skip_suffix rest).trans hrest
  refine Within.mono ?_ hbehind
  dsimp only
  by_cases hcolon : deref (skip rest) = byte ':'
  · rw [if_neg (not_not.mpr hcolon)]
    have hnul : deref (skip rest) ≠ 0 := by
      rw [hcolon]
      decide
    obtain ⟨hnext, hshorter⟩ := skip_drop hnul
    have hle := hbehind.length_le
    have hle' := hskip.length_le
    refine Within.mono ?_ hnext
    refine (hparse _ _ (hvalue.suffix (hnext.trans (hbehind.trans hskip)))
      (by omega)).bind ?_
    rintro node rest' hrest'
    exact (skip_suffix rest').trans hrest'
  · rw [if_pos hcolon]
    exact List.suffix_refl _

theorem objectLoop_within (hint : bound < 2 ^ 31) {fuel : ℕ} {value : CString}
    (hvalue : Complete value) (hbound : value.length ≤ bound)
    (hfuel : value.length < fuel) :
    Within value (objectLoop unit parseValue fuel value) := by
  induction fuel generalizing value with
  | zero => exact absurd hfuel (Nat.not_lt_zero _)
  | succ fuel ih =>
      unfold objectLoop
      by_cases hcomma : deref value = byte ','
      · rw [if_pos hcomma]
        have hpos : 0 < value.length := List.length_pos_iff.mpr
          (ne_nil_of_deref_ne (by rw [hcomma]; decide))
        have hdrop := List.drop_suffix 1 value
        have hshorter : (value.drop 1).length < value.length := by
          rw [List.length_drop]
          omega
        refine Within.mono ?_ hdrop
        refine (parseMember_within unit hparse hint (hvalue.suffix hdrop)
          (by omega)).bind ?_
        rintro ⟨fields, child⟩ rest hrest
        have hle := hrest.length_le
        refine ((ih (hvalue.suffix (hrest.trans hdrop)) (by omega)
          (by omega)).mono hrest).bind ?_
        rintro next rest' hrest'
        exact hrest'
      · rw [if_neg hcomma]
        exact List.suffix_refl _

theorem parseObject_within (hint : bound < 2 ^ 31) {value : CString}
    (hvalue : Complete value) (hbound : value.length ≤ bound) (item : Fields δ) :
    Within value (parseObject unit parseValue item value) := by
  unfold parseObject
  by_cases hopen : deref value = byte '\x7b'
  · rw [if_neg (not_not.mpr hopen)]
    dsimp only
    have hnul : deref value ≠ 0 := by
      rw [hopen]
      decide
    obtain ⟨hnext, hshorter⟩ := skip_drop hnul
    refine Within.mono ?_ hnext
    by_cases hclose : deref (skip (value.drop 1)) = byte '\x7d'
    · rw [if_pos hclose]
      exact List.drop_suffix 1 _
    · rw [if_neg hclose]
      refine (parseMember_within unit hparse hint (hvalue.suffix hnext)
        (by omega)).bind ?_
      rintro ⟨fields, child⟩ rest hrest
      have hle := hrest.length_le
      refine ((objectLoop_within unit hparse hint (hvalue.suffix (hrest.trans hnext))
        (by omega) (by omega)).mono hrest).bind ?_
      rintro next rest' hrest'
      by_cases hend : deref rest' = byte '\x7d'
      · exact (congrArg (Within _) (if_pos hend)).mpr
          ((List.drop_suffix 1 rest').trans hrest')
      · exact (congrArg (Within _) (if_neg hend)).mpr hrest'
  · rw [if_pos hopen]
    exact List.suffix_refl _

end

/-- The calls are nested no deeper than the text is long. -/
theorem parseValue_within {fuel : ℕ} (hint : fuel ≤ 2 ^ 31) {value : CString}
    (hvalue : Complete value) (hfuel : value.length < fuel) (item : Fields δ) :
    Within value (parseValue unit fuel item value) := by
  induction fuel generalizing value item with
  | zero => exact absurd hfuel (Nat.not_lt_zero _)
  | succ fuel ih =>
      have hbound : value.length ≤ fuel := Nat.le_of_lt_succ hfuel
      have hparse : ∀ item value, Complete value → value.length < fuel →
          Within value (parseValue unit fuel item value) :=
        fun item value hvalue hfuel => ih (by omega) hvalue hfuel item
      unfold parseValue
      split_ifs
      · exact List.drop_suffix 4 value
      · exact List.drop_suffix 5 value
      · exact List.drop_suffix 4 value
      · apply (parseString_within hvalue (by omega) item).bind
        intro item rest hrest
        exact hrest
      · have hnumber := parseNumber_suffix unit item value
        generalize parseNumber unit item value = parsed at hnumber ⊢
        exact hnumber
      · exact parseArray_within unit hparse hvalue hbound item
      · exact parseObject_within unit hparse (by omega) hvalue hbound item
      · exact List.suffix_refl _

/-- Of a text below two gigabytes with complete escapes nothing is read or written
outside the blocks, and what `return_parse_end` or `ep` points to is in the
text. -/
theorem parseWithOpts_within {text : CString} (hshort : text.length < 2 ^ 31)
    (htext : Complete text) (requireNullTerminated : Bool) :
    Within text (parseWithOpts unit text requireNullTerminated) := by
  have hskip := skip_suffix text
  refine Within.mono ?_ hskip
  unfold parseWithOpts
  refine (parseValue_within unit (Nat.succ_le_of_lt hshort) (htext.suffix hskip)
    (Nat.lt_succ_of_le hskip.length_le) (newItem unit)).bind ?_
  rintro ⟨fields, child⟩ rest hrest
  have hbehind := (skip_suffix rest).trans hrest
  dsimp only
  cases requireNullTerminated with
  | false => exact hrest
  | true =>
      by_cases hend : deref (skip rest) = 0
      · exact (congrArg (Within _) (if_neg (not_not.mpr hend))).mpr hbehind
      · exact (congrArg (Within _) (if_pos hend)).mpr hbehind

/-- `"\u00zz` is no JSON text, but its escapes are complete. -/
theorem parseWithOpts_within_sample :
    Within (byte '"' :: literal "\\u00zz")
      (parseWithOpts rationals (byte '"' :: literal "\\u00zz") true) := by
  have hzero : IsPlain (byte '0') := ⟨by decide, by decide, by decide⟩
  have hz : IsPlain (byte 'z') := ⟨by decide, by decide, by decide⟩
  have hscans : Scans (literal "\\u00zz") [] :=
    .unit hzero hzero hz hz (.stop (Or.inr rfl))
  have hcomplete : Complete (byte '"' :: literal "\\u00zz") := by
    intro raw hraw
    rcases List.suffix_cons_iff.mp hraw with heq | hsuffix
    · rw [(List.cons.inj heq).2]
      exact ⟨[], hscans⟩
    · exact absurd (hsuffix.subset List.mem_cons_self)
        (show byte '"' ∉ literal "\\u00zz" by decide)
  exact parseWithOpts_within rationals (by decide) hcomplete true

end CJson

end ClpszDemos
