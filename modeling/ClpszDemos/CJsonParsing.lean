import ClpszDemos.CJsonNumbers
import ClpszDemos.CJsonStrings

/-!
# The parser reads JSON

Every JSON text with white space between its tokens is parsed to the items that
it stands for.  A number ends where the byte behind it cannot belong to it;
white space is passed before and behind every token; and a call of
`parse_value` goes down as deep as its text has brackets.
-/

namespace ClpszDemos

namespace CJson

open CString

variable {δ : Type} (unit : DoubleUnit δ)

/-! ## White space -/

/-- The bytes that can stand behind a value -/
def behindValue : List UInt8 :=
  [0, byte ' ', byte '\t', byte '\r', byte '\n', byte ',', byte ']',
    byte '\x7d']

theorem endsNumber_of_mem {rest : CString} (hrest : deref rest ∈ behindValue) :
    EndsNumber rest := by
  have hall : ∀ c ∈ behindValue, isDigit c = false ∧ c ≠ byte '.' ∧
      c ≠ byte 'e' ∧ c ≠ byte 'E' :=
    List.forall_iff_forall_mem.mp (by decide)
  obtain ⟨hdigit, hpoint, hexponent⟩ := hall _ hrest
  exact ⟨hdigit, hpoint, hexponent⟩

theorem blank_mem {c : UInt8} (hc : isBlank c = true) :
    c ∈ behindValue ∧ c ≠ 0 ∧ c ≤ 32 := by
  unfold isBlank at hc
  simp only [Bool.or_eq_true, decide_eq_true_eq] at hc
  rcases hc with ((rfl | rfl) | rfl) | rfl <;> decide

/-- White space in front of a byte that can stand behind a value -/
theorem deref_blank_mem {w rest : CString} (hw : Blank w)
    (hrest : deref rest ∈ behindValue) : deref (w ++ rest) ∈ behindValue := by
  cases w with
  | nil => exact hrest
  | cons c w => exact (blank_mem (hw c List.mem_cons_self)).1

theorem skip_blank {w : CString} (hw : Blank w) (rest : CString) :
    skip (w ++ rest) = skip rest := by
  induction w with
  | nil => rfl
  | cons c w ih =>
      have hc := (blank_mem (hw c List.mem_cons_self)).2
      rw [List.cons_append]
      conv_lhs => unfold skip
      rw [if_pos hc]
      exact ih fun d hd => hw d (List.mem_cons_of_mem c hd)

theorem skip_of_deref {rest : CString} (hrest : 32 < deref rest) :
    skip rest = rest := by
  cases rest with
  | nil => rfl
  | cons c rest =>
      unfold skip
      rw [if_neg]
      rintro ⟨-, hle⟩
      exact absurd hle (UInt8.not_le.mpr hrest)

theorem skip_skip (value : CString) : skip (skip value) = skip value := by
  induction value with
  | nil => rfl
  | cons c value ih =>
      by_cases hc : c ≠ 0 ∧ c ≤ 32
      · have hskip : skip (c :: value) = skip value := if_pos hc
        rw [hskip, ih]
      · have hskip : skip (c :: value) = c :: value := if_neg hc
        rw [hskip, hskip]

theorem skip_blank_append {w rest : CString} (hw : Blank w)
    (hrest : 32 < deref rest) : skip (w ++ rest) = rest := by
  rw [skip_blank hw, skip_of_deref hrest]

/-! ## The first byte of a value -/

theorem deref_numberText (n : NumberText) (rest : CString) :
    deref (n.text ++ rest) = byte '-' ∨
      ∃ d, deref (n.text ++ rest) = digitByte d := by
  have htext : n.text ++ rest = (if n.negative then [byte '-'] else []) ++
      (n.integerText ++ (n.fractionText ++ (n.exponentText ++ rest))) := by
    unfold NumberText.text
    simp only [List.append_assoc]
  rw [htext]
  cases n.negative with
  | true => exact Or.inl rfl
  | false => exact Or.inr (deref_integerText n _)

theorem deref_value {value : NumberText → δ} {gap : CString → Prop}
    {text compact : CString}
    {items : Items δ} (hreads : Reads unit value gap .value text compact items)
    (rest : CString) :
    32 < deref (text ++ rest) ∧ deref (text ++ rest) ≠ byte ']' := by
  cases hreads with
  | null => exact show 32 < byte 'n' ∧ byte 'n' ≠ byte ']' by decide
  | false => exact show 32 < byte 'f' ∧ byte 'f' ≠ byte ']' by decide
  | true => exact show 32 < byte 't' ∧ byte 't' ≠ byte ']' by decide
  | number n =>
      have hdigit : ∀ d : Fin 10, 32 < digitByte d ∧ digitByte d ≠ byte ']' := by
        decide
      rcases deref_numberText n rest with hminus | ⟨d, hd⟩
      · rw [hminus]
        decide
      · rw [hd]
        exact hdigit d
  | string hstring => exact show 32 < byte '"' ∧ byte '"' ≠ byte ']' by decide
  | emptyArray hgap => exact show 32 < byte '[' ∧ byte '[' ≠ byte ']' by decide
  | array helements => exact show 32 < byte '[' ∧ byte '[' ≠ byte ']' by decide
  | emptyObject hgap =>
      exact show 32 < byte '\x7b' ∧ byte '\x7b' ≠ byte ']' by decide
  | object hmembers =>
      exact show 32 < byte '\x7b' ∧ byte '\x7b' ≠ byte ']' by decide

theorem deref_skip_elements {text compact : CString} {items : Items δ}
    (hreads : Reads unit (NumberText.double unit) Blank .elements text compact items)
    (rest : CString) :
    deref (skip (text ++ rest)) ≠ byte ']' := by
  cases hreads with
  | element hw hvalue hw' =>
      rw [List.append_assoc, List.append_assoc,
        skip_blank_append hw (deref_value unit hvalue _).1]
      exact (deref_value unit hvalue _).2
  | elements hw hvalue hw' hmore =>
      rw [List.append_assoc, List.append_assoc,
        skip_blank_append hw (deref_value unit hvalue _).1]
      exact (deref_value unit hvalue _).2

theorem deref_skip_members {text compact : CString} {items : Items δ}
    (hreads : Reads unit (NumberText.double unit) Blank .members text compact items)
    (rest : CString) :
    deref (skip (text ++ rest)) ≠ byte '\x7d' := by
  have hskip : ∀ {w raw : CString} (tail : CString), Blank w →
      deref (skip (w ++ (quoted raw ++ tail))) = byte '"' := by
    intro w raw tail hw
    have hquote : 32 < deref (quoted raw ++ tail) :=
      show 32 < byte '"' by decide
    rw [skip_blank_append hw hquote]
    rfl
  cases hreads with
  | member hw hname hw₁ hw₂ hvalue hw₃ =>
      rw [List.append_assoc, List.append_assoc, hskip _ hw]
      decide
  | members hw hname hw₁ hw₂ hvalue hw₃ hmore =>
      rw [List.append_assoc, List.append_assoc, hskip _ hw]
      decide

/-! ## Calls of `parse_value` -/

theorem not_literal {c d : UInt8} {word text : CString} (hne : c ≠ d) :
    ¬(c :: word) <+: (d :: text) := by
  rw [List.cons_prefix_cons]
  exact fun h => hne h.1

theorem not_null {c : UInt8} {text : CString} (hne : byte 'n' ≠ c) :
    ¬literal "null" <+: c :: text :=
  not_literal hne

theorem not_false {c : UInt8} {text : CString} (hne : byte 'f' ≠ c) :
    ¬literal "false" <+: c :: text :=
  not_literal hne

theorem not_true {c : UInt8} {text : CString} (hne : byte 't' ≠ c) :
    ¬literal "true" <+: c :: text :=
  not_literal hne

/-- The item that a value is parsed into: it may have a name already. -/
def namedItem (type : BitVec 32) (string : Option CString) : Fields δ :=
  { newItem unit with
    type := type
    string := string }

theorem parseValue_of_head {c : UInt8}
    (hc : c ≠ byte 'n' ∧ c ≠ byte 'f' ∧ c ≠ byte 't') (fuel : ℕ)
    (item : Fields δ) (text : CString) :
    parseValue unit (fuel + 1) item (c :: text) =
      if c = byte '"' then do
        let (item, value) ← parseString item (c :: text)
        return ((item, .null), value)
      else if c = byte '-' ∨ byte '0' ≤ c ∧ c ≤ byte '9' then
        let (item, value) := parseNumber unit item (c :: text)
        .ok ((item, .null), value)
      else if c = byte '[' then
        parseArray unit (parseValue unit fuel) item (c :: text)
      else if c = byte '\x7b' then
        parseObject unit (parseValue unit fuel) item (c :: text)
      else .error (.failed (c :: text)) := by
  conv_lhs => unfold parseValue
  rw [if_neg (not_null hc.1.symm), if_neg (not_false hc.2.1.symm),
    if_neg (not_true hc.2.2.symm)]
  rfl

theorem parseValue_literal (fuel : ℕ) (type : BitVec 32)
    (string : Option CString) (rest : CString) :
    parseValue unit (fuel + 1) (namedItem unit type string)
        (literal "null" ++ rest) =
      .ok ((namedItem unit typeNull string, .null), rest) ∧
    parseValue unit (fuel + 1) (namedItem unit type string)
        (literal "false" ++ rest) =
      .ok ((namedItem unit typeFalse string, .null), rest) ∧
    parseValue unit (fuel + 1) (namedItem unit type string)
        (literal "true" ++ rest) =
      .ok (({ namedItem unit typeTrue string with valueint := 1 }, .null),
        rest) := by
  have hfalse : ¬literal "null" <+: literal "false" ++ rest :=
    not_null (show byte 'n' ≠ byte 'f' by decide)
  have htrue : ¬literal "null" <+: literal "true" ++ rest :=
    not_null (show byte 'n' ≠ byte 't' by decide)
  have htrue' : ¬literal "false" <+: literal "true" ++ rest :=
    not_false (show byte 'f' ≠ byte 't' by decide)
  refine ⟨?_, ?_, ?_⟩
  · unfold parseValue
    rw [if_pos (List.prefix_append _ _)]
    rfl
  · unfold parseValue
    rw [if_neg hfalse, if_pos (List.prefix_append _ _)]
    rfl
  · unfold parseValue
    rw [if_neg htrue, if_neg htrue', if_pos (List.prefix_append _ _)]
    rfl

theorem parseValue_number (fuel : ℕ) (n : NumberText) (type : BitVec 32)
    (string : Option CString) {rest : CString} (hrest : EndsNumber rest) :
    parseValue unit (fuel + 1) (namedItem unit type string) (n.text ++ rest) =
      .ok (({ numberItem unit (n.double unit) with string := string }, .null),
        rest) := by
  obtain ⟨c, tail, htext⟩ : ∃ c tail, n.text ++ rest = c :: tail := by
    have hne : n.text ++ rest ≠ [] := by
      intro hnil
      rcases deref_numberText n rest with h | ⟨d, h⟩
      · rw [hnil] at h
        exact absurd h (by decide)
      · have hdigit : ∀ d : Fin 10, 0 ≠ digitByte d := by decide
        rw [hnil] at h
        exact hdigit d h
    exact List.exists_cons_of_ne_nil hne
  have hc : (c ≠ byte 'n' ∧ c ≠ byte 'f' ∧ c ≠ byte 't') ∧ c ≠ byte '"' ∧
      (c = byte '-' ∨ byte '0' ≤ c ∧ c ≤ byte '9') := by
    have hdigits : ∀ d : Fin 10, (digitByte d ≠ byte 'n' ∧
        digitByte d ≠ byte 'f' ∧ digitByte d ≠ byte 't') ∧
        digitByte d ≠ byte '"' ∧ (digitByte d = byte '-' ∨
          byte '0' ≤ digitByte d ∧ digitByte d ≤ byte '9') := by decide
    have hhead : deref (n.text ++ rest) = c := by
      rw [htext]
      rfl
    rcases deref_numberText n rest with h | ⟨d, h⟩
    · rw [← hhead, h]
      decide
    · rw [← hhead, h]
      exact hdigits d
  have hnumber := parseNumber_text unit n (namedItem unit type string) hrest
  rw [htext] at hnumber ⊢
  rw [parseValue_of_head unit hc.1, if_neg hc.2.1, if_pos hc.2.2, hnumber]
  rfl

theorem length_quoted (raw : CString) : (quoted raw).length = raw.length + 2 := by
  unfold quoted
  rw [List.length_cons, List.length_append, List.length_singleton]

theorem parseValue_string (fuel : ℕ) {raw bytes : CString}
    (hstring : StringText raw bytes) (hshort : raw.length + 1 < 2 ^ 31)
    (type : BitVec 32) (string : Option CString) (rest : CString) :
    parseValue unit (fuel + 1) (namedItem unit type string)
        (quoted raw ++ rest) =
      .ok (({ stringItem unit bytes with string := string }, .null), rest) := by
  have hparse := parseString_quoted hstring hshort
    (namedItem unit type string) rest
  show parseValue unit (fuel + 1) _ (byte '"' :: (raw ++ [byte '"'] ++ rest)) = _
  rw [parseValue_of_head unit (by decide), if_pos rfl]
  show parseString (namedItem unit type string) (quoted raw ++ rest) >>= _ = _
  rw [hparse]
  rfl

/-! ## Elements and members -/

/-- The elements of an array, from the first one on -/
def parseElements (parseValue : Fields δ → CString →
    Except ParseError (Node δ × CString)) (bound : ℕ) (value : CString) :
    Except ParseError (Items δ × CString) := do
  let ((fields, child), value) ← parseValue (newItem unit) (skip value)
  let (next, value) ← arrayLoop unit parseValue bound (skip value)
  return (.item fields child next, value)

/-- The members of an object, from the first one on -/
def parseMembers (parseValue : Fields δ → CString →
    Except ParseError (Node δ × CString)) (bound : ℕ) (value : CString) :
    Except ParseError (Items δ × CString) := do
  let ((fields, child), value) ← parseMember unit parseValue value
  let (next, value) ← objectLoop unit parseValue bound value
  return (.item fields child next, value)

section Loops

variable {parse : Fields δ → CString → Except ParseError (Node δ × CString)}

theorem arrayLoop_comma (bound : ℕ) (value : CString) :
    arrayLoop unit parse (bound + 1) (byte ',' :: value) =
      parseElements unit parse bound value := by
  conv_lhs => unfold arrayLoop
  rw [if_pos (show deref (byte ',' :: value) = byte ',' from rfl)]
  rfl

theorem arrayLoop_end (bound : ℕ) {value : CString}
    (hvalue : deref value ≠ byte ',') :
    arrayLoop unit parse (bound + 1) value = .ok (.null, value) := by
  unfold arrayLoop
  rw [if_neg hvalue]

theorem objectLoop_comma (bound : ℕ) (value : CString) :
    objectLoop unit parse (bound + 1) (byte ',' :: value) =
      parseMembers unit parse bound value := by
  conv_lhs => unfold objectLoop
  rw [if_pos (show deref (byte ',' :: value) = byte ',' from rfl)]
  rfl

theorem objectLoop_end (bound : ℕ) {value : CString}
    (hvalue : deref value ≠ byte ',') :
    objectLoop unit parse (bound + 1) value = .ok (.null, value) := by
  unfold objectLoop
  rw [if_neg hvalue]

theorem parseMember_skip (value : CString) :
    parseMember unit parse (skip value) = parseMember unit parse value := by
  unfold parseMember
  rw [skip_skip]

theorem parseArray_elements {items : Items δ} {text rest : CString}
    (htext : deref (skip (text ++ byte ']' :: rest)) ≠ byte ']')
    (helements : parseElements unit parse
      (byte '[' :: (text ++ byte ']' :: rest)).length
      (text ++ byte ']' :: rest) = .ok (items, byte ']' :: rest))
    (item : Fields δ) :
    parseArray unit parse item (byte '[' :: (text ++ byte ']' :: rest)) =
      .ok (({ item with type := typeArray }, items), rest) := by
  have hskip := skip_skip (text ++ byte ']' :: rest)
  obtain ⟨⟨⟨fields, child⟩, value⟩, hvalue, h⟩ := except_bind_eq_ok helements
  obtain ⟨⟨next, value'⟩, hloop, h⟩ := except_bind_eq_ok h
  cases h
  unfold parseArray
  rw [if_neg (show ¬deref (byte '[' :: (text ++ byte ']' :: rest)) ≠ byte '['
    from not_not.mpr rfl)]
  dsimp only
  rw [List.drop_one, List.tail_cons, if_neg htext, hskip, hvalue]
  show arrayLoop unit parse _ (skip value) >>= _ = _
  rw [hloop]
  rfl

theorem parseObject_members {items : Items δ} {text rest : CString}
    (htext : deref (skip (text ++ byte '\x7d' :: rest)) ≠ byte '\x7d')
    (hmembers : parseMembers unit parse
      (byte '\x7b' :: (text ++ byte '\x7d' :: rest)).length
      (text ++ byte '\x7d' :: rest) = .ok (items, byte '\x7d' :: rest))
    (item : Fields δ) :
    parseObject unit parse item (byte '\x7b' :: (text ++ byte '\x7d' :: rest)) =
      .ok (({ item with type := typeObject }, items), rest) := by
  obtain ⟨⟨⟨fields, child⟩, value⟩, hvalue, h⟩ := except_bind_eq_ok hmembers
  obtain ⟨⟨next, value'⟩, hloop, h⟩ := except_bind_eq_ok h
  cases h
  unfold parseObject
  rw [if_neg (show ¬deref (byte '\x7b' :: (text ++ byte '\x7d' :: rest)) ≠
    byte '\x7b' from not_not.mpr rfl)]
  dsimp only
  rw [List.drop_one, List.tail_cons, if_neg htext, parseMember_skip, hvalue]
  show objectLoop unit parse _ value >>= _ = _
  rw [hloop]
  rfl

theorem parseMember_text {w w₁ w₂ w₃ raw name text tail : CString}
    {node : Node δ} (hw : Blank w) (hname : StringText raw name)
    (hshort : raw.length + 1 < 2 ^ 31) (hw₁ : Blank w₁) (hw₂ : Blank w₂)
    (hw₃ : Blank w₃) (htext : 32 < deref (text ++ (w₃ ++ tail)))
    (hvalue : parse (namedItem unit typeString (some name))
      (text ++ (w₃ ++ tail)) = .ok (node, w₃ ++ tail))
    (htail : 32 < deref tail) :
    parseMember unit parse (w ++ (quoted raw ++ (w₁ ++ byte ':' :: (w₂ ++
      (text ++ (w₃ ++ tail)))))) = .ok (node, tail) := by
  have hcolon : skip (w₁ ++ byte ':' :: (w₂ ++ (text ++ (w₃ ++ tail)))) =
      byte ':' :: (w₂ ++ (text ++ (w₃ ++ tail))) :=
    skip_blank_append hw₁ (show 32 < byte ':' by decide)
  have hquoted : skip (w ++ (quoted raw ++ (w₁ ++ byte ':' :: (w₂ ++
      (text ++ (w₃ ++ tail)))))) = quoted raw ++ (w₁ ++ byte ':' :: (w₂ ++
      (text ++ (w₃ ++ tail)))) :=
    skip_blank_append hw (show 32 < byte '"' by decide)
  unfold parseMember
  rw [hquoted, parseString_quoted hname hshort]
  show (if deref (skip (w₁ ++ byte ':' :: (w₂ ++ (text ++ (w₃ ++ tail))))) ≠
    byte ':' then _ else _) = _
  rw [if_neg (show ¬deref (skip (w₁ ++ byte ':' :: (w₂ ++ (text ++
    (w₃ ++ tail))))) ≠ byte ':' by rw [hcolon]; exact not_not.mpr rfl)]
  show parse (namedItem unit typeString (some name)) (skip ((skip (w₁ ++
    byte ':' :: (w₂ ++ (text ++ (w₃ ++ tail))))).drop 1)) >>= _ = _
  rw [hcolon, List.drop_one, List.tail_cons, skip_blank_append hw₂ htext, hvalue]
  show Except.ok (node, skip (w₃ ++ tail)) = _
  rw [skip_blank_append hw₃ htail]

end Loops

/-! ## Every JSON text -/

/-- What the parser does with a text in front of `rest` -/
def Parsed : Form → CString → Items δ → Prop
  | .value, text, items => text.length < 2 ^ 31 → ∀ fuel type string rest,
      text.length < fuel → EndsNumber rest →
      ∃ fields child, items = .item fields child .null ∧
        parseValue unit fuel (namedItem unit type string) (text ++ rest) =
          .ok (({ fields with string := string }, child), rest)
  | .elements, text, items => text.length < 2 ^ 31 → ∀ fuel bound rest,
      text.length < fuel → text.length ≤ bound →
        parseElements unit (parseValue unit fuel) bound
          (text ++ byte ']' :: rest) = .ok (items, byte ']' :: rest)
  | .members, text, items => text.length < 2 ^ 31 → ∀ fuel bound rest,
      text.length < fuel → text.length ≤ bound →
        parseMembers unit (parseValue unit fuel) bound
          (text ++ byte '\x7d' :: rest) = .ok (items, byte '\x7d' :: rest)

theorem parsed_array {text compact : CString} {children : Items δ}
    (helements : Reads unit (NumberText.double unit) Blank .elements text compact
      children)
    (ih : Parsed unit .elements text children) :
    Parsed unit .value (byte '[' :: (text ++ [byte ']']))
      (.item (plainItem unit typeArray) children .null) := by
  intro hint fuel type string rest hfuel hrest
  rw [List.length_cons, List.length_append, List.length_singleton]
    at hint hfuel
  obtain ⟨fuel, rfl⟩ := Nat.exists_eq_add_one_of_ne_zero (Nat.ne_zero_of_lt hfuel)
  have htext : byte '[' :: (text ++ [byte ']']) ++ rest =
      byte '[' :: (text ++ byte ']' :: rest) := by
    rw [List.cons_append, List.append_assoc, List.singleton_append]
  refine ⟨_, _, rfl, ?_⟩
  rw [htext, parseValue_of_head unit (by decide), if_neg (by decide),
    if_neg (by decide), if_pos rfl]
  apply parseArray_elements unit (deref_skip_elements unit helements _)
  apply ih (by omega) fuel _ rest (by omega)
  rw [List.length_cons, List.length_append]
  omega

theorem parsed_object {text compact : CString} {children : Items δ}
    (hmembers : Reads unit (NumberText.double unit) Blank .members text compact
      children)
    (ih : Parsed unit .members text children) :
    Parsed unit .value (byte '\x7b' :: (text ++ [byte '\x7d']))
      (.item (plainItem unit typeObject) children .null) := by
  intro hint fuel type string rest hfuel hrest
  rw [List.length_cons, List.length_append, List.length_singleton]
    at hint hfuel
  obtain ⟨fuel, rfl⟩ := Nat.exists_eq_add_one_of_ne_zero (Nat.ne_zero_of_lt hfuel)
  have htext : byte '\x7b' :: (text ++ [byte '\x7d']) ++ rest =
      byte '\x7b' :: (text ++ byte '\x7d' :: rest) := by
    rw [List.cons_append, List.append_assoc, List.singleton_append]
  refine ⟨_, _, rfl, ?_⟩
  rw [htext, parseValue_of_head unit (by decide), if_neg (by decide),
    if_neg (by decide), if_neg (by decide), if_pos rfl]
  apply parseObject_members unit (deref_skip_members unit hmembers _)
  apply ih (by omega) fuel _ rest (by omega)
  rw [List.length_cons, List.length_append]
  omega

theorem parsed_emptyArray {w : CString} (hw : Blank w) :
    Parsed unit .value (byte '[' :: (w ++ [byte ']']))
      (.item (plainItem unit typeArray) .null .null) := by
  intro hint fuel type string rest hfuel hrest
  obtain ⟨fuel, rfl⟩ := Nat.exists_eq_add_one_of_ne_zero (Nat.ne_zero_of_lt hfuel)
  have htext : byte '[' :: (w ++ [byte ']']) ++ rest =
      byte '[' :: (w ++ byte ']' :: rest) := by
    rw [List.cons_append, List.append_assoc, List.singleton_append]
  have hskip : skip (w ++ byte ']' :: rest) = byte ']' :: rest :=
    skip_blank_append hw (show 32 < byte ']' by decide)
  refine ⟨_, _, rfl, ?_⟩
  rw [htext, parseValue_of_head unit (by decide), if_neg (by decide),
    if_neg (by decide), if_pos rfl]
  unfold parseArray
  rw [if_neg (show ¬deref (byte '[' :: (w ++ byte ']' :: rest)) ≠ byte '['
    from not_not.mpr rfl)]
  dsimp only
  rw [List.drop_one, List.tail_cons, hskip, deref_cons, if_pos rfl]
  rfl

theorem parsed_emptyObject {w : CString} (hw : Blank w) :
    Parsed unit .value (byte '\x7b' :: (w ++ [byte '\x7d']))
      (.item (plainItem unit typeObject) .null .null) := by
  intro hint fuel type string rest hfuel hrest
  obtain ⟨fuel, rfl⟩ := Nat.exists_eq_add_one_of_ne_zero (Nat.ne_zero_of_lt hfuel)
  have htext : byte '\x7b' :: (w ++ [byte '\x7d']) ++ rest =
      byte '\x7b' :: (w ++ byte '\x7d' :: rest) := by
    rw [List.cons_append, List.append_assoc, List.singleton_append]
  have hskip : skip (w ++ byte '\x7d' :: rest) = byte '\x7d' :: rest :=
    skip_blank_append hw (show 32 < byte '\x7d' by decide)
  refine ⟨_, _, rfl, ?_⟩
  rw [htext, parseValue_of_head unit (by decide), if_neg (by decide),
    if_neg (by decide), if_neg (by decide), if_pos rfl]
  unfold parseObject
  rw [if_neg (show ¬deref (byte '\x7b' :: (w ++ byte '\x7d' :: rest)) ≠
    byte '\x7b' from not_not.mpr rfl)]
  dsimp only
  rw [List.drop_one, List.tail_cons, hskip, deref_cons, if_pos rfl]
  rfl

theorem length_value_pos {value : NumberText → δ} {gap : CString → Prop}
    {text compact : CString}
    {items : Items δ} (hreads : Reads unit value gap .value text compact items) :
    0 < text.length := by
  have hderef := (deref_value unit hreads []).1
  rw [List.append_nil] at hderef
  cases text with
  | nil => exact absurd hderef (by decide)
  | cons c text => exact Nat.succ_pos _

theorem parsed_element {w w' text more : CString} {fields : Fields δ}
    {child next : Items δ} (hw : Blank w) (hw' : Blank w')
    (htext : ∀ rest, 32 < deref (text ++ rest))
    (hvalue : Parsed unit .value text (.item fields child .null))
    {fuel bound : ℕ} {tail : CString} (hint : text.length < 2 ^ 31)
    (hfuel : text.length < fuel)
    (htail : deref more ∈ behindValue ∧ 32 < deref more)
    (hmore : arrayLoop unit (parseValue unit fuel) bound more =
      .ok (next, tail)) :
    parseElements unit (parseValue unit fuel) bound (w ++ (text ++ (w' ++ more))) =
      .ok (.item { fields with string := none } child next, tail) := by
  obtain ⟨fields', child', heq, hparse⟩ := hvalue hint fuel 0 none (w' ++ more) hfuel
    (endsNumber_of_mem (deref_blank_mem hw' htail.1))
  cases heq
  have hparse' : parseValue unit fuel (newItem unit) (text ++ (w' ++ more)) =
      .ok (({ fields with string := none }, child), w' ++ more) := hparse
  unfold parseElements
  rw [skip_blank_append hw (htext _), hparse']
  show arrayLoop unit (parseValue unit fuel) bound (skip (w' ++ more)) >>= _ = _
  rw [skip_blank_append hw' htail.2, hmore]
  rfl

theorem parsed_member {w w₁ w₂ w₃ raw name text more : CString}
    {fields : Fields δ} {child next : Items δ} (hw : Blank w)
    (hname : StringText raw name) (hshort : raw.length + 1 < 2 ^ 31)
    (hw₁ : Blank w₁) (hw₂ : Blank w₂) (hw₃ : Blank w₃)
    (htext : ∀ rest, 32 < deref (text ++ rest))
    (hvalue : Parsed unit .value text (.item fields child .null))
    {fuel bound : ℕ} {tail : CString} (hint : text.length < 2 ^ 31)
    (hfuel : text.length < fuel)
    (htail : deref more ∈ behindValue ∧ 32 < deref more)
    (hmore : objectLoop unit (parseValue unit fuel) bound more =
      .ok (next, tail)) :
    parseMembers unit (parseValue unit fuel) bound
        (w ++ (quoted raw ++ (w₁ ++ byte ':' :: (w₂ ++ (text ++
          (w₃ ++ more)))))) =
      .ok (.item { fields with string := some name } child next, tail) := by
  obtain ⟨fields', child', heq, hparse⟩ := hvalue hint fuel typeString (some name)
    (w₃ ++ more) hfuel (endsNumber_of_mem (deref_blank_mem hw₃ htail.1))
  cases heq
  unfold parseMembers
  rw [parseMember_text unit hw hname hshort hw₁ hw₂ hw₃ (htext _) hparse htail.2]
  show objectLoop unit (parseValue unit fuel) bound more >>= _ = _
  rw [hmore]
  rfl

theorem parsed_of_reads {form : Form} {text compact : CString}
    {items : Items δ}
    (hreads : Reads unit (NumberText.double unit) Blank form text compact items) :
    Parsed unit form text items := by
  have hcomma : ∀ more : CString, deref (byte ',' :: more) ∈ behindValue ∧
      32 < deref (byte ',' :: more) := fun _ =>
    show byte ',' ∈ behindValue ∧ 32 < byte ',' by decide
  have hbracket : ∀ more : CString, deref (byte ']' :: more) ∈ behindValue ∧
      32 < deref (byte ']' :: more) := fun _ =>
    show byte ']' ∈ behindValue ∧ 32 < byte ']' by decide
  have hbrace : ∀ more : CString, deref (byte '\x7d' :: more) ∈ behindValue ∧
      32 < deref (byte '\x7d' :: more) := fun _ =>
    show byte '\x7d' ∈ behindValue ∧ 32 < byte '\x7d' by decide
  induction hreads with
  | null =>
      intro hint fuel type string rest hfuel hrest
      obtain ⟨fuel, rfl⟩ :=
        Nat.exists_eq_add_one_of_ne_zero (Nat.ne_zero_of_lt hfuel)
      exact ⟨_, _, rfl, (parseValue_literal unit fuel type string rest).1⟩
  | false =>
      intro hint fuel type string rest hfuel hrest
      obtain ⟨fuel, rfl⟩ :=
        Nat.exists_eq_add_one_of_ne_zero (Nat.ne_zero_of_lt hfuel)
      exact ⟨_, _, rfl, (parseValue_literal unit fuel type string rest).2.1⟩
  | true =>
      intro hint fuel type string rest hfuel hrest
      obtain ⟨fuel, rfl⟩ :=
        Nat.exists_eq_add_one_of_ne_zero (Nat.ne_zero_of_lt hfuel)
      exact ⟨_, _, rfl, (parseValue_literal unit fuel type string rest).2.2⟩
  | number n =>
      intro hint fuel type string rest hfuel hrest
      obtain ⟨fuel, rfl⟩ :=
        Nat.exists_eq_add_one_of_ne_zero (Nat.ne_zero_of_lt hfuel)
      exact ⟨_, _, rfl, parseValue_number unit fuel n type string hrest⟩
  | @string raw bytes hstring =>
      intro hint fuel type string rest hfuel hrest
      rw [length_quoted] at hint
      obtain ⟨fuel, rfl⟩ :=
        Nat.exists_eq_add_one_of_ne_zero (Nat.ne_zero_of_lt hfuel)
      exact ⟨_, _, rfl,
        parseValue_string unit fuel hstring (by omega) type string rest⟩
  | emptyArray hgap => exact parsed_emptyArray unit hgap
  | array helements ih => exact parsed_array unit helements ih
  | emptyObject hgap => exact parsed_emptyObject unit hgap
  | object hmembers ih => exact parsed_object unit hmembers ih
  | element hw hvalue hw' ih =>
      intro hint fuel bound rest hfuel hbound
      have hpos := length_value_pos unit hvalue
      simp only [List.length_append] at hint hfuel hbound
      obtain ⟨bound, rfl⟩ :=
        Nat.exists_eq_add_one_of_ne_zero (show bound ≠ 0 by omega)
      rw [List.append_assoc, List.append_assoc]
      exact parsed_element unit hw hw' (fun rest => (deref_value unit hvalue rest).1)
        ih (by omega) (by omega) (hbracket rest)
        (arrayLoop_end unit bound (show byte ']' ≠ byte ',' by decide))
  | elements hw hvalue hw' hmore ih ihMore =>
      intro hint fuel bound rest hfuel hbound
      have hpos := length_value_pos unit hvalue
      simp only [List.length_append, List.length_cons] at hint hfuel hbound
      obtain ⟨bound, rfl⟩ :=
        Nat.exists_eq_add_one_of_ne_zero (show bound ≠ 0 by omega)
      rw [List.append_assoc, List.append_assoc, List.append_assoc,
        List.cons_append]
      apply parsed_element unit hw hw'
        (fun rest => (deref_value unit hvalue rest).1) ih (by omega) (by omega)
        (hcomma _)
      rw [arrayLoop_comma]
      exact ihMore (by omega) fuel bound rest (by omega) (by omega)
  | member hw hname hw₁ hw₂ hvalue hw₃ ih =>
      intro hint fuel bound rest hfuel hbound
      have hpos := length_value_pos unit hvalue
      simp only [List.length_append, List.length_cons, length_quoted]
        at hint hfuel hbound
      obtain ⟨bound, rfl⟩ :=
        Nat.exists_eq_add_one_of_ne_zero (show bound ≠ 0 by omega)
      simp only [List.append_assoc, List.cons_append]
      exact parsed_member unit hw hname (by omega) hw₁ hw₂ hw₃
        (fun rest => (deref_value unit hvalue rest).1) ih (by omega) (by omega)
        (hbrace rest)
        (objectLoop_end unit bound (show byte '\x7d' ≠ byte ',' by decide))
  | members hw hname hw₁ hw₂ hvalue hw₃ hmore ih ihMore =>
      intro hint fuel bound rest hfuel hbound
      have hpos := length_value_pos unit hvalue
      simp only [List.length_append, List.length_cons, length_quoted]
        at hint hfuel hbound
      obtain ⟨bound, rfl⟩ :=
        Nat.exists_eq_add_one_of_ne_zero (show bound ≠ 0 by omega)
      simp only [List.append_assoc, List.cons_append]
      apply parsed_member unit hw hname (by omega) hw₁ hw₂ hw₃
        (fun rest => (deref_value unit hvalue rest).1) ih (by omega) (by omega)
        (hcomma _)
      rw [objectLoop_comma]
      exact ihMore (by omega) fuel bound rest (by omega) (by omega)

/-- A value has no name of its own. -/
theorem string_value {value : NumberText → δ} {gap : CString → Prop}
    {text compact : CString}
    {fields : Fields δ} {child next : Items δ}
    (hreads : Reads unit value gap .value text compact (.item fields child next)) :
    fields.string = none := by
  cases hreads <;> rfl

/-- The parse ends in the white space behind the value, or behind that if the
text has to end there. -/
theorem parseWithOpts_document {text compact : CString} {items : Items δ}
    (hshort : text.length < 2 ^ 31)
    (htext : Document unit (NumberText.double unit) Blank text compact items)
    (requireNullTerminated : Bool) :
    ∃ rest, parseWithOpts unit text requireNullTerminated = .ok (items, rest) ∧
      Blank rest ∧ (requireNullTerminated = true → rest = []) := by
  obtain ⟨w, value, w', hw, hreads, hw', rfl⟩ := htext
  have hends : EndsNumber (w' ++ []) :=
    endsNumber_of_mem (deref_blank_mem hw' (by decide))
  rw [List.append_nil] at hends
  simp only [List.length_append] at hshort
  obtain ⟨fields, child, rfl, hparse⟩ := parsed_of_reads unit hreads (by omega)
    ((w ++ (value ++ w')).length + 1) 0 none w' (by
      simp only [List.length_append]
      omega) hends
  have hstring := string_value unit hreads
  have hfields : { fields with string := none } = fields := by
    rw [← hstring]
  rw [hfields] at hparse
  have hskip : skip w' = [] := by
    have h := skip_blank hw' []
    rwa [List.append_nil] at h
  have hvalue : parseValue unit ((w ++ (value ++ w')).length + 1) (newItem unit)
      (skip (w ++ (value ++ w'))) = .ok ((fields, child), w') := by
    rw [skip_blank_append hw (deref_value unit hreads w').1]
    exact hparse
  unfold parseWithOpts
  rw [hvalue]
  cases requireNullTerminated with
  | false => exact ⟨w', rfl, hw', fun h => absurd h (by decide)⟩
  | true =>
      refine ⟨[], ?_, fun c hc => absurd hc List.not_mem_nil, fun _ => rfl⟩
      show (if deref (skip w') ≠ 0 then _ else _) = _
      rw [hskip, if_neg (show ¬deref [] ≠ 0 from not_not.mpr rfl)]
      rfl

/-- Every JSON text of less than two gigabytes is parsed to its items, also when
nothing else may follow. -/
theorem parse_json {R : ℚ → Prop} {ofRat : ℚ → δ} (hexact : unit.Exact R ofRat) :
    ∃ value, ReadsExactly R ofRat value ∧
      ∀ {text compact : CString} {items : Items δ}, text.length < 2 ^ 31 →
        Document unit value Blank text compact items →
          (∃ rest, parse unit text = .ok (items, rest) ∧ Blank rest) ∧
            parseWithOpts unit text true = .ok (items, []) := by
  refine ⟨NumberText.double unit, readsExactly_double hexact, ?_⟩
  intro text compact items hshort htext
  obtain ⟨rest, hparse, hrest, -⟩ :=
    parseWithOpts_document unit hshort htext false
  obtain ⟨_, hends, -, hnil⟩ := parseWithOpts_document unit hshort htext true
  refine ⟨⟨rest, hparse, hrest⟩, ?_⟩
  rw [hends, hnil rfl]

/-- `-12.5e1` -/
def sampleNumber : NumberText where
  negative := true
  integer := [1, 2]
  fraction := [5]
  exponent := some
    { mark := byte 'e'
      sign := none
      digits := [1]
      marked := Or.inl rfl
      nonempty := by decide }
  leading := by decide

theorem sampleNumber_rational : sampleNumber.rational = -125 := by
  have hsignificand : sampleNumber.significand = 125 := by decide
  have hpower : sampleNumber.power = 0 := by decide
  unfold NumberText.rational
  rw [hsignificand, hpower]
  norm_num [sampleNumber]

theorem sampleNumber_isExact : sampleNumber.IsExact (fun _ => True) where
  significand_le := by decide
  exponent_lt := by decide
  fraction_lt := by decide
  nonzero _ := by decide
  power := trivial
  rational := trivial

def sampleText : CString :=
  literal " [ -12.5e1,\x7b\"a\" : \"\\u00e9\\n\"\x7d ] "

def sampleItems : Items ℚ :=
  .item (plainItem rationals typeArray)
    (.item (numberItem rationals (-125)) .null
      (.item (plainItem rationals typeObject)
        (.item { stringItem rationals [0xC3, 0xA9, 0x0A] with
          string := some (literal "a") } .null .null) .null)) .null

theorem parse_json_sample :
    (∃ rest, parse rationals sampleText = .ok (sampleItems, rest) ∧ Blank rest) ∧
      parseWithOpts rationals sampleText true = .ok (sampleItems, []) := by
  have hnil : Blank [] := fun c hc => absurd hc List.not_mem_nil
  have hspace : Blank (literal " ") :=
    List.forall_iff_forall_mem.mp (by decide)
  have hname : StringText (literal "a") (literal "a") :=
    .plain (by decide) (by decide) (by decide) .nil
  have hzero : hexValue (byte '0') = some 0 := by decide
  have hunit := UnitEscape.mk hzero hzero
    (show hexValue (byte 'e') = some 14 by decide)
    (show hexValue (byte '9') = some 9 by decide)
  have hletter : StringText (literal "\\n") [0x0A] :=
    .letter (by decide) .nil
  have hstring : StringText (literal "\\u00e9\\n") [0xC3, 0xA9, 0x0A] :=
    StringText.character (c := 'é') (by decide) (.cons hunit .nil) hletter
  obtain ⟨value, hvalue, hparse⟩ := parse_json rationals rationals_exact
  have hminus : value sampleNumber = -125 :=
    (hvalue sampleNumber sampleNumber_isExact).trans sampleNumber_rational
  have hnumber : Reads rationals value Blank .value _ _ _ := .number sampleNumber
  rw [hminus] at hnumber
  have hquoted : Reads rationals value Blank .value _ _ _ := .string hstring
  have hmember := Reads.member hnil hname hspace hspace hquoted hnil
  have hreads := Reads.array (Reads.elements hspace hnumber hnil
    (Reads.element hnil (.object hmember) hspace))
  exact hparse (by decide)
    ⟨literal " ", _, literal " ", hspace, hreads, hspace, by decide⟩

end CJson

end ClpszDemos
