import ClpszDemos.CJsonRoundTrip
import ClpszDemos.TwoCursors

/-!
# Minifying

`cJSON_Minify` takes white space and comments out of a text, in the block that
the text is in.  It copies strings without looking at what is between their
quotes, escaped quotes excepted, and every other byte as it is.  What is left
of a JSON text with comments is the text with nothing between its tokens.
-/

namespace ClpszDemos

namespace CJson

open CString TwoCursors JavaText

/-! ## The loops -/

inductive MinifyError
  | trap (trap : Trap)
  | fuel
  deriving DecidableEq, Repr

def orStop {α : Type} : Except Trap α → Except MinifyError α
  | .ok a => .ok a
  | .error trap => .error (.trap trap)

/-- `while (*json && *json!='\n') json++;` -/
def skipLine : ℕ → TwoCursors → Except MinifyError TwoCursors
  | 0, _ => .error .fuel
  | fuel + 1, c => do
      let byte₀ ← orStop c.peek
      if byte₀ ≠ 0 ∧ byte₀ ≠ byte '\n' then skipLine fuel c.pass else return c

/-- `while (*json && !(*json=='*' && json[1]=='/')) json++;` and `json+=2` -/
def skipBlock : ℕ → TwoCursors → Except MinifyError TwoCursors
  | 0, _ => .error .fuel
  | fuel + 1, c => do
      let byte₀ ← orStop c.peek
      if byte₀ = 0 then return c.pass.pass
      else if byte₀ = byte '*' then
        if (← orStop c.peekNext) = byte '/' then return c.pass.pass
        else skipBlock fuel c.pass
      else skipBlock fuel c.pass

/-- `while (*json && *json!='\"')`, with the bytes copied -/
def copyString : ℕ → TwoCursors → Except MinifyError TwoCursors
  | 0, _ => .error .fuel
  | fuel + 1, c => do
      let byte₀ ← orStop c.peek
      if byte₀ = 0 ∨ byte₀ = byte '"' then return c
      else
        let c ← if byte₀ = byte '\\' then orStop c.copy else pure c
        let c ← orStop c.copy
        copyString fuel c

/-- One round of `while (*json)`; the inner loops end before the block does. -/
def minifyRound (c : TwoCursors) (byte₀ : UInt8) : Except MinifyError TwoCursors :=
  let bound := c.block.length
  if isBlank byte₀ then .ok c.pass
  else if byte₀ = byte '/' then do
    let next ← orStop c.peekNext
    if next = byte '/' then skipLine bound c
    else if next = byte '*' then skipBlock bound c
    else orStop c.copy
  else if byte₀ = byte '"' then do
    let c ← orStop c.copy
    let c ← copyString bound c
    orStop c.copy
  else orStop c.copy

def minifyLoop : ℕ → TwoCursors → Except MinifyError TwoCursors
  | 0, _ => .error .fuel
  | fuel + 1, c => do
      let byte₀ ← orStop c.peek
      if byte₀ = 0 then return c
      else
        let c ← minifyRound c byte₀
        minifyLoop fuel c

/-- `cJSON_Minify` -/
def minify (json : Block) : Except MinifyError Block := do
  let c ← minifyLoop (json.length + 1)
    { block := json
      into := 0
      source := 0 }
  orStop (c.put 0)

/-! ## Pieces of a text -/

/-- From the beginning of a text the loop comes to its end with `kept` of it. -/
def Strips (text kept : CString) : Prop :=
  ∀ (c : TwoCursors) (done rest : CString), c.Stands done (text ++ rest) →
    rest ≠ [] → ∃ c' rounds, c'.Stands (done ++ kept) rest ∧
      c'.block.length = c.block.length ∧ rounds ≤ text.length ∧
      ∀ fuel, minifyLoop (fuel + rounds) c = minifyLoop fuel c'

theorem strips_nil : Strips [] [] := by
  intro c done rest hstands _
  refine ⟨c, 0, ?_, rfl, le_rfl, fun fuel => rfl⟩
  rw [List.append_nil]
  exact hstands

theorem Strips.append {text kept text' kept' : CString} (h : Strips text kept)
    (h' : Strips text' kept') : Strips (text ++ text') (kept ++ kept') := by
  intro c done rest hstands hrest
  rw [List.append_assoc] at hstands
  obtain ⟨c₁, rounds₁, hstands₁, hlength₁, hrounds₁, hloop₁⟩ :=
    h c done (text' ++ rest) hstands (by simp [hrest])
  obtain ⟨c₂, rounds₂, hstands₂, hlength₂, hrounds₂, hloop₂⟩ :=
    h' c₁ (done ++ kept) rest hstands₁ hrest
  refine ⟨c₂, rounds₁ + rounds₂, ?_, hlength₂.trans hlength₁, ?_, fun fuel => ?_⟩
  · rw [← List.append_assoc]
    exact hstands₂
  · rw [List.length_append]
    omega
  · rw [Nat.add_comm rounds₁, ← Nat.add_assoc, hloop₁, hloop₂]

/-- A piece that is done in one round -/
theorem strips_round {first : UInt8} {text kept : CString} (hfirst : first ≠ 0)
    (hround : ∀ (c : TwoCursors) (done rest : CString),
      c.Stands done (first :: text ++ rest) → rest ≠ [] →
      ∃ c', minifyRound c first = .ok c' ∧ c'.Stands (done ++ kept) rest ∧
        c'.block.length = c.block.length) :
    Strips (first :: text) kept := by
  intro c done rest hstands hrest
  obtain ⟨c', hc', hstands', hlength⟩ := hround c done rest hstands hrest
  refine ⟨c', 1, hstands', hlength, Nat.succ_le_succ (Nat.zero_le _),
    fun fuel => ?_⟩
  conv_lhs => unfold minifyLoop
  rw [hstands.peek_eq]
  show (if first = 0 then _ else minifyRound c first >>= minifyLoop fuel) = _
  rw [if_neg hfirst, hc']
  rfl

theorem strips_blank {c : UInt8} (hblank : isBlank c = true) : Strips [c] [] := by
  apply strips_round (blank_mem hblank).2.1
  intro cursors done rest hstands _
  refine ⟨cursors.pass, if_pos hblank, ?_, rfl⟩
  rw [List.append_nil]
  exact hstands.pass

/-- A byte that is no white space, no quote and no slash -/
def IsOrdinary (c : UInt8) : Prop :=
  c ≠ 0 ∧ isBlank c = false ∧ c ≠ byte '/' ∧ c ≠ byte '"'

theorem strips_ordinary {c : UInt8} (hc : IsOrdinary c) : Strips [c] [c] := by
  apply strips_round hc.1
  intro cursors done rest hstands _
  obtain ⟨cursors', hcopy, hstands', hlength⟩ := hstands.copy
  refine ⟨cursors', ?_, hstands', hlength⟩
  unfold minifyRound
  rw [if_neg (by rw [hc.2.1]; decide), if_neg hc.2.2.1, if_neg hc.2.2.2, hcopy]
  rfl

theorem strips_ordinaries {text : CString} (htext : ∀ c ∈ text, IsOrdinary c) :
    Strips text text := by
  induction text with
  | nil => exact strips_nil
  | cons c text ih =>
      exact (strips_ordinary (htext c List.mem_cons_self)).append
        (ih fun d hd => htext d (List.mem_cons_of_mem c hd))

/-! ## Comments -/

theorem skipLine_body {body : CString}
    (hbody : ∀ c ∈ body, c ≠ 0 ∧ c ≠ byte '\n') {fuel : ℕ}
    (hfuel : body.length < fuel) {c : TwoCursors} {done rest : CString}
    (hstands : c.Stands done (body ++ byte '\n' :: rest)) :
    ∃ c', skipLine fuel c = .ok c' ∧ c'.Stands done (byte '\n' :: rest) ∧
      c'.block.length = c.block.length := by
  induction body generalizing fuel c with
  | nil =>
      obtain ⟨fuel, rfl⟩ :=
        Nat.exists_eq_add_one_of_ne_zero (Nat.ne_zero_of_lt hfuel)
      refine ⟨c, ?_, hstands, rfl⟩
      unfold skipLine
      rw [hstands.peek_eq]
      show (if byte '\n' ≠ 0 ∧ byte '\n' ≠ byte '\n' then skipLine fuel c.pass
        else Except.ok c) = .ok c
      exact if_neg fun h => h.2 rfl
  | cons b body ih =>
      obtain ⟨fuel, rfl⟩ :=
        Nat.exists_eq_add_one_of_ne_zero (Nat.ne_zero_of_lt hfuel)
      obtain ⟨c', hloop, hstands', hlength⟩ := ih
        (fun d hd => hbody d (List.mem_cons_of_mem b hd))
        (Nat.lt_of_succ_lt_succ hfuel) hstands.pass
      refine ⟨c', ?_, hstands', hlength⟩
      unfold skipLine
      rw [hstands.peek_eq]
      exact (if_pos (hbody b List.mem_cons_self)).trans hloop

theorem strips_line {body : CString}
    (hbody : ∀ c ∈ body, c ≠ 0 ∧ c ≠ byte '\n') :
    Strips (byte '/' :: byte '/' :: (body ++ [byte '\n'])) [] := by
  intro c done rest hstands hrest
  have htext : byte '/' :: byte '/' :: (body ++ [byte '\n']) ++ rest =
      byte '/' :: byte '/' :: body ++ byte '\n' :: rest := by
    simp only [List.cons_append, List.append_assoc, List.nil_append]
  rw [htext] at hstands
  have hfuel : (byte '/' :: byte '/' :: body).length < c.block.length := by
    have hle := hstands.length_le
    simp only [List.length_append, List.length_cons] at hle ⊢
    omega
  have hslashes : ∀ b ∈ byte '/' :: byte '/' :: body, b ≠ 0 ∧ b ≠ byte '\n' := by
    intro b hb
    rcases List.mem_cons.mp hb with rfl | hb
    · decide
    · rcases List.mem_cons.mp hb with rfl | hb
      · decide
      · exact hbody b hb
  obtain ⟨c₁, hline, hstands₁, hlength₁⟩ := skipLine_body hslashes hfuel hstands
  obtain ⟨c₂, rounds, hstands₂, hlength₂, hrounds, hloop⟩ :=
    strips_blank (show isBlank (byte '\n') = true by decide) c₁ done rest
      hstands₁ hrest
  refine ⟨c₂, rounds + 1, hstands₂, hlength₂.trans hlength₁, ?_, fun fuel => ?_⟩
  · simp only [List.length_cons, List.length_append, List.length_nil] at hrounds ⊢
    omega
  · rw [← Nat.add_assoc]
    conv_lhs => unfold minifyLoop
    rw [hstands.peek_eq]
    have hround : minifyRound c (byte '/') = .ok c₁ := by
      unfold minifyRound
      rw [if_neg (by decide), if_pos rfl, hstands.peekNext_eq]
      exact hline
    show (if byte '/' = 0 then Except.ok c
      else minifyRound c (byte '/') >>= minifyLoop (fuel + rounds)) = _
    rw [if_neg (by decide), hround]
    exact hloop fuel

theorem skipBlock_body {body : CString} (hbody : ∀ c ∈ body, c ≠ 0)
    (hends : ¬[byte '*', byte '/'] <:+: body) {fuel : ℕ}
    (hfuel : body.length < fuel) {c : TwoCursors} {done rest : CString}
    (hstands : c.Stands done (body ++ byte '*' :: byte '/' :: rest)) :
    ∃ c', skipBlock fuel c = .ok c' ∧ c'.Stands done rest ∧
      c'.block.length = c.block.length := by
  induction body generalizing fuel c with
  | nil =>
      obtain ⟨fuel, rfl⟩ :=
        Nat.exists_eq_add_one_of_ne_zero (Nat.ne_zero_of_lt hfuel)
      refine ⟨c.pass.pass, ?_, hstands.pass.pass, rfl⟩
      unfold skipBlock
      rw [hstands.peek_eq, hstands.peekNext_eq]
      rfl
  | cons b body ih =>
      obtain ⟨fuel, rfl⟩ :=
        Nat.exists_eq_add_one_of_ne_zero (Nat.ne_zero_of_lt hfuel)
      have hb := hbody b List.mem_cons_self
      obtain ⟨c', hloop, hstands', hlength⟩ := ih
        (fun d hd => hbody d (List.mem_cons_of_mem b hd))
        (fun h => hends (h.trans (List.suffix_cons b body).isInfix))
        (Nat.lt_of_succ_lt_succ hfuel) hstands.pass
      refine ⟨c', ?_, hstands', hlength⟩
      unfold skipBlock
      rw [hstands.peek_eq]
      by_cases hstar : b = byte '*'
      · subst hstar
        -- the byte behind the star is no slash
        obtain ⟨next, tail, htail, hnext⟩ : ∃ next tail,
            body ++ byte '*' :: byte '/' :: rest = next :: tail ∧
              next ≠ byte '/' := by
          cases body with
          | nil => exact ⟨_, _, rfl, by decide⟩
          | cons d body =>
              refine ⟨_, _, rfl, ?_⟩
              rintro rfl
              exact hends ⟨[], body, rfl⟩
        have hstands' := hstands
        rw [List.cons_append, htail] at hstands'
        rw [hstands'.peekNext_eq]
        exact (if_neg hnext).trans hloop
      · exact (if_neg hb).trans ((if_neg hstar).trans hloop)

theorem strips_block {body : CString} (hbody : ∀ c ∈ body, c ≠ 0)
    (hends : ¬[byte '*', byte '/'] <:+: byte '*' :: body) :
    Strips (byte '/' :: byte '*' :: (body ++ [byte '*', byte '/'])) [] := by
  apply strips_round (by decide)
  intro c done rest hstands _
  have htext : byte '/' :: byte '*' :: (body ++ [byte '*', byte '/']) ++ rest =
      byte '/' :: byte '*' :: body ++ byte '*' :: byte '/' :: rest := by
    simp only [List.cons_append, List.append_assoc, List.nil_append]
  rw [htext] at hstands
  have hfuel : (byte '/' :: byte '*' :: body).length < c.block.length := by
    have hle := hstands.length_le
    simp only [List.length_append, List.length_cons] at hle ⊢
    omega
  have hbytes : ∀ b ∈ byte '/' :: byte '*' :: body, b ≠ 0 := by
    intro b hb
    rcases List.mem_cons.mp hb with rfl | hb
    · decide
    · rcases List.mem_cons.mp hb with rfl | hb
      · decide
      · exact hbody b hb
  have hends' : ¬[byte '*', byte '/'] <:+: byte '/' :: byte '*' :: body := by
    intro hinfix
    rcases List.infix_cons_iff.mp hinfix with hprefix | hinfix
    · exact not_literal (by decide) hprefix
    · exact hends hinfix
  obtain ⟨c', hblock, hstands', hlength⟩ :=
    skipBlock_body hbytes hends' hfuel hstands
  refine ⟨c', ?_, ?_, hlength⟩
  · unfold minifyRound
    rw [if_neg (by decide), if_pos rfl, hstands.peekNext_eq]
    exact hblock
  · rw [List.append_nil]
    exact hstands'

theorem strips_commented {w : CString} (hw : Commented w) : Strips w [] := by
  induction hw with
  | nil => exact strips_nil
  | blank hblank hrest ih => exact (strips_blank hblank).append ih
  | line hbody hrest ih =>
      have h := (strips_line hbody).append ih
      simpa only [List.cons_append, List.append_assoc, List.nil_append] using h
  | block hbody hends hrest ih =>
      have h := (strips_block hbody hends).append ih
      simpa only [List.cons_append, List.append_assoc, List.nil_append] using h

/-! ## Strings -/

/-- The bytes of a string, where a backslash takes the next byte with it -/
inductive Paired : CString → Prop
  | nil : Paired []
  | plain {c : UInt8} {raw : CString} (hplain : IsPlain c) (hrest : Paired raw) :
      Paired (c :: raw)
  | pair (c : UInt8) {raw : CString} (hrest : Paired raw) :
      Paired (byte '\\' :: c :: raw)

theorem Paired.append {raw raw' : CString} (h : Paired raw) (h' : Paired raw') :
    Paired (raw ++ raw') := by
  induction h with
  | nil => exact h'
  | plain hplain hrest ih => exact .plain hplain ih
  | pair c hrest ih => exact .pair c ih

theorem UnitEscapes.paired {units : JString} {text : CString}
    (hunits : UnitEscapes units text) : Paired text := by
  induction hunits with
  | nil => exact .nil
  | cons hunit hunits ih =>
      apply Paired.append _ ih
      cases hunit with
      | mk ha hb hc hd =>
          exact .pair _ (.plain (hexValue_plain ha) (.plain (hexValue_plain hb)
            (.plain (hexValue_plain hc) (.plain (hexValue_plain hd) .nil))))

theorem StringText.paired {raw bytes : CString}
    (hstring : StringText raw bytes) : Paired raw := by
  induction hstring with
  | nil => exact .nil
  | plain hnul hquote hback hrest ih => exact .plain ⟨hnul, hquote, hback⟩ ih
  | letter hletter hrest ih => exact .pair _ ih
  | same hsame hrest ih => exact .pair _ ih
  | character hnul hunits hrest ih => exact hunits.paired.append ih
  | lost hlost hunits hrest ih => exact hunits.paired.append ih

theorem copyString_paired {raw : CString} (hraw : Paired raw) {fuel : ℕ}
    (hfuel : raw.length < fuel) {c : TwoCursors} {done rest : CString}
    (hstands : c.Stands done (raw ++ byte '"' :: rest)) :
    ∃ c', copyString fuel c = .ok c' ∧
      c'.Stands (done ++ raw) (byte '"' :: rest) ∧
      c'.block.length = c.block.length := by
  obtain ⟨fuel, rfl⟩ :=
    Nat.exists_eq_add_one_of_ne_zero (Nat.ne_zero_of_lt hfuel)
  induction hraw generalizing fuel c done with
  | nil =>
      refine ⟨c, ?_, ?_, rfl⟩
      · unfold copyString
        rw [hstands.peek_eq]
        rfl
      · rw [List.append_nil]
        exact hstands
  | @plain b raw hplain hrest ih =>
      obtain ⟨fuel, rfl⟩ := Nat.exists_eq_add_one_of_ne_zero
        (Nat.ne_zero_of_lt (Nat.lt_of_succ_lt_succ hfuel))
      obtain ⟨c₁, hcopy, hstands₁, hlength₁⟩ := hstands.copy
      obtain ⟨c', hloop, hstands', hlength'⟩ :=
        ih hstands₁ fuel (Nat.lt_of_succ_lt_succ hfuel)
      refine ⟨c', ?_, ?_, hlength'.trans hlength₁⟩
      · conv_lhs => unfold copyString
        rw [hstands.peek_eq]
        show (if b = 0 ∨ b = byte '"' then Except.ok c
          else if b = byte '\\' then orStop c.copy >>= fun c =>
            orStop c.copy >>= copyString (fuel + 1)
          else orStop c.copy >>= copyString (fuel + 1)) = _
        rw [if_neg (not_or.mpr ⟨hplain.1, hplain.2.1⟩), if_neg hplain.2.2, hcopy]
        exact hloop
      · rwa [List.append_assoc, List.singleton_append] at hstands'
  | @pair b raw hrest ih =>
      have hlt : raw.length + 1 < fuel := Nat.lt_of_succ_lt_succ hfuel
      obtain ⟨fuel, rfl⟩ :=
        Nat.exists_eq_add_one_of_ne_zero (Nat.ne_zero_of_lt hlt)
      obtain ⟨c₁, hcopy₁, hstands₁, hlength₁⟩ := hstands.copy
      obtain ⟨c₂, hcopy₂, hstands₂, hlength₂⟩ := hstands₁.copy
      obtain ⟨c', hloop, hstands', hlength'⟩ :=
        ih hstands₂ fuel (Nat.lt_of_succ_lt hlt)
      refine ⟨c', ?_, ?_, hlength'.trans (hlength₂.trans hlength₁)⟩
      · conv_lhs => unfold copyString
        rw [hstands.peek_eq]
        show orStop c.copy >>= (fun c => orStop c.copy >>=
          copyString (fuel + 1)) = _
        rw [hcopy₁]
        show orStop c₁.copy >>= copyString (fuel + 1) = _
        rw [hcopy₂]
        exact hloop
      · simpa only [List.append_assoc, List.singleton_append,
          List.cons_append, List.nil_append] using hstands'

theorem strips_quoted {raw : CString} (hraw : Paired raw) :
    Strips (quoted raw) (quoted raw) := by
  apply strips_round (by decide)
  intro c done rest hstands _
  have htext : byte '"' :: (raw ++ [byte '"']) ++ rest =
      byte '"' :: (raw ++ byte '"' :: rest) := by
    rw [List.cons_append, List.append_assoc, List.singleton_append]
  rw [htext] at hstands
  have hfuel : raw.length < c.block.length := by
    have hle := hstands.length_le
    simp only [List.length_append, List.length_cons] at hle
    omega
  obtain ⟨c₁, hopen, hstands₁, hlength₁⟩ := hstands.copy
  obtain ⟨c₂, hstring, hstands₂, hlength₂⟩ :=
    copyString_paired hraw hfuel hstands₁
  obtain ⟨c₃, hclose, hstands₃, hlength₃⟩ := hstands₂.copy
  refine ⟨c₃, ?_, ?_, hlength₃.trans (hlength₂.trans hlength₁)⟩
  · unfold minifyRound
    rw [if_neg (by decide), if_neg (by decide), if_pos rfl, hopen]
    show copyString c.block.length c₁ >>= (fun c => orStop c.copy) = _
    rw [hstring]
    show orStop c₂.copy = _
    rw [hclose]
    rfl
  · simpa only [quoted, List.append_assoc, List.singleton_append,
      List.cons_append, List.nil_append] using hstands₃

/-! ## The other tokens -/

theorem digitByte_ordinary (d : Fin 10) : IsOrdinary (digitByte d) := by
  unfold IsOrdinary
  revert d
  decide

theorem digits_ordinary (digits : List (Fin 10)) :
    ∀ c ∈ digits.map digitByte, IsOrdinary c := by
  intro c hc
  obtain ⟨d, -, rfl⟩ := List.mem_map.mp hc
  exact digitByte_ordinary d

/-- The bytes of the tokens that are no strings, digits apart -/
def tokenBytes : List UInt8 :=
  [byte '-', byte '+', byte '.', byte 'e', byte 'E', byte '0', byte ',',
    byte ':', byte '[', byte ']', byte '\x7b', byte '\x7d', byte 'n', byte 'u',
    byte 'l', byte 'f', byte 'a', byte 's', byte 't', byte 'r']

theorem strips_token {text : CString} (htext : text.Forall (· ∈ tokenBytes)) :
    Strips text text := by
  have hall : ∀ c ∈ tokenBytes,
      c ≠ 0 ∧ isBlank c = false ∧ c ≠ byte '/' ∧ c ≠ byte '"' :=
    List.forall_iff_forall_mem.mp (by decide)
  apply strips_ordinaries
  intro c hc
  exact hall c (List.forall_iff_forall_mem.mp htext c hc)

theorem strips_exponent (e : Exponent) : Strips e.text e.text := by
  have hmark : Strips [e.mark] [e.mark] := by
    apply strips_token
    rcases e.marked with h | h <;> rw [h] <;> decide
  have hsign : Strips (Sign.text e.sign) (Sign.text e.sign) := by
    apply strips_token
    rcases e.sign with _ | _ | _ <;> decide
  exact hmark.append (hsign.append (strips_ordinaries (digits_ordinary e.digits)))

theorem strips_number (n : NumberText) : Strips n.text n.text := by
  have hsign : Strips (if n.negative then [byte '-'] else [])
      (if n.negative then [byte '-'] else []) := by
    apply strips_token
    cases n.negative <;> decide
  have hinteger : Strips n.integerText n.integerText := by
    unfold NumberText.integerText
    by_cases h : n.integer = []
    · rw [if_pos h]
      exact strips_token (by decide)
    · rw [if_neg h]
      exact strips_ordinaries (digits_ordinary n.integer)
  have hfraction : Strips n.fractionText n.fractionText := by
    unfold NumberText.fractionText
    by_cases h : n.fraction = []
    · rw [if_pos h]
      exact strips_nil
    · rw [if_neg h]
      have hpoint : Strips [byte '.'] [byte '.'] := strips_token (by decide)
      exact hpoint.append (strips_ordinaries (digits_ordinary n.fraction))
  have hexponent : Strips n.exponentText n.exponentText := by
    unfold NumberText.exponentText
    cases n.exponent with
    | none => exact strips_nil
    | some e => exact strips_exponent e
  exact hsign.append (hinteger.append (hfraction.append hexponent))

/-! ## Texts -/

variable {δ : Type} (unit : DoubleUnit δ) {value : NumberText → δ}

theorem Reads.mono {gap gap' : CString → Prop} (hgap : ∀ w, gap w → gap' w)
    {form : Form} {text compact : CString} {items : Items δ}
    (hreads : Reads unit value gap form text compact items) :
    Reads unit value gap' form text compact items := by
  induction hreads with
  | null => exact .null
  | false => exact .false
  | true => exact .true
  | number n => exact .number n
  | string hstring => exact .string hstring
  | emptyArray hw => exact .emptyArray (hgap _ hw)
  | array helements ih => exact .array ih
  | emptyObject hw => exact .emptyObject (hgap _ hw)
  | object hmembers ih => exact .object ih
  | element hw hvalue hw' ih => exact .element (hgap _ hw) ih (hgap _ hw')
  | elements hw hvalue hw' hmore ih ihMore =>
      exact .elements (hgap _ hw) ih (hgap _ hw') ihMore
  | member hw hname hw₁ hw₂ hvalue hw₃ ih =>
      exact .member (hgap _ hw) hname (hgap _ hw₁) (hgap _ hw₂) ih (hgap _ hw₃)
  | members hw hname hw₁ hw₂ hvalue hw₃ hmore ih ihMore =>
      exact .members (hgap _ hw) hname (hgap _ hw₁) (hgap _ hw₂) ih
        (hgap _ hw₃) ihMore

theorem Blank.commented {w : CString} (hw : Blank w) : Commented w := by
  induction w with
  | nil => exact .nil
  | cons c w ih =>
      exact .blank (hw c List.mem_cons_self)
        (ih fun d hd => hw d (List.mem_cons_of_mem c hd))

/-- What is left of a text is a text of the same items. -/
theorem Reads.compact {gap : CString → Prop} {form : Form}
    {text compact : CString} {items : Items δ}
    (hreads : Reads unit value gap form text compact items) :
    Reads unit value Blank form compact compact items := by
  induction hreads with
  | null => exact .null
  | false => exact .false
  | true => exact .true
  | number n => exact .number n
  | string hstring => exact .string hstring
  | emptyArray hw => exact .emptyArray blank_nil
  | array helements ih => exact .array ih
  | emptyObject hw => exact .emptyObject blank_nil
  | object hmembers ih => exact .object ih
  | @element w w' text compact fields child hw hvalue hw' ih =>
      have h := Reads.element blank_nil ih blank_nil
      rwa [List.nil_append, List.append_nil] at h
  | elements hw hvalue hw' hmore ih ihMore =>
      exact .elements blank_nil ih blank_nil ihMore
  | member hw hname hw₁ hw₂ hvalue hw₃ ih =>
      have h := Reads.member blank_nil hname blank_nil blank_nil ih blank_nil
      rwa [List.nil_append, List.nil_append, List.nil_append,
        List.append_nil] at h
  | members hw hname hw₁ hw₂ hvalue hw₃ hmore ih ihMore =>
      exact .members blank_nil hname blank_nil blank_nil ih blank_nil ihMore

theorem strips_of_reads {form : Form} {text compact : CString}
    {items : Items δ}
    (hreads : Reads unit value Commented form text compact items) :
    Strips text compact := by
  have hopen : Strips [byte '['] [byte '['] := strips_token (by decide)
  have hclose : Strips [byte ']'] [byte ']'] := strips_token (by decide)
  have hbrace : Strips [byte '\x7b'] [byte '\x7b'] := strips_token (by decide)
  have hend : Strips [byte '\x7d'] [byte '\x7d'] := strips_token (by decide)
  have hcomma : Strips [byte ','] [byte ','] := strips_token (by decide)
  have hcolon : Strips [byte ':'] [byte ':'] := strips_token (by decide)
  induction hreads with
  | null => exact strips_token (by decide)
  | false => exact strips_token (by decide)
  | true => exact strips_token (by decide)
  | number n => exact strips_number n
  | string hstring => exact strips_quoted hstring.paired
  | emptyArray hw => exact hopen.append ((strips_commented hw).append hclose)
  | array helements ih => exact hopen.append (ih.append hclose)
  | emptyObject hw => exact hbrace.append ((strips_commented hw).append hend)
  | object hmembers ih => exact hbrace.append (ih.append hend)
  | element hw hvalue hw' ih =>
      have h := (strips_commented hw).append (ih.append (strips_commented hw'))
      rwa [List.nil_append, List.append_nil] at h
  | elements hw hvalue hw' hmore ih ihMore =>
      exact (strips_commented hw).append (ih.append
        ((strips_commented hw').append (hcomma.append ihMore)))
  | member hw hname hw₁ hw₂ hvalue hw₃ ih =>
      have h := (strips_commented hw).append ((strips_quoted hname.paired).append
        ((strips_commented hw₁).append (hcolon.append
          ((strips_commented hw₂).append (ih.append (strips_commented hw₃))))))
      simpa only [List.nil_append, List.append_nil, List.singleton_append] using h
  | members hw hname hw₁ hw₂ hvalue hw₃ hmore ih ihMore =>
      exact (strips_commented hw).append ((strips_quoted hname.paired).append
        ((strips_commented hw₁).append (hcolon.append
          ((strips_commented hw₂).append (ih.append
            ((strips_commented hw₃).append (hcomma.append ihMore)))))))

/-- The block begins with what is kept and its NUL. -/
theorem Strips.minify {text kept : CString} (hstrips : Strips text kept)
    (behind : Block) :
    ∃ block, minify (text ++ 0 :: behind) = .ok block ∧ kept ++ [0] <+: block ∧
      block.length = (text ++ 0 :: behind).length := by
  obtain ⟨c, rounds, hstands, hlength, hrounds, hloop⟩ :=
    hstrips _ [] (0 :: behind) (stands_start _) (List.cons_ne_nil _ _)
  rw [List.nil_append] at hstands
  obtain ⟨block, hput, hprefix, hblock⟩ := hstands.put 0
  refine ⟨block, ?_, hprefix, hblock.trans hlength⟩
  obtain ⟨fuel, hfuel⟩ : ∃ fuel,
      (text ++ 0 :: behind).length + 1 = fuel + 1 + rounds := by
    refine ⟨(text ++ 0 :: behind).length - rounds, ?_⟩
    have hle : text.length ≤ (text ++ 0 :: behind).length := by
      rw [List.length_append]
      exact Nat.le_add_right _ _
    omega
  unfold CJson.minify
  rw [hfuel, hloop]
  have hend : minifyLoop (fuel + 1) c = .ok c := by
    unfold minifyLoop
    rw [hstands.peek_eq]
    rfl
  rw [hend]
  show orStop (c.put 0) = _
  rw [hput]
  rfl

/-- A JSON text with comments is minified in its own block to the same text with
nothing between the tokens, and that is parsed to the same items. -/
theorem minify_json {R : ℚ → Prop} {ofRat : ℚ → δ} (hexact : unit.Exact R ofRat) :
    ∃ value, ReadsExactly R ofRat value ∧
      ∀ {text compact : CString} {items : Items δ} (behind : Block),
        Document unit value Commented text compact items →
          ∃ block, minify (text ++ 0 :: behind) = .ok block ∧
            compact ++ [0] <+: block ∧
            block.length = (text ++ 0 :: behind).length ∧
            (compact.length < 2 ^ 31 →
              parseWithOpts unit compact true = .ok (items, [])) := by
  refine ⟨NumberText.double unit, readsExactly_double hexact, ?_⟩
  rintro text compact items behind ⟨w, token, w', hw, hreads, hw', rfl⟩
  have hstrips : Strips (w ++ (token ++ w')) compact := by
    have h := (strips_commented hw).append
      ((strips_of_reads unit hreads).append (strips_commented hw'))
    rwa [List.nil_append, List.append_nil] at h
  obtain ⟨block, hminify, hprefix, hlength⟩ := hstrips.minify behind
  refine ⟨block, hminify, hprefix, hlength, fun hshort => ?_⟩
  have hdocument : Document unit (NumberText.double unit) Blank compact compact
      items :=
    ⟨[], compact, [], blank_nil, hreads.compact unit, blank_nil, by simp⟩
  obtain ⟨rest, hparse, -, hrest⟩ :=
    parseWithOpts_document unit hshort hdocument true
  rw [hparse, hrest rfl]

/-- `[/**/true, // last\n"/*"]` and some bytes behind it -/
theorem minify_json_sample :
    ∃ block, minify (literal "[/**/true, // last\n\"/*\"]" ++ 0 :: [7, 7]) =
        .ok block ∧ literal "[true,\"/*\"]" ++ [0] <+: block ∧
      block.length = (literal "[/**/true, // last\n\"/*\"]" ++ 0 :: [7, 7]).length ∧
      parseWithOpts rationals (literal "[true,\"/*\"]") true =
        .ok (.item (plainItem rationals typeArray)
          (.item { plainItem rationals typeTrue with valueint := 1 } .null
            (.item (stringItem rationals (literal "/*")) .null .null)) .null,
          []) := by
  have hblock : Commented (literal "/**/") := by
    have hbody : ∀ c ∈ ([] : CString), c ≠ 0 :=
      fun c hc => absurd hc List.not_mem_nil
    exact .block hbody (by decide) .nil
  have hlast : ∀ c ∈ literal " last", c ≠ 0 ∧ c ≠ byte '\n' :=
    List.forall_iff_forall_mem.mp (by decide)
  have hline : Commented (literal " // last\n") :=
    .blank (by decide) (.line hlast .nil)
  have hstring : StringText (literal "/*") (literal "/*") :=
    .plain (by decide) (by decide) (by decide)
      (.plain (by decide) (by decide) (by decide) .nil)
  obtain ⟨value, -, hminify⟩ := minify_json rationals rationals_exact
  have htrue : Reads rationals value Commented .value _ _ _ := .true
  have hreads := Reads.array (Reads.elements hblock htrue .nil
    (Reads.element hline (.string hstring) .nil))
  have hdocument : Document rationals value Commented
      (literal "[/**/true, // last\n\"/*\"]") (literal "[true,\"/*\"]") _ :=
    ⟨[], _, [], .nil, hreads, .nil, by decide⟩
  obtain ⟨block, hblock, hkept, hlength, hparse⟩ := hminify [7, 7] hdocument
  exact ⟨block, hblock, hkept, hlength, hparse (by decide)⟩

/-- The text that is printed formatted is minified to the text that is printed
unformatted. -/
theorem minify_print (hexact : unit.ExactInts) (hformats : unit.Formats)
    {named : Bool} {fields : Fields δ} {child next : Items δ}
    (hprintable : Printable unit named (.item fields child next))
    (hfits : ∀ fmt, Fits unit fmt 0 (.item fields child next)) (behind : Block) :
    ∃ text compact block, print unit (.item fields child next) =
        .ok (some text) ∧
      printUnformatted unit (.item fields child next) = .ok (some compact) ∧
      minify (text ++ 0 :: behind) = .ok block ∧ compact ++ [0] <+: block := by
  obtain ⟨text, compact, htext, hcompact, hreads⟩ :=
    valueText_reads unit hexact true 0 hprintable
  have hstrips := strips_of_reads unit
    (hreads.mono unit fun w hw => Blank.commented hw)
  obtain ⟨block, hminify, hprefix, -⟩ := hstrips.minify behind
  have hprint := printValue_eq unit hformats (hfits true)
  have hprintCompact := printValue_eq unit hformats (hfits false)
  rw [htext] at hprint
  rw [hcompact] at hprintCompact
  exact ⟨text, compact, block, hprint, hprintCompact, hminify, hprefix⟩

theorem minify_print_sample :
    ∃ text compact block, print rationals sampleArray = .ok (some text) ∧
      printUnformatted rationals sampleArray = .ok (some compact) ∧
      minify (text ++ 0 :: []) = .ok block ∧ compact ++ [0] <+: block :=
  minify_print rationals rationals_exactInts rationals_formats
    printable_sampleArray fits_sampleArray []

end CJson

end ClpszDemos
