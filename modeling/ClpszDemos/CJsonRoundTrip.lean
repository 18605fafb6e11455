import ClpszDemos.CJsonParsing
import ClpszDemos.CJsonPrinting

/-!
# Printing and parsing again

What the printer writes is a JSON text, with and without formatting, and the
text without formatting is what the formatted one is without its white space.
So parsing it gives the items that were printed, as far as the text has them:
a name in an array, the flag of a reference and what is behind a NUL are lost.
A number is printed as an integer when its two fields agree, and `double` is
exact on integers up to `2^53`.
-/

namespace ClpszDemos

namespace CJson

open CString JavaText

variable {δ : Type} (unit : DoubleUnit δ)

/-! ## Numbers -/

/-- The digits of a number, and their value in `double` -/
theorem exists_digits (hexact : unit.ExactInts) {m : ℕ} (hpos : 0 < m)
    (hsmall : m ≤ 2 ^ 53) :
    ∃ digits : List (Fin 10), (Nat.toDigits 10 m).map byte =
      digits.map digitByte ∧ digits.head? ≠ some 0 ∧ digits ≠ [] ∧
        digits.foldl (shift unit) (unit.ofInt 0) = unit.ofInt m := by
  have hbyte : ∀ d : Fin 10, byte (Nat.digitChar d.val) = digitByte d := by
    decide
  induction m using Nat.strong_induction_on with
  | _ m ih =>
      have hrest : m % 10 < 10 := Nat.mod_lt m (by norm_num)
      by_cases hlt : m < 10
      · refine ⟨[⟨m, hlt⟩], ?_, ?_, List.cons_ne_nil _ _, ?_⟩
        · rw [Nat.toDigits_of_lt_base hlt]
          exact congrArg (fun b => [b]) (hbyte ⟨m, hlt⟩)
        · intro hzero
          have hm : m = 0 := congrArg Fin.val (Option.some.inj hzero)
          omega
        · show unit.add (unit.mul (unit.ofInt 0) (unit.ofInt 10)) (unit.ofInt m) = _
          have habs : |(m : ℤ)| ≤ 2 ^ 53 := by
            rw [abs_of_nonneg (by positivity)]
            exact_mod_cast hsmall
          rw [hexact.mul 0 10 (by norm_num) (by norm_num) (by norm_num)
            (Or.inl ⟨le_rfl, by norm_num⟩), hexact.add _ _ (by norm_num) habs
            (by simpa using habs)]
          simp
      · have hquot : 0 < m / 10 := by omega
        obtain ⟨digits, htext, hhead, hne, hvalue⟩ := ih (m / 10) (by omega) hquot
          (by omega)
        refine ⟨digits ++ [⟨m % 10, hrest⟩], ?_, ?_, by simp, ?_⟩
        · rw [Nat.toDigits_of_base_le (by norm_num) (Nat.le_of_not_lt hlt),
            List.map_append, List.map_append, htext]
          exact congrArg (fun b => digits.map digitByte ++ [b])
            (hbyte ⟨m % 10, hrest⟩)
        · rw [List.head?_append_of_ne_nil _ hne]
          exact hhead
        · rw [List.foldl_append, hvalue]
          show unit.add (unit.mul (unit.ofInt ((m / 10 : ℕ) : ℤ)) (unit.ofInt 10))
            (unit.ofInt ((m % 10 : ℕ) : ℤ)) = _
          have hbounds : ((m / 10 : ℕ) : ℤ) * 10 + ((m % 10 : ℕ) : ℤ) = m := by
            omega
          have hle : (m : ℤ) ≤ 2 ^ 53 := by exact_mod_cast hsmall
          rw [hexact.mul _ 10 (by rw [abs_le]; constructor <;> omega)
            (by norm_num) (by rw [abs_le]; constructor <;> omega)
            (Or.inl ⟨by positivity, by norm_num⟩),
            hexact.add _ _ (by rw [abs_le]; constructor <;> omega)
              (by rw [abs_le]; constructor <;> omega)
              (by rw [abs_le]; constructor <;> omega), hbounds]

/-- The value of a number without a fraction and without an exponent -/
theorem value_integer (hexact : unit.ExactInts) {n : NumberText} {m : ℕ}
    (hfraction : n.fraction = []) (hexponent : n.exponent = none)
    (hdigits : n.integer.foldl (shift unit) (unit.ofInt 0) =
      unit.ofInt m) (hsmall : m ≤ 2 ^ 53) (hsign : n.negative = true → m ≠ 0) :
    n.double unit = unit.ofInt (if n.negative then -(m : ℤ) else m) := by
  have hle : (m : ℤ) ≤ 2 ^ 53 := by exact_mod_cast hsmall
  have hpower : n.scaled = 0 := by
    unfold NumberText.scaled
    rw [hexponent]
    rfl
  have hscale : unit.pow (unit.ofInt 10) (unit.add (unit.ofInt 0)
      (unit.ofInt (0 : BitVec 32).toInt)) = unit.ofInt 1 := by
    show unit.pow (unit.ofInt 10) (unit.add (unit.ofInt 0) (unit.ofInt 0)) = _
    rw [hexact.add 0 0 (by norm_num) (by norm_num) (by norm_num)]
    exact hexact.pow
  unfold NumberText.double
  dsimp only
  rw [hfraction, List.append_nil, hdigits, hpower]
  show unit.mul (unit.mul (unit.ofInt _) (unit.ofInt m)) (unit.pow (unit.ofInt 10)
    (unit.add (unit.ofInt 0) (unit.ofInt (0 : BitVec 32).toInt))) = _
  rw [hscale]
  cases hneg : n.negative with
  | false =>
      rw [if_neg (by decide), if_neg (by decide),
        hexact.mul 1 m (by norm_num) (by rw [abs_le]; constructor <;> omega)
          (by rw [abs_le]; constructor <;> omega)
          (Or.inl ⟨by norm_num, by positivity⟩), one_mul,
        hexact.mul m 1 (by rw [abs_le]; constructor <;> omega) (by norm_num)
          (by rw [abs_le]; constructor <;> omega)
          (Or.inl ⟨by positivity, by norm_num⟩), mul_one]
  | true =>
      have hm := hsign hneg
      rw [if_pos rfl, if_pos rfl,
        hexact.mul (-1) m (by norm_num) (by rw [abs_le]; constructor <;> omega)
          (by rw [abs_le]; constructor <;> omega) (Or.inr (by omega)),
        neg_one_mul,
        hexact.mul (-m) 1 (by rw [abs_le]; constructor <;> omega) (by norm_num)
          (by rw [abs_le]; constructor <;> omega) (Or.inr (by omega)), mul_one]

/-- `%d` is a JSON number, and its value is the number. -/
theorem exists_numberText (hexact : unit.ExactInts) (n : BitVec 32) :
    ∃ number : NumberText, number.text = formatInt n ∧
      number.double unit = unit.ofInt n.toInt := by
  have hlow : -2 ^ 31 ≤ n.toInt := BitVec.le_toInt n
  have hhigh : n.toInt < 2 ^ 31 := BitVec.toInt_lt
  have hsmall : n.toInt.natAbs ≤ 2 ^ 53 := by omega
  by_cases hzero : n.toInt = 0
  · let number : NumberText :=
      { negative := false
        integer := []
        fraction := []
        exponent := none
        leading := by simp }
    refine ⟨number, ?_, ?_⟩
    · unfold formatInt
      rw [hzero]
      decide
    · rw [value_integer unit hexact (n := number) (m := 0) rfl rfl rfl
        (by norm_num) (fun h => absurd h (by decide)), hzero]
      rfl
  · obtain ⟨digits, htext, hhead, hne, hvalue⟩ := exists_digits unit hexact
      (m := n.toInt.natAbs) (by omega) hsmall
    let number : NumberText :=
      { negative := n.toInt < 0
        integer := digits
        fraction := []
        exponent := none
        leading := hhead }
    refine ⟨number, ?_, ?_⟩
    · unfold formatInt
      dsimp only
      rw [htext]
      show (if decide (n.toInt < 0) then [byte '-'] else []) ++
        (number.integerText ++ []) = _
      have hinteger : number.integerText = digits.map digitByte := if_neg hne
      rw [hinteger, List.append_nil]
      by_cases hneg : n.toInt < 0
      · rw [decide_eq_true hneg, if_pos rfl, if_pos hneg]
        rfl
      · rw [decide_eq_false hneg, if_neg (by decide), if_neg hneg]
        rfl
    · rw [value_integer unit hexact (n := number) (m := n.toInt.natAbs) rfl rfl
        hvalue hsmall (fun _ => by omega)]
      congr 1
      show (if decide (n.toInt < 0) then -(n.toInt.natAbs : ℤ)
        else n.toInt.natAbs) = _
      by_cases hneg : n.toInt < 0
      · rw [decide_eq_true hneg, if_pos rfl]
        omega
      · rw [decide_eq_false hneg, if_neg (by decide)]
        omega

theorem numberText_ofInt (hexact : unit.ExactInts) {item : Fields δ}
    (hitem : item.valuedouble = unit.ofInt item.valueint.toInt) :
    numberText unit item = formatInt item.valueint := by
  have hlow : -2 ^ 31 ≤ item.valueint.toInt := BitVec.le_toInt item.valueint
  have hhigh : item.valueint.toInt < 2 ^ 31 := BitVec.toInt_lt
  have habs : |item.valueint.toInt| ≤ 2 ^ 53 := by
    rw [abs_le]
    constructor <;> omega
  have hprints : printsInt unit item = true := by
    unfold printsInt
    dsimp only
    rw [hitem, hexact.close _ habs, hexact.le _ _ habs (by norm_num) (by omega),
      hexact.le _ _ (by norm_num) habs hlow]
    rfl
  exact if_pos hprints

/-! ## Strings -/

/-- `\u00` and two digits -/
theorem unitEscape_format04x {n : ℕ} (hn : n < 32) :
    UnitEscape n.toUInt16 (byte '\\' :: byte 'u' :: format04x (UInt8.ofNat n)) := by
  have hdigits : ∀ n : Fin 32,
      hexValue (hexChar (UInt8.ofNat n / 16)) = some (n.val / 16) ∧
        hexValue (hexChar (UInt8.ofNat n % 16)) = some (n.val % 16) := by
    decide +kernel
  obtain ⟨hhigh, hlow⟩ := hdigits ⟨n, hn⟩
  have hzero : hexValue (byte '0') = some 0 := by decide
  have hescape := UnitEscape.mk hzero hzero hhigh hlow
  have hvalue : ((0 * 16 + 0) * 16 + n / 16) * 16 + n % 16 = n := by omega
  rw [hvalue] at hescape
  exact hescape

/-- The control characters are ASCII. -/
theorem stringText_control {token : UInt8} (htoken : token ≠ 0)
    (hcontrol : ¬31 < token) {raw bytes : CString}
    (hrest : StringText raw bytes) :
    StringText (byte '\\' :: byte 'u' :: (format04x token ++ raw))
      (token :: bytes) := by
  have hlt : token.toNat < 32 := by
    rw [UInt8.lt_iff_toNat_lt] at hcontrol
    exact Nat.lt_succ_of_le (Nat.not_lt.mp hcontrol)
  have hall : ∀ n : Fin 32, n.val ≠ 0 → utf16 (Char.ofNat n) = [n.val.toUInt16] ∧
      String.utf8EncodeChar (Char.ofNat n) = [UInt8.ofNat n] ∧
        Char.ofNat n ≠ '\x00' := by
    decide +kernel
  have hne : token.toNat ≠ 0 := by
    intro hzero
    exact htoken (UInt8.toNat_inj.mp hzero)
  obtain ⟨hutf16, hutf8, hnul⟩ := hall ⟨token.toNat, hlt⟩ hne
  have hunit := unitEscape_format04x hlt
  rw [UInt8.ofNat_toNat] at hunit hutf8
  have hunits : UnitEscapes (utf16 (Char.ofNat token.toNat))
      (byte '\\' :: byte 'u' :: format04x token ++ []) := by
    rw [hutf16]
    exact .cons hunit .nil
  have htext := StringText.character hnul hunits hrest
  rw [hutf8, List.append_nil] at htext
  exact htext

theorem stringText_printedByte {token : UInt8} (htoken : token ≠ 0)
    {raw bytes : CString} (hrest : StringText raw bytes) :
    StringText (printedByte token ++ raw) (token :: bytes) := by
  unfold printedByte
  by_cases hplain : 31 < token ∧ token ≠ byte '"' ∧ token ≠ byte '\\'
  · rw [if_pos hplain]
    exact .plain htoken hplain.2.1 hplain.2.2 hrest
  rw [if_neg hplain]
  unfold escapeCode
  split_ifs with hback hquote hb hf hn hr ht
  · subst hback
    exact .same (by decide) hrest
  · subst hquote
    exact .same (by decide) hrest
  · subst hb
    exact .letter (by decide) hrest
  · subst hf
    exact .letter (by decide) hrest
  · subst hn
    exact .letter (by decide) hrest
  · subst hr
    exact .letter (by decide) hrest
  · subst ht
    exact .letter (by decide) hrest
  · exact stringText_control htoken (fun h31 => hplain ⟨h31, hquote, hback⟩) hrest

theorem stringText_printed (str : CString) :
    StringText ((cBytes str).flatMap printedByte) (cBytes str) := by
  induction str with
  | nil => exact .nil
  | cons token str ih =>
      by_cases hzero : token = 0
      · subst hzero
        exact .nil
      · rw [cBytes_cons hzero, List.flatMap_cons]
        exact stringText_printedByte hzero ih

/-! ## What the text has of the items -/

/-- An item that can be printed, as an element of an array or as a member of an
object: a number is an integer, a string has its bytes, a member has a name. -/
structure PrintableNode (named : Bool) (item : Fields δ) : Prop where
  type : (item.type &&& 255).toNat ≤ 6
  number : item.type &&& 255 = typeNumber →
    item.valuedouble = unit.ofInt item.valueint.toInt
  string : item.type &&& 255 = typeString → item.valuestring.isSome = true
  name : named = true → item.string.isSome = true

def Printable (named : Bool) : Items δ → Prop
  | .null => True
  | .item fields child next => PrintableNode unit named fields ∧
      (fields.type &&& 255 = typeArray → Printable false child) ∧
      (fields.type &&& 255 = typeObject → Printable true child) ∧
      Printable named next

def canonicalNode (item : Fields δ) : Fields δ :=
  let type := item.type &&& 255
  if type = typeTrue then { plainItem unit typeTrue with valueint := 1 }
  else if type = typeNumber then
    { plainItem unit typeNumber with
      valueint := item.valueint
      valuedouble := item.valuedouble }
  else if type = typeString then
    stringItem unit (cBytes (item.valuestring.getD []))
  else plainItem unit type

/-- The items as the text has them -/
def canonical (named : Bool) : Items δ → Items δ
  | .null => .null
  | .item fields child next =>
      .item { canonicalNode unit fields with
          string := if named then fields.string.map cBytes else none }
        (if fields.type &&& 255 = typeArray then canonical false child
        else if fields.type &&& 255 = typeObject then canonical true child
        else .null)
        (canonical named next)

/-! ## Containers -/

/-- The texts of the children of an array, formatted and not -/
inductive EntriesRead : List CString → List CString → Items δ → Prop
  | nil : EntriesRead [] [] .null
  | cons {text compact : CString} {texts compacts : List CString}
      {fields : Fields δ} {child next : Items δ}
      (hvalue : Reads unit (NumberText.double unit) Blank .value text compact
        (.item fields child .null))
      (hrest : EntriesRead texts compacts next) :
      EntriesRead (text :: texts) (compact :: compacts)
        (.item { fields with string := none } child next)

/-- The names and texts of the children of an object, formatted and not -/
inductive MembersRead : List (CString × CString) → List (CString × CString) →
    Items δ → Prop
  | nil : MembersRead [] [] .null
  | cons {raw name text compact : CString} {texts compacts : List (CString × CString)}
      {fields : Fields δ} {child next : Items δ} (hname : StringText raw name)
      (hvalue : Reads unit (NumberText.double unit) Blank .value text compact
        (.item fields child .null))
      (hrest : MembersRead texts compacts next) :
      MembersRead ((quoted raw, text) :: texts) ((quoted raw, compact) :: compacts)
        (.item { fields with string := some name } child next)

theorem blank_nil : Blank [] := fun _ hc => absurd hc List.not_mem_nil

theorem blank_byte {c : UInt8} (hc : isBlank c = true) (fmt : Bool) :
    Blank (if fmt then [c] else []) := by
  cases fmt with
  | false => exact blank_nil
  | true =>
      intro d hd
      rw [if_pos rfl, List.mem_singleton] at hd
      rw [hd]
      exact hc

theorem blank_indent (fmt : Bool) (n : ℕ) :
    Blank (if fmt then indent n else []) := by
  cases fmt with
  | false => exact blank_nil
  | true =>
      intro d hd
      rw [if_pos rfl] at hd
      rw [List.eq_of_mem_replicate hd]
      decide

theorem Blank.append {w w' : CString} (hw : Blank w) (hw' : Blank w') :
    Blank (w ++ w') := by
  intro c hc
  rcases List.mem_append.mp hc with h | h
  · exact hw c h
  · exact hw' c h

theorem EntriesRead.reads {texts compacts : List CString} {items : Items δ}
    (hread : EntriesRead unit texts compacts items) (hne : texts ≠ [])
    (fmt : Bool) {lead : CString} (hlead : Blank lead) :
    Reads unit (NumberText.double unit) Blank .elements
      (lead ++ entriesText fmt texts) (entriesText false compacts) items := by
  induction hread generalizing lead with
  | nil => exact absurd rfl hne
  | @cons text compact texts compacts fields child next hvalue hrest ih =>
      cases hrest with
      | nil =>
          have h := Reads.element hlead hvalue blank_nil
          rw [List.append_nil] at h
          exact h
      | @cons text₂ compact₂ texts compacts fields₂ child₂ next hvalue₂ hrest =>
          have hmore := ih (List.cons_ne_nil _ _)
            (blank_byte (show isBlank (byte ' ') = true by decide) fmt)
          exact Reads.elements hlead hvalue blank_nil hmore

theorem MembersRead.reads {texts compacts : List (CString × CString)}
    {items : Items δ} (hread : MembersRead unit texts compacts items)
    (hne : texts ≠ []) (depth : ℕ) (fmt : Bool) {lead trail : CString}
    (hlead : Blank lead) (htrail : Blank trail) :
    Reads unit (NumberText.double unit) Blank .members
      (lead ++ (membersText depth fmt texts ++ trail))
      (membersText 0 false compacts) items := by
  have hnewline := blank_byte (show isBlank (byte '\n') = true by decide) fmt
  have htab := blank_byte (show isBlank (byte '\t') = true by decide) fmt
  induction hread generalizing lead with
  | nil => exact absurd rfl hne
  | @cons raw name text compact texts compacts fields child next hname hvalue
      hrest ih =>
      have hlead' := hlead.append (blank_indent fmt depth)
      cases hrest with
      | nil =>
          have h := Reads.member hlead' hname blank_nil htab hvalue
            (hnewline.append htrail)
          simpa only [membersText, memberText, List.isEmpty_nil, Bool.not_true,
            Bool.false_eq_true, if_false, List.nil_append, List.append_nil,
            List.append_assoc, List.cons_append] using h
      | cons hname₂ hvalue₂ hrest =>
          have hmore := ih (List.cons_ne_nil _ _) hnewline
          have h := Reads.members hlead' hname blank_nil htab hvalue
            blank_nil hmore
          simpa only [membersText, memberText, List.isEmpty_cons, Bool.not_false,
            Bool.false_eq_true, if_false, if_true, List.nil_append,
            List.append_assoc, List.cons_append] using h

/-- Without formatting the depth does not matter. -/
theorem membersText_compact (depth : ℕ) (members : List (CString × CString)) :
    membersText depth false members = membersText 0 false members := by
  induction members with
  | nil => rfl
  | cons member members ih =>
      unfold membersText
      rw [ih]
      rfl

/-! ## Every tree -/

theorem type_cases {type : BitVec 32} (htype : type.toNat ≤ 6) :
    type = typeNull ∨ type = typeFalse ∨ type = typeTrue ∨ type = typeNumber ∨
      type = typeString ∨ type = typeArray ∨ type = typeObject := by
  have hof : type = BitVec.ofNat 32 type.toNat := by
    rw [BitVec.ofNat_toNat, BitVec.setWidth_eq]
  generalize type.toNat = n at htype hof
  subst hof
  interval_cases n <;> decide

/-- The texts of a chain of children, formatted and not, and the names -/
structure ChildrenRead (named : Bool) (children compact : List Printed)
    (items : Items δ) : Prop where
  names : children.map Prod.fst = compact.map Prod.fst
  entries : ∃ texts compacts, children.mapM Prod.snd = some texts ∧
    compact.mapM Prod.snd = some compacts ∧
    (named = false → EntriesRead unit texts compacts (canonical unit false items)) ∧
    (named = true → MembersRead unit
      ((children.map fun child : Printed => nameText child.1).zip texts)
      ((children.map fun child : Printed => nameText child.1).zip compacts)
      (canonical unit true items))

def NodeRead (text compact : Option CString) (fields : Fields δ)
    (child : Items δ) : Prop :=
  ∃ t k, text = some t ∧ compact = some k ∧
    Reads unit (NumberText.double unit) Blank .value t k
      (.item (canonicalNode unit fields) child .null)

section

variable {unit} {fields : Fields δ} {child : Items δ} (fmt : Bool)
  (depth depth' : ℕ)

theorem arrayText_read {children compact : List Printed}
    (htype : fields.type &&& 255 = typeArray)
    (hchildren : ChildrenRead unit false children compact child) :
    NodeRead unit (nodeText unit fmt depth fields children)
      (nodeText unit false depth' fields compact) fields
      (canonical unit false child) := by
  obtain ⟨texts, compacts, htexts, hcompacts, hread, -⟩ := hchildren.entries
  have hnode : ∀ (fmt : Bool) (depth : ℕ) (children : List Printed)
      (texts : List CString), children.mapM Prod.snd = some texts →
      nodeText unit fmt depth fields children = some (arrayText fmt texts) := by
    intro fmt depth children texts htexts
    unfold nodeText
    dsimp only
    rw [htype, htexts]
    rfl
  have hfields : canonicalNode unit fields = plainItem unit typeArray := by
    unfold canonicalNode
    dsimp only
    rw [htype]
    rfl
  refine ⟨_, _, hnode fmt depth children texts htexts,
    hnode false depth' compact compacts hcompacts, ?_⟩
  have hread := hread rfl
  rw [hfields]
  by_cases hnil : texts = []
  · subst hnil
    generalize canonical unit false child = items at hread
    cases hread
    exact Reads.emptyArray blank_nil
  · exact Reads.array (hread.reads unit hnil fmt blank_nil)

theorem objectText_read {children compact : List Printed}
    (htype : fields.type &&& 255 = typeObject)
    (hchildren : ChildrenRead unit true children compact child) :
    NodeRead unit (nodeText unit fmt depth fields children)
      (nodeText unit false depth' fields compact) fields
      (canonical unit true child) := by
  obtain ⟨texts, compacts, htexts, hcompacts, -, hread⟩ := hchildren.entries
  have hnames : (children.map fun child : Printed => nameText child.1) =
      compact.map fun child : Printed => nameText child.1 := by
    have h := congrArg (List.map nameText) hchildren.names
    rw [List.map_map, List.map_map] at h
    exact h
  have hnode : ∀ (fmt : Bool) (depth : ℕ) (children : List Printed)
      (texts : List CString), children.mapM Prod.snd = some texts →
      nodeText unit fmt depth fields children = some (objectText depth fmt
        ((children.map fun child : Printed => nameText child.1).zip texts)) := by
    intro fmt depth children texts htexts
    unfold nodeText
    dsimp only
    rw [htype, htexts]
    rfl
  have hfields : canonicalNode unit fields = plainItem unit typeObject := by
    unfold canonicalNode
    dsimp only
    rw [htype]
    rfl
  refine ⟨_, _, hnode fmt depth children texts htexts,
    hnode false depth' compact compacts hcompacts, ?_⟩
  have hread := hread rfl
  rw [hfields, ← hnames]
  generalize (children.map fun child : Printed => nameText child.1).zip texts =
    members at hread
  generalize (children.map fun child : Printed => nameText child.1).zip compacts =
    compactMembers at hread
  have hnewline := blank_byte (show isBlank (byte '\n') = true by decide) fmt
  have hcompact : objectText depth' false compactMembers = byte '\x7b' ::
      (membersText 0 false compactMembers ++ [byte '\x7d']) := by
    unfold objectText
    rw [membersText_compact]
    rfl
  rw [hcompact]
  by_cases hnil : members = []
  · subst hnil
    generalize canonical unit true child = items at hread
    cases hread
    have h : Reads unit (NumberText.double unit) Blank .value _ _ _ :=
      Reads.emptyObject (hnewline.append (blank_indent fmt (depth - 1)))
    unfold objectText
    rw [if_pos rfl]
    simpa only [membersText, List.nil_append, List.append_assoc] using h
  · have h := Reads.object (hread.reads unit hnil (depth + 1) fmt hnewline
      (blank_indent fmt depth))
    unfold objectText
    rw [if_neg hnil]
    simpa only [List.append_assoc] using h

/-- An item without children has the same text with and without formatting. -/
theorem leafText_read (text : CString) {children compact : List Printed}
    (htext : ∀ fmt depth children,
      nodeText unit fmt depth fields children = some text)
    (hreads : Reads unit (NumberText.double unit) Blank .value text text
      (.item (canonicalNode unit fields) .null .null))
    (hleaf : fields.type &&& 255 ≠ typeArray ∧ fields.type &&& 255 ≠ typeObject) :
    NodeRead unit (nodeText unit fmt depth fields children)
      (nodeText unit false depth' fields compact) fields
      (if fields.type &&& 255 = typeArray then canonical unit false child
      else if fields.type &&& 255 = typeObject then canonical unit true child
      else .null) := by
  rw [if_neg hleaf.1, if_neg hleaf.2]
  exact ⟨text, text, htext fmt depth children, htext false depth' compact, hreads⟩

theorem nodeText_read (hexact : unit.ExactInts) {named : Bool}
    (hnode : PrintableNode unit named fields) {children compact : List Printed}
    (harray : fields.type &&& 255 = typeArray →
      ChildrenRead unit false children compact child)
    (hobject : fields.type &&& 255 = typeObject →
      ChildrenRead unit true children compact child) :
    NodeRead unit (nodeText unit fmt depth fields children)
      (nodeText unit false depth' fields compact) fields
      (if fields.type &&& 255 = typeArray then canonical unit false child
      else if fields.type &&& 255 = typeObject then canonical unit true child
      else .null) := by
  have hcanonical : canonicalNode unit fields =
      if fields.type &&& 255 = typeTrue then
        { plainItem unit typeTrue with valueint := 1 }
      else if fields.type &&& 255 = typeNumber then
        { plainItem unit typeNumber with
          valueint := fields.valueint
          valuedouble := fields.valuedouble }
      else if fields.type &&& 255 = typeString then
        stringItem unit (cBytes (fields.valuestring.getD []))
      else plainItem unit (fields.type &&& 255) := rfl
  rcases type_cases hnode.type with htype | htype | htype | htype | htype |
    htype | htype
  · apply leafText_read fmt depth depth' (literal "null")
    · intro fmt depth children
      unfold nodeText
      dsimp only
      rw [htype]
      rfl
    · rw [hcanonical, htype]
      exact Reads.null
    · rw [htype]
      decide
  · apply leafText_read fmt depth depth' (literal "false")
    · intro fmt depth children
      unfold nodeText
      dsimp only
      rw [htype]
      rfl
    · rw [hcanonical, htype]
      exact Reads.false
    · rw [htype]
      decide
  · apply leafText_read fmt depth depth' (literal "true")
    · intro fmt depth children
      unfold nodeText
      dsimp only
      rw [htype]
      rfl
    · rw [hcanonical, htype]
      exact Reads.true
    · rw [htype]
      decide
  · have hdouble := hnode.number htype
    obtain ⟨number, htext, hvalue⟩ := exists_numberText unit hexact fields.valueint
    apply leafText_read fmt depth depth' number.text
    · intro fmt depth children
      unfold nodeText
      dsimp only
      rw [htype, htext, ← numberText_ofInt unit hexact hdouble]
      rfl
    · have hitem : numberItem unit (number.double unit) =
          { plainItem unit typeNumber with
            valueint := fields.valueint
            valuedouble := fields.valuedouble } := by
        unfold numberItem
        rw [hvalue, hexact.toInt, hdouble]
        rfl
      rw [hcanonical, htype]
      show Reads unit (NumberText.double unit) Blank .value _ _ (.item
        { plainItem unit typeNumber with
          valueint := fields.valueint
          valuedouble := fields.valuedouble } .null .null)
      rw [← hitem]
      exact Reads.number number
    · rw [htype]
      decide
  · obtain ⟨bytes, hbytes⟩ := Option.isSome_iff_exists.mp (hnode.string htype)
    apply leafText_read fmt depth depth' (printedString bytes)
    · intro fmt depth children
      unfold nodeText
      dsimp only
      rw [htype, hbytes]
      rfl
    · rw [hcanonical, htype, hbytes]
      exact Reads.string (stringText_printed bytes)
    · rw [htype]
      decide
  · rw [if_pos htype]
    exact arrayText_read fmt depth depth' htype (harray htype)
  · rw [if_neg (by rw [htype]; decide), if_pos htype]
    exact objectText_read fmt depth depth' htype (hobject htype)

theorem childTexts_read (hexact : unit.ExactInts) (items : Items δ) :
    ∀ (named : Bool) (depth depth' : ℕ), Printable unit named items →
      ChildrenRead unit named (childTexts unit fmt depth items)
        (childTexts unit false depth' items) items := by
  induction items with
  | null =>
      intro named depth depth' _
      exact ⟨rfl, [], [], rfl, rfl, fun _ => .nil, fun _ => .nil⟩
  | item fields child next ihChild ihNext =>
      intro named depth depth' hprintable
      obtain ⟨hnode, harray, hobject, hnext⟩ := hprintable
      obtain ⟨text, compact, htext, hcompact, hreads⟩ :=
        nodeText_read fmt depth depth' hexact hnode
          (fun h => ihChild false (depth + 1) (depth' + 1) (harray h))
          (fun h => ihChild true (depth + 1) (depth' + 1) (hobject h))
      have hothers := ihNext named depth depth' hnext
      obtain ⟨texts, compacts, htexts, hcompacts, hentries, hmembers⟩ :=
        hothers.entries
      refine ⟨congrArg (List.cons fields.string) hothers.names, text :: texts,
        compact :: compacts, ?_, ?_, ?_, ?_⟩
      · show List.mapM Prod.snd ((fields.string, nodeText unit fmt depth fields
          (childTexts unit fmt (depth + 1) child)) :: _) = _
        rw [List.mapM_cons, htext, htexts]
        rfl
      · show List.mapM Prod.snd ((fields.string, nodeText unit false depth' fields
          (childTexts unit false (depth' + 1) child)) :: _) = _
        rw [List.mapM_cons, hcompact, hcompacts]
        rfl
      · intro hnamed
        exact .cons hreads (hentries hnamed)
      · intro hnamed
        obtain ⟨name, hname⟩ := Option.isSome_iff_exists.mp (hnode.name hnamed)
        have hcons := MembersRead.cons (stringText_printed name) hreads
          (hmembers hnamed)
        unfold canonical
        rw [hname]
        show MembersRead unit ((nameText fields.string, text) :: _)
          ((nameText fields.string, compact) :: _) _
        rw [hname]
        exact hcons

end

/-- The text of an item that can be printed, formatted at any depth, is a JSON
text; without its white space it is the unformatted text. -/
theorem valueText_reads (hexact : unit.ExactInts) (fmt : Bool) (depth : ℕ)
    {named : Bool} {fields : Fields δ} {child next : Items δ}
    (hprintable : Printable unit named (.item fields child next)) :
    ∃ text compact, valueText unit fmt depth (.item fields child next) =
        some text ∧
      valueText unit false 0 (.item fields child next) = some compact ∧
      Reads unit (NumberText.double unit) Blank .value text compact
        (canonical unit false (.item fields child .null)) := by
  obtain ⟨hnode, harray, hobject, -⟩ := hprintable
  obtain ⟨text, compact, htext, hcompact, hreads⟩ :=
    nodeText_read fmt depth 0 hexact hnode
      (fun h => childTexts_read fmt hexact child false (depth + 1) 1 (harray h))
      (fun h => childTexts_read fmt hexact child true (depth + 1) 1 (hobject h))
  have hfields : { canonicalNode unit fields with string := none } =
      canonicalNode unit fields := by
    rw [← string_value unit hreads]
  refine ⟨text, compact, htext, hcompact, ?_⟩
  unfold canonical
  rw [if_neg (by decide), hfields]
  exact hreads

/-- Printing a tree and parsing the text gives the tree back. -/
theorem parse_print (hexact : unit.ExactInts) (hformats : unit.Formats)
    (fmt : Bool) {named : Bool} {fields : Fields δ} {child next : Items δ}
    (hprintable : Printable unit named (.item fields child next))
    (hfits : Fits unit fmt 0 (.item fields child next)) :
    ∃ text, printValue unit fmt 0 (.item fields child next) = .ok (some text) ∧
      parseWithOpts unit text true =
        .ok (canonical unit false (.item fields child .null), []) := by
  obtain ⟨text, compact, htext, -, hreads⟩ :=
    valueText_reads unit hexact fmt 0 hprintable
  have hdocument : Document unit (NumberText.double unit) Blank text compact
      (canonical unit false (.item fields child .null)) :=
    ⟨[], text, [], blank_nil, hreads, blank_nil, by simp⟩
  have hshort := length_lt_of_fits unit hformats htext hfits
  obtain ⟨rest, hparse, -, hrest⟩ :=
    parseWithOpts_document unit hshort hdocument true
  refine ⟨text, ?_, ?_⟩
  · exact (printValue_eq unit hformats hfits).trans (congrArg Except.ok htext)
  · rw [hparse, hrest rfl]

/-- `[1,"a"]`, with the name of an object's member at its string -/
def sampleArray : Items ℚ :=
  .item (plainItem rationals typeArray)
    (.item { newItem rationals with
        type := typeNumber
        valueint := 1
        valuedouble := 1 } .null
      (.item { stringItem rationals (literal "a") with
        string := some (literal "name") } .null .null)) .null

theorem printable_sampleArray : Printable rationals false sampleArray := by
  have hnumber : PrintableNode rationals false
      { newItem rationals with
        type := typeNumber
        valueint := 1
        valuedouble := 1 } :=
    ⟨by decide, fun _ => Int.cast_one.symm, by decide, by decide⟩
  have hstring : PrintableNode rationals false
      { stringItem rationals (literal "a") with
        string := some (literal "name") } :=
    ⟨by decide, by decide, by decide, by decide⟩
  exact ⟨⟨by decide, by decide, by decide, by decide⟩,
    fun _ => ⟨hnumber, fun _ => trivial, fun _ => trivial, hstring,
      fun _ => trivial, fun _ => trivial, trivial⟩,
    fun h => absurd h (by decide), trivial⟩

theorem fits_sampleArray (fmt : Bool) : Fits rationals fmt 0 sampleArray := by
  have hnumber : numberText rationals { newItem rationals with
      type := typeNumber
      valueint := 1
      valuedouble := 1 } = formatInt 1 :=
    numberText_ofInt rationals rationals_exactInts Int.cast_one.symm
  have htext : valueText rationals fmt 0 sampleArray =
      some (arrayText fmt [formatInt 1, printedString (literal "a")]) := by
    rw [← hnumber]
    rfl
  apply fits_of_length rationals htext
  cases fmt <;> decide

theorem parse_print_sample :
    ∃ text, printValue rationals true 0 sampleArray = .ok (some text) ∧
      parseWithOpts rationals text true =
        .ok (canonical rationals false sampleArray, []) :=
  parse_print rationals rationals_exactInts rationals_formats true
    printable_sampleArray (fits_sampleArray true)

end CJson

end ClpszDemos
