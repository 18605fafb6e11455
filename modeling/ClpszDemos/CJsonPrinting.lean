import ClpszDemos.CJsonDouble
import ClpszDemos.CJsonPrinter

/-!
# What the printer writes

Each buffer of the printer has room for what is written into it: the lengths
that the first loops add up are those of the texts, with a few bytes to spare,
as long as the sums fit an `int`.  So printing ends without a trap for every
tree of items that is small enough, and its outcome is the text that the
functions here compute without any buffer.
-/

namespace ClpszDemos

namespace CJson

open CString OutBuffer

/-! ## The texts -/

/-- The byte behind the backslash, and the digits behind a `u` -/
def escapeCode (token : UInt8) : CString :=
  if token = byte '\\' then [byte '\\']
  else if token = byte '"' then [byte '"']
  else if token = byte '\x08' then [byte 'b']
  else if token = byte '\x0c' then [byte 'f']
  else if token = byte '\n' then [byte 'n']
  else if token = byte '\r' then [byte 'r']
  else if token = byte '\t' then [byte 't']
  else byte 'u' :: format04x token

def printedByte (token : UInt8) : CString :=
  if 31 < token ∧ token ≠ byte '"' ∧ token ≠ byte '\\' then [token]
  else byte '\\' :: escapeCode token

/-- The bytes of a C string, up to its NUL -/
def cBytes (str : CString) : CString := str.takeWhile (· ≠ 0)

def printedString (str : CString) : CString :=
  byte '"' :: ((cBytes str).flatMap printedByte ++ [byte '"'])

def nameText : Option CString → CString
  | none => []
  | some str => printedString str

/-- The texts of the entries with what stands between them -/
def entriesText (fmt : Bool) : List CString → CString
  | [] => []
  | [entry] => entry
  | entry :: entries =>
      entry ++ (byte ',' :: ((if fmt then [byte ' '] else []) ++
        entriesText fmt entries))

def arrayText (fmt : Bool) (entries : List CString) : CString :=
  byte '[' :: (entriesText fmt entries ++ [byte ']'])

def indent (n : ℕ) : CString := List.replicate n (byte '\t')

def memberText (depth : ℕ) (fmt : Bool) (member : CString × CString) :
    CString :=
  (if fmt then indent depth else []) ++ (member.1 ++
    (byte ':' :: ((if fmt then [byte '\t'] else []) ++ member.2)))

def membersText (depth : ℕ) (fmt : Bool) : List (CString × CString) → CString
  | [] => []
  | member :: members =>
      memberText depth fmt member ++ ((if !members.isEmpty then [byte ','] else []) ++
        ((if fmt then [byte '\n'] else []) ++ membersText depth fmt members))

def objectText (depth : ℕ) (fmt : Bool) (members : List (CString × CString)) :
    CString :=
  byte '\x7b' :: ((if fmt then [byte '\n'] else []) ++
    (membersText (depth + 1) fmt members ++
      ((if fmt then
          indent (if members = [] then depth - 1 else depth)
        else []) ++ [byte '\x7d'])))

variable {δ : Type} (unit : DoubleUnit δ)

def numberText (item : Fields δ) : CString :=
  let d := item.valuedouble
  if printsInt unit item then formatInt item.valueint
  else if unit.le (unit.fabs (unit.sub (unit.floor d) d)) unit.epsilon &&
      unit.lt (unit.fabs d) (unit.ofInt (10 ^ 60)) then
    unit.sprintf .fixed0 d
  else if unit.lt (unit.fabs d) unit.millionth ||
      unit.lt (unit.ofInt (10 ^ 9)) (unit.fabs d) then
    unit.sprintf .exponent d
  else unit.sprintf .fixed d

def nodeText (fmt : Bool) (depth : ℕ) (item : Fields δ)
    (children : List Printed) : Option CString :=
  let type := item.type &&& 255
  if type = typeNull then some (literal "null")
  else if type = typeFalse then some (literal "false")
  else if type = typeTrue then some (literal "true")
  else if type = typeNumber then some (numberText unit item)
  else if type = typeString then some (nameText item.valuestring)
  else if type = typeArray then
    (children.mapM Prod.snd).map (arrayText fmt)
  else if type = typeObject then
    (children.mapM Prod.snd).map fun entries =>
      objectText depth fmt ((children.map fun child => nameText child.1).zip
        entries)
  else none

def childTexts (fmt : Bool) : ℕ → Items δ → List Printed
  | _, .null => []
  | depth, .item fields child next =>
      (fields.string,
        nodeText unit fmt depth fields (childTexts fmt (depth + 1) child)) ::
        childTexts fmt depth next

def valueText (fmt : Bool) (depth : ℕ) : Items δ → Option CString
  | .null => none
  | .item fields child _ =>
      nodeText unit fmt depth fields (childTexts unit fmt (depth + 1) child)

/-! ## The sizes -/

/-- The size of the buffer of `print_string_ptr`, and of those of `print_array`
and `print_object`, when no sum wraps -/
def stringRoom (str : CString) : ℕ :=
  ((cBytes str).flatMap printedByte).length + 3

def entriesRoom (fmt : Bool) (entries : List CString) : ℕ :=
  5 + (entries.map fun entry =>
    entry.length + 2 + if fmt then 1 else 0).sum

def membersRoom (depth : ℕ) (fmt : Bool) (members : List (CString × CString)) :
    ℕ :=
  (if fmt then 7 + depth else 7) + (members.map fun member =>
    member.2.length + member.1.length + 2 + if fmt then 2 + depth else 0).sum

/-- The sizes for a string fit an `int`. -/
def FitsString (str : Option CString) : Prop :=
  ∀ bytes, str = some bytes → stringRoom bytes < 2 ^ 31

/-- The sizes for an item fit an `int`, and those for its children if they are
printed. -/
structure FitsNode (fmt : Bool) (depth : ℕ) (item : Fields δ)
    (children : List Printed) (below : Prop) : Prop where
  string : item.type &&& 255 = typeString → FitsString item.valuestring
  array : item.type &&& 255 = typeArray → below ∧
    ∀ entries, children.mapM Prod.snd = some entries →
      entriesRoom fmt entries < 2 ^ 31
  object : item.type &&& 255 = typeObject → below ∧
    (∀ child ∈ children, FitsString child.1) ∧
    ∀ entries, children.mapM Prod.snd = some entries →
      membersRoom (depth + 1) fmt ((children.map fun child : Printed =>
        nameText child.1).zip entries) < 2 ^ 31

def FitsChildren (fmt : Bool) : ℕ → Items δ → Prop
  | _, .null => True
  | depth, .item fields child next =>
      FitsNode fmt depth fields (childTexts unit fmt (depth + 1) child)
        (FitsChildren fmt (depth + 1) child) ∧ FitsChildren fmt depth next

/-- No size that is added up to print a tree reaches `2^31`. -/
def Fits (fmt : Bool) (depth : ℕ) : Items δ → Prop
  | .null => True
  | .item fields child _ =>
      FitsNode fmt depth fields (childTexts unit fmt (depth + 1) child)
        (FitsChildren unit fmt (depth + 1) child)

/-- A length that is added up step by step -/
theorem foldl_ofNat {α : Type} (size : α → ℕ) (parts : List α) (n : ℕ) :
    parts.foldl (fun len part => len + BitVec.ofNat 32 (size part))
        (BitVec.ofNat 32 n) =
      BitVec.ofNat 32 (n + (parts.map size).sum) := by
  induction parts generalizing n with
  | nil => rfl
  | cons part parts ih =>
      rw [List.foldl_cons, ofNat_add_ofNat, ih, List.map_cons, List.sum_cons,
        Nat.add_assoc]

theorem tabs_ofNat {n : ℕ} (hn : n < 2 ^ 31) :
    tabs (BitVec.ofNat 32 n) = indent n := by
  have hint : (BitVec.ofNat 32 n).toInt = n := by
    rw [BitVec.toInt_ofNat']
    exact Int.bmod_eq_of_le (by omega) (by omega)
  unfold tabs indent
  rw [hint, Int.toNat_natCast]

/-- No indentation at depth 0, where `depth-1` is negative -/
theorem tabs_pred {n : ℕ} (hn : n < 2 ^ 31) :
    tabs (BitVec.ofNat 32 n - 1) = indent (n - 1) := by
  cases n with
  | zero => rfl
  | succ n =>
      have hpred : BitVec.ofNat 32 (n + 1) - 1 = BitVec.ofNat 32 n := by
        rw [← ofNat_add_ofNat]
        exact BitVec.add_sub_cancel _ _
      rw [hpred, tabs_ofNat (by omega), Nat.add_sub_cancel]

/-! ## Numbers -/

theorem sprintfMalloc_eq {size : ℕ} {text : CString}
    (hsize : text.length < size) : sprintfMalloc size text = .ok text :=
  (appends_write text).finish_malloc size hsize

theorem length_formatInt (n : BitVec 32) : (formatInt n).length < 21 := by
  have hlow : -2 ^ 31 ≤ n.toInt := BitVec.le_toInt n
  have hhigh : n.toInt < 2 ^ 31 := BitVec.toInt_lt
  have habs : n.toInt.natAbs < 10 ^ 10 := by omega
  have hdigits : (Nat.toDigits 10 n.toInt.natAbs).length ≤ 10 :=
    (Nat.length_toDigits_le_iff (by norm_num) (by norm_num)).mpr habs
  unfold formatInt
  dsimp only
  by_cases hneg : n.toInt < 0
  · rw [if_pos hneg, List.length_cons, List.length_map]
    omega
  · rw [if_neg hneg, List.length_map]
    omega

theorem length_numberText (hformats : unit.Formats) (item : Fields δ) :
    (numberText unit item).length < 64 := by
  unfold numberText
  dsimp only
  split_ifs with hint hwhole hextreme
  · exact (length_formatInt item.valueint).trans (by norm_num)
  · exact hformats.fixed0 _ (Bool.and_eq_true_iff.mp hwhole).2
  · exact hformats.exponent _
  · rw [Bool.or_eq_true, not_or, Bool.not_eq_true, Bool.not_eq_true]
      at hextreme
    exact hformats.fixed _ hextreme.2

theorem printNumber_eq (hformats : unit.Formats) (item : Fields δ) :
    printNumber unit item = .ok (numberText unit item) := by
  unfold printNumber numberText
  dsimp only
  by_cases hint : printsInt unit item
  · rw [if_pos hint, if_pos hint]
    exact sprintfMalloc_eq (length_formatInt item.valueint)
  · rw [if_neg hint, if_neg hint]
    split_ifs with hwhole hextreme
    · exact sprintfMalloc_eq
        (hformats.fixed0 _ (Bool.and_eq_true_iff.mp hwhole).2)
    · exact sprintfMalloc_eq (hformats.exponent _)
    · rw [Bool.or_eq_true, not_or, Bool.not_eq_true, Bool.not_eq_true]
        at hextreme
      exact sprintfMalloc_eq (hformats.fixed _ hextreme.2)

/-! ## Strings -/

theorem appends_writeEscape (token : UInt8) :
    Appends (writeEscape token) (escapeCode token) := by
  unfold writeEscape escapeCode
  split_ifs
  · exact appends_put _
  · exact appends_put _
  · exact appends_put _
  · exact appends_put _
  · exact appends_put _
  · exact appends_put _
  · exact appends_put _
  · exact appends_strcpy _

theorem cBytes_cons {token : UInt8} (htoken : token ≠ 0) (str : CString) :
    cBytes (token :: str) = token :: cBytes str := by
  unfold cBytes
  rw [List.takeWhile_cons_of_pos (by simpa using htoken)]

theorem appends_writeString (str : CString) :
    Appends (writeString str) ((cBytes str).flatMap printedByte) := by
  induction str with
  | nil => exact appends_pure
  | cons token str ih =>
      show Appends (fun out =>
        if token = 0 then .ok out
        else if 31 < token ∧ token ≠ byte '"' ∧ token ≠ byte '\\' then
          put token out >>= writeString str
        else
          put (byte '\\') out >>= fun out =>
            writeEscape token out >>= writeString str) _
      by_cases hzero : token = 0
      · subst hzero
        exact appends_pure
      · rw [cBytes_cons hzero, List.flatMap_cons]
        simp only [if_neg hzero]
        unfold printedByte
        split_ifs with hplain
        · exact (appends_put token).bind ih
        · exact (appends_put (byte '\\')).bind
            ((appends_writeEscape token).bind ih)

theorem length_printedByte {token : UInt8} :
    (printedByte token).length =
      if hasShortEscape token then 2 else if token < 32 then 6 else 1 := by
  unfold printedByte escapeCode hasShortEscape
  simp only [List.mem_cons, List.not_mem_nil, or_false, decide_eq_true_eq]
  by_cases hcontrol : token < 32
  · have hnot : ¬31 < token := by
      intro h31
      rw [UInt8.lt_iff_toNat_lt] at hcontrol h31
      exact absurd hcontrol (Nat.not_lt.mpr h31)
    rw [if_neg fun h => hnot h.1]
    split_ifs <;> first | rfl | tauto
  · by_cases hback : token = byte '\\'
    · subst hback
      decide
    by_cases hquote : token = byte '"'
    · subst hquote
      decide
    have h31 : 31 < token := by
      rw [UInt8.lt_iff_toNat_lt] at hcontrol ⊢
      exact Nat.not_lt.mp hcontrol
    have hshort : ¬(token = byte '"' ∨ token = byte '\\' ∨
        token = byte '\x08' ∨ token = byte '\x0c' ∨ token = byte '\n' ∨
        token = byte '\r' ∨ token = byte '\t') := by
      rintro (h | h | h | h | h | h | h)
      · exact hquote h
      · exact hback h
      · exact hcontrol (h ▸ by decide)
      · exact hcontrol (h ▸ by decide)
      · exact hcontrol (h ▸ by decide)
      · exact hcontrol (h ▸ by decide)
      · exact hcontrol (h ▸ by decide)
    rw [if_pos ⟨h31, hquote, hback⟩, if_neg hshort, if_neg hcontrol]
    rfl

theorem printedLength_ofNat (str : CString) (n : ℕ)
    (hn : n + ((cBytes str).flatMap printedByte).length < 2 ^ 31) :
    printedLength (BitVec.ofNat 32 n) str =
      BitVec.ofNat 32 (n + ((cBytes str).flatMap printedByte).length) := by
  induction str generalizing n with
  | nil => rfl
  | cons token str ih =>
      unfold printedLength
      by_cases hzero : token = 0
      · subst hzero
        rfl
      · rw [if_neg hzero]
        rw [cBytes_cons hzero, List.flatMap_cons, List.length_append,
          length_printedByte] at hn ⊢
        have hone : BitVec.ofNat 32 n + 1 = BitVec.ofNat 32 (n + 1) :=
          ofNat_add_ofNat n 1
        have hnonzero : BitVec.ofNat 32 (n + 1) ≠ 0 :=
          ofNat_ne_zero (Nat.succ_pos n) (by split_ifs at hn <;> omega)
        rw [hone, if_neg hnonzero]
        split_ifs at hn ⊢
        · have htwo : BitVec.ofNat 32 (n + 1) + 1 = BitVec.ofNat 32 (n + 2) :=
            ofNat_add_ofNat (n + 1) 1
          rw [htwo, ih _ (by omega), Nat.add_assoc]
        · have hsix : BitVec.ofNat 32 (n + 1) + 5 = BitVec.ofNat 32 (n + 6) :=
            ofNat_add_ofNat (n + 1) 5
          rw [hsix, ih _ (by omega), Nat.add_assoc]
        · rw [ih _ (by omega), Nat.add_assoc]

theorem printStringPtr_eq {str : Option CString} (hfits : FitsString str) :
    printStringPtr str = .ok (nameText str) := by
  cases str with
  | none => rfl
  | some str =>
      have happends : Appends _ (printedString str) :=
        (appends_put (byte '"')).bind
          ((appends_writeString str).bind (appends_put (byte '"')))
      have hroom : stringRoom str < 2 ^ 31 := hfits str rfl
      unfold stringRoom at hroom
      have hlen : (printedString str).length <
          ((cBytes str).flatMap printedByte).length + 3 := by
        unfold printedString
        rw [List.length_cons, List.length_append, List.length_singleton]
        omega
      have hsize : sizeOfInt (printedLength 0 str + 3) =
          ((cBytes str).flatMap printedByte).length + 3 := by
        have hsum : printedLength 0 str = BitVec.ofNat 32
            (0 + ((cBytes str).flatMap printedByte).length) :=
          printedLength_ofNat str 0 (by omega)
        rw [hsum, Nat.zero_add]
        exact (congrArg sizeOfInt (ofNat_add_ofNat _ 3)).trans
          (sizeOfInt_ofNat hroom)
      have hfinish := happends.finish_malloc _ hlen
      rw [← hsize] at hfinish
      show printStringPtr (some str) = .ok (printedString str)
      simpa only [printStringPtr, bind_assoc] using hfinish

/-! ## Containers -/

theorem appends_writeEntries (fmt : Bool) (entries : List CString) :
    Appends (writeEntries fmt entries) (entriesText fmt entries) := by
  induction entries with
  | nil => exact appends_pure
  | cons entry entries ih =>
      cases entries with
      | nil => exact appends_strcpy entry
      | cons second entries =>
          exact (appends_strcpy entry).bind ((appends_put (byte ',')).bind
            (((appends_put (byte ' ')).onlyIf fmt).bind
              (appends_terminate.bind ih)))

theorem length_entriesText (fmt : Bool) (entries : List CString) :
    (entriesText fmt entries).length ≤
      (entries.map fun entry =>
        entry.length + 2 + if fmt then 1 else 0).sum := by
  fun_induction entriesText fmt entries with
  | case1 => exact Nat.zero_le _
  | case2 entry =>
      rw [List.map_singleton, List.sum_singleton]
      omega
  | case3 entry entries hne ih =>
      have hblank : (if fmt then [byte ' '] else []).length =
          if fmt then 1 else 0 := by
        split_ifs <;> rfl
      rw [List.length_append, List.length_cons, List.length_append, hblank,
        List.map_cons, List.sum_cons]
      omega

theorem composeArray_eq {fmt : Bool} {entries : List CString}
    (hfits : entriesRoom fmt entries < 2 ^ 31) :
    composeArray fmt entries = .ok (arrayText fmt entries) := by
  unfold composeArray
  by_cases hnil : entries = []
  · rw [if_pos hnil, hnil]
    exact sprintfMalloc_eq (by decide)
  · rw [if_neg hnil]
    have happends : Appends _ (byte '[' :: ([] ++ (entriesText fmt entries ++
        [byte ']']))) :=
      (appends_put (byte '[')).bind (appends_terminate.bind
        ((appends_writeEntries fmt entries).bind (appends_put (byte ']'))))
    have hsize : sizeOfInt (entries.foldl (fun len entry =>
        len + BitVec.ofNat 32 (entry.length + 2 + if fmt then 1 else 0)) 5) =
        entriesRoom fmt entries :=
      (congrArg sizeOfInt (foldl_ofNat _ entries 5)).trans (sizeOfInt_ofNat hfits)
    have hlen := length_entriesText fmt entries
    have hfinish := happends.finish_malloc (entriesRoom fmt entries) (by
      unfold entriesRoom
      simp only [List.length_cons, List.nil_append, List.length_append,
        List.length_nil]
      omega)
    have htext : arrayText fmt entries = byte '[' ::
        ([] ++ (entriesText fmt entries ++ [byte ']'])) := rfl
    dsimp only
    rw [htext, hsize]
    simpa only [bind_assoc] using hfinish

theorem length_indent (n : ℕ) : (indent n).length = n :=
  List.length_replicate ..

/-- The tabs in front of a member; without formatting there are none. -/
theorem appends_tabs {fmt : Bool} {depth : ℕ} (hdepth : fmt = true → depth < 2 ^ 31) :
    Appends (onlyIf fmt (write (tabs (BitVec.ofNat 32 depth))))
      (if fmt then indent depth else []) := by
  cases fmt with
  | false => exact appends_pure
  | true =>
      rw [tabs_ofNat (hdepth rfl)]
      exact (appends_write (indent depth)).onlyIf true

theorem appends_writeMembers {depth : ℕ} {fmt : Bool}
    (hdepth : fmt = true → depth < 2 ^ 31) (members : List (CString × CString)) :
    Appends (writeMembers (BitVec.ofNat 32 depth) fmt members)
      (membersText depth fmt members) := by
  induction members with
  | nil => exact appends_pure
  | cons member members ih =>
      have htext : membersText depth fmt (member :: members) =
          (if fmt then indent depth else []) ++ (member.1 ++ ([byte ':'] ++
            ((if fmt then [byte '\t'] else []) ++ (member.2 ++
              ((if !members.isEmpty then [byte ','] else []) ++
                ((if fmt then [byte '\n'] else []) ++
                  ([] ++ membersText depth fmt members))))))) := by
        show memberText depth fmt member ++ _ = _
        unfold memberText
        simp only [List.append_assoc, List.cons_append, List.nil_append]
      rw [htext]
      exact (appends_tabs hdepth).bind
        ((appends_strcpy member.1).bind ((appends_put (byte ':')).bind
          (((appends_put (byte '\t')).onlyIf fmt).bind
            ((appends_strcpy member.2).bind
              (((appends_put (byte ',')).onlyIf _).bind
                (((appends_put (byte '\n')).onlyIf fmt).bind
                  (appends_terminate.bind ih)))))))

theorem length_membersText (depth : ℕ) (fmt : Bool)
    (members : List (CString × CString)) :
    (membersText depth fmt members).length ≤
      (members.map fun member => member.2.length + member.1.length + 2 +
        if fmt then 2 + depth else 0).sum := by
  induction members with
  | nil => exact Nat.zero_le _
  | cons member members ih =>
      have hcomma : (if !members.isEmpty then [byte ','] else []).length ≤ 1 := by
        split_ifs <;> decide
      rw [List.map_cons, List.sum_cons]
      unfold membersText memberText
      cases fmt with
      | false =>
          simp only [List.length_append, List.length_cons, Bool.false_eq_true,
            if_false, List.length_nil] at ih ⊢
          omega
      | true =>
          simp only [List.length_append, List.length_cons, if_true, length_indent,
            List.length_nil] at ih ⊢
          omega

theorem membersSize_eq {depth : ℕ} {fmt : Bool}
    {members : List (CString × CString)}
    (hfits : membersRoom depth fmt members < 2 ^ 31) :
    sizeOfInt (members.foldl (fun len member =>
        len + BitVec.ofNat 32 (member.2.length + member.1.length + 2) +
          if fmt then 2 + BitVec.ofNat 32 depth else 0)
        (if fmt then 7 + BitVec.ofNat 32 depth else 7)) =
      membersRoom depth fmt members := by
  have hstep : (fun (len : BitVec 32) (member : CString × CString) =>
      len + BitVec.ofNat 32 (member.2.length + member.1.length + 2) +
        if fmt then 2 + BitVec.ofNat 32 depth else 0) =
      fun len member => len + BitVec.ofNat 32 (member.2.length +
        member.1.length + 2 + if fmt then 2 + depth else 0) := by
    funext len member
    rw [BitVec.add_assoc, ← ofNat_add_ofNat (member.2.length + _ + 2)]
    cases fmt with
    | false => rfl
    | true =>
        rw [if_pos rfl, if_pos rfl, ← ofNat_add_ofNat 2 depth]
        rfl
  have hstart : (if fmt then 7 + BitVec.ofNat 32 depth else 7) =
      BitVec.ofNat 32 (if fmt then 7 + depth else 7) := by
    cases fmt with
    | false => rfl
    | true => exact ofNat_add_ofNat 7 depth
  rw [hstep, hstart, foldl_ofNat]
  exact sizeOfInt_ofNat hfits

/-- The tabs in front of the closing brace -/
theorem appends_tabs_pred {fmt : Bool} {depth : ℕ}
    (hdepth : fmt = true → depth < 2 ^ 31) :
    Appends (onlyIf fmt (write (tabs (BitVec.ofNat 32 depth - 1))))
      (if fmt then indent (depth - 1) else []) := by
  cases fmt with
  | false => exact appends_pure
  | true =>
      rw [tabs_pred (hdepth rfl)]
      exact (appends_write _).onlyIf true

theorem composeObject_nil {depth : ℕ} {fmt : Bool}
    (hdepth : fmt = true → depth + 4 < 2 ^ 31) :
    composeObject (BitVec.ofNat 32 depth) fmt [] =
      .ok (objectText depth fmt []) := by
  unfold composeObject
  rw [if_pos rfl]
  have happends : Appends _ (byte '\x7b' ::
      ((if fmt then [byte '\n'] else []) ++
        ((if fmt then indent (depth - 1) else []) ++ [byte '\x7d']))) :=
    (appends_put (byte '\x7b')).bind
      (((appends_put (byte '\n')).onlyIf fmt).bind
        ((appends_tabs_pred fun hfmt =>
          (Nat.le_add_right depth 4).trans_lt (hdepth hfmt)).bind
          (appends_put (byte '\x7d'))))
  have hsize : sizeOfInt (if fmt then BitVec.ofNat 32 depth + 4 else 3) =
      if fmt then depth + 4 else 3 := by
    cases fmt with
    | false => rfl
    | true =>
        exact (congrArg sizeOfInt (ofNat_add_ofNat depth 4)).trans
          (sizeOfInt_ofNat (hdepth rfl))
  have hfinish := happends.finish_malloc
    (if fmt then depth + 4 else 3) (by
      cases fmt with
      | false => exact Nat.lt_add_one 2
      | true =>
          simp only [List.length_cons, if_true, List.length_append,
            List.length_nil, length_indent]
          omega)
  have htext : objectText depth fmt [] = byte '\x7b' ::
      ((if fmt then [byte '\n'] else []) ++
        ((if fmt then indent (depth - 1) else []) ++ [byte '\x7d'])) := by
    unfold objectText
    rw [if_pos rfl]
    rfl
  dsimp only
  rw [htext, hsize]
  simpa only [bind_assoc] using hfinish

theorem composeObject_members {depth : ℕ} {fmt : Bool}
    {members : List (CString × CString)} (hne : members ≠ [])
    (hdepth : fmt = true → depth + 1 < 2 ^ 31)
    (hfits : membersRoom (depth + 1) fmt members < 2 ^ 31) :
    composeObject (BitVec.ofNat 32 depth) fmt members =
      .ok (objectText depth fmt members) := by
  unfold composeObject
  rw [if_neg hne]
  have hnext : BitVec.ofNat 32 depth + 1 = BitVec.ofNat 32 (depth + 1) :=
    ofNat_add_ofNat depth 1
  have happends : Appends _ (byte '\x7b' ::
      ((if fmt then [byte '\n'] else []) ++
        ([] ++ (membersText (depth + 1) fmt members ++
          ((if fmt then indent depth else []) ++ [byte '\x7d']))))) :=
    (appends_put (byte '\x7b')).bind
      (((appends_put (byte '\n')).onlyIf fmt).bind
        (appends_terminate.bind
          ((appends_writeMembers hdepth members).bind
            ((appends_tabs_pred hdepth).bind (appends_put (byte '\x7d'))))))
  have hlen := length_membersText (depth + 1) fmt members
  have hfinish := happends.finish_malloc
    (membersRoom (depth + 1) fmt members) (by
      unfold membersRoom
      cases fmt with
      | false =>
          simp only [List.length_cons, Bool.false_eq_true, if_false,
            List.length_append, List.length_nil] at hlen ⊢
          omega
      | true =>
          simp only [List.length_cons, if_true, List.length_append,
            List.length_nil, length_indent] at hlen ⊢
          omega)
  have htext : objectText depth fmt members = byte '\x7b' ::
      ((if fmt then [byte '\n'] else []) ++
        ([] ++ (membersText (depth + 1) fmt members ++
          ((if fmt then indent depth else []) ++ [byte '\x7d'])))) := by
    unfold objectText
    rw [if_neg hne, List.nil_append]
  have hsize := membersSize_eq hfits
  dsimp only
  rw [htext, hnext, hsize]
  simpa only [bind_assoc] using hfinish

theorem composeObject_eq {depth : ℕ} {fmt : Bool}
    {members : List (CString × CString)}
    (hfits : membersRoom (depth + 1) fmt members < 2 ^ 31) :
    composeObject (BitVec.ofNat 32 depth) fmt members =
      .ok (objectText depth fmt members) := by
  have hdepth : fmt = true → depth + 8 < 2 ^ 31 := by
    rintro rfl
    unfold membersRoom at hfits
    rw [if_pos rfl] at hfits
    omega
  by_cases hnil : members = []
  · rw [hnil]
    apply composeObject_nil
    intro hfmt
    have hroom := hdepth hfmt
    omega
  · apply composeObject_members hnil _ hfits
    intro hfmt
    have hroom := hdepth hfmt
    omega

/-! ## Values -/

theorem printArray_eq {fmt : Bool} {children : List Printed}
    (hfits : ∀ entries, children.mapM Prod.snd = some entries →
      entriesRoom fmt entries < 2 ^ 31) :
    printArray fmt children =
      .ok ((children.mapM Prod.snd).map (arrayText fmt)) := by
  unfold printArray
  cases hentries : children.mapM Prod.snd with
  | none => rfl
  | some entries =>
      dsimp only
      rw [composeArray_eq (hfits entries hentries)]
      rfl

theorem mapM_printStringPtr {children : List Printed}
    (hfits : ∀ child ∈ children, FitsString child.1) :
    children.mapM (fun child => printStringPtr child.1) =
      .ok (children.map fun child => nameText child.1) := by
  induction children with
  | nil => rfl
  | cons child children ih =>
      rw [List.mapM_cons, printStringPtr_eq (hfits child List.mem_cons_self),
        ih fun other hother => hfits other (List.mem_cons_of_mem child hother)]
      rfl

theorem printObject_eq {depth : ℕ} {fmt : Bool} {children : List Printed}
    (hnames : ∀ child ∈ children, FitsString child.1)
    (hfits : ∀ entries, children.mapM Prod.snd = some entries →
      membersRoom (depth + 1) fmt ((children.map fun child : Printed =>
        nameText child.1).zip entries) < 2 ^ 31) :
    printObject (BitVec.ofNat 32 depth) fmt children =
      .ok ((children.mapM Prod.snd).map fun entries => objectText depth fmt
        ((children.map fun child : Printed => nameText child.1).zip
          entries)) := by
  unfold printObject
  rw [mapM_printStringPtr hnames]
  cases hentries : children.mapM Prod.snd with
  | none => rfl
  | some entries =>
      show some <$> composeObject (BitVec.ofNat 32 depth) fmt _ = _
      rw [composeObject_eq (hfits entries hentries)]
      rfl

/-- The children are printed for a container only. -/
theorem printNode_eq (hformats : unit.Formats) {fmt : Bool} {depth : ℕ}
    {item : Fields δ} {children : List Printed} {below : Prop}
    (hfits : FitsNode fmt depth item children below)
    {printed : Except Trap (List Printed)}
    (hprinted : below → printed = .ok children) :
    printNode unit fmt (BitVec.ofNat 32 depth) item printed =
      .ok (nodeText unit fmt depth item children) := by
  unfold printNode nodeText
  dsimp only
  split_ifs with hnull hfalse htrue hnumber hstring harray hobject
  · rfl
  · rfl
  · rfl
  · rw [printNumber_eq unit hformats]
    rfl
  · rw [printStringPtr_eq (hfits.string hstring)]
    rfl
  · obtain ⟨hbelow, hentries⟩ := hfits.array harray
    rw [hprinted hbelow]
    exact printArray_eq hentries
  · obtain ⟨hbelow, hnames, hmembers⟩ := hfits.object hobject
    rw [hprinted hbelow]
    exact printObject_eq hnames hmembers
  · rfl

theorem printChildren_eq (hformats : unit.Formats) {fmt : Bool} {depth : ℕ}
    {items : Items δ} (hfits : FitsChildren unit fmt depth items) :
    printChildren unit fmt (BitVec.ofNat 32 depth) items =
      .ok (childTexts unit fmt depth items) := by
  induction items generalizing depth with
  | null => rfl
  | item fields child next ihChild ihNext =>
      have hnext : BitVec.ofNat 32 depth + 1 = BitVec.ofNat 32 (depth + 1) :=
        ofNat_add_ofNat depth 1
      unfold printChildren
      rw [hnext, printNode_eq unit hformats hfits.1 ihChild, ihNext hfits.2]
      rfl

theorem printValue_eq (hformats : unit.Formats) {fmt : Bool} {depth : ℕ}
    {items : Items δ} (hfits : Fits unit fmt depth items) :
    printValue unit fmt (BitVec.ofNat 32 depth) items =
      .ok (valueText unit fmt depth items) := by
  cases items with
  | null => rfl
  | item fields child next =>
      have hnext : BitVec.ofNat 32 depth + 1 = BitVec.ofNat 32 (depth + 1) :=
        ofNat_add_ofNat depth 1
      show printNode unit fmt (BitVec.ofNat 32 depth) fields
        (printChildren unit fmt (BitVec.ofNat 32 depth + 1) child) = _
      rw [hnext]
      exact printNode_eq unit hformats hfits (printChildren_eq unit hformats)

/-! ## The texts and the sizes -/

theorem length_objectText_le (depth : ℕ) (fmt : Bool)
    (members : List (CString × CString)) :
    (objectText depth fmt members).length ≤ membersRoom (depth + 1) fmt members := by
  have hle := length_membersText (depth + 1) fmt members
  have hdepth : (indent (if members = [] then depth - 1 else depth)).length ≤
      depth := by
    rw [length_indent]
    split_ifs <;> omega
  unfold objectText membersRoom
  cases fmt with
  | false =>
      simp only [Bool.false_eq_true, if_false, List.length_cons,
        List.length_append, List.length_nil] at hle ⊢
      omega
  | true =>
      simp only [if_true, List.length_cons, List.length_append,
        List.length_nil] at hle ⊢
      omega

/-- The children have texts when the container has one. -/
theorem mapM_snd_eq_some {children : List Printed} {entries : List CString}
    (hentries : children.mapM Prod.snd = some entries) :
    children.map Prod.snd = entries.map some := by
  induction children generalizing entries with
  | nil =>
      cases hentries
      rfl
  | cons child children ih =>
      rw [List.mapM_cons, Option.bind_eq_bind, Option.bind_eq_some_iff] at hentries
      obtain ⟨entry, hentry, hentries⟩ := hentries
      rw [Option.bind_eq_bind, Option.bind_eq_some_iff] at hentries
      obtain ⟨others, hothers, hentries⟩ := hentries
      cases hentries
      rw [List.map_cons, List.map_cons, hentry, ih hothers]

theorem length_arrayText {fmt : Bool} {entries : List CString}
    (hne : entries ≠ []) :
    (arrayText fmt entries).length + (if fmt then 1 else 0) =
      1 + (entries.map fun entry => entry.length + 1 + if fmt then 1 else 0).sum := by
  have hentries : (entriesText fmt entries).length + (1 + if fmt then 1 else 0) =
      (entries.map fun entry => entry.length + 1 + if fmt then 1 else 0).sum := by
    fun_induction entriesText fmt entries with
    | case1 => exact absurd rfl hne
    | case2 entry =>
        rw [List.map_singleton, List.sum_singleton]
        omega
    | case3 entry entries hne' ih =>
        have hblank : (if fmt then [byte ' '] else []).length =
            if fmt then 1 else 0 := by
          split_ifs <;> rfl
        have ih := ih fun hnil => hne' hnil
        rw [List.map_cons, List.sum_cons, ← ih, List.length_append,
          List.length_cons, List.length_append, hblank]
        omega
  unfold arrayText
  rw [List.length_cons, List.length_append, List.length_singleton]
  omega

theorem entriesRoom_le (fmt : Bool) (entries : List CString) :
    entriesRoom fmt entries ≤ 2 * (arrayText fmt entries).length + 5 := by
  by_cases hnil : entries = []
  · rw [hnil]
    cases fmt <;> decide
  · have htext := @length_arrayText fmt entries hnil
    have hsum : (entries.map fun entry =>
        entry.length + 2 + if fmt then 1 else 0).sum ≤
        2 * (entries.map fun entry =>
          entry.length + 1 + if fmt then 1 else 0).sum := by
      rw [← List.sum_map_mul_left]
      apply List.sum_le_sum
      intro entry _
      omega
    unfold entriesRoom
    cases fmt with
    | false =>
        simp only [Bool.false_eq_true, if_false] at htext hsum ⊢
        omega
    | true =>
        simp only [if_true] at htext hsum ⊢
        omega

theorem length_entry_le {fmt : Bool} {entries : List CString} {entry : CString}
    (hentry : entry ∈ entries) :
    entry.length + 2 ≤ (arrayText fmt entries).length := by
  have htext := @length_arrayText fmt entries (List.ne_nil_of_mem hentry)
  have hmem := List.le_sum_of_mem (List.mem_map_of_mem
    (f := fun entry : CString => entry.length + 1 + if fmt then 1 else 0) hentry)
  cases fmt with
  | false =>
      simp only [Bool.false_eq_true, if_false] at htext hmem
      omega
  | true =>
      simp only [if_true] at htext hmem
      omega

theorem length_membersText_add {depth : ℕ} {fmt : Bool}
    {members : List (CString × CString)} (hne : members ≠ []) :
    (membersText depth fmt members).length + 1 =
      (members.map fun member => member.2.length + member.1.length + 2 +
        if fmt then 2 + depth else 0).sum := by
  induction members with
  | nil => exact absurd rfl hne
  | cons member members ih =>
      rw [List.map_cons, List.sum_cons]
      unfold membersText memberText
      cases members with
      | nil =>
          cases fmt with
          | false =>
              simp only [List.length_append, List.length_cons, List.length_nil,
                Bool.false_eq_true, if_false, List.isEmpty_nil, Bool.not_true,
                membersText, List.map_nil, List.sum_nil]
              omega
          | true =>
              simp only [List.length_append, List.length_cons, List.length_nil,
                if_true, Bool.false_eq_true, if_false, List.isEmpty_nil,
                Bool.not_true, membersText, List.map_nil, List.sum_nil,
                length_indent]
              omega
      | cons second members =>
          have ih := ih (List.cons_ne_nil _ _)
          cases fmt with
          | false =>
              simp only [List.length_append, List.length_cons, List.length_nil,
                Bool.false_eq_true, if_false, List.isEmpty_cons, Bool.not_false,
                if_true] at ih ⊢
              omega
          | true =>
              simp only [List.length_append, List.length_cons, List.length_nil,
                if_true, List.isEmpty_cons, Bool.not_false, length_indent]
                at ih ⊢
              omega

theorem membersRoom_le (depth : ℕ) (fmt : Bool)
    (members : List (CString × CString)) :
    membersRoom (depth + 1) fmt members ≤
      (objectText depth fmt members).length + 6 := by
  unfold membersRoom objectText
  by_cases hnil : members = []
  · rw [if_pos hnil, hnil]
    cases fmt with
    | false =>
        simp only [Bool.false_eq_true, if_false, List.map_nil, List.sum_nil,
          membersText, List.length_cons, List.length_append, List.length_nil]
        omega
    | true =>
        simp only [if_true, List.map_nil, List.sum_nil, membersText,
          List.length_cons, List.length_append, List.length_nil, length_indent]
        omega
  · have htext := @length_membersText_add (depth + 1) fmt members hnil
    rw [if_neg hnil, ← htext]
    cases fmt with
    | false =>
        simp only [Bool.false_eq_true, if_false, List.length_cons,
          List.length_append, List.length_nil]
        omega
    | true =>
        simp only [if_true, List.length_cons, List.length_append,
          List.length_nil, length_indent]
        omega

theorem length_member_le {depth : ℕ} {fmt : Bool}
    {members : List (CString × CString)} {member : CString × CString}
    (hmember : member ∈ members) :
    member.1.length + member.2.length + 3 ≤
      (objectText depth fmt members).length := by
  have hne : members ≠ [] := List.ne_nil_of_mem hmember
  have htext := @length_membersText_add (depth + 1) fmt members hne
  have hmem := List.le_sum_of_mem (List.mem_map_of_mem
    (f := fun member : CString × CString => member.2.length + member.1.length +
      2 + if fmt then 2 + (depth + 1) else 0) hmember)
  unfold objectText
  simp only [List.length_cons, List.length_append, List.length_nil]
  omega

theorem length_printedString (bytes : CString) :
    (printedString bytes).length + 1 = stringRoom bytes := by
  unfold printedString stringRoom
  rw [List.length_cons, List.length_append, List.length_singleton]

variable {unit} in
/-- The sizes for an item with a short text, which is not too deep -/
theorem FitsNode.of_length {fmt : Bool} {depth : ℕ} {item : Fields δ}
    {children : List Printed} {below : Prop} {text : CString}
    (htext : nodeText unit fmt depth item children = some text)
    (hlength : depth + text.length < 2 ^ 30 - 4)
    (hbelow : ∀ entries, children.mapM Prod.snd = some entries →
      (∀ entry ∈ entries, depth + 1 + entry.length < 2 ^ 30 - 4) → below) :
    FitsNode fmt depth item children below := by
  unfold nodeText at htext
  dsimp only at htext
  constructor
  · intro hstring bytes hbytes
    rw [hstring, hbytes] at htext
    have hprinted : printedString bytes = text := Option.some.inj htext
    have hsize := length_printedString bytes
    rw [hprinted] at hsize
    omega
  · intro harray
    rw [harray] at htext
    obtain ⟨entries, hentries, hprinted⟩ := Option.map_eq_some_iff.mp htext
    constructor
    · apply hbelow entries hentries
      intro entry hentry
      have hle := @length_entry_le fmt entries entry hentry
      rw [hprinted] at hle
      omega
    · intro others hothers
      rw [hentries] at hothers
      cases hothers
      have hle := entriesRoom_le fmt entries
      rw [hprinted] at hle
      omega
  · intro hobject
    rw [hobject] at htext
    obtain ⟨entries, hentries, hprinted⟩ := Option.map_eq_some_iff.mp htext
    have hcount : children.length = entries.length := by
      have h := congrArg List.length (mapM_snd_eq_some hentries)
      rwa [List.length_map, List.length_map] at h
    have hmember : ∀ i (hi : i < children.length), ∃ member ∈
        (children.map fun child : Printed => nameText child.1).zip entries,
        member = (nameText children[i].1, entries[i]) := by
      intro i hi
      refine ⟨_, List.mem_iff_getElem.mpr ⟨i, ?_, rfl⟩, ?_⟩
      · simp only [List.length_zip, List.length_map]
        omega
      · simp only [List.getElem_zip, List.getElem_map]
    refine ⟨?_, ?_, ?_⟩
    · apply hbelow entries hentries
      intro entry hentry
      obtain ⟨i, hi, rfl⟩ := List.mem_iff_getElem.mp hentry
      obtain ⟨member, hmem, rfl⟩ := hmember i (by omega)
      have hle := @length_member_le depth fmt _ _ hmem
      rw [hprinted] at hle
      dsimp only at hle
      omega
    · intro child hchild name hname
      obtain ⟨i, hi, rfl⟩ := List.mem_iff_getElem.mp hchild
      obtain ⟨member, hmem, rfl⟩ := hmember i hi
      have hle := @length_member_le depth fmt _ _ hmem
      rw [hprinted, hname] at hle
      dsimp only at hle
      have hsize : (nameText (some name)).length + 1 = stringRoom name :=
        length_printedString name
      omega
    · intro others hothers
      rw [hentries] at hothers
      cases hothers
      have hle := membersRoom_le depth fmt
        ((children.map fun child : Printed => nameText child.1).zip entries)
      rw [hprinted] at hle
      omega

theorem fitsChildren_of_length {fmt : Bool} {depth : ℕ} {items : Items δ}
    {entries : List CString}
    (hentries : (childTexts unit fmt depth items).mapM Prod.snd = some entries)
    (hlength : ∀ entry ∈ entries, depth + entry.length < 2 ^ 30 - 4) :
    FitsChildren unit fmt depth items := by
  induction items generalizing depth entries with
  | null => trivial
  | item fields child next ihChild ihNext =>
      have hmap := mapM_snd_eq_some hentries
      cases entries with
      | nil => cases hmap
      | cons entry others =>
          unfold childTexts at hmap hentries
          rw [List.map_cons, List.map_cons] at hmap
          obtain ⟨hentry, -⟩ := List.cons.inj hmap
          have hothers : (childTexts unit fmt depth next).mapM Prod.snd =
              some others := by
            rw [List.mapM_cons, hentry] at hentries
            obtain ⟨first, hfirst, hrest⟩ := Option.bind_eq_some_iff.mp hentries
            obtain ⟨rest, hrest, hsame⟩ := Option.bind_eq_some_iff.mp hrest
            cases hsame
            exact hrest
          constructor
          · apply FitsNode.of_length hentry (hlength entry List.mem_cons_self)
            intro below hbelow hshort
            exact ihChild hbelow hshort
          · apply ihNext hothers
            intro other hother
            exact hlength other (List.mem_cons_of_mem entry hother)

/-- A tree with a text of less than `2^30-4` bytes is small enough. -/
theorem fits_of_length {fmt : Bool} {items : Items δ} {text : CString}
    (htext : valueText unit fmt 0 items = some text)
    (hlength : text.length < 2 ^ 30 - 4) : Fits unit fmt 0 items := by
  cases items with
  | null => trivial
  | item fields child next =>
      apply FitsNode.of_length htext (by omega)
      intro entries hentries hshort
      exact fitsChildren_of_length unit hentries hshort

/-- The text of a tree that is small enough is no longer than an `int` counts. -/
theorem length_lt_of_fits (hformats : unit.Formats) {fmt : Bool} {items : Items δ}
    {text : CString} (htext : valueText unit fmt 0 items = some text)
    (hfits : Fits unit fmt 0 items) : text.length < 2 ^ 31 := by
  cases items with
  | null => cases htext
  | item fields child next =>
      have hnode : FitsNode fmt 0 fields (childTexts unit fmt 1 child)
        (FitsChildren unit fmt 1 child) := hfits
      change nodeText unit fmt 0 fields (childTexts unit fmt 1 child) =
        some text at htext
      unfold nodeText at htext
      dsimp only at htext
      split_ifs at htext with hnull hfalse htrue hnumber hstring harray hobject
      · cases htext
        decide
      · cases htext
        decide
      · cases htext
        decide
      · cases htext
        exact (length_numberText unit hformats fields).trans (by norm_num)
      · cases htext
        cases hbytes : fields.valuestring with
        | none => exact Nat.two_pow_pos 31
        | some bytes =>
            have hroom := hnode.string hstring bytes hbytes
            have hsize : (nameText (some bytes)).length + 1 = stringRoom bytes :=
              length_printedString bytes
            omega
      · obtain ⟨entries, hentries, rfl⟩ := Option.map_eq_some_iff.mp htext
        have hroom := (hnode.array harray).2 entries hentries
        have hle := length_entriesText fmt entries
        unfold entriesRoom at hroom
        unfold arrayText
        rw [List.length_cons, List.length_append, List.length_singleton]
        omega
      · obtain ⟨entries, hentries, rfl⟩ := Option.map_eq_some_iff.mp htext
        have hroom := (hnode.object hobject).2.2 entries hentries
        generalize (childTexts unit fmt 1 child).map _ = names at hroom ⊢
        exact (length_objectText_le 0 fmt (names.zip entries)).trans_lt hroom

/-- Nothing is written behind the end of a buffer, whatever the tree is, if the
sizes fit an `int`, and an item of an unknown type that is to be printed makes
the call return a null pointer. -/
theorem print_fits (hformats : unit.Formats) (items : Items δ) :
    (Fits unit true 0 items → print unit items =
      .ok (valueText unit true 0 items)) ∧
    (Fits unit false 0 items → printUnformatted unit items =
      .ok (valueText unit false 0 items)) :=
  ⟨fun hfits => printValue_eq unit hformats hfits,
    fun hfits => printValue_eq unit hformats hfits⟩

/-- A name with a control character, and an item of an unknown type -/
theorem print_fits_sample :
    print rationals (.item { newItem rationals with type := typeObject }
        (.item { newItem rationals with
            type := typeString
            valuestring := some (literal "x\n\x01")
            string := some (literal "a") } .null .null) .null) =
      .ok (some (literal "\x7b\n\t\"a\":\t\"x\\n\\u0001\"\n\x7d")) ∧
    printUnformatted rationals
        (.item { newItem rationals with type := 9 } .null .null) = .ok none := by
  have htext : valueText rationals true 0
      (.item { newItem rationals with type := typeObject }
        (.item { newItem rationals with
            type := typeString
            valuestring := some (literal "x\n\x01")
            string := some (literal "a") } .null .null) .null) =
      some (literal "\x7b\n\t\"a\":\t\"x\\n\\u0001\"\n\x7d") := by
    decide
  have hfits := fits_of_length rationals htext (by decide)
  have hunknown : FitsNode false 0 { newItem rationals with type := 9 } []
      (FitsChildren rationals false 1 .null) :=
    ⟨fun h => absurd h (by decide), fun h => absurd h (by decide),
      fun h => absurd h (by decide)⟩
  exact ⟨((print_fits rationals rationals_formats _).1 hfits).trans
    (congrArg Except.ok htext),
    (print_fits rationals rationals_formats _).2 hunknown⟩

end CJson

end ClpszDemos
