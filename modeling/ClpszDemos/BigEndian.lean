import ClpszDemos.ProgramLogic

/-!
# Reading big-endian bytes

A byte source hands out its bytes one after another.  `Supplies s bytes t`
says which bytes it hands out between two of its states, and `Reads` says of a
reader that it makes one value of exactly these bytes, from whatever state of
the source.  Readers compose as the byte strings they read.
-/

namespace ClpszDemos

abbrev Byte : Type := BitVec 8

namespace BigEndian

/-! ## Integers as bytes -/

def bytes16 (value : BitVec 16) : List Byte :=
  [value.extractLsb' 8 8, value.extractLsb' 0 8]

def bytes32 (value : BitVec 32) : List Byte :=
  [value.extractLsb' 24 8, value.extractLsb' 16 8,
    value.extractLsb' 8 8, value.extractLsb' 0 8]

def bytes64 (value : BitVec 64) : List Byte :=
  bytes32 (value.extractLsb' 32 32) ++ bytes32 (value.extractLsb' 0 32)

def join16 (byte1 byte2 : Byte) : BitVec 16 :=
  byte1.setWidth 16 <<< 8 ||| byte2.setWidth 16

def join32 (byte1 byte2 byte3 byte4 : Byte) : BitVec 32 :=
  byte1.setWidth 32 <<< 24 ||| byte2.setWidth 32 <<< 16 |||
    byte3.setWidth 32 <<< 8 ||| byte4.setWidth 32

/-- The word whose halves are `high` and `low`. -/
def join64 (high low : BitVec 32) : BitVec 64 :=
  high.setWidth 64 <<< 32 ||| low.setWidth 64

@[simp]
theorem length_bytes16 (value : BitVec 16) : (bytes16 value).length = 2 := rfl

@[simp]
theorem length_bytes32 (value : BitVec 32) : (bytes32 value).length = 4 := rfl

@[simp]
theorem length_bytes64 (value : BitVec 64) : (bytes64 value).length = 8 := rfl

theorem length_flatMap_bytes32 (ints : List (BitVec 32)) :
    (ints.flatMap bytes32).length = 4 * ints.length := by
  induction ints with
  | nil => rfl
  | cons value ints ih =>
      rw [List.flatMap_cons, List.length_append, ih,
        length_bytes32, List.length_cons]
      omega

@[simp]
theorem join16_extract (value : BitVec 16) :
    join16 (value.extractLsb' 8 8) (value.extractLsb' 0 8) = value := by
  apply BitVec.eq_of_getLsbD_eq
  intro i hi
  simp only [join16, BitVec.getLsbD_or, BitVec.getLsbD_shiftLeft,
    BitVec.getLsbD_setWidth, BitVec.getLsbD_extractLsb']
  grind

@[simp]
theorem join32_extract (value : BitVec 32) :
    join32 (value.extractLsb' 24 8) (value.extractLsb' 16 8)
      (value.extractLsb' 8 8) (value.extractLsb' 0 8) = value := by
  apply BitVec.eq_of_getLsbD_eq
  intro i hi
  simp only [join32, BitVec.getLsbD_or, BitVec.getLsbD_shiftLeft,
    BitVec.getLsbD_setWidth, BitVec.getLsbD_extractLsb']
  have hbyte : i < 8 ∨ (8 ≤ i ∧ i < 16) ∨ (16 ≤ i ∧ i < 24) ∨ 24 ≤ i := by
    omega
  rcases hbyte with h | h | h | h
  all_goals grind

@[simp]
theorem join64_extract (value : BitVec 64) :
    join64 (value.extractLsb' 32 32) (value.extractLsb' 0 32) = value := by
  apply BitVec.eq_of_getLsbD_eq
  intro i hi
  simp only [join64, BitVec.getLsbD_or, BitVec.getLsbD_shiftLeft,
    BitVec.getLsbD_setWidth, BitVec.getLsbD_extractLsb']
  grind

theorem bytes16_join16 (byte1 byte2 : Byte) :
    bytes16 (join16 byte1 byte2) = [byte1, byte2] := by
  unfold bytes16 join16
  congr 1
  · apply BitVec.eq_of_getLsbD_eq
    intro i hi
    simp only [BitVec.getLsbD_or, BitVec.getLsbD_shiftLeft,
      BitVec.getLsbD_setWidth, BitVec.getLsbD_extractLsb']
    grind
  · congr 1
    apply BitVec.eq_of_getLsbD_eq
    intro i hi
    simp only [BitVec.getLsbD_or, BitVec.getLsbD_shiftLeft,
      BitVec.getLsbD_setWidth, BitVec.getLsbD_extractLsb']
    grind

theorem bytes32_join32 (byte1 byte2 byte3 byte4 : Byte) :
    bytes32 (join32 byte1 byte2 byte3 byte4) =
      [byte1, byte2, byte3, byte4] := by
  have hbyte : ∀ k byte, (k, byte) ∈ [(24, byte1), (16, byte2), (8, byte3),
      (0, byte4)] →
      (join32 byte1 byte2 byte3 byte4).extractLsb' k 8 = byte := by
    intro k byte hk
    apply BitVec.eq_of_getLsbD_eq
    intro i hi
    simp only [join32, BitVec.getLsbD_or, BitVec.getLsbD_shiftLeft,
      BitVec.getLsbD_setWidth, BitVec.getLsbD_extractLsb']
    simp only [List.mem_cons, Prod.mk.injEq, List.not_mem_nil,
      or_false] at hk
    rcases hk with ⟨rfl, rfl⟩ | ⟨rfl, rfl⟩ | ⟨rfl, rfl⟩ | ⟨rfl, rfl⟩
    all_goals grind
  unfold bytes32
  rw [hbyte 24 byte1 (by simp), hbyte 16 byte2 (by simp),
    hbyte 8 byte3 (by simp), hbyte 0 byte4 (by simp)]

theorem bytes64_join64 (high low : BitVec 32) :
    bytes64 (join64 high low) = bytes32 high ++ bytes32 low := by
  have hhigh : (join64 high low).extractLsb' 32 32 = high := by
    apply BitVec.eq_of_getLsbD_eq
    intro i hi
    simp only [join64, BitVec.getLsbD_or, BitVec.getLsbD_shiftLeft,
      BitVec.getLsbD_setWidth, BitVec.getLsbD_extractLsb']
    grind
  have hlow : (join64 high low).extractLsb' 0 32 = low := by
    apply BitVec.eq_of_getLsbD_eq
    intro i hi
    simp only [join64, BitVec.getLsbD_or, BitVec.getLsbD_shiftLeft,
      BitVec.getLsbD_setWidth, BitVec.getLsbD_extractLsb']
    grind
  unfold bytes64
  rw [hhigh, hlow]

/-- Every string of bytes is long enough for some words. -/
theorem exists_words {bytes : List Byte} {n : ℕ}
    (hlength : 4 * n ≤ bytes.length) :
    ∃ words : List (BitVec 32), words.length = n ∧
      words.flatMap bytes32 <+: bytes := by
  induction n generalizing bytes with
  | zero => exact ⟨[], rfl, List.nil_prefix⟩
  | succ n ih =>
      obtain ⟨b1, b2, b3, b4, rest, rfl⟩ : ∃ b1 b2 b3 b4 rest,
          bytes = b1 :: b2 :: b3 :: b4 :: rest := by
        match bytes, hlength with
        | b1 :: b2 :: b3 :: b4 :: rest, _ =>
            exact ⟨b1, b2, b3, b4, rest, rfl⟩
      simp only [List.length_cons] at hlength
      obtain ⟨words, hcount, hprefix⟩ := @ih rest (by omega)
      refine ⟨join32 b1 b2 b3 b4 :: words, by simp [hcount], ?_⟩
      rw [List.flatMap_cons, bytes32_join32]
      exact (List.prefix_append_right_inj [b1, b2, b3, b4]).mpr hprefix

end BigEndian

/-! ## Byte sources -/

class ByteSource (σ : Type) where
  next? : σ → Option (Byte × σ)

section Supplies

variable {σ : Type} [ByteSource σ]

/-- From state `s` on, the source hands out `bytes` and is then in state `t`. -/
def Supplies : σ → List Byte → σ → Prop
  | s, [], t => s = t
  | s, byte :: bytes, t =>
      ∃ u, ByteSource.next? s = some (byte, u) ∧ Supplies u bytes t

@[simp]
theorem supplies_nil {s t : σ} : Supplies s [] t ↔ s = t := Iff.rfl

theorem supplies_cons {s t : σ} {byte : Byte} {bytes : List Byte} :
    Supplies s (byte :: bytes) t ↔
      ∃ u, ByteSource.next? s = some (byte, u) ∧ Supplies u bytes t :=
  Iff.rfl

theorem supplies_append {s t : σ} {bytes rest : List Byte} :
    Supplies s (bytes ++ rest) t ↔
      ∃ u, Supplies s bytes u ∧ Supplies u rest t := by
  induction bytes generalizing s with
  | nil => simp
  | cons byte bytes ih =>
      simp only [List.cons_append, supplies_cons, ih]
      constructor
      · rintro ⟨u, hnext, v, hbytes, hrest⟩
        exact ⟨v, ⟨u, hnext, hbytes⟩, hrest⟩
      · rintro ⟨v, ⟨u, hnext, hbytes⟩, hrest⟩
        exact ⟨u, hnext, v, hbytes, hrest⟩

theorem Supplies.unique {s t u : σ} {bytes : List Byte}
    (ht : Supplies s bytes t) (hu : Supplies s bytes u) : t = u := by
  induction bytes generalizing s with
  | nil =>
      have hst : s = t := ht
      exact hst.symm.trans hu
  | cons byte bytes ih =>
      obtain ⟨v, hnext, hv⟩ := ht
      obtain ⟨w, hnext', hw⟩ := hu
      rw [hnext] at hnext'
      cases hnext'
      exact ih hv hw

end Supplies

instance : ByteSource (List Byte) where
  next?
    | [] => none
    | byte :: rest => some (byte, rest)

/-- A list hands out its own front. -/
theorem supplies_list {bytes data rest : List Byte} :
    Supplies data bytes rest ↔ data = bytes ++ rest := by
  induction bytes generalizing data with
  | nil => simp
  | cons byte bytes ih =>
      rw [supplies_cons]
      cases data with
      | nil => simp [ByteSource.next?]
      | cons head tail =>
          simp only [ByteSource.next?, Option.some.injEq, Prod.mk.injEq, ih,
            List.cons_append, List.cons.injEq]
          constructor
          · rintro ⟨u, ⟨hhead, htail⟩, hu⟩
            exact ⟨hhead, htail.trans hu⟩
          · rintro ⟨hhead, htail⟩
            exact ⟨tail, ⟨hhead, rfl⟩, htail⟩

/-! ## Readers -/

section Reads

variable {σ ε α β : Type} [ByteSource σ]

/-- Out of `bytes`, and of nothing after them, `reader` makes `value`. -/
def Reads (reader : StateT σ (Except ε) α) (bytes : List Byte) (value : α) :
    Prop :=
  ∀ s t, Supplies s bytes t → reader s = .ok (value, t)

namespace Reads

theorem pure (value : α) :
    Reads (Pure.pure value : StateT σ (Except ε) α) [] value := by
  intro s t hsupplies
  have hst : s = t := hsupplies
  rw [hst]
  rfl

theorem bind {reader : StateT σ (Except ε) α}
    {continuation : α → StateT σ (Except ε) β} {bytes rest : List Byte}
    {value : α} {result : β} (hreader : Reads reader bytes value)
    (hcontinuation : Reads (continuation value) rest result) :
    Reads (reader >>= continuation) (bytes ++ rest) result := by
  intro s t hsupplies
  obtain ⟨u, hbytes, hrest⟩ := supplies_append.mp hsupplies
  have hvalue : reader s = .ok (value, u) := hreader s u hbytes
  have hresult : continuation value u = .ok (result, t) :=
    hcontinuation u t hrest
  show (do let (a, s') ← reader s; continuation a s') = _
  rw [hvalue]
  exact hresult

theorem map {reader : StateT σ (Except ε) α} {bytes : List Byte} {value : α}
    (f : α → β) (hreader : Reads reader bytes value) :
    Reads (f <$> reader) bytes (f value) := by
  intro s t hsupplies
  have hvalue : reader s = .ok (value, t) := hreader s t hsupplies
  show (do let (a, s') ← reader s; Pure.pure (f a, s')) = _
  rw [hvalue]
  rfl

end Reads

/-- `for i := range items { items[i] = item() }` on a slice of length `n` -/
def readMany (item : StateT σ (Except ε) α) :
    ℕ → StateT σ (Except ε) (List α)
  | 0 => Pure.pure []
  | n + 1 => do
      let first ← item
      let others ← readMany item n
      Pure.pure (first :: others)

/-- Items one after another, each with the bytes it is read from. -/
theorem Reads.each {item : StateT σ (Except ε) α}
    {items : List (α × List Byte)} (hitem : ∀ p ∈ items, Reads item p.2 p.1) :
    Reads (readMany item items.length) (items.flatMap Prod.snd)
      (items.map Prod.fst) := by
  induction items with
  | nil => exact Reads.pure []
  | cons first others ih =>
      have hfirst : Reads item first.2 first.1 :=
        hitem first List.mem_cons_self
      have hothers : Reads (readMany item others.length)
          (others.flatMap Prod.snd) (others.map Prod.fst) :=
        ih fun p hp => hitem p (List.mem_cons_of_mem first hp)
      have hcons : Reads (readMany item (others.length + 1))
          (first.2 ++ (others.flatMap Prod.snd ++ []))
          (first.1 :: others.map Prod.fst) :=
        hfirst.bind (hothers.bind (Reads.pure _))
      rw [List.append_nil] at hcons
      exact hcons

theorem Reads.many {item : StateT σ (Except ε) α} {encode : α → List Byte}
    {items : List α} (hitem : ∀ a ∈ items, Reads item (encode a) a) :
    Reads (readMany item items.length) (items.flatMap encode) items := by
  have hpairs : ∀ p ∈ items.map fun a => (a, encode a),
      Reads item p.2 p.1 := by
    intro p hp
    obtain ⟨a, ha, rfl⟩ := List.mem_map.mp hp
    exact hitem a ha
  have heach := Reads.each hpairs
  simpa [Function.comp_def, List.flatMap_map] using heach

/-- Whatever `reader` makes, it makes out of bytes that have the format. -/
def Accepts (reader : StateT σ (Except ε) α)
    (Format : α → List Byte → Prop) : Prop :=
  ∀ s value t, reader s = .ok (value, t) →
    ∃ bytes, Supplies s bytes t ∧ Format value bytes

namespace Accepts

theorem pure {Format : α → List Byte → Prop} {value : α}
    (hformat : Format value []) :
    Accepts (Pure.pure value : StateT σ (Except ε) α) Format := by
  intro s result t hrun
  cases hrun
  exact ⟨[], rfl, hformat⟩

/-- The bytes of the second reader follow those of the first. -/
theorem bind {reader : StateT σ (Except ε) α}
    {continuation : α → StateT σ (Except ε) β}
    {First : α → List Byte → Prop} {Format : β → List Byte → Prop}
    (hreader : Accepts reader First)
    (hcontinuation : ∀ value bytes, First value bytes →
      Accepts (continuation value) fun result rest =>
        Format result (bytes ++ rest)) :
    Accepts (reader >>= continuation) Format := by
  intro s result t hrun
  obtain ⟨value, u, hfirst, hrest⟩ := bind_eq_ok hrun
  obtain ⟨bytes, hbytes, hformat⟩ := hreader s value u hfirst
  obtain ⟨rest, hsupplies, hresult⟩ :=
    hcontinuation value bytes hformat u result t hrest
  exact ⟨bytes ++ rest, supplies_append.mpr ⟨u, hbytes, hsupplies⟩, hresult⟩

theorem map {reader : StateT σ (Except ε) α} {First : α → List Byte → Prop}
    {Format : β → List Byte → Prop} {f : α → β}
    (hreader : Accepts reader First)
    (hformat : ∀ value bytes, First value bytes → Format (f value) bytes) :
    Accepts (f <$> reader) Format := by
  intro s result t hrun
  obtain ⟨value, hvalue, rfl⟩ := map_eq_ok hrun
  obtain ⟨bytes, hbytes, hfirst⟩ := hreader s value t hvalue
  exact ⟨bytes, hbytes, hformat value bytes hfirst⟩

theorem weaken {reader : StateT σ (Except ε) α}
    {First Format : α → List Byte → Prop} (hreader : Accepts reader First)
    (hformat : ∀ value bytes, First value bytes → Format value bytes) :
    Accepts reader Format := by
  intro s value t hrun
  obtain ⟨bytes, hbytes, hfirst⟩ := hreader s value t hrun
  exact ⟨bytes, hbytes, hformat value bytes hfirst⟩

/-- Items of one encoding each, one after another. -/
theorem many {item : StateT σ (Except ε) α} {encode : α → List Byte}
    (hitem : Accepts item fun value bytes => bytes = encode value) (n : ℕ) :
    Accepts (readMany item n) fun items bytes =>
      items.length = n ∧ bytes = items.flatMap encode := by
  induction n with
  | zero => exact Accepts.pure ⟨rfl, rfl⟩
  | succ n ih =>
      apply hitem.bind
      intro first bytes hfirst
      apply ih.bind
      intro others rest hothers
      apply Accepts.pure
      rw [hfirst, hothers.2]
      exact ⟨by simp [hothers.1], by simp⟩

end Accepts

end Reads

end ClpszDemos
