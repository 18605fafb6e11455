import ClpszDemos.BigEndian
import ClpszDemos.ByteMemory
import ClpszDemos.Overlay

/-!
# Redrawing a bitmap file

`main` reads the rows of a bitmap one after another into the same buffer and
sets the pixels of the image from it.  The bytes that it reads for a row are
those of the row when the width is no multiple of 4; otherwise they are 4 more,
and each row begins 4 bytes further behind than the one before.
-/

namespace ClpszDemos

namespace RedrawBmp

open Overlay

/-! ## Files and images -/

/-- The colour with all three parts, without transparency -/
def qRgb (red green blue : UInt8) : UInt32 :=
  (0xff000000 : UInt32) ||| (red.toUInt32 <<< 16) ||| (green.toUInt32 <<< 8) |||
    blue.toUInt32

/-- What the program uses of `QFile` and `QImage`.  Reading yields the value
returned, the bytes read and the file after it. -/
structure Qt where
  QFile : Type
  QImage : Type
  openFile : Block → QFile
  read : QFile → ℤ → ℤ × Block × QFile
  readAll : QFile → Block
  newImage : ℤ → ℤ → QImage
  valid : QImage → ℤ → ℤ → Prop
  setPixel : QImage → ℤ → ℤ → UInt32 → QImage
  pixel : QImage → ℤ → ℤ → UInt32

/-- A file is read up to its end, and setting a valid pixel changes this pixel
alone. -/
structure Qt.Documented (qt : Qt) : Prop where
  readAll_openFile : ∀ contents, qt.readAll (qt.openFile contents) = contents
  read_eq : ∀ file (maxSize : ℕ), ∃ rest,
    qt.read file maxSize =
      ((((qt.readAll file).take maxSize).length : ℤ),
        (qt.readAll file).take maxSize, rest) ∧
    qt.readAll rest = (qt.readAll file).drop maxSize
  valid_setPixel : ∀ image x y color u v,
    qt.valid (qt.setPixel image x y color) u v ↔ qt.valid image u v
  pixel_setPixel : ∀ image x y red green blue u v, qt.valid image x y →
    qt.pixel (qt.setPixel image x y (qRgb red green blue)) u v =
      if u = x ∧ v = y then qRgb red green blue else qt.pixel image u v

/-! ## The program -/

/-- The variables of `main` that are not initialised -/
structure Locals where
  bih : Block
  buf : Block
  length_bih : bih.length = 40
  length_buf : buf.length = 2048

/-- A `qint32` in memory, the lowest byte first -/
def qint32At (block : Block) (offset : ℕ) : Except Trap ℤ := do
  let byte0 ← block.load offset
  let byte1 ← block.load (offset + 1)
  let byte2 ← block.load (offset + 2)
  let byte3 ← block.load (offset + 3)
  return Int.bmod (byte0.toNat + 2 ^ 8 * byte1.toNat + 2 ^ 16 * byte2.toNat +
    2 ^ 24 * byte3.toNat) (2 ^ 32)

section Program

variable (qt : Qt)

/-- `file.read((char *)data, maxSize)` -/
def readInto (file : qt.QFile) (data : Block) (maxSize : ℤ) :
    Except Trap (ℤ × Block × qt.QFile) := do
  let (ret, bytes, file) := qt.read file maxSize
  let data ← data.memcpy 0 bytes bytes.length
  return (ret, data, file)

def drawPixel (height i : ℤ) (buf : Block) (image : qt.QImage) (j : ℕ) :
    Except Trap qt.QImage := do
  let red ← buf.load (j * 3 + 2)
  let green ← buf.load (j * 3 + 1)
  let blue ← buf.load (j * 3)
  return qt.setPixel image j (height - i - 1) (qRgb red green blue)

/-- The rows from one on; `none` after a read error. -/
def drawRows (width height bytesPerLine : ℤ) :
    List ℕ → qt.QFile → Block → qt.QImage → Except Trap (Option qt.QImage)
  | [], _, _, image => .ok (some image)
  | i :: rows, file, buf, image => do
      let (ret, buf, file) ← readInto qt file buf bytesPerLine
      if ret ≤ 0 then return none
      let image ← (List.range width.toNat).foldlM
        (drawPixel qt height i buf) image
      drawRows width height bytesPerLine rows file buf image

def paddingBytes (width : ℤ) : ℤ :=
  let wbytes := width * 3
  wbytes + (4 - wbytes.tmod 4)

/-- The image that `main` shows for a file; `none` after a read error. -/
def main (locals : Locals) (contents : Block) :
    Except Trap (Option qt.QImage) := do
  let file := qt.openFile contents
  let (_, _, file) := qt.read file 2
  let (_, _, file) := qt.read file 12
  let (_, bih, file) ← readInto qt file locals.bih 40
  let width ← qint32At bih 4
  let height ← qint32At bih 8
  drawRows qt width height (paddingBytes width) (List.range height.toNat)
    file locals.buf (qt.newImage width height)

end Program

/-! ## What a bitmap shows -/

/-- The header of a bitmap of this width and height -/
structure Header (width height : ℕ) where
  bytes : Block
  length_bytes : bytes.length = 54
  width_eq : qint32At (bytes.drop 14) 4 = .ok width
  height_eq : qint32At (bytes.drop 14) 8 = .ok height

/-- The bytes of a row, padded up to a multiple of 4 -/
def rowSize (width : ℕ) : ℕ :=
  (3 * width + 3) / 4 * 4

/-- The colour of the blue, the green and the red byte from an offset on -/
def colorAt (byte : ℕ → Option UInt8) (offset : ℕ) : Option UInt32 := do
  let blue ← byte offset
  let green ← byte (offset + 1)
  let red ← byte (offset + 2)
  return qRgb red green blue

/-- All rows are read, and every pixel has the colour of its bytes. -/
def Decodes (qt : Qt) (locals : Locals) (width height : ℕ)
    (contents data : Block) : Prop :=
  ∃ image, main qt locals contents = .ok (some image) ∧
    ∀ i < height, ∀ x < width,
      colorAt (fun k => data[k]?) (i * rowSize width + 3 * x) =
        some (qt.pixel image x (height - i - 1))

/-- A byte of the buffer after row `i` was read.  Where the data ends within
the row, the buffer still has the byte of the row before. -/
def rowByte (data : Block) (stride i k : ℕ) : Option UInt8 :=
  data[i * stride + k]?.or data[(i - 1) * stride + k]?

/-! ## Colours -/

theorem qRgb_toBitVec (red green blue : UInt8) :
    (qRgb red green blue).toBitVec = BigEndian.join32 0xff red.toBitVec
      green.toBitVec blue.toBitVec := rfl

theorem qRgb_inj {red green blue red' green' blue' : UInt8}
    (hcolor : qRgb red green blue = qRgb red' green' blue') :
    red = red' ∧ green = green' ∧ blue = blue' := by
  have hbytes := congrArg (fun color => BigEndian.bytes32 color.toBitVec)
    hcolor
  rw [qRgb_toBitVec, qRgb_toBitVec, BigEndian.bytes32_join32,
    BigEndian.bytes32_join32] at hbytes
  injection hbytes with _ hbytes
  injection hbytes with hred hbytes
  injection hbytes with hgreen hbytes
  injection hbytes with hblue _
  exact ⟨UInt8.toBitVec_inj.mp hred, UInt8.toBitVec_inj.mp hgreen,
    UInt8.toBitVec_inj.mp hblue⟩

theorem colorAt_eq_some_iff {byte : ℕ → Option UInt8} {offset : ℕ}
    {color : UInt32} :
    colorAt byte offset = some color ↔
      ∃ blue green red, byte offset = some blue ∧
        byte (offset + 1) = some green ∧ byte (offset + 2) = some red ∧
        color = qRgb red green blue := by
  unfold colorAt
  cases hblue : byte offset with
  | none => simp
  | some blue =>
      cases hgreen : byte (offset + 1) with
      | none => simp
      | some green =>
          cases hred : byte (offset + 2) with
          | none => simp
          | some red => simp [eq_comm]

/-- Where there is a colour, the same colour means the same bytes. -/
theorem colorAt_eq_iff {byte byte' : ℕ → Option UInt8} {offset offset' : ℕ}
    {color : UInt32} (hcolor : colorAt byte offset = some color) :
    colorAt byte' offset' = some color ↔
      ∀ k < 3, byte' (offset' + k) = byte (offset + k) := by
  obtain ⟨blue, green, red, hblue, hgreen, hred, rfl⟩ :=
    colorAt_eq_some_iff.mp hcolor
  constructor
  · intro hcolor'
    obtain ⟨blue', green', red', hblue', hgreen', hred', hsame⟩ :=
      colorAt_eq_some_iff.mp hcolor'
    obtain ⟨rfl, rfl, rfl⟩ := qRgb_inj hsame
    intro k hk
    match k, hk with
    | 0, _ => exact hblue'.trans hblue.symm
    | 1, _ => exact hgreen'.trans hgreen.symm
    | 2, _ => exact hred'.trans hred.symm
  · intro hbytes
    exact colorAt_eq_some_iff.mpr ⟨blue, green, red,
      (hbytes 0 (by decide)).trans hblue,
      (hbytes 1 (by decide)).trans hgreen,
      (hbytes 2 (by decide)).trans hred, rfl⟩

/-! ## The size of a line -/

/-- The bytes that are read for a row -/
def lineSize (width : ℕ) : ℕ :=
  3 * width + (4 - 3 * width % 4)

theorem paddingBytes_eq (width : ℕ) :
    paddingBytes width = lineSize width := by
  have hmod : ((width : ℤ) * 3).tmod 4 = ((3 * width % 4 : ℕ) : ℤ) := by
    rw [Int.tmod_eq_emod_of_nonneg (by omega)]
    omega
  unfold paddingBytes lineSize
  dsimp only
  rw [hmod]
  omega

theorem lineSize_of_mod {width : ℕ} (hmod : width % 4 ≠ 0) :
    lineSize width = rowSize width := by
  have hcases : width % 4 = 1 ∨ width % 4 = 2 ∨ width % 4 = 3 := by omega
  unfold lineSize rowSize
  rcases hcases with h | h | h
  all_goals omega

theorem lineSize_of_dvd {width : ℕ} (hmod : width % 4 = 0) :
    lineSize width = rowSize width + 4 := by
  unfold lineSize rowSize
  omega

theorem le_rowSize (width : ℕ) : 3 * width ≤ rowSize width := by
  unfold rowSize
  omega

/-- A line fits the buffer when a row does. -/
theorem lineSize_le {width : ℕ} (hrow : rowSize width ≤ 2048) :
    3 * width ≤ lineSize width ∧ lineSize width ≤ 2048 := by
  constructor
  · exact Nat.le_add_right _ _
  · by_cases hmod : width % 4 = 0
    · -- such a row has a multiple of 12 bytes
      obtain ⟨n, rfl⟩ := Nat.dvd_of_mod_eq_zero hmod
      unfold lineSize
      unfold rowSize at hrow
      omega
    · rw [lineSize_of_mod hmod]
      exact hrow

/-! ## Reading and drawing a row -/

section Reading

variable {qt : Qt}

theorem readInto_eq (hqt : qt.Documented) (file : qt.QFile) (data : Block)
    (maxSize : ℕ) (hroom : maxSize ≤ data.length) :
    ∃ rest,
      readInto qt file data maxSize =
        .ok ((((qt.readAll file).take maxSize).length : ℤ),
          overlay data ((qt.readAll file).take maxSize), rest) ∧
      qt.readAll rest = (qt.readAll file).drop maxSize := by
  obtain ⟨rest, hread, hrest⟩ := hqt.read_eq file maxSize
  refine ⟨rest, ?_, hrest⟩
  have hlength : ((qt.readAll file).take maxSize).length ≤ data.length := by
    rw [List.length_take]
    omega
  unfold readInto
  rw [hread]
  dsimp only
  rw [Block.memcpy_eq_ok le_rfl (by omega), List.take_length, List.take_zero,
    List.nil_append, Nat.zero_add]
  rfl

/-- The pixels of a row get the colours of the bytes in the buffer, and those
of the other rows stay. -/
theorem drawPixels_spec (hqt : qt.Documented) {height i : ℤ} {buf : Block}
    (width : ℕ) (hbuf : 3 * width ≤ buf.length) (image : qt.QImage)
    (hvalid : ∀ x < width, qt.valid image x (height - i - 1)) :
    ∃ drawn,
      (List.range width).foldlM (drawPixel qt height i buf) image =
        .ok drawn ∧
      (∀ u v, qt.valid drawn u v ↔ qt.valid image u v) ∧
      (∀ x < width, colorAt (fun k => buf[k]?) (3 * x) =
        some (qt.pixel drawn x (height - i - 1))) ∧
      ∀ u v, v ≠ height - i - 1 → qt.pixel drawn u v = qt.pixel image u v := by
  induction width with
  | zero =>
      refine ⟨image, rfl, fun u v => Iff.rfl, ?_, fun u v _ => rfl⟩
      intro x hx
      omega
  | succ width ih =>
      obtain ⟨drawn, hdrawn, hdrawnValid, hcolors, hothers⟩ := ih (by omega)
        (fun x hx => hvalid x (by omega))
      have hblue : width * 3 < buf.length := by omega
      have hgreen : width * 3 + 1 < buf.length := by omega
      have hred : width * 3 + 2 < buf.length := by omega
      have hlast : qt.valid drawn width (height - i - 1) :=
        (hdrawnValid _ _).mpr (hvalid width (by omega))
      have hpixel := hqt.pixel_setPixel drawn width (height - i - 1)
        buf[width * 3 + 2] buf[width * 3 + 1] buf[width * 3]
      refine ⟨qt.setPixel drawn width (height - i - 1)
        (qRgb buf[width * 3 + 2] buf[width * 3 + 1] buf[width * 3]),
        ?_, ?_, ?_, ?_⟩
      · rw [List.range_succ, List.foldlM_append, hdrawn]
        show (drawPixel qt height i buf drawn width >>= fun image =>
          Except.ok image) = _
        unfold drawPixel
        rw [Block.load_eq_ok hred, Block.load_eq_ok hgreen,
          Block.load_eq_ok hblue]
        rfl
      · intro u v
        rw [hqt.valid_setPixel]
        exact hdrawnValid u v
      · intro x hx
        rw [hpixel _ _ hlast]
        by_cases hnew : x = width
        · rw [if_pos ⟨by rw [hnew], rfl⟩, hnew, colorAt_eq_some_iff]
          rw [Nat.mul_comm 3 width]
          exact ⟨_, _, _, List.getElem?_eq_getElem hblue,
            List.getElem?_eq_getElem hgreen, List.getElem?_eq_getElem hred,
            rfl⟩
        · rw [if_neg (fun hsame => hnew (by exact_mod_cast hsame.1))]
          exact hcolors x (by omega)
      · intro u v hv
        rw [hpixel _ _ hlast, if_neg (fun hsame => hv hsame.2)]
        exact hothers u v hv

/-- The bytes that a read puts into the buffer, and those it leaves -/
theorem getElem?_readRow {data buf : Block} {stride k : ℕ} (i : ℕ)
    (hk : k < stride) :
    (overlay buf ((data.drop (i * stride)).take stride))[k]? =
      data[i * stride + k]?.or buf[k]? := by
  rw [getElem?_overlay, List.getElem?_take_of_lt hk, List.getElem?_drop,
    List.length_take, List.length_drop]
  by_cases hread : i * stride + k < data.length
  · rw [if_pos (by omega), List.getElem?_eq_getElem hread, Option.some_or]
  · rw [if_neg (by omega), List.getElem?_eq_none (not_lt.mp hread),
      Option.none_or]

section Row

variable {width height : ℕ} {data : Block} {stride i : ℕ} {rows : List ℕ}
  {file : qt.QFile} {buf : Block} {image : qt.QImage}

/-- Where the data is at its end, the loop ends with a read error. -/
theorem drawRows_readError (hqt : qt.Documented) (hroom : stride ≤ 2048)
    (hbuf : buf.length = 2048)
    (hfile : qt.readAll file = data.drop (i * stride))
    (hend : data.length ≤ i * stride) :
    drawRows qt width height stride (i :: rows) file buf image =
      .ok none := by
  obtain ⟨rest, hread, _⟩ := readInto_eq hqt file buf stride
    (by omega)
  have hempty : qt.readAll file = [] := by
    rw [hfile, List.drop_eq_nil_of_le hend]
  rw [hempty, List.take_nil] at hread
  unfold drawRows
  rw [hread]
  rfl

/-- Otherwise the row is drawn from the buffer, and the loop goes on. -/
theorem drawRows_row (rows : List ℕ) (hqt : qt.Documented) (hwidth : 1 ≤ width)
    (hline : 3 * width ≤ stride) (hroom : stride ≤ 2048)
    (hbuf : buf.length = 2048)
    (hfile : qt.readAll file = data.drop (i * stride))
    (hvalid : ∀ x < width, qt.valid image x (height - i - 1))
    (hmore : i * stride < data.length) :
    ∃ (rest : qt.QFile) (drawn : qt.QImage) (row : Block),
      drawRows qt width height stride (i :: rows) file buf image =
        drawRows qt width height stride rows rest row drawn ∧
      qt.readAll rest = data.drop ((i + 1) * stride) ∧
      row.length = 2048 ∧
      (∀ k < stride, row[k]? = data[i * stride + k]?.or buf[k]?) ∧
      (∀ u v, qt.valid drawn u v ↔ qt.valid image u v) ∧
      (∀ x < width, colorAt (fun k => row[k]?) (3 * x) =
        some (qt.pixel drawn x (height - i - 1))) ∧
      ∀ u (v : ℤ), v ≠ height - i - 1 →
        qt.pixel drawn u v = qt.pixel image u v := by
  obtain ⟨rest, hread, hrest⟩ := readInto_eq hqt file buf stride
    (by omega)
  rw [hfile] at hread hrest
  have hcount : ((data.drop (i * stride)).take stride).length =
      min stride (data.length - i * stride) := by
    rw [List.length_take, List.length_drop]
  have hlength : (overlay buf ((data.drop (i * stride)).take stride)).length =
      2048 := by
    rw [length_overlay (by omega), hbuf]
  obtain ⟨drawn, hdrawn, hsame, hcolors, hothers⟩ := drawPixels_spec hqt width
    (show 3 * width ≤ (overlay buf _).length by rw [hlength]; omega) image
    hvalid
  refine ⟨rest, drawn, _, ?_, ?_, hlength,
    fun k hk => getElem?_readRow i hk, hsame, hcolors, hothers⟩
  · have hret : ¬ (((data.drop (i * stride)).take stride).length : ℤ) ≤ 0 := by
      omega
    rw [drawRows, hread]
    show (if _ ≤ (0 : ℤ) then _ else _) = _
    rw [if_neg hret]
    show ((List.range width).foldlM (drawPixel qt height i _) image >>= _) = _
    rw [hdrawn]
    rfl
  · rw [hrest, List.drop_drop, Nat.succ_mul]

/-- What the buffer has of a row, when it had the bytes of the row before. -/
theorem rowByte_eq {row : Block} {k : ℕ}
    (hbyte : row[k]? = data[i * stride + k]?.or buf[k]?)
    (hfirst : k < data.length)
    (hbefore : 1 ≤ i → buf[k]? = data[(i - 1) * stride + k]?) :
    rowByte data stride i k = row[k]? := by
  rw [hbyte]
  unfold rowByte
  by_cases hzero : i = 0
  · rw [hzero, Nat.zero_mul, Nat.zero_add, List.getElem?_eq_getElem hfirst,
      Option.some_or, Option.some_or]
  · rw [hbefore (by omega)]

/-- Either some row is behind the end of the data and the loop ends with a
read error, or every row is drawn from the bytes of the buffer at that time. -/
theorem drawRows_spec (hqt : qt.Documented) (hwidth : 1 ≤ width)
    (hline : 3 * width ≤ stride) (hroom : stride ≤ 2048)
    (hfirst : 3 * width ≤ data.length) {n : ℕ} (hrows : i + n = height)
    (hbuf : buf.length = 2048)
    (hfile : qt.readAll file = data.drop (i * stride))
    (hbefore : 1 ≤ i → i * stride < data.length →
      ∀ k < 3 * width, buf[k]? = data[(i - 1) * stride + k]?)
    (hvalid : ∀ r < height, ∀ x < width, qt.valid image x (height - r - 1)) :
    ((∃ r, i ≤ r ∧ r < height ∧ data.length ≤ r * stride) ∧
      drawRows qt width height stride (List.range' i n) file buf image =
        .ok none) ∨
    ((∀ r, i ≤ r → r < height → r * stride < data.length) ∧
      ∃ drawn,
        drawRows qt width height stride (List.range' i n) file buf image =
          .ok (some drawn) ∧
        (∀ r, i ≤ r → r < height → ∀ x < width,
          colorAt (rowByte data stride r) (3 * x) =
            some (qt.pixel drawn x (height - r - 1))) ∧
        ∀ u (v : ℤ), (∀ r, i ≤ r → r < height → v ≠ height - r - 1) →
          qt.pixel drawn u v = qt.pixel image u v) := by
  induction n generalizing i file buf image with
  | zero =>
      right
      refine ⟨fun r hi hr => by omega, image, rfl, fun r hi hr => by omega,
        fun u v _ => rfl⟩
  | succ n ih =>
      rw [List.range'_succ]
      by_cases hend : data.length ≤ i * stride
      · left
        exact ⟨⟨i, le_rfl, by omega, hend⟩,
          drawRows_readError hqt hroom hbuf hfile hend⟩
      · have hmore : i * stride < data.length := not_le.mp hend
        obtain ⟨rest, drawn, row, hrun, hrest, hrow, hbytes, hsame, hcolors,
          hothers⟩ := drawRows_row (List.range' (i + 1) n) hqt hwidth
            hline hroom hbuf hfile (hvalid i (by omega)) hmore
        rw [hrun]
        have hnext := ih (by omega) hrow hrest
          (by
            intro _ hfull k hk
            rw [Nat.succ_mul] at hfull
            have hinside : i * stride + k < data.length := by omega
            rw [hbytes k (by omega), Nat.add_sub_cancel,
              List.getElem?_eq_getElem hinside, Option.some_or])
          (fun r hr x hx => (hsame _ _).mpr (hvalid r hr x hx))
        rcases hnext with ⟨⟨r, hir, hr, hbehind⟩, hnone⟩ |
          ⟨hlater, final, hfinal, hpixels, hframe⟩
        · left
          exact ⟨⟨r, by omega, hr, hbehind⟩, hnone⟩
        · right
          refine ⟨?_, final, hfinal, ?_, ?_⟩
          · intro r hir hr
            by_cases hri : r = i
            · rw [hri]
              exact hmore
            · exact hlater r (by omega) hr
          · intro r hir hr x hx
            by_cases hri : r = i
            · rw [hri, hframe _ _ (by
                intro r' hr' _
                omega)]
              rw [colorAt_eq_iff (hcolors x hx)]
              intro k hk
              exact rowByte_eq (hbytes _ (by omega)) (by omega)
                (fun hi => hbefore hi hmore _ (by omega))
            · exact hpixels r (by omega) hr x hx
          · intro u v hv
            rw [hframe u v (fun r hr hrh => hv r (by omega) hrh)]
            exact hothers u v (hv i le_rfl (by omega))

end Row

end Reading

/-! ## The whole image -/

/-- After the header the rows are read from the data. -/
theorem main_eq {qt : Qt} (hqt : qt.Documented) (locals : Locals)
    {width height : ℕ} (header : Header width height) (data : Block) :
    ∃ file, qt.readAll file = data ∧
      main qt locals (header.bytes ++ data) =
        drawRows qt width height (lineSize width) (List.range height) file
          locals.buf (qt.newImage width height) := by
  have hlength := header.length_bytes
  obtain ⟨magicRest, hmagic, hmagicRest⟩ :=
    hqt.read_eq (qt.openFile (header.bytes ++ data)) 2
  rw [hqt.readAll_openFile] at hmagicRest
  obtain ⟨bhRest, hbh, hbhRest⟩ := hqt.read_eq magicRest 12
  rw [hmagicRest, List.drop_drop] at hbhRest
  obtain ⟨rest, hbih, hrest⟩ := readInto_eq hqt bhRest locals.bih
    40 locals.length_bih.ge
  have hhead : ((header.bytes ++ data).drop 14).take 40 =
      header.bytes.drop 14 := by
    rw [List.drop_append_of_le_length (by omega)]
    exact List.take_left' (by rw [List.length_drop, hlength])
  have hoverlay : overlay locals.bih (header.bytes.drop 14) =
      header.bytes.drop 14 := by
    unfold overlay
    rw [List.length_drop, hlength,
      List.drop_eq_nil_of_le locals.length_bih.le, List.append_nil]
  rw [hbhRest] at hbih hrest
  rw [hhead, hoverlay] at hbih
  rw [List.drop_drop] at hrest
  refine ⟨rest, hrest.trans (List.drop_left' hlength), ?_⟩
  have hmagicFile : (qt.read (qt.openFile (header.bytes ++ data)) 2).2.2 =
      magicRest := congrArg (fun result => result.2.2) hmagic
  have hbhFile : (qt.read magicRest 12).2.2 = bhRest :=
    congrArg (fun result => result.2.2) hbh
  unfold main
  dsimp only
  rw [hmagicFile, hbhFile]
  have hbih' : readInto qt bhRest locals.bih 40 = _ := hbih
  rw [hbih']
  show (qint32At (header.bytes.drop 14) 4 >>= fun width =>
    qint32At (header.bytes.drop 14) 8 >>= fun height => _) = _
  rw [header.width_eq, header.height_eq]
  show drawRows qt width height (paddingBytes width) _ _ _ _ = _
  rw [paddingBytes_eq, Int.toNat_natCast]

/-- Lines that are 4 bytes longer than the rows have the bytes of the rows. -/
def LinesCoincide (width height : ℕ) (data : Block) : Prop :=
  (height - 1) * (rowSize width + 4) < data.length ∧
  ∀ i < height, ∀ k < 3 * width,
    rowByte data (rowSize width + 4) i k = data[i * rowSize width + k]?

/-- The line of a single row begins where the row does. -/
theorem linesCoincide_single (width : ℕ) {data : Block}
    (hdata : 0 < data.length) : LinesCoincide width 1 data := by
  constructor
  · rw [Nat.sub_self, Nat.zero_mul]
    exact hdata
  · intro i hi k _
    have hzero : i = 0 := by omega
    unfold rowByte
    rw [hzero, Nat.zero_sub, Nat.zero_mul, Nat.zero_mul, Nat.zero_add,
      Option.or_self]

section Image

variable {qt : Qt} {width height : ℕ} {data : Block}

/-- The pixels have the colours of the rows exactly when the bytes that they
were drawn from are those of the rows. -/
theorem colors_iff_bytes {drawn : qt.QImage} {stride : ℕ}
    (hpixels : ∀ i < height, ∀ x < width,
      colorAt (rowByte data stride i) (3 * x) =
        some (qt.pixel drawn x (height - i - 1))) :
    (∀ i < height, ∀ x < width,
      colorAt (fun k => data[k]?) (i * rowSize width + 3 * x) =
        some (qt.pixel drawn x (height - i - 1))) ↔
      ∀ i < height, ∀ k < 3 * width,
        rowByte data stride i k = data[i * rowSize width + k]? := by
  constructor
  · intro hcolors i hi k hk
    have hx : k / 3 < width := by omega
    have hbyte := (colorAt_eq_iff (hcolors i hi _ hx)).mp
      (hpixels i hi _ hx) (k % 3) (by omega)
    have hk : 3 * (k / 3) + k % 3 = k := Nat.div_add_mod k 3
    rw [Nat.add_assoc, hk] at hbyte
    exact hbyte
  · intro hbytes i hi x hx
    rw [colorAt_eq_iff (hpixels i hi x hx)]
    intro k hk
    rw [hbytes i hi _ (by omega), Nat.add_assoc]

/-- Every row is read and drawn from the bytes of the row exactly when the
buffer has these. -/
theorem decodes_iff_rowByte (hqt : qt.Documented) (locals : Locals)
    (header : Header width height) (hwidth : 1 ≤ width)
    (hrow : rowSize width ≤ 2048) (hheight : 1 ≤ height)
    (hdata : data.length = height * rowSize width)
    (himage : ∀ i < height, ∀ x < width,
      qt.valid (qt.newImage width height) x (height - i - 1)) :
    Decodes qt locals width height (header.bytes ++ data) data ↔
      (height - 1) * lineSize width < data.length ∧
      ∀ i < height, ∀ k < 3 * width,
        rowByte data (lineSize width) i k = data[i * rowSize width + k]? := by
  have hline := lineSize_le hrow
  have hrowSize := le_rowSize width
  have hfirst : 3 * width ≤ data.length := by
    rw [hdata]
    exact hrowSize.trans (Nat.le_mul_of_pos_left _ hheight)
  obtain ⟨file, hfile, hmain⟩ := main_eq hqt locals header data
  have hspec := drawRows_spec (i := 0) (n := height) hqt hwidth hline.1
    hline.2 hfirst (Nat.zero_add _) locals.length_buf
    (by rw [hfile, Nat.zero_mul, List.drop_zero])
    (fun h => absurd h (by decide)) himage
  rw [← List.range_eq_range'] at hspec
  rcases hspec with ⟨⟨r, _, hr, hbehind⟩, hnone⟩ |
    ⟨hmore, drawn, hdrawn, hpixels, _⟩
  · constructor
    · rintro ⟨image, hsome, _⟩
      rw [hmain, hnone] at hsome
      cases hsome
    · rintro ⟨hlast, _⟩
      have hle : r * lineSize width ≤ (height - 1) * lineSize width :=
        Nat.mul_le_mul_right _ (by omega)
      omega
  · have hdecodes : Decodes qt locals width height (header.bytes ++ data)
        data ↔ ∀ i < height, ∀ x < width,
          colorAt (fun k => data[k]?) (i * rowSize width + 3 * x) =
            some (qt.pixel drawn x (height - i - 1)) := by
      constructor
      · rintro ⟨image, himage, hcolors⟩
        rw [hmain, hdrawn] at himage
        cases himage
        exact hcolors
      · intro hcolors
        exact ⟨drawn, hmain.trans hdrawn, hcolors⟩
    rw [hdecodes, colors_iff_bytes
      (fun i hi x hx => hpixels i (Nat.zero_le _) hi x hx)]
    exact ⟨fun hbytes => ⟨hmore _ (Nat.zero_le _) (by omega), hbytes⟩,
      fun hlines => hlines.2⟩

/-- A bitmap is decoded exactly when its width is no multiple of 4, or its
lines, which are too long then, have the bytes of its rows. -/
theorem decodes_iff (hqt : qt.Documented) (locals : Locals)
    (header : Header width height) (hwidth : 1 ≤ width)
    (hrow : rowSize width ≤ 2048) (hheight : 1 ≤ height)
    (hdata : data.length = height * rowSize width)
    (himage : ∀ i < height, ∀ x < width,
      qt.valid (qt.newImage width height) x (height - i - 1)) :
    Decodes qt locals width height (header.bytes ++ data) data ↔
      width % 4 ≠ 0 ∨ LinesCoincide width height data := by
  rw [decodes_iff_rowByte hqt locals header hwidth hrow hheight hdata himage]
  by_cases hmod : width % 4 = 0
  · rw [lineSize_of_dvd hmod]
    constructor
    · exact Or.inr
    · intro h
      exact h.resolve_left (fun hne => hne hmod)
  · rw [lineSize_of_mod hmod]
    refine iff_of_true ⟨?_, ?_⟩ (Or.inl hmod)
    · have hrowSize := le_rowSize width
      rw [hdata]
      exact Nat.mul_lt_mul_of_pos_right (by omega) (by omega)
    · intro i hi k hk
      have hinside : i * rowSize width + k < data.length := by
        have hnext : (i + 1) * rowSize width ≤ height * rowSize width :=
          Nat.mul_le_mul_right _ hi
        have hrowSize := le_rowSize width
        rw [hdata]
        rw [Nat.succ_mul] at hnext
        omega
      unfold rowByte
      rw [List.getElem?_eq_getElem hinside, Option.some_or]

end Image

/-! ## Two bitmaps -/

structure Picture where
  width : ℤ
  height : ℤ
  color : ℤ → ℤ → UInt32

def Picture.valid (image : Picture) (x y : ℤ) : Prop :=
  0 ≤ x ∧ x < image.width ∧ 0 ≤ y ∧ y < image.height

instance (image : Picture) (x y : ℤ) : Decidable (image.valid x y) :=
  inferInstanceAs (Decidable (_ ∧ _ ∧ _ ∧ _))

def Picture.setPixel (image : Picture) (x y : ℤ) (color : UInt32) : Picture :=
  if image.valid x y then
    ⟨image.width, image.height, fun u v =>
      if u = x ∧ v = y then color else image.color u v⟩
  else image

theorem Picture.setPixel_of_valid {image : Picture} {x y : ℤ}
    (hvalid : image.valid x y) (color : UInt32) :
    image.setPixel x y color = ⟨image.width, image.height, fun u v =>
      if u = x ∧ v = y then color else image.color u v⟩ :=
  if_pos hvalid

theorem Picture.valid_setPixel (image : Picture) (x y : ℤ) (color : UInt32)
    (u v : ℤ) : (image.setPixel x y color).valid u v ↔ image.valid u v := by
  by_cases hvalid : image.valid x y
  · rw [setPixel_of_valid hvalid]
    exact Iff.rfl
  · unfold setPixel
    rw [if_neg hvalid]

/-- Files as what is left of them, and images as the colours of their pixels -/
def plainQt : Qt where
  QFile := Block
  QImage := Picture
  openFile := id
  read file maxSize := ((file.take maxSize.toNat).length,
    file.take maxSize.toNat, file.drop maxSize.toNat)
  readAll := id
  newImage width height := ⟨width, height, fun _ _ => 0xff000000⟩
  valid := Picture.valid
  setPixel := Picture.setPixel
  pixel := Picture.color

theorem plainQt_documented : plainQt.Documented where
  readAll_openFile := fun _ => rfl
  read_eq := fun file maxSize => ⟨file.drop maxSize, rfl, rfl⟩
  valid_setPixel := Picture.valid_setPixel
  pixel_setPixel := by
    intro image x y red green blue u v hvalid
    exact congrArg (fun drawn => Picture.color drawn u v)
      (Picture.setPixel_of_valid hvalid _)

theorem plainQt_valid (width height : ℕ) : ∀ i < height, ∀ x < width,
    plainQt.valid (plainQt.newImage width height) x (height - i - 1) := by
  intro i hi x hx
  show 0 ≤ (x : ℤ) ∧ (x : ℤ) < width ∧ 0 ≤ (height : ℤ) - i - 1 ∧
    (height : ℤ) - i - 1 < height
  omega

def zeroLocals : Locals where
  bih := List.replicate 40 0
  buf := List.replicate 2048 0
  length_bih := List.length_replicate
  length_buf := List.length_replicate

/-- The header of a small bitmap with these sizes -/
def smallHeader (width height fileSize dataSize : UInt8) : Block :=
  [0x42, 0x4d, fileSize, 0, 0, 0, 0, 0, 0, 0, 54, 0, 0, 0,
    40, 0, 0, 0, width, 0, 0, 0, height, 0, 0, 0, 1, 0, 24, 0, 0, 0, 0, 0,
    dataSize, 0, 0, 0, 0, 0, 0, 0, 0, 0, 0, 0, 0, 0, 0, 0, 0, 0, 0, 0]

def twoPixels : Header 1 2 where
  bytes := smallHeader 1 2 62 8
  length_bytes := rfl
  width_eq := by decide
  height_eq := by decide

theorem decodes_iff_twoPixels :
    Decodes plainQt zeroLocals 1 2
      (twoPixels.bytes ++ [10, 20, 30, 0, 40, 50, 60, 0])
      [10, 20, 30, 0, 40, 50, 60, 0] :=
  (decodes_iff plainQt_documented zeroLocals twoPixels le_rfl (by decide)
    (by decide) rfl (plainQt_valid 1 2)).mpr (.inl (by decide))

def square : Header 4 4 where
  bytes := smallHeader 4 4 102 48
  length_bytes := rfl
  width_eq := by decide
  height_eq := by decide

/-- The last row of a square of 4 pixels is not there any more. -/
theorem not_decodes :
    ¬ ∀ (qt : Qt) (locals : Locals) (width height : ℕ)
      (header : Header width height) (data : Block),
      qt.Documented → 1 ≤ width → rowSize width ≤ 2048 → 1 ≤ height →
      data.length = height * rowSize width →
      (∀ i < height, ∀ x < width,
        qt.valid (qt.newImage width height) x (height - i - 1)) →
      Decodes qt locals width height (header.bytes ++ data) data := by
  intro hall
  have hdecodes := hall plainQt zeroLocals 4 4 square (List.replicate 48 0)
    plainQt_documented (by decide) (by decide) (by decide)
    List.length_replicate (plainQt_valid 4 4)
  have hlines := (decodes_iff_rowByte plainQt_documented zeroLocals square
    (by decide) (by decide) (by decide) List.length_replicate
    (plainQt_valid 4 4)).mp hdecodes
  exact absurd hlines.1 (by decide)

end RedrawBmp

end ClpszDemos
