import ClpszDemos.SerialFrames

/-!
# The receiver on arbitrary input

Whatever bytes come in, and whichever allocations fail, the receiver holds the
bytes of one unfinished frame, which are the last bytes of the input: up to
three of them in its header, and from the third on in a buffer of the frame's
own length.  What it hands over are disjoint pieces of the input.
-/

namespace ClpszDemos

namespace Serial

/-! ## What is handed over -/

/-- A block that begins with `@>`, is as long as its third byte says, and whose
bytes cancel out. -/
structure WellFormed (pkt : Block) : Prop where
  head : pkt.take 2 = macHead
  len : pkt[2]?.map UInt8.toNat = some pkt.length
  length_ge : hdrLen ≤ pkt.length
  xorSum_eq : xorSum pkt = 0

def Delivery.pkt : Delivery → Block
  | .tellsend pkt => pkt
  | .dealcmd pkt => pkt

/-- The block that is complete with this byte. -/
def completed (m : Machine) (ch : UInt8) : Option Block :=
  if m.i ≤ 2 then none
  else
    match m.heap.block m.buf with
    | .ok block =>
        if (m.i.toNat : ℤ) = m.pktLen.toNat - 1 then
          some (block.set m.i.toNat ch)
        else none
    | .error _ => none

/-- Where the receiver hands a complete block to, if it accepts it. -/
def handOver (pkt : Block) : List Delivery :=
  match macParse pkt, pkt.load cmdOffset with
  | .ok .ok, .ok cmd =>
      if cmd &&& replyMask ≠ 0 then [.tellsend pkt] else [.dealcmd pkt]
  | _, _ => []

def byteDeliveries (m : Machine) (ch : UInt8) : List Delivery :=
  match completed m ch with
  | some pkt => handOver pkt
  | none => []

/-- What is handed over while these bytes come in, up to the call that ends the
program if there is one. -/
def deliveries (alloc : Allocator) : List UInt8 → Machine → List Delivery
  | [], _ => []
  | ch :: bytes, m =>
      byteDeliveries m ch ++
        match rcvByte alloc m ch with
        | .ok next => deliveries alloc bytes next
        | .error _ => []

/-- Pieces of the input, one behind the other. -/
inductive DisjointPieces : List Block → List UInt8 → Prop
  | nil (gap : List UInt8) : DisjointPieces [] gap
  | snoc {pieces : List Block} {before : List UInt8} (init :
      DisjointPieces pieces before) (piece : Block) (gap : List UInt8) :
      DisjointPieces (pieces ++ [piece]) (before ++ piece ++ gap)

theorem DisjointPieces.append {pieces : List Block} {input : List UInt8}
    (hpieces : DisjointPieces pieces input) (rest : List UInt8) :
    DisjointPieces pieces (input ++ rest) := by
  cases hpieces with
  | nil => exact .nil _
  | snoc init piece gap =>
      rw [List.append_assoc]
      exact .snoc init piece (gap ++ rest)

theorem DisjointPieces.length_le {pieces : List Block} {input : List UInt8}
    (hpieces : DisjointPieces pieces input) {piece : Block}
    (hmem : piece ∈ pieces) : piece.length ≤ input.length := by
  induction hpieces with
  | nil gap => cases hmem
  | snoc init last gap ih =>
      simp only [List.length_append]
      rcases List.mem_append.mp hmem with hold | hlast
      · have hle := ih hold
        omega
      · rw [List.mem_singleton.mp hlast]
        omega

/-! ## Well-formed blocks are frames -/

theorem WellFormed.exists_packet {pkt : Block} (hpkt : WellFormed pkt) :
    ∃ packet : Packet, pkt = packet.frame := by
  have hge := hpkt.length_ge
  have hlength : pkt.length = 6 + (pkt.length - 6) := by
    unfold hdrLen at hge
    omega
  obtain ⟨a, b, c, d, e, f, payload, hpayload, rfl⟩ :=
    Block.eq_header_append hlength
  have hhead : [a, b] = macHead := hpkt.head
  have hlen : c.toNat = payload.length + 6 := by
    have hthird := hpkt.len
    simpa using hthird
  have hle : payload.length ≤ 249 := by
    have hlt := c.toNat_lt
    omega
  have hfield : c = UInt8.ofNat (6 + payload.length) := by
    apply UInt8.toNat_inj.mp
    rw [hlen, UInt8.toNat_ofNat']
    omega
  simp only [macHead, List.cons.injEq, and_true] at hhead
  obtain ⟨rfl, rfl⟩ := hhead
  have hsum := hpkt.xorSum_eq
  simp only [xorSum_cons] at hsum
  refine ⟨⟨f, e, payload, hle⟩, ?_⟩
  have hcheck : d = xorSum (0x40 :: 0x3e :: c :: e :: f :: payload) := by
    have hzero : d ^^^ xorSum (0x40 :: 0x3e :: c :: e :: f :: payload) = 0 := by
      rw [← hsum]
      simp only [xorSum_cons]
      ac_rfl
    exact UInt8.xor_eq_zero_iff.mp hzero
  unfold Packet.frame Packet.checkSum Packet.len
  rw [hcheck, hfield]

theorem Packet.wellFormed_frame (packet : Packet) :
    WellFormed packet.frame where
  head := rfl
  len := by
    show some packet.len.toNat = _
    rw [packet.toNat_len]
  length_ge := by
    rw [packet.length_frame]
    unfold hdrLen
    omega
  xorSum_eq := packet.xorSum_frame

theorem handOver_frame (packet : Packet) :
    handOver packet.frame =
      if packet.cmd &&& replyMask ≠ 0 then [.tellsend packet.frame]
      else [.dealcmd packet.frame] := by
  have hparse := macParse_frame packet
  have hload : packet.frame.load cmdOffset = .ok packet.cmd := rfl
  unfold handOver
  rw [hparse, hload]

/-! ## A command with any allocator -/

/-- A reply frees its packet again; it is written if it could be allocated. -/
theorem serCmdReply_any {alloc : Allocator} {m : Machine} {p : ℕ}
    {request : Block} {pktData : Option Block} {cmd : UInt8} {len : UInt32}
    (packet : Packet) (hrequest : m.heap.block (some p) = .ok request)
    (hsn : request.load snOffset = .ok packet.sn) (hcmd : packet.cmd = cmd)
    (hlen : packet.payload.length = len.toNat)
    (hdata : ∀ data, pktData = some data →
      len.toNat ≤ data.length ∧ packet.payload = data.take len.toNat)
    (hnull : pktData = none → packet.payload = []) :
    ∃ code written, serCmdReply alloc (some p) cmd pktData len m =
      .ok (code, { m with
        heap := m.heap ++ [none]
        written := written }) := by
  cases hfill : alloc m.heap.length with
  | none =>
      refine ⟨.nomem, m.written, ?_⟩
      unfold serCmdReply
      simp only [Heap.malloc_none hfill, pure, Except.pure]
  | some fill =>
      have hsome : (alloc m.heap.length).isSome = true := by rw [hfill]; rfl
      exact ⟨.ok, m.written ++ [packet.frame],
        serCmdReply_some packet hsome hrequest hsn hcmd hlen hdata hnull⟩

theorem serCmdDealcmd_none {alloc : Allocator} {m : Machine} {p : ℕ}
    (packet : Packet) (hcmd : packet.cmd ≠ 0)
    (hpkt : m.heap.block (some p) = .ok packet.frame)
    (hnone : alloc m.heap.length = none) :
    ∃ code written, serCmdDealcmd alloc (some p) m = .ok (code, { m with
      heap := m.heap ++ [none, none]
      written := written }) := by
  obtain ⟨func, hchoose, hfunc⟩ := handler_none hnone hcmd packet.payload
    (packet.len.toUInt32 - 6)
  have hstays : Heap.block (m.heap ++ [none]) (some p) = .ok packet.frame :=
    Heap.block_append hpkt [none]
  obtain ⟨code, written, hreply⟩ := @serCmdReply_any alloc
    { m with heap := m.heap ++ [none] } p packet.frame none _ 0
    ⟨ErrCode.nomem.val ||| replyMask, packet.sn, [], by decide⟩ hstays rfl rfl
    rfl (by
      intro data hdata
      cases hdata) (fun _ => rfl)
  refine ⟨.ok, written, ?_⟩
  have hdata : replyData alloc (some p) (ErrCode.nomem.val ||| replyMask) none
      { m with heap := m.heap ++ [none] } = .ok (code, { m with
        heap := m.heap ++ [none] ++ [none]
        written := written }) := hreply
  rw [serCmdDealcmd_handled packet hpkt hchoose]
  have hcode : ¬ ErrCode.nomem = ErrCode.ok := by decide
  simp only [hfunc, hcode, if_false, hdata, Heap.free, bind, Except.bind,
    pure, Except.pure]
  rw [List.append_assoc]
  rfl

theorem serCmdDealcmd_some {alloc : Allocator} {m : Machine} {p : ℕ}
    (packet : Packet) (hcmd : packet.cmd ≠ 0)
    (hpkt : m.heap.block (some p) = .ok packet.frame)
    (hsome : (alloc m.heap.length).isSome = true) :
    ∃ code written, serCmdDealcmd alloc (some p) m = .ok (code, { m with
      heap := m.heap ++ [none, none]
      written := written }) := by
  obtain ⟨func, rest, hchoose, hfunc⟩ :=
    handler_some hsome hcmd packet.dataLen_eq
  generalize hanswer : UInt8.ofNat (answer packet.cmd packet.payload).length ::
    answer packet.cmd packet.payload ++ rest = block at hfunc
  have hstays : Heap.block (m.heap ++ [some block]) (some p) =
      .ok packet.frame :=
    Heap.block_append hpkt [some block]
  have hsize := packet.reply.toNat_answerLen
  obtain ⟨code, written, hreply⟩ := @serCmdReply_any alloc
    { m with heap := m.heap ++ [some block] } p packet.frame
    (some (packet.reply.payload ++ rest)) _
    (UInt8.ofNat packet.reply.payload.length).toUInt32 packet.reply hstays rfl
    rfl hsize.symm (by
      intro data hdata
      cases hdata
      rw [hsize]
      simp) (by
      intro hnull
      cases hnull)
  refine ⟨.ok, written, ?_⟩
  have hdata : replyData alloc (some p) (ErrCode.ok.val ||| replyMask)
      (some m.heap.length) { m with heap := m.heap ++ [some block] } =
      .ok (code, { m with
        heap := m.heap ++ [some block] ++ [none]
        written := written }) := by
    rw [← hanswer] at hreply ⊢
    rw [replyData_eq (Heap.block_append_self m.heap _)]
    exact hreply
  have hfree := Heap.free_append (Heap.free_append_self m.heap block) [none]
  rw [serCmdDealcmd_handled packet hpkt hchoose]
  simp only [hfunc, if_true, hdata, hfree, bind, Except.bind, pure,
    Except.pure]
  rw [List.append_assoc]
  rfl

/-- A command other than `0x00` leaves two freed blocks behind, whatever was
allocated. -/
theorem serCmdDealcmd_any {alloc : Allocator} {m : Machine} {pkt : Option ℕ}
    (packet : Packet) (hcmd : packet.cmd ≠ 0)
    (hpkt : m.heap.block pkt = .ok packet.frame) :
    ∃ code written, serCmdDealcmd alloc pkt m = .ok (code, { m with
      heap := m.heap ++ [none, none]
      written := written }) := by
  obtain ⟨p, rfl, _⟩ := Heap.block_eq_ok_iff.mp hpkt
  cases hfill : alloc m.heap.length with
  | none => exact serCmdDealcmd_none packet hcmd hpkt hfill
  | some fill =>
      exact serCmdDealcmd_some packet hcmd hpkt (by rw [hfill]; rfl)

/-! ## One byte -/

/-- The bytes are in the buffer, which is as long as the third of them says. -/
structure InBuffer (current : Block) (m : Machine) : Prop where
  len : current[2]? = some m.pktLen
  length_ge : hdrLen ≤ m.pktLen.toNat
  length_lt : current.length < m.pktLen.toNat
  block : ∃ block, m.heap.block m.buf = .ok block ∧
    block.length = m.pktLen.toNat ∧ block.take current.length = current

/-- The receiver holds `current`, the first bytes of a frame. -/
structure Holding (current : Block) (m : Machine) : Prop where
  index : m.i.toNat = current.length
  mac_head : current.take 2 = macHead.take current.length
  head : current.length ≤ 2 → m.head.toList.take current.length = current
  body : 3 ≤ current.length → InBuffer current m

theorem Holding.idle {m : Machine} (hidle : m.i = 0) : Holding [] m where
  index := by rw [hidle]; rfl
  mac_head := rfl
  head := fun _ => rfl
  body := fun hthree => absurd hthree (by decide)

/-- The reply slot of the sender: a reply that is handed over is put there. -/
def SlotAfter (m next : Machine) : List Delivery → Prop
  | [.tellsend pkt] => next.repliedPkt = m.buf ∧ next.replied = 1 ∧
      next.heap.block m.buf = .ok pkt
  | _ => next.repliedPkt = m.repliedPkt ∧ next.replied = m.replied

/-- What a byte leaves alone: the fourth byte of the header, and the blocks
other than the buffer; the log and the slot change with what is handed over. -/
structure Leaves (current : Block) (m next : Machine) (handed : List Delivery) :
    Prop where
  spare : next.head[3] = m.head[3]
  delivered : next.delivered = m.delivered ++ handed
  length_le : m.heap.length ≤ next.heap.length
  block : ∀ pointer block, (3 ≤ current.length → pointer ≠ m.buf) →
    m.heap.block pointer = .ok block → next.heap.block pointer = .ok block
  slot : SlotAfter m next handed

/-- What a byte does to a receiver that holds `current`. -/
inductive ByteStep (m : Machine) (current : Block) (ch : UInt8) :
    Except Trap Machine → Prop
  | dropped {next : Machine} (holds : Holding [] next)
      (leaves : Leaves current m next [])
      (handed : byteDeliveries m ch = []) :
      ByteStep m current ch (.ok next)
  | extended {next : Machine} (holds : Holding (current ++ [ch]) next)
      (leaves : Leaves current m next [])
      (handed : byteDeliveries m ch = [])
      (fresh : current.length = 2 → next.buf = some m.heap.length)
      (stays : 3 ≤ current.length → next.buf = m.buf) :
      ByteStep m current ch (.ok next)
  | packet {next : Machine} {delivery : Delivery}
      (wellFormed : WellFormed (current ++ [ch]))
      (pkt : delivery.pkt = current ++ [ch]) (holds : Holding [] next)
      (leaves : Leaves current m next [delivery])
      (handed : byteDeliveries m ch = [delivery]) :
      ByteStep m current ch (.ok next)
  | crashed {delivery : Delivery} (wellFormed : WellFormed (current ++ [ch]))
      (pkt : delivery.pkt = current ++ [ch])
      (handed : byteDeliveries m ch = [delivery]) :
      ByteStep m current ch (.error .nullCall)

theorem byteDeliveries_header {m : Machine} (hheader : m.i ≤ 2) (ch : UInt8) :
    byteDeliveries m ch = [] := by
  unfold byteDeliveries completed
  rw [if_pos hheader]

theorem index_eq {m : Machine} {current : Block} {n : UInt8}
    (hholding : Holding current m) (hlength : current.length = n.toNat) :
    m.i = n :=
  UInt8.toNat_inj.mp (hholding.index.trans hlength)

theorem rcvByte_first {alloc : Allocator} {m : Machine} (hi : m.i = 0)
    (ch : UInt8) :
    rcvByte alloc m ch = .ok { m with
      head := m.head.set 0 ch
      i := if ch ≠ 0x40 then 0 else 1 } := by
  rcases m with ⟨heap, head, buf, pktLen, i, repliedPkt, replied, written,
    delivered⟩
  have hzero : i = 0 := hi
  subst hzero
  show (if ch ≠ 0x40 then _ else _) = _
  by_cases hch : ch ≠ 0x40
  · rw [if_pos hch, if_pos hch]
    rfl
  · rw [if_neg hch, if_neg hch]
    rfl

theorem rcvByte_second {alloc : Allocator} {m : Machine} (hi : m.i = 1)
    (ch : UInt8) :
    rcvByte alloc m ch = .ok { m with
      head := m.head.set 1 ch
      i := if ch ≠ 0x3e then 0 else 2 } := by
  rcases m with ⟨heap, head, buf, pktLen, i, repliedPkt, replied, written,
    delivered⟩
  have hone : i = 1 := hi
  subst hone
  show (if ch ≠ 0x3e then _ else _) = _
  by_cases hch : ch ≠ 0x3e
  · rw [if_pos hch, if_pos hch]
    rfl
  · rw [if_neg hch, if_neg hch]
    rfl

theorem rcvByte_third {alloc : Allocator} {m : Machine} (hi : m.i = 2)
    (ch : UInt8) :
    rcvByte alloc m ch =
      rcvLen alloc ch { m with head := m.head.set 2 ch } := by
  rcases m with ⟨heap, head, buf, pktLen, i, repliedPkt, replied, written,
    delivered⟩
  have htwo : i = 2 := hi
  subst htwo
  rfl

theorem take_set_append {α : Type} {items : List α} {n : ℕ}
    (hn : n < items.length) (a : α) :
    (items.set n a).take (n + 1) = items.take n ++ [a] := by
  rw [List.take_add_one, List.take_set_of_le le_rfl,
    List.getElem?_set_self hn]
  rfl

theorem take_head_set {head : Vector UInt8 4} {n : ℕ} (hn : n < 4)
    (ch : UInt8) {current : Block}
    (hcurrent : head.toList.take n = current) :
    (head.set n ch).toList.take (n + 1) = current ++ [ch] := by
  have hlength : n < head.toList.length := by simpa using hn
  rw [Vector.toList_set, take_set_append hlength, hcurrent]

theorem spare_head_set {head : Vector UInt8 4} {n : ℕ} (hn : n < 3)
    (ch : UInt8) : (head.set n ch)[3] = head[3] :=
  Vector.getElem_set_ne _ _ (by omega)

/-- A header byte is stored in the header. -/
theorem Leaves.header {current : Block} {m : Machine} {n : ℕ} (hn : n < 3)
    (ch i : UInt8) :
    Leaves current m { m with
      head := m.head.set n ch
      i := i } [] where
  spare := spare_head_set hn ch
  delivered := (List.append_nil _).symm
  length_le := le_rfl
  block := fun _ _ _ hblock => hblock
  slot := ⟨rfl, rfl⟩

/-- The third byte, with whatever its allocation adds to the heap. -/
theorem Leaves.third {current : Block} {m : Machine} (ch pktLen i : UInt8)
    (rest : Heap) (buf : Option ℕ) :
    Leaves current m { m with
      head := m.head.set 2 ch
      pktLen := pktLen
      heap := m.heap ++ rest
      buf := buf
      i := i } [] where
  spare := spare_head_set (by decide) ch
  delivered := (List.append_nil _).symm
  length_le := by
    rw [List.length_append]
    omega
  block := fun _ _ _ hblock => Heap.block_append hblock rest
  slot := ⟨rfl, rfl⟩

/-- A byte is stored in the buffer first. -/
theorem Leaves.stored {current block : Block} {ch : UInt8} {m next : Machine}
    {handed : List Delivery} (hlength : 3 ≤ current.length)
    (hleaves : Leaves (current ++ [ch])
      { m with heap := m.heap.update m.buf block } next handed) :
    Leaves current m next handed where
  spare := hleaves.spare
  delivered := hleaves.delivered
  length_le := by
    rw [← Heap.length_update m.heap m.buf block]
    exact hleaves.length_le
  block := by
    intro pointer other hne hother
    apply hleaves.block pointer other (fun _ => hne hlength)
    rw [← hother]
    exact Heap.block_update_ne (hne hlength) block
  slot := hleaves.slot

theorem byteStep_first {alloc : Allocator} {m : Machine} {current : Block}
    (hholding : Holding current m) (hlength : current.length = 0)
    (ch : UInt8) : ByteStep m current ch (rcvByte alloc m ch) := by
  have hi : m.i = 0 := index_eq hholding hlength
  have hempty : current = [] := List.length_eq_zero_iff.mp hlength
  subst hempty
  have hnone := byteDeliveries_header (show m.i ≤ 2 by rw [hi]; decide) ch
  rw [rcvByte_first hi]
  by_cases hch : ch ≠ 0x40
  · rw [if_pos hch]
    exact .dropped (Holding.idle rfl) (.header (by decide) ch 0) hnone
  · rw [if_neg hch]
    have hat : ch = 0x40 := not_not.mp hch
    subst hat
    have hholds : Holding [0x40] { m with
        head := m.head.set 0 0x40
        i := 1 } := by
      constructor
      · rfl
      · rfl
      · intro _
        exact take_head_set (by decide) 0x40 rfl
      · intro hthree
        exact absurd hthree (by decide)
    exact .extended hholds (.header (by decide) _ _) hnone
      (fun htwo => by cases htwo) (fun hthree => absurd hthree (by decide))

theorem byteStep_second {alloc : Allocator} {m : Machine} {current : Block}
    (hholding : Holding current m) (hlength : current.length = 1)
    (ch : UInt8) : ByteStep m current ch (rcvByte alloc m ch) := by
  have hi : m.i = 1 := index_eq hholding hlength
  have hone : current = [0x40] := by
    have hmac := hholding.mac_head
    rw [hlength, List.take_of_length_le (by omega)] at hmac
    exact hmac
  have hhead : m.head.toList.take 1 = [0x40] := by
    have hhead := hholding.head (by omega)
    rwa [hlength, hone] at hhead
  subst hone
  have hnone := byteDeliveries_header (show m.i ≤ 2 by rw [hi]; decide) ch
  rw [rcvByte_second hi]
  by_cases hch : ch ≠ 0x3e
  · rw [if_pos hch]
    exact .dropped (Holding.idle rfl) (.header (by decide) ch 0) hnone
  · rw [if_neg hch]
    have hgt : ch = 0x3e := not_not.mp hch
    subst hgt
    have hholds : Holding [0x40, 0x3e] { m with
        head := m.head.set 1 0x3e
        i := 2 } := by
      constructor
      · rfl
      · rfl
      · intro _
        exact take_head_set (by decide) 0x3e hhead
      · intro hthree
        exact absurd hthree (by decide)
    exact .extended hholds (.header (by decide) _ _) hnone
      (fun htwo => by cases htwo) (fun hthree => absurd hthree (by decide))

/-- The first three bytes are in a buffer of the length of the frame. -/
theorem holding_third {m : Machine} {ch : UInt8} {fresh : Block}
    (hi : m.i = 2) (hlong : hdrLen ≤ ch.toNat)
    (hfresh : fresh.length = ch.toNat) :
    Holding (macHead ++ [ch]) { m with
      head := m.head.set 2 ch
      pktLen := ch
      heap := m.heap ++ [some (macHead ++ [ch] ++ fresh.drop 3)]
      buf := some m.heap.length
      i := m.i + 1 } := by
  unfold hdrLen at hlong
  constructor
  · show (m.i + 1).toNat = 3
    rw [hi]
    rfl
  · rfl
  · intro hle
    exact absurd hle (show ¬ 3 ≤ 2 by decide)
  · intro _
    constructor
    · rfl
    · show 6 ≤ ch.toNat
      omega
    · show 3 < ch.toNat
      omega
    · refine ⟨_, Heap.block_append_self _ _, ?_, ?_⟩
      · rw [List.length_append, List.length_drop]
        show 3 + (fresh.length - 3) = ch.toNat
        omega
      · exact List.take_left

theorem byteStep_third {alloc : Allocator} {m : Machine} {current : Block}
    (hholding : Holding current m) (hlength : current.length = 2)
    (ch : UInt8) : ByteStep m current ch (rcvByte alloc m ch) := by
  have hi : m.i = 2 := index_eq hholding hlength
  have htwo : current = macHead := by
    have hmac := hholding.mac_head
    rw [hlength, List.take_of_length_le (by omega)] at hmac
    exact hmac
  have hhead : m.head.toList.take 2 = macHead := by
    have hhead := hholding.head (by omega)
    rwa [hlength, htwo] at hhead
  subst htwo
  have hnone := byteDeliveries_header (show m.i ≤ 2 by rw [hi]; decide) ch
  have hthird : (m.head.set 2 ch).toList.take 3 = macHead ++ [ch] :=
    take_head_set (by decide) ch hhead
  rw [rcvByte_third hi]
  unfold rcvLen
  by_cases hshort : ch.toNat < hdrLen
  · simp only [if_pos hshort]
    have hleaves := @Leaves.third macHead m ch ch 0 [] m.buf
    rw [List.append_nil] at hleaves
    exact .dropped (Holding.idle rfl) hleaves hnone
  · simp only [if_neg hshort]
    cases hfill : alloc m.heap.length with
    | none =>
        simp only [Heap.malloc_none hfill]
        exact .dropped (Holding.idle rfl) (.third ch ch 0 [none] none) hnone
    | some fill =>
        have hsome : (alloc m.heap.length).isSome = true := by rw [hfill]; rfl
        obtain ⟨fresh, hfresh, hmalloc⟩ := Heap.malloc_some hsome ch.toNat
        have hroom : 0 + 3 ≤ fresh.length := by
          unfold hdrLen at hshort
          omega
        have hcopy : fresh.memcpy 0 (m.head.set 2 ch).toList 3 =
            .ok (macHead ++ [ch] ++ fresh.drop 3) := by
          rw [Block.memcpy_eq_ok (by simp) hroom, hthird]
          rfl
        simp only [hmalloc, Heap.block_append_self, hcopy, bind, Except.bind,
          pure, Except.pure, Heap.update_append_self]
        have hholds := holding_third hi (not_lt.mp hshort) hfresh
        exact .extended hholds (.third ch ch _ _ _) hnone
          (fun _ => rfl) (fun hthree => absurd hthree (show ¬ 3 ≤ 2 by decide))

/-- A whole frame is in the buffer. -/
theorem rcvPkt_wellFormed {alloc : Allocator} {m : Machine} {pkt : Block}
    (hpkt : WellFormed pkt) (hbuf : m.heap.block m.buf = .ok pkt) :
    ∃ delivery, delivery.pkt = pkt ∧ handOver pkt = [delivery] ∧
      ((∃ next, rcvPkt alloc m = .ok next ∧ next.i = 0 ∧
        Leaves pkt m next [delivery]) ∨
      rcvPkt alloc m = .error .nullCall) := by
  obtain ⟨packet, rfl⟩ := hpkt.exists_packet
  have hparse := macParse_frame packet
  have hload : packet.frame.load cmdOffset = .ok packet.cmd := rfl
  have hthree : 3 ≤ packet.frame.length := by
    have hlength := packet.length_frame
    omega
  have hover := handOver_frame packet
  by_cases hreply : packet.cmd &&& replyMask ≠ 0
  · rw [if_pos hreply] at hover
    refine ⟨.tellsend packet.frame, rfl, hover,
      Or.inl ⟨_, rcvPkt_reply packet hreply hbuf, rfl, ?_⟩⟩
    constructor
    · rfl
    · rfl
    · exact le_rfl
    · intro pointer block _ hblock
      exact hblock
    · exact ⟨rfl, rfl, hbuf⟩
  · rw [if_neg hreply] at hover
    refine ⟨.dealcmd packet.frame, rfl, hover, ?_⟩
    by_cases hzero : packet.cmd = 0
    · exact Or.inr (rcvPkt_zero packet hzero hbuf)
    · obtain ⟨code, written, hdeal⟩ := @serCmdDealcmd_any alloc
        { m with delivered := m.delivered ++ [.dealcmd packet.frame] } m.buf
        packet hzero hbuf
      obtain ⟨heap, hfree⟩ :=
        Heap.free_eq_ok (Heap.block_append hbuf [none, none])
      refine Or.inl ⟨{ m with
        delivered := m.delivered ++ [.dealcmd packet.frame]
        heap := heap
        written := written
        i := 0
        buf := none }, ?_, rfl, ?_⟩
      · unfold rcvPkt
        simp only [hbuf, hparse, hload, bind, Except.bind, if_neg hreply,
          hdeal, hfree, pure, Except.pure]
      · constructor
        · rfl
        · rfl
        · show m.heap.length ≤ heap.length
          rw [Heap.length_free hfree, List.length_append]
          omega
        · intro pointer block hne hblock
          exact (Heap.block_free_ne hfree (hne hthree)).trans
            (Heap.block_append hblock [none, none])
        · exact ⟨rfl, rfl⟩

theorem head_bytes {pkt : Block} (hge : 2 ≤ pkt.length)
    (hhead : pkt.take 2 = macHead) : [pkt[0], pkt[1]] = macHead := by
  match pkt, hge, hhead with
  | _ :: _ :: _, _, hhead => exact hhead

/-- A block of its own length with the right head is well formed, or its
checksum is wrong. -/
theorem macParse_buffer {pkt : Block} (hhead : pkt.take 2 = macHead)
    (hlen : pkt[2]?.map UInt8.toNat = some pkt.length)
    (hge : hdrLen ≤ pkt.length) :
    WellFormed pkt ∨ macParse pkt = .ok .sum := by
  have hsix : 6 ≤ pkt.length := hge
  have hthird : pkt[2].toNat = pkt.length := by
    rw [List.getElem?_eq_getElem (by omega)] at hlen
    simpa using hlen
  have hfirst : [pkt[0], pkt[1]] = macHead := head_bytes (by omega) hhead
  rw [macParse_eq (by omega) hthird.le, hthird, List.take_length,
    if_neg (not_not.mpr hfirst)]
  by_cases hsum : xorSum pkt = 0
  · exact Or.inl ⟨hhead, hlen, hge, hsum⟩
  · rw [if_pos hsum]
    exact Or.inr rfl

theorem rcvPkt_sum {alloc : Allocator} {m : Machine} {pkt : Block}
    (hparse : macParse pkt = .ok .sum) (hthree : 3 ≤ pkt.length)
    (hbuf : m.heap.block m.buf = .ok pkt) :
    ∃ next, rcvPkt alloc m = .ok next ∧ next.i = 0 ∧ Leaves pkt m next [] := by
  obtain ⟨heap, hfree⟩ := Heap.free_eq_ok hbuf
  refine ⟨{ m with heap := heap, i := 0 }, ?_, rfl, ?_⟩
  · unfold rcvPkt
    simp only [hbuf, hparse, hfree, bind, Except.bind, pure, Except.pure]
  · constructor
    · rfl
    · exact (List.append_nil _).symm
    · exact (Heap.length_free hfree).ge
    · intro pointer block hne hblock
      exact (Heap.block_free_ne hfree (hne hthree)).trans hblock
    · exact ⟨rfl, rfl⟩

/-- A byte past the header is stored; behind the last one the block is
parsed. -/
theorem rcvByte_body {alloc : Allocator} {m : Machine} {block : Block}
    (hheader : ¬ m.i ≤ 2) (hblock : m.heap.block m.buf = .ok block)
    (hi : m.i.toNat < block.length) (ch : UInt8) :
    rcvByte alloc m ch =
      if (m.i.toNat : ℤ) = m.pktLen.toNat - 1 then
        rcvPkt alloc { m with
          heap := m.heap.update m.buf (block.set m.i.toNat ch) }
      else .ok { m with
        heap := m.heap.update m.buf (block.set m.i.toNat ch)
        i := m.i + 1 } := by
  have hstore : block.store m.i.toNat ch = .ok (block.set m.i.toNat ch) :=
    Block.store_eq_ok hi ch
  unfold rcvByte
  simp only [if_neg hheader, hblock, hstore, bind, Except.bind, pure,
    Except.pure]

theorem byteDeliveries_body {m : Machine} {block : Block}
    (hheader : ¬ m.i ≤ 2) (hblock : m.heap.block m.buf = .ok block)
    (ch : UInt8) :
    byteDeliveries m ch =
      if (m.i.toNat : ℤ) = m.pktLen.toNat - 1 then
        handOver (block.set m.i.toNat ch)
      else [] := by
  unfold byteDeliveries completed
  rw [if_neg hheader, hblock]
  by_cases hlast : (m.i.toNat : ℤ) = m.pktLen.toNat - 1
  · simp only [if_pos hlast]
  · simp only [if_neg hlast]

theorem take_two_snoc {current : Block} {m : Machine}
    (hholding : Holding current m) (hlength : 3 ≤ current.length)
    (ch : UInt8) : (current ++ [ch]).take 2 = macHead := by
  have hmac := hholding.mac_head
  rw [List.take_append_of_le_length (by omega), hmac]
  exact List.take_of_length_le (by simp [macHead]; omega)

/-- The byte that completes the block. -/
theorem byteStep_last {alloc : Allocator} {m : Machine} {current : Block}
    {ch : UInt8} (hlength : 3 ≤ current.length)
    (hhead : (current ++ [ch]).take 2 = macHead)
    (hlen : (current ++ [ch])[2]?.map UInt8.toNat =
      some (current ++ [ch]).length)
    (hge : hdrLen ≤ (current ++ [ch]).length)
    (hstored : (m.heap.update m.buf (current ++ [ch])).block m.buf =
      .ok (current ++ [ch]))
    (hhanded : byteDeliveries m ch = handOver (current ++ [ch])) :
    ByteStep m current ch (rcvPkt alloc { m with
      heap := m.heap.update m.buf (current ++ [ch]) }) := by
  rcases macParse_buffer hhead hlen hge with hwell | hparse
  · obtain ⟨delivery, hpkt, hover, hpacket⟩ :=
      @rcvPkt_wellFormed alloc { m with
        heap := m.heap.update m.buf (current ++ [ch]) } _ hwell hstored
    rw [hover] at hhanded
    rcases hpacket with ⟨next, hnext, hidle, hleaves⟩ | hcrash
    · rw [hnext]
      exact .packet hwell hpkt (Holding.idle hidle)
        (Leaves.stored hlength hleaves) hhanded
    · rw [hcrash]
      exact .crashed hwell hpkt hhanded
  · have hthree : 3 ≤ (current ++ [ch]).length := by
      rw [List.length_append]
      omega
    obtain ⟨next, hdropped, hidle, hleaves⟩ := @rcvPkt_sum alloc { m with
        heap := m.heap.update m.buf (current ++ [ch]) } _ hparse hthree
        hstored
    have hover : handOver (current ++ [ch]) = [] := by
      unfold handOver
      rw [hparse]
    rw [hdropped]
    exact .dropped (Holding.idle hidle) (Leaves.stored hlength hleaves)
      (hhanded.trans hover)

/-- A byte inside the block. -/
theorem byteStep_inner {m : Machine} {current block : Block} {ch : UInt8}
    (hholding : Holding current m) (hlength : 3 ≤ current.length)
    (hblock : m.heap.block m.buf = .ok block)
    (hsize : block.length = m.pktLen.toNat)
    (htake : (block.set m.i.toNat ch).take (current.length + 1) =
      current ++ [ch])
    (hinner : current.length + 1 < m.pktLen.toNat)
    (hhanded : byteDeliveries m ch = []) :
    ByteStep m current ch (.ok { m with
      heap := m.heap.update m.buf (block.set m.i.toNat ch)
      i := m.i + 1 }) := by
  obtain ⟨hlen, hge, _, _, _, _, _⟩ := hholding.body hlength
  have hstored := Heap.block_update hblock (block.set m.i.toNat ch)
  have hnext : (m.i + 1).toNat = current.length + 1 := by
    have hone : (1 : UInt8).toNat = 1 := rfl
    have hbound := m.pktLen.toNat_lt
    rw [UInt8.toNat_add, hone, hholding.index]
    omega
  have hholds : Holding (current ++ [ch]) { m with
      heap := m.heap.update m.buf (block.set m.i.toNat ch)
      i := m.i + 1 } := by
    constructor
    · rw [List.length_append]
      exact hnext
    · rw [take_two_snoc hholding hlength,
        List.take_of_length_le (by simp [macHead]; omega)]
    · intro hle
      rw [List.length_append] at hle
      omega
    · intro _
      constructor
      · rw [List.getElem?_append_left (by omega), hlen]
      · exact hge
      · rw [List.length_append]
        exact hinner
      · refine ⟨_, hstored, ?_, ?_⟩
        · rw [List.length_set]
          exact hsize
        · rw [List.length_append]
          exact htake
  have hleaves : Leaves current m { m with
      heap := m.heap.update m.buf (block.set m.i.toNat ch)
      i := m.i + 1 } [] := by
    constructor
    · rfl
    · exact (List.append_nil _).symm
    · exact (Heap.length_update m.heap m.buf _).ge
    · intro pointer other hne hother
      exact (Heap.block_update_ne (hne hlength) _).trans hother
    · exact ⟨rfl, rfl⟩
  exact .extended hholds hleaves hhanded (fun htwo => by omega)
    (fun _ => rfl)

theorem byteStep_body {alloc : Allocator} {m : Machine} {current : Block}
    (hholding : Holding current m) (hlength : 3 ≤ current.length)
    (ch : UInt8) : ByteStep m current ch (rcvByte alloc m ch) := by
  obtain ⟨hlen, hge, hlt, block, hblock, hsize, htake⟩ :=
    hholding.body hlength
  have hindex := hholding.index
  have hheader : ¬ m.i ≤ 2 := by
    intro hle
    have hnat : m.i.toNat ≤ 2 := hle
    omega
  have htake' : (block.set m.i.toNat ch).take (current.length + 1) =
      current ++ [ch] := by
    rw [hindex, take_set_append (by omega) ch, htake]
  have hhanded := byteDeliveries_body hheader hblock ch
  rw [rcvByte_body hheader hblock (by omega) ch]
  by_cases hlast : (m.i.toNat : ℤ) = m.pktLen.toNat - 1
  · rw [if_pos hlast] at hhanded ⊢
    have hwhole : block.set m.i.toNat ch = current ++ [ch] := by
      rw [← htake', List.take_of_length_le]
      rw [List.length_set]
      omega
    have hwholeLength : (current ++ [ch]).length = m.pktLen.toNat := by
      rw [← hwhole, List.length_set, hsize]
    have hthird : (current ++ [ch])[2]? = some m.pktLen := by
      rw [List.getElem?_append_left (by omega), hlen]
    have hstored := Heap.block_update hblock (block.set m.i.toNat ch)
    rw [hwhole] at hstored hhanded ⊢
    exact byteStep_last hlength (take_two_snoc hholding hlength ch)
      (by rw [hthird, hwholeLength]; rfl) (by rw [hwholeLength]; exact hge)
      hstored hhanded
  · rw [if_neg hlast] at hhanded ⊢
    exact byteStep_inner hholding hlength hblock hsize htake' (by omega)
      hhanded

/-- The five ways back to the start, a byte more, or a whole packet. -/
theorem byteStep {alloc : Allocator} {m : Machine} {current : Block}
    (hholding : Holding current m) (ch : UInt8) :
    ByteStep m current ch (rcvByte alloc m ch) := by
  by_cases hbody : 3 ≤ current.length
  · exact byteStep_body hholding hbody ch
  · have hheader : current.length = 0 ∨ current.length = 1 ∨
        current.length = 2 := by
      omega
    rcases hheader with hzero | hone | htwo
    · exact byteStep_first hholding hzero ch
    · exact byteStep_second hholding hone ch
    · exact byteStep_third hholding htwo ch

/-! ## Runs -/

theorem serCmdRcv_snoc (alloc : Allocator) (input : List UInt8) (ch : UInt8)
    (m : Machine) :
    serCmdRcv alloc (input ++ [ch]) m =
      (do
        let next ← serCmdRcv alloc input m
        rcvByte alloc next ch) := by
  have hone : serCmdRcv alloc [ch] = fun next => rcvByte alloc next ch := by
    funext next
    exact bind_pure (rcvByte alloc next ch)
  rw [serCmdRcv_append, hone]

theorem deliveries_cons (alloc : Allocator) (ch : UInt8) (bytes : List UInt8)
    (m : Machine) :
    deliveries alloc (ch :: bytes) m = byteDeliveries m ch ++
      match rcvByte alloc m ch with
      | .ok next => deliveries alloc bytes next
      | .error _ => [] :=
  rfl

theorem deliveries_append (alloc : Allocator) (first second : List UInt8)
    (m : Machine) :
    deliveries alloc (first ++ second) m = deliveries alloc first m ++
      match serCmdRcv alloc first m with
      | .ok next => deliveries alloc second next
      | .error _ => [] := by
  induction first generalizing m with
  | nil => rfl
  | cons ch first ih =>
      have hcons : serCmdRcv alloc (ch :: first) m =
          (do
            let next ← rcvByte alloc m ch
            serCmdRcv alloc first next) := rfl
      rw [hcons, List.cons_append, deliveries_cons, deliveries_cons,
        List.append_assoc]
      cases rcvByte alloc m ch with
      | ok next => exact congrArg (byteDeliveries m ch ++ ·) (ih next)
      | error trap => simp [bind, Except.bind]

theorem deliveries_singleton (alloc : Allocator) (ch : UInt8) (m : Machine) :
    deliveries alloc [ch] m = byteDeliveries m ch := by
  rw [deliveries_cons]
  cases rcvByte alloc m ch with
  | ok next => exact List.append_nil _
  | error trap => exact List.append_nil _

theorem deliveries_snoc (alloc : Allocator) (input : List UInt8) (ch : UInt8)
    (m : Machine) :
    deliveries alloc (input ++ [ch]) m = deliveries alloc input m ++
      match serCmdRcv alloc input m with
      | .ok next => byteDeliveries next ch
      | .error _ => [] := by
  rw [deliveries_append]
  cases serCmdRcv alloc input m with
  | ok next => exact congrArg _ (deliveries_singleton alloc ch next)
  | error trap => rfl

/-- A machine that has received `input` since it was `origin`. -/
structure Received (alloc : Allocator) (origin : Machine) (input : List UInt8)
    (m : Machine) : Prop where
  holding : ∃ before current, input = before ++ current ∧ Holding current m ∧
    DisjointPieces ((deliveries alloc input origin).map Delivery.pkt) before
  allocated : 3 ≤ m.i.toNat → ∃ begun,
    serCmdRcv alloc (input.take (input.length - (m.i.toNat - 2))) origin =
      .ok begun ∧ begun.i = 2 ∧ m.buf = some begun.heap.length
  spare : m.head[3] = origin.head[3]
  delivered : m.delivered = origin.delivered ++ deliveries alloc input origin

section Runs

variable {alloc : Allocator} {origin m : Machine} {input : List UInt8}

/-- The buffer of a frame is allocated with its third byte. -/
theorem allocated_snoc {current : Block} {ch : UInt8} {next : Machine}
    (hrun : serCmdRcv alloc input origin = .ok m)
    (hreceived : Received alloc origin input m) (hholding : Holding current m)
    (hnext : Holding (current ++ [ch]) next)
    (hle : current.length ≤ input.length)
    (hfresh : current.length = 2 → next.buf = some m.heap.length)
    (hstays : 3 ≤ current.length → next.buf = m.buf)
    (hthree : 3 ≤ next.i.toNat) :
    ∃ begun, serCmdRcv alloc ((input ++ [ch]).take
        ((input ++ [ch]).length - (next.i.toNat - 2))) origin = .ok begun ∧
      begun.i = 2 ∧ next.buf = some begun.heap.length := by
  have hindex := hholding.index
  have hnextIndex := hnext.index
  rw [List.length_append, List.length_singleton] at hnextIndex ⊢
  by_cases htwo : current.length = 2
  · have htake : (input ++ [ch]).take (input.length + 1 -
        (next.i.toNat - 2)) = input := by
      rw [hnextIndex, htwo]
      exact List.take_left
    rw [htake]
    exact ⟨m, hrun, index_eq hholding htwo, hfresh htwo⟩
  · have hbody : 3 ≤ current.length := by omega
    obtain ⟨begun, hbegun, htwo', hbuf⟩ := hreceived.allocated (by omega)
    have htake : (input ++ [ch]).take (input.length + 1 -
        (next.i.toNat - 2)) = input.take (input.length - (m.i.toNat - 2)) := by
      have hposition : input.length + 1 - (next.i.toNat - 2) =
          input.length - (m.i.toNat - 2) := by
        omega
      rw [hposition, List.take_append_of_le_length (Nat.sub_le _ _)]
    rw [htake, hstays hbody]
    exact ⟨begun, hbegun, htwo', hbuf⟩

theorem received_snoc (hrun : serCmdRcv alloc input origin = .ok m)
    (hreceived : Received alloc origin input m) {ch : UInt8} {next : Machine}
    (hnext : rcvByte alloc m ch = .ok next) :
    Received alloc origin (input ++ [ch]) next := by
  obtain ⟨before, current, hinput, hholding, hpieces⟩ := hreceived.holding
  have hdelivered := hreceived.delivered
  have hdeliveries : deliveries alloc (input ++ [ch]) origin =
      deliveries alloc input origin ++ byteDeliveries m ch := by
    rw [deliveries_snoc, hrun]
  have hstep : ByteStep m current ch (rcvByte alloc m ch) :=
    byteStep hholding ch
  rw [hnext] at hstep
  cases hstep with
  | dropped holds leaves handed =>
      rw [handed, List.append_nil] at hdeliveries
      constructor
      · have hgap := (hpieces.append current).append [ch]
        rw [← hinput] at hgap
        refine ⟨input ++ [ch], [], (List.append_nil _).symm, holds, ?_⟩
        rw [hdeliveries]
        exact hgap
      · intro hthree
        rw [holds.index] at hthree
        exact absurd hthree (by decide)
      · exact leaves.spare.trans hreceived.spare
      · rw [hdeliveries, leaves.delivered, hdelivered, List.append_nil]
  | extended holds leaves handed fresh stays =>
      rw [handed, List.append_nil] at hdeliveries
      have hle : current.length ≤ input.length := by
        rw [hinput, List.length_append]
        omega
      constructor
      · refine ⟨before, current ++ [ch], ?_, holds, ?_⟩
        · rw [hinput, List.append_assoc]
        · rw [hdeliveries]
          exact hpieces
      · exact allocated_snoc hrun hreceived hholding holds hle fresh stays
      · exact leaves.spare.trans hreceived.spare
      · rw [hdeliveries, leaves.delivered, hdelivered, List.append_nil]
  | @packet _ delivery wellFormed pkt holds leaves handed =>
      rw [handed] at hdeliveries
      constructor
      · refine ⟨input ++ [ch], [], (List.append_nil _).symm, holds, ?_⟩
        have hsnoc := DisjointPieces.snoc hpieces (current ++ [ch]) []
        rw [List.append_nil, ← List.append_assoc, ← hinput] at hsnoc
        rw [hdeliveries, List.map_append, List.map_singleton, pkt]
        exact hsnoc
      · intro hthree
        rw [holds.index] at hthree
        exact absurd hthree (by decide)
      · exact leaves.spare.trans hreceived.spare
      · rw [hdeliveries, leaves.delivered, hdelivered, List.append_assoc]

theorem received (hidle : origin.i = 0)
    (hrun : serCmdRcv alloc input origin = .ok m) :
    Received alloc origin input m := by
  induction input using List.reverseRecOn generalizing m with
  | nil =>
      cases hrun
      constructor
      · exact ⟨[], [], rfl, Holding.idle hidle, .nil []⟩
      · intro hthree
        rw [hidle] at hthree
        exact absurd hthree (by decide)
      · rfl
      · exact (List.append_nil _).symm
  | append_singleton input ch ih =>
      rw [serCmdRcv_snoc] at hrun
      cases hfirst : serCmdRcv alloc input origin with
      | error trap =>
          rw [hfirst] at hrun
          cases hrun
      | ok middle =>
          rw [hfirst] at hrun
          exact received_snoc hfirst (ih hfirst) hrun

/-- The only trap is the call of a NULL handler. -/
theorem trap_eq (hidle : origin.i = 0) {trap : Trap}
    (hrun : serCmdRcv alloc input origin = .error trap) :
    trap = .nullCall := by
  induction input using List.reverseRecOn with
  | nil => cases hrun
  | append_singleton input ch ih =>
      rw [serCmdRcv_snoc] at hrun
      cases hfirst : serCmdRcv alloc input origin with
      | error first =>
          rw [hfirst] at hrun ih
          cases hrun
          exact ih rfl
      | ok middle =>
          rw [hfirst] at hrun
          obtain ⟨_, current, _, hholding, _⟩ :=
            (received hidle hfirst).holding
          have hbyte : rcvByte alloc middle ch = .error trap := hrun
          have hstep : ByteStep middle current ch (rcvByte alloc middle ch) :=
            byteStep hholding ch
          rw [hbyte] at hstep
          cases hstep
          rfl

/-- What is handed over up to some byte, and with it. -/
theorem handed_over (hidle : origin.i = 0) :
    DisjointPieces ((deliveries alloc input origin).map Delivery.pkt) input ∧
      ∀ delivery ∈ deliveries alloc input origin, WellFormed delivery.pkt := by
  induction input using List.reverseRecOn with
  | nil => exact ⟨.nil [], fun delivery hmem => absurd hmem List.not_mem_nil⟩
  | append_singleton input ch ih =>
      obtain ⟨hpieces, hwell⟩ := ih
      rw [deliveries_snoc]
      cases hrun : serCmdRcv alloc input origin with
      | error trap =>
          simp only [List.append_nil]
          exact ⟨hpieces.append [ch], hwell⟩
      | ok m =>
          obtain ⟨before, current, hinput, hholding, hbefore⟩ :=
            (received hidle hrun).holding
          have hone : ∀ delivery, WellFormed (current ++ [ch]) →
              delivery.pkt = current ++ [ch] →
              byteDeliveries m ch = [delivery] →
              DisjointPieces ((deliveries alloc input origin ++
                byteDeliveries m ch).map Delivery.pkt) (input ++ [ch]) ∧
              ∀ other ∈ deliveries alloc input origin ++ byteDeliveries m ch,
                WellFormed other.pkt := by
            intro delivery hwhole hpkt hhanded
            have hsnoc := DisjointPieces.snoc hbefore (current ++ [ch]) []
            rw [List.append_nil, ← List.append_assoc, ← hinput] at hsnoc
            rw [hhanded, List.map_append, List.map_singleton, hpkt]
            refine ⟨hsnoc, ?_⟩
            intro other hother
            rcases List.mem_append.mp hother with hold | hnew
            · exact hwell other hold
            · rw [List.mem_singleton.mp hnew, hpkt]
              exact hwhole
          have hnone : byteDeliveries m ch = [] →
              DisjointPieces ((deliveries alloc input origin ++
                byteDeliveries m ch).map Delivery.pkt) (input ++ [ch]) ∧
              ∀ other ∈ deliveries alloc input origin ++ byteDeliveries m ch,
                WellFormed other.pkt := by
            intro hempty
            rw [hempty, List.append_nil]
            exact ⟨hpieces.append [ch], hwell⟩
          have hstep : ByteStep m current ch (rcvByte alloc m ch) :=
            byteStep hholding ch
          generalize rcvByte alloc m ch = result at hstep
          cases hstep with
          | dropped holds leaves handed => exact hnone handed
          | extended holds leaves handed fresh stays => exact hnone handed
          | packet wellFormed pkt holds leaves handed =>
              exact hone _ wellFormed pkt handed
          | crashed wellFormed pkt handed => exact hone _ wellFormed pkt handed

end Runs

/-- The buffer is that of the current frame, which was allocated with the
frame's third byte, and it holds the last bytes of the input. -/
structure BufferSound (alloc : Allocator) (origin : Machine)
    (input : List UInt8) (m : Machine) : Prop where
  length_ge : 6 ≤ m.pktLen.toNat
  index_lt : m.i.toNat < m.pktLen.toNat
  block : ∃ block, m.heap.block m.buf = .ok block ∧
    block.length = m.pktLen.toNat ∧
    block.take m.i.toNat = input.drop (input.length - m.i.toNat)
  allocated : ∃ begun,
    serCmdRcv alloc (input.take (input.length - (m.i.toNat - 2))) origin =
      .ok begun ∧ begun.i = 2 ∧ m.buf = some begun.heap.length

/-- On every input and with every allocator: an idle receiver hands over
disjoint well-formed pieces of the input, in their order; it leaves the fourth
byte of its header alone; a buffer that it uses is sound; and no index is out
of range and no pointer wild, since the only trap is the call of a NULL
handler. -/
theorem serCmdRcv_sound {origin : Machine} (hidle : origin.i = 0)
    (alloc : Allocator) (input : List UInt8) :
    DisjointPieces ((deliveries alloc input origin).map Delivery.pkt) input ∧
    (∀ delivery ∈ deliveries alloc input origin, WellFormed delivery.pkt) ∧
    match serCmdRcv alloc input origin with
    | .ok m =>
        m.delivered = origin.delivered ++ deliveries alloc input origin ∧
          m.head[3] = origin.head[3] ∧
          (3 ≤ m.i.toNat → BufferSound alloc origin input m)
    | .error trap => trap = .nullCall := by
  obtain ⟨hpieces, hwell⟩ := @handed_over alloc origin input hidle
  refine ⟨hpieces, hwell, ?_⟩
  cases hrun : serCmdRcv alloc input origin with
  | error trap => exact trap_eq hidle hrun
  | ok m =>
      have hreceived := received hidle hrun
      refine ⟨hreceived.delivered, hreceived.spare, ?_⟩
      intro hthree
      obtain ⟨before, current, hinput, hholding, _⟩ := hreceived.holding
      have hindex := hholding.index
      obtain ⟨_, hge, hlt, block, hblock, hsize, htake⟩ :=
        hholding.body (by omega)
      have hlast : input.drop (input.length - m.i.toNat) = current := by
        rw [hindex, hinput, List.length_append, Nat.add_sub_cancel]
        exact List.drop_left
      constructor
      · exact hge
      · rw [hindex]
        exact hlt
      · refine ⟨block, hblock, hsize, ?_⟩
        rw [hlast, hindex, htake]
      · exact hreceived.allocated hthree

/-- The first allocation fails. -/
def firstFails : Allocator := fun n => if n = 0 then none else some fun _ => 0

/-- A frame that finds no memory, one that is too short, the command `0x02`,
and half a header. -/
def noisyInput : List UInt8 :=
  [0x40, 0x3e, 0x06] ++ [0x40, 0x3e, 0x05] ++
    Packet.frame ⟨0x02, 7, [], by decide⟩ ++ [0x40]

theorem serCmdRcv_sound_noisyInput :
    DisjointPieces [Packet.frame ⟨0x02, 7, [], by decide⟩] noisyInput := by
  have hsound := serCmdRcv_sound (show idleMachine.i = 0 from rfl) firstFails
    noisyInput
  have hhanded : deliveries firstFails noisyInput idleMachine =
      [.dealcmd (Packet.frame ⟨0x02, 7, [], by decide⟩)] := rfl
  rw [hhanded] at hsound
  exact hsound.1

end Serial

end ClpszDemos
