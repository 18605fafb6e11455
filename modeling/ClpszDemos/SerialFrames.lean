import ClpszDemos.SerialCmd

/-!
# Streams of frames

A frame is what `_build_pkt` makes of a packet; the receiver takes a stream
of frames apart again, and answers the commands among them.  A command
`0x00` finds the end of the handler table, whose function is NULL, so the
receiver does not survive it.
-/

namespace ClpszDemos

namespace Serial

/-! ## Frames -/

/-- A packet whose length fits its field. -/
structure Packet where
  cmd : UInt8
  sn : UInt8
  payload : Block
  length_le : payload.length ≤ 249

namespace Packet

def len (packet : Packet) : UInt8 :=
  UInt8.ofNat (6 + packet.payload.length)

def checkSum (packet : Packet) : UInt8 :=
  xorSum (0x40 :: 0x3e :: packet.len :: packet.sn :: packet.cmd ::
    packet.payload)

/-- The bytes of a packet on the line. -/
def frame (packet : Packet) : Block :=
  0x40 :: 0x3e :: packet.len :: packet.checkSum :: packet.sn ::
    packet.cmd :: packet.payload

theorem length_frame (packet : Packet) :
    packet.frame.length = 6 + packet.payload.length := by
  simp [frame]
  omega

theorem toNat_len (packet : Packet) :
    packet.len.toNat = packet.frame.length := by
  have hle := packet.length_le
  rw [length_frame]
  simp only [len, UInt8.toNat_ofNat']
  omega

theorem xorSum_frame (packet : Packet) : xorSum packet.frame = 0 := by
  simp only [frame, checkSum, xorSum_cons]
  generalize xorSum packet.payload = rest
  generalize packet.len = len
  have hswap : ∀ a b c d e f : UInt8,
      a ^^^ (b ^^^ (c ^^^ ((a ^^^ (b ^^^ (c ^^^ (d ^^^ (e ^^^ f))))) ^^^
        (d ^^^ (e ^^^ f))))) =
      (a ^^^ (b ^^^ (c ^^^ (d ^^^ (e ^^^ f))))) ^^^
        (a ^^^ (b ^^^ (c ^^^ (d ^^^ (e ^^^ f))))) := by
    intro a b c d e f
    ac_rfl
  rw [hswap, UInt8.xor_self]

end Packet

/-! ## The checksum and the parser -/

theorem serCalcChecksum_eq {pkt : Block} (hlen : 3 < pkt.length)
    (hfits : pkt[2].toNat ≤ pkt.length) :
    serCalcChecksum pkt =
      .ok (xorSum (pkt.take pkt[2].toNat) ^^^ pkt[3]) := by
  have hload := Block.load_eq_ok (show 2 < pkt.length by omega)
  have hsum := foldlM_load_eq hfits 0
  have hcheck := Block.load_eq_ok hlen
  unfold serCalcChecksum lenOffset checkSumOffset
  rw [hload]
  simp only [bind, Except.bind] at hsum ⊢
  rw [hsum]
  simp [hcheck, pure, Except.pure]

/-- The parser accepts what begins with the two header bytes and has bytes
that cancel out. -/
theorem macParse_eq {pkt : Block} (hlen : 3 < pkt.length)
    (hfits : pkt[2].toNat ≤ pkt.length) :
    macParse pkt = .ok (if [pkt[0], pkt[1]] ≠ macHead then .fmt
      else if xorSum (pkt.take pkt[2].toNat) ≠ 0 then .sum else .ok) := by
  have hfirst := Block.load_eq_ok (show 0 < pkt.length by omega)
  have hsecond := Block.load_eq_ok (show 1 < pkt.length by omega)
  have hcheck := Block.load_eq_ok hlen
  have hsum := serCalcChecksum_eq hlen hfits
  have hcancel : ∀ a b : UInt8, a ^^^ b ≠ b ↔ a ≠ 0 := by
    intro a b
    have hback : a ^^^ b = b → a = 0 := by
      intro hsame
      have hxor := congrArg (· ^^^ b) hsame
      simpa [UInt8.xor_assoc] using hxor
    refine not_congr ⟨hback, fun hzero => ?_⟩
    rw [hzero, UInt8.zero_xor]
  unfold macParse checkSumOffset
  simp only [hfirst, hsecond, hsum, hcheck, bind, Except.bind, pure,
    Except.pure]
  by_cases hhead : [pkt[0], pkt[1]] ≠ macHead
  · simp only [if_pos hhead]
  · simp only [if_neg hhead, hcancel]
    split <;> rfl

theorem macParse_frame (packet : Packet) :
    macParse packet.frame = .ok .ok := by
  have hlength := packet.length_frame
  have hlen : packet.frame[2].toNat = packet.frame.length := packet.toNat_len
  rw [macParse_eq (by omega) hlen.le, hlen, List.take_length,
    packet.xorSum_frame]
  simp [Packet.frame, macHead]

/-- Six bytes of a buffer and the rest of it. -/
theorem Block.eq_header_append {buffer : Block} {n : ℕ}
    (hbuffer : buffer.length = 6 + n) :
    ∃ a b c d e f : UInt8, ∃ rest : Block, rest.length = n ∧
      buffer = a :: b :: c :: d :: e :: f :: rest := by
  match buffer, hbuffer with
  | a :: b :: c :: d :: e :: f :: rest, hlength =>
      refine ⟨a, b, c, d, e, f, rest, ?_, rfl⟩
      simp at hlength
      omega
  | [], hlength | [_], hlength | [_, _], hlength | [_, _, _], hlength
  | [_, _, _, _], hlength | [_, _, _, _, _], hlength =>
      simp at hlength
      omega

/-- The byte in the place of the checksum does not matter. -/
theorem serCalcChecksum_built (packet : Packet) (d : UInt8) :
    serCalcChecksum (0x40 :: 0x3e :: packet.len :: d :: packet.sn ::
      packet.cmd :: packet.payload) = .ok packet.checkSum := by
  have hfull : (0x40 :: 0x3e :: packet.len :: d :: packet.sn ::
      packet.cmd :: packet.payload).length = packet.frame.length := by
    simp [Packet.frame]
  have hfits : packet.len.toNat ≤ (0x40 :: 0x3e :: packet.len :: d ::
      packet.sn :: packet.cmd :: packet.payload).length := by
    rw [hfull]
    exact packet.toNat_len.le
  rw [serCalcChecksum_eq (by simp) hfits]
  simp only [List.getElem_cons_succ, List.getElem_cons_zero,
    packet.toNat_len, ← hfull, List.take_length, Packet.checkSum,
    xorSum_cons]
  generalize xorSum packet.payload = sum
  generalize packet.len = field
  have hswap : ∀ a b c d e f g : UInt8,
      a ^^^ (b ^^^ (c ^^^ (d ^^^ (e ^^^ (f ^^^ g))))) ^^^ d =
        a ^^^ (b ^^^ (c ^^^ (e ^^^ (f ^^^ g)))) ^^^ (d ^^^ d) := by
    intro a b c d e f g
    ac_rfl
  rw [hswap, UInt8.xor_self, UInt8.xor_zero]

/-- The payload replaces all that is behind the header. -/
theorem memcpy_payload {a b c d e f : UInt8} {rest data payload : Block}
    {len : ℕ} (hrest : rest.length = len) (hroom : len ≤ data.length)
    (hpayload : payload = data.take len) :
    Block.memcpy (a :: b :: c :: d :: e :: f :: rest) hdrLen data len =
      .ok (a :: b :: c :: d :: e :: f :: payload) := by
  rw [Block.memcpy_eq_ok hroom (by simp [hdrLen, hrest]; omega)]
  have hdrop : List.drop (hdrLen + len)
      (a :: b :: c :: d :: e :: f :: rest) = [] := by
    apply List.drop_eq_nil_of_le
    simp [hdrLen, hrest]
    omega
  rw [hdrop, hpayload]
  simp [hdrLen]

/-- Whatever is in the buffer before, `_build_pkt` makes a frame of the
payload it is given, or of the one that the buffer holds. -/
theorem buildPkt_eq {cmd sn : UInt8} {buffer : Block}
    {pktData : Option Block} {len : UInt32} (packet : Packet)
    (hcmd : packet.cmd = cmd) (hsn : packet.sn = sn)
    (hlen : packet.payload.length = len.toNat)
    (hbuffer : buffer.length = 6 + len.toNat)
    (hdata : ∀ data, pktData = some data →
      len.toNat ≤ data.length ∧ packet.payload = data.take len.toNat)
    (hnull : pktData = none → packet.payload = buffer.drop 6) :
    buildPkt cmd sn buffer pktData len = .ok packet.frame := by
  subst hcmd hsn
  have hle := packet.length_le
  rcases Block.eq_header_append hbuffer with
    ⟨a, b, c, d, e, f, rest, hrest, hsplit⟩
  have hfield : (6 + len).toUInt8 = packet.len := by
    apply UInt8.toNat_inj.mp
    rw [packet.toNat_len, packet.length_frame, hlen]
    have hsix : (6 : UInt32).toNat = 6 := rfl
    simp only [UInt32.toNat_toUInt8, UInt32.toNat_add, hsix]
    omega
  have hhead : buffer.memcpy 0 macHead 2 =
      .ok (0x40 :: 0x3e :: c :: d :: e :: f :: rest) := by
    rw [Block.memcpy_eq_ok (by simp [macHead]) (by omega), hsplit]
    simp [macHead]
  have hstoreLen : Block.store (0x40 :: 0x3e :: c :: d :: e :: f :: rest)
      lenOffset packet.len =
        .ok (0x40 :: 0x3e :: packet.len :: d :: e :: f :: rest) :=
    Block.store_eq_ok (by simp [lenOffset]) _
  have hstoreSn : Block.store (0x40 :: 0x3e :: packet.len :: d :: e :: f ::
      rest) snOffset packet.sn =
        .ok (0x40 :: 0x3e :: packet.len :: d :: packet.sn :: f :: rest) :=
    Block.store_eq_ok (by simp [snOffset]) _
  have hstoreCmd : Block.store (0x40 :: 0x3e :: packet.len :: d ::
      packet.sn :: f :: rest) cmdOffset packet.cmd =
        .ok (0x40 :: 0x3e :: packet.len :: d :: packet.sn :: packet.cmd ::
          rest) :=
    Block.store_eq_ok (by simp [cmdOffset]) _
  have hsum := serCalcChecksum_built packet d
  have hstoreSum : Block.store (0x40 :: 0x3e :: packet.len :: d ::
      packet.sn :: packet.cmd :: packet.payload) checkSumOffset
        packet.checkSum = .ok packet.frame := by
    rw [Block.store_eq_ok (by simp [checkSumOffset])]
    simp [checkSumOffset, Packet.frame]
  unfold buildPkt
  cases pktData with
  | none =>
      have hkept : rest = packet.payload := by
        have hpayload := hnull rfl
        rw [hsplit] at hpayload
        simp only [List.drop_succ_cons, List.drop_zero] at hpayload
        exact hpayload.symm
      subst hkept
      simp only [hfield, hhead, hstoreLen, hstoreSn, hstoreCmd, bind,
        Except.bind, hsum, hstoreSum]
  | some data =>
      obtain ⟨hroom, hpayload⟩ := hdata data rfl
      simp only [hfield, hhead, hstoreLen, hstoreSn, hstoreCmd, bind,
        Except.bind, memcpy_payload hrest hroom hpayload, hsum, hstoreSum]

/-! ## Answers -/

/-- What the handler of a command answers. -/
def answer (cmd : UInt8) (payload : Block) : Block :=
  if cmd = 0x01 then textBytes "discover"
  else if cmd = 0x02 then [5]
  else if cmd = 0x61 then payload
  else textBytes "notimplement"

theorem length_answer (cmd : UInt8) {payload : Block}
    (hpayload : payload.length ≤ 249) :
    (answer cmd payload).length ≤ 249 := by
  unfold answer
  split
  · decide
  split
  · decide
  split
  · exact hpayload
  · decide

/-- The packet that answers a command. -/
def Packet.reply (packet : Packet) : Packet where
  cmd := replyMask
  sn := packet.sn
  payload := answer packet.cmd packet.payload
  length_le := length_answer packet.cmd packet.length_le

theorem answerWith_some {alloc : Allocator} {heap : Heap}
    (hsome : (alloc heap.length).isSome = true) {room count : ℕ}
    {text : Block} (len : UInt8) (htext : count ≤ text.length)
    (hroom : count ≤ room) :
    ∃ rest : Block, answerWith alloc room len text count heap =
      .ok (.ok, some heap.length,
        heap ++ [some (len :: text.take count ++ rest)]) := by
  rcases Heap.malloc_some hsome (1 + room) with ⟨fresh, hfresh, hmalloc⟩
  have hstore := Block.store_eq_ok (show 0 < fresh.length by omega) len
  have hlength : (fresh.set 0 len).length = 1 + room := by
    rw [List.length_set, hfresh]
  have hcopy := @Block.memcpy_eq_ok (fresh.set 0 len) text 1 count htext
    (by omega)
  have hfirst : (fresh.set 0 len).take 1 = [len] := by
    cases fresh with
    | nil =>
        simp at hfresh
        omega
    | cons byte bytes => simp
  rw [hfirst] at hcopy
  refine ⟨(fresh.set 0 len).drop (1 + count), ?_⟩
  unfold answerWith
  rw [hmalloc]
  simp only [Heap.block_append_self, hstore, hcopy, bind, Except.bind, pure,
    Except.pure, Heap.update_append_self, List.singleton_append]

theorem answerWith_none {alloc : Allocator} {heap : Heap}
    (hnone : alloc heap.length = none) (room : ℕ) (len : UInt8) (text : Block)
    (count : ℕ) :
    answerWith alloc room len text count heap =
      .ok (.nomem, none, heap ++ [none]) := by
  unfold answerWith
  rw [Heap.malloc_none hnone]
  rfl

theorem chooseFun_eq (cmd : UInt8) :
    chooseFun cmd =
      if cmd = 0x00 then .error .nullCall
      else if cmd = 0x01 then .ok serCmdDiscover
      else if cmd = 0x02 then .ok serCmdSend05
      else if cmd = 0x61 then .ok serCmdEchoBack
      else .ok serCmdNotimplement := by
  by_cases hzero : cmd = 0x00
  · subst hzero
    rfl
  by_cases hone : cmd = 0x01
  · subst hone
    rfl
  by_cases htwo : cmd = 0x02
  · subst htwo
    rfl
  by_cases hecho : cmd = 0x61
  · subst hecho
    rfl
  by_cases hnp : cmd = 0x7f
  · subst hnp
    rfl
  · -- No entry is found, and the one of `cmd_np_index` is taken.
    have hfound : findHandler serRcvcmdFuncs cmd = .ok (-1) := by
      simp [findHandler, serRcvcmdFuncs, findHandlerFrom, Ne.symm hone,
        Ne.symm htwo, Ne.symm hecho, Ne.symm hnp, Ne.symm hzero]
    unfold chooseFun
    rw [hfound, if_neg hzero, if_neg hone, if_neg htwo, if_neg hecho]
    rfl

/-- Every handler allocates its answer and returns it. -/
theorem handler_some {alloc : Allocator} {heap : Heap}
    (hsome : (alloc heap.length).isSome = true) {cmd : UInt8} (hcmd : cmd ≠ 0)
    {payload : Block} {len : UInt32} (hlen : len.toNat = payload.length) :
    ∃ (func : CmdFunc) (rest : Block), chooseFun cmd = .ok func ∧
      func alloc payload len heap = .ok (.ok, some heap.length,
        heap ++ [some (UInt8.ofNat (answer cmd payload).length ::
          answer cmd payload ++ rest)]) := by
  rw [chooseFun_eq, if_neg hcmd]
  unfold answer
  split
  · rcases @answerWith_some alloc heap hsome 20 9 (cString "discover") 8
      (by decide) (by decide) with ⟨rest, hrest⟩
    refine ⟨_, 0 :: rest, rfl, ?_⟩
    unfold serCmdDiscover
    rw [hrest]
    rfl
  split
  · rcases @answerWith_some alloc heap hsome 1 1 [5] 1 (by decide)
      (by decide) with ⟨rest, hrest⟩
    exact ⟨_, rest, rfl, hrest⟩
  split
  · rcases @answerWith_some alloc heap hsome len.toNat len.toNat payload
      len.toUInt8 hlen.le le_rfl with ⟨rest, hrest⟩
    refine ⟨_, rest, rfl, ?_⟩
    have hfield : len.toUInt8 = UInt8.ofNat payload.length := by
      rw [← hlen]
      rfl
    unfold serCmdEchoBack
    rw [hrest, hfield, hlen, List.take_length]
  · rcases @answerWith_some alloc heap hsome 20 13 (cString "notimplement") 12
      (by decide) (by decide) with ⟨rest, hrest⟩
    refine ⟨_, 0 :: rest, rfl, ?_⟩
    unfold serCmdNotimplement
    rw [hrest]
    rfl

theorem handler_none {alloc : Allocator} {heap : Heap}
    (hnone : alloc heap.length = none) {cmd : UInt8} (hcmd : cmd ≠ 0)
    (payload : Block) (len : UInt32) :
    ∃ func : CmdFunc, chooseFun cmd = .ok func ∧
      func alloc payload len heap = .ok (.nomem, none, heap ++ [none]) := by
  rw [chooseFun_eq, if_neg hcmd]
  split
  · exact ⟨_, rfl, answerWith_none hnone _ _ _ _⟩
  split
  · exact ⟨_, rfl, answerWith_none hnone _ _ _ _⟩
  split
  · exact ⟨_, rfl, answerWith_none hnone _ _ _ _⟩
  · exact ⟨_, rfl, answerWith_none hnone _ _ _ _⟩

theorem handler_eq {alloc : Allocator} (halloc : alloc.Succeeds)
    {cmd : UInt8} (hcmd : cmd ≠ 0) {payload : Block} {len : UInt32}
    (hlen : len.toNat = payload.length) (heap : Heap) :
    ∃ (func : CmdFunc) (rest : Block), chooseFun cmd = .ok func ∧
      func alloc payload len heap = .ok (.ok, some heap.length,
        heap ++ [some (UInt8.ofNat (answer cmd payload).length ::
          answer cmd payload ++ rest)]) :=
  handler_some (halloc heap.length) hcmd hlen

/-- A reply is written as one frame, with the sequence number of its
request. -/
theorem serCmdReply_some {alloc : Allocator} {m : Machine} {p : ℕ}
    {request : Block} {pktData : Option Block} {cmd : UInt8} {len : UInt32}
    (packet : Packet) (hsome : (alloc m.heap.length).isSome = true)
    (hrequest : m.heap.block (some p) = .ok request)
    (hsn : request.load snOffset = .ok packet.sn) (hcmd : packet.cmd = cmd)
    (hlen : packet.payload.length = len.toNat)
    (hdata : ∀ data, pktData = some data →
      len.toNat ≤ data.length ∧ packet.payload = data.take len.toNat)
    (hnull : pktData = none → packet.payload = []) :
    serCmdReply alloc (some p) cmd pktData len m =
      .ok (.ok, { m with
        heap := m.heap ++ [none]
        written := m.written ++ [packet.frame] }) := by
  have hle := packet.length_le
  have hsize : (6 + len).toNat = 6 + len.toNat := by
    have hsix : (6 : UInt32).toNat = 6 := rfl
    simp only [UInt32.toNat_add, hsix]
    omega
  obtain ⟨fresh, hfresh, hmalloc⟩ := Heap.malloc_some hsome (6 + len).toNat
  have hold := Heap.block_append hrequest [some fresh]
  have hbuild : buildPkt cmd packet.sn fresh pktData len =
      .ok packet.frame := by
    apply buildPkt_eq packet hcmd rfl hlen (hfresh.trans hsize) hdata
    intro hnone
    have hempty := hnull hnone
    rw [hempty, List.length_nil] at hlen
    rw [hempty]
    symm
    apply List.drop_eq_nil_of_le
    omega
  have hfield : packet.frame.load lenOffset = .ok packet.len := rfl
  have hwrite : readBytes packet.frame packet.len.toNat =
      .ok packet.frame := by
    rw [packet.toNat_len, readBytes, if_pos le_rfl, List.take_length]
  unfold serCmdReply
  simp only [hmalloc, hold, hsn, Heap.block_append_self, hbuild,
    Heap.update_append_self, hfield, serHalWrite, UInt8.toNat_toUInt32, hwrite,
    Heap.free_append_self, bind, Except.bind, pure, Except.pure]

theorem replyData_eq {alloc : Allocator} {m : Machine} {pkt : Option ℕ}
    {q : ℕ} {cmd len : UInt8} {bytes : Block}
    (hanswer : m.heap.block (some q) = .ok (len :: bytes)) :
    replyData alloc pkt cmd (some q) m =
      serCmdReply alloc pkt cmd (some bytes) len.toUInt32 m := by
  have hload : Block.load (len :: bytes) 0 = .ok len := rfl
  unfold replyData
  simp only [hanswer, hload, bind, Except.bind, List.drop_succ_cons,
    List.drop_zero]

/-- `ser_cmd_dealcmd` from the call of the handler on. -/
theorem serCmdDealcmd_handled {alloc : Allocator} {m : Machine} {p : ℕ}
    (packet : Packet) (hpkt : m.heap.block (some p) = .ok packet.frame)
    {func : CmdFunc} (hfunc : chooseFun packet.cmd = .ok func) :
    serCmdDealcmd alloc (some p) m = (do
      let (resCode, dataOut, heap) ←
        func alloc packet.payload (packet.len.toUInt32 - 6) m.heap
      let dataOut := if resCode = .ok then dataOut else none
      let (_, m) ← replyData alloc (some p) (resCode.val ||| replyMask)
        dataOut { m with heap := heap }
      let heap ← m.heap.free dataOut
      return (.ok, { m with heap := heap })) := by
  have hfield : packet.frame.load lenOffset = .ok packet.len := rfl
  have hload : packet.frame.load cmdOffset = .ok packet.cmd := rfl
  have hdrop : packet.frame.drop hdrLen = packet.payload := rfl
  have hdump : readBytes packet.frame packet.len.toNat =
      .ok packet.frame := by
    rw [packet.toNat_len, readBytes, if_pos le_rfl, List.take_length]
  unfold serCmdDealcmd
  simp only [hpkt, hfield, hdump, hload, hfunc, hdrop, bind, Except.bind]

theorem Packet.dataLen_eq (packet : Packet) :
    (packet.len.toUInt32 - 6).toNat = packet.payload.length := by
  have hsix : (6 : UInt32).toNat = 6 := rfl
  have hnat := packet.toNat_len
  have hlength := packet.length_frame
  have hle := packet.length_le
  simp only [UInt32.toNat_sub, UInt8.toNat_toUInt32, hsix, hnat, hlength]
  omega

theorem Packet.toNat_answerLen (packet : Packet) :
    (UInt8.ofNat packet.payload.length).toUInt32.toNat =
      packet.payload.length := by
  have hle := packet.length_le
  simp only [UInt8.toNat_toUInt32, UInt8.toNat_ofNat']
  omega

/-- A command other than `0x00` is answered by one frame, and its packet
stays where it is. -/
theorem serCmdDealcmd_eq {alloc : Allocator} (halloc : alloc.Succeeds)
    {m : Machine} {pkt : Option ℕ} (packet : Packet)
    (hcmd : packet.cmd ≠ 0) (hpkt : m.heap.block pkt = .ok packet.frame) :
    serCmdDealcmd alloc pkt m = .ok (.ok, { m with
      heap := m.heap ++ [none, none]
      written := m.written ++ [packet.reply.frame] }) := by
  obtain ⟨p, rfl, _⟩ := Heap.block_eq_ok_iff.mp hpkt
  obtain ⟨func, rest, hchoose, hfunc⟩ :=
    handler_eq halloc hcmd packet.dataLen_eq m.heap
  have hfunc : func alloc packet.payload (packet.len.toUInt32 - 6) m.heap =
      .ok (.ok, some m.heap.length, m.heap ++ [some (UInt8.ofNat
        packet.reply.payload.length :: packet.reply.payload ++ rest)]) :=
    hfunc
  have hsize := packet.reply.toNat_answerLen
  -- The heap while the answer is sent, and when it is freed.
  have hblock := Heap.block_append_self m.heap (UInt8.ofNat
    packet.reply.payload.length :: packet.reply.payload ++ rest)
  have hfree := Heap.free_append (Heap.free_append_self m.heap
    (UInt8.ofNat packet.reply.payload.length :: packet.reply.payload ++
      rest)) [none]
  have hpktStays := Heap.block_append hpkt [some (UInt8.ofNat
    packet.reply.payload.length :: packet.reply.payload ++ rest)]
  have hreply : replyData alloc (some p) (ErrCode.ok.val ||| replyMask)
      (some m.heap.length)
      { m with heap := m.heap ++ [some (UInt8.ofNat
        packet.reply.payload.length :: packet.reply.payload ++ rest)] } =
      .ok (.ok, { m with
        heap := m.heap ++ [some (UInt8.ofNat packet.reply.payload.length ::
          packet.reply.payload ++ rest)] ++ [none]
        written := m.written ++ [packet.reply.frame] }) := by
    rw [replyData_eq hblock]
    apply serCmdReply_some packet.reply (halloc _) hpktStays rfl rfl hsize.symm
    · intro data hdata
      cases hdata
      rw [hsize]
      simp
    · intro hnone
      cases hnone
  rw [serCmdDealcmd_handled packet hpkt hchoose]
  simp only [hfunc, if_true, hreply, hfree, bind, Except.bind, pure,
    Except.pure]
  rw [List.append_assoc]
  rfl

/-- A command `0x00` calls a NULL function. -/
theorem serCmdDealcmd_zero {alloc : Allocator} {m : Machine}
    {pkt : Option ℕ} (packet : Packet) (hcmd : packet.cmd = 0)
    (hpkt : m.heap.block pkt = .ok packet.frame) :
    serCmdDealcmd alloc pkt m = .error .nullCall := by
  rcases Heap.block_eq_ok_iff.mp hpkt with ⟨p, hp, _⟩
  subst hp
  have hfield : packet.frame.load lenOffset = .ok packet.len := rfl
  have hload : packet.frame.load cmdOffset = .ok 0 := by
    rw [← hcmd]
    rfl
  have hdump : readBytes packet.frame packet.len.toNat =
      .ok packet.frame := by
    rw [packet.toNat_len, readBytes, if_pos le_rfl, List.take_length]
  have hchoose : chooseFun 0 = .error .nullCall := rfl
  unfold serCmdDealcmd
  simp only [hpkt, hfield, hdump, hload, hchoose, bind, Except.bind]

/-! ## The receiver -/

theorem serCmdRcv_append (alloc : Allocator) (first second : List UInt8)
    (m : Machine) :
    serCmdRcv alloc (first ++ second) m =
      serCmdRcv alloc first m >>= serCmdRcv alloc second := by
  unfold serCmdRcv
  rw [List.foldlM_append]

/-- The receiver is inside a frame: its first `k` bytes are in the buffer. -/
structure Receiving (frame : Block) (delivered : List Delivery) (k : ℕ)
    (m : Machine) : Prop where
  i : m.i.toNat = k
  pktLen : m.pktLen.toNat = frame.length
  buf : ∃ block, m.heap.block m.buf = .ok block ∧
    block.length = frame.length ∧ block.take k = frame.take k
  delivered : m.delivered = delivered

/-- The receiver works on its own variables and on a block of its own. -/
structure Apart (origin m : Machine) : Prop where
  heap : ∃ block, m.heap = origin.heap ++ [some block]
  buf : m.buf = some origin.heap.length
  repliedPkt : m.repliedPkt = origin.repliedPkt
  replied : m.replied = origin.replied
  written : m.written = origin.written

theorem Apart.block {origin m : Machine} (hapart : Apart origin m)
    {block : Block} (hblock : m.heap.block m.buf = .ok block) :
    m.heap = origin.heap ++ [some block] := by
  obtain ⟨own, hown⟩ := hapart.heap
  rw [hapart.buf, hown, Heap.block_append_self] at hblock
  rw [hown, Except.ok.inj hblock]

theorem take_head (head : Vector UInt8 4) (a b c : UInt8) (hfirst : 0 < 4)
    (hsecond : 1 < 4) (hthird : 2 < 4) :
    (((head.set 0 a hfirst).set 1 b hsecond).set 2 c hthird).toList.take 3 =
      [a, b, c] := by
  rcases head with ⟨⟨bytes⟩, hlength⟩
  match bytes, hlength with
  | [_, _, _, _], _ => rfl

/-- The length byte of a frame allocates its buffer. -/
theorem rcvLen_eq {alloc : Allocator} (halloc : alloc.Succeeds)
    {m : Machine} {frame : Block} {len : UInt8}
    (hlen : len.toNat = frame.length) (hframe : 6 ≤ frame.length)
    (hi : m.i = 2) (hhead : m.head.toList.take 3 = frame.take 3) :
    ∃ next, rcvLen alloc len m = .ok next ∧
      Receiving frame m.delivered 3 next ∧ Apart m next := by
  rcases Heap.malloc_eq halloc m.heap len.toNat with
    ⟨fresh, hfresh, hmalloc⟩
  have hshort : ¬ len.toNat < hdrLen := by
    unfold hdrLen
    omega
  have hcopy : fresh.memcpy 0 m.head.toList 3 =
      .ok (frame.take 3 ++ fresh.drop 3) := by
    rw [Block.memcpy_eq_ok (by simp) (by omega), hhead]
    rfl
  refine ⟨{ m with
    pktLen := len
    heap := m.heap ++ [some (frame.take 3 ++ fresh.drop 3)]
    buf := some m.heap.length
    i := m.i + 1 }, ?_, ?_, ⟨_, rfl⟩, rfl, rfl, rfl, rfl⟩
  · unfold rcvLen
    simp only [if_neg hshort, hmalloc, Heap.block_append_self, hcopy, bind,
      Except.bind, pure, Except.pure, Heap.update_append_self]
  · refine ⟨by rw [hi]; rfl, hlen, ⟨_, Heap.block_append_self _ _, ?_, ?_⟩,
      rfl⟩
    · simp only [List.length_append, List.length_take, List.length_drop]
      omega
    · have hthree : (frame.take 3).length = 3 := by
        rw [List.length_take]
        omega
      rw [List.take_append_of_le_length hthree.ge, List.take_take,
        min_self]

/-- The header of a frame. -/
theorem rcv_header {alloc : Allocator} (halloc : alloc.Succeeds)
    {m : Machine} (hidle : m.i = 0) (packet : Packet) :
    ∃ next, serCmdRcv alloc (packet.frame.take 3) m = .ok next ∧
      Receiving packet.frame m.delivered 3 next ∧ Apart m next := by
  have hlength := packet.length_frame
  rcases m with ⟨heap, head, buf, pktLen, i, repliedPkt, replied, written,
    delivered⟩
  have hi : i = 0 := hidle
  subst hi
  have hthird : serCmdRcv alloc (packet.frame.take 3)
      ⟨heap, head, buf, pktLen, 0, repliedPkt, replied, written,
        delivered⟩ =
      rcvLen alloc packet.len ⟨heap, ((head.set 0 0x40).set 1 0x3e).set 2
        packet.len, buf, pktLen, 2, repliedPkt, replied, written,
        delivered⟩ := by
    change (rcvLen alloc packet.len _ >>= fun next => pure next) = _
    rw [bind_pure]
    rfl
  rw [hthird]
  obtain ⟨next, hnext, hreceiving, hapart⟩ := @rcvLen_eq alloc halloc
    ⟨heap, ((head.set 0 0x40).set 1 0x3e).set 2 packet.len, buf, pktLen, 2,
      repliedPkt, replied, written, delivered⟩ packet.frame packet.len
    packet.toNat_len (by omega) rfl
    (take_head head _ _ _ (by decide) (by decide) (by decide))
  refine ⟨next, hnext, hreceiving, ?_⟩
  exact ⟨hapart.heap, hapart.buf, hapart.repliedPkt, hapart.replied,
    hapart.written⟩

/-- A byte inside a frame goes to the buffer. -/
theorem rcvByte_store {alloc : Allocator} {origin m : Machine} {frame : Block}
    {delivered : List Delivery} {k : ℕ} (hk : 3 ≤ k)
    (hframe : k < frame.length)
    (hm : Receiving frame delivered k m) (hapart : Apart origin m) :
    ∃ stored : Machine, stored.i = m.i ∧ stored.pktLen = m.pktLen ∧
      stored.delivered = delivered ∧ Apart origin stored ∧
      (∃ block, stored.heap.block stored.buf = .ok block ∧
        block.length = frame.length ∧
        block.take (k + 1) = frame.take (k + 1)) ∧
      rcvByte alloc m frame[k] =
        if k + 1 = frame.length then rcvPkt alloc stored
        else .ok { stored with i := m.i + 1 } := by
  rcases hm.buf with ⟨block, hblock, hlength, htake⟩
  have hhead : ¬ m.i ≤ 2 := by
    intro hle
    have hnat : m.i.toNat ≤ 2 := hle
    have hi := hm.i
    omega
  have hlast : ((m.i.toNat : ℤ) = m.pktLen.toNat - 1) ↔
      k + 1 = frame.length := by
    rw [hm.i, hm.pktLen]
    omega
  have hstore : block.store m.i.toNat frame[k] =
      .ok (block.set k frame[k]) := by
    rw [hm.i]
    exact Block.store_eq_ok (by omega) _
  have hstored : Apart origin
      { m with heap := m.heap.update m.buf (block.set k frame[k]) } := by
    have hheap := hapart.block hblock
    constructor
    · refine ⟨block.set k frame[k], ?_⟩
      rw [hheap, hapart.buf]
      exact Heap.update_append_self origin.heap block _
    · exact hapart.buf
    · exact hapart.repliedPkt
    · exact hapart.replied
    · exact hapart.written
  refine ⟨{ m with heap := m.heap.update m.buf (block.set k frame[k]) }, rfl,
    rfl, hm.delivered, hstored, ⟨_, Heap.block_update hblock _, ?_, ?_⟩, ?_⟩
  · rw [List.length_set, hlength]
  · rw [List.take_add_one, List.take_add_one, List.take_set_of_le le_rfl,
      htake, List.getElem?_set_self (by omega),
      List.getElem?_eq_getElem hframe]
  · unfold rcvByte
    simp only [if_neg hhead, hblock, hstore, hlast, bind, Except.bind, pure,
      Except.pure]

/-- The next `n` bytes of a frame. -/
theorem rcv_body {alloc : Allocator} {origin : Machine} {frame : Block}
    {delivered : List Delivery} (n : ℕ) {k : ℕ} {m : Machine}
    (hk : 3 ≤ k) (hn : k + n + 1 = frame.length)
    (hm : Receiving frame delivered k m) (hapart : Apart origin m) :
    ∃ next, serCmdRcv alloc ((frame.drop k).take n) m = .ok next ∧
      Receiving frame delivered (k + n) next ∧ Apart origin next := by
  induction n generalizing k m with
  | zero => exact ⟨m, rfl, hm, hapart⟩
  | succ n ih =>
      have hlt : k < frame.length := by omega
      have hsmall : frame.length < 256 := by
        rw [← hm.pktLen]
        exact m.pktLen.toNat_lt
      obtain ⟨stored, hi, hpktLen, hdelivered, hstored, hbuf, hbyte⟩ :=
        @rcvByte_store alloc origin m frame delivered k hk hlt hm hapart
      rw [if_neg (by omega)] at hbyte
      have hnext : Receiving frame delivered (k + 1)
          { stored with i := m.i + 1 } := by
        refine ⟨?_, ?_, hbuf, hdelivered⟩
        · have hk' := hm.i
          have hone : (1 : UInt8).toNat = 1 := rfl
          simp only [UInt8.toNat_add, hone]
          omega
        · exact (congrArg UInt8.toNat hpktLen).trans hm.pktLen
      have hnextApart : Apart origin { stored with i := m.i + 1 } :=
        ⟨hstored.heap, hstored.buf, hstored.repliedPkt, hstored.replied,
          hstored.written⟩
      obtain ⟨next, hrun, hreceiving, hlast⟩ :=
        ih (by omega) (by omega) hnext hnextApart
      refine ⟨next, ?_, by rwa [show k + (n + 1) = k + 1 + n by omega], hlast⟩
      have hdrop : (frame.drop k).take (n + 1) =
          frame[k] :: (frame.drop (k + 1)).take n := by
        rw [List.drop_eq_getElem_cons hlt, List.take_succ_cons]
      rw [hdrop, ← hrun]
      unfold serCmdRcv
      rw [List.foldlM_cons, hbyte]
      rfl

/-- All bytes of a frame but the last one. -/
theorem rcv_frame_init {alloc : Allocator} (halloc : alloc.Succeeds)
    {m : Machine} (hidle : m.i = 0) (packet : Packet) :
    ∃ last, serCmdRcv alloc
        (packet.frame.take (packet.frame.length - 1)) m = .ok last ∧
      Receiving packet.frame m.delivered (packet.frame.length - 1) last ∧
      Apart m last := by
  have hlength := packet.length_frame
  obtain ⟨begun, hheader, hbegun, hapart⟩ := rcv_header halloc hidle packet
  obtain ⟨last, hbody, hlast, hlastApart⟩ :=
    @rcv_body alloc m packet.frame m.delivered (packet.frame.length - 4) 3 begun
      le_rfl (by omega) hbegun hapart
  have hindex : 3 + (packet.frame.length - 4) =
      packet.frame.length - 1 := by
    omega
  have hsplit : packet.frame.take (packet.frame.length - 1) =
      packet.frame.take 3 ++
        (packet.frame.drop 3).take (packet.frame.length - 4) := by
    rw [← hindex, List.take_add]
  rw [hindex] at hlast
  refine ⟨last, ?_, hlast, hlastApart⟩
  rw [hsplit, serCmdRcv_append, hheader]
  exact hbody

/-! ## Deliveries -/

/-- The packet in memory has this sequence number, command and payload. -/
structure Packet.CarriedBy (packet : Packet) (pkt : Block) : Prop where
  sn : pkt.load snOffset = .ok packet.sn
  cmd : pkt.load cmdOffset = .ok packet.cmd
  payload : pkt.drop hdrLen = packet.payload

theorem Packet.carriedBy_frame (packet : Packet) :
    packet.CarriedBy packet.frame :=
  ⟨rfl, rfl, rfl⟩

/-- The packet arrived: as a reply for the sender, or as a command. -/
def Packet.Arrives (packet : Packet) : Delivery → Prop
  | .tellsend pkt => packet.cmd &&& replyMask ≠ 0 ∧ packet.CarriedBy pkt
  | .dealcmd pkt => packet.cmd &&& replyMask = 0 ∧ packet.CarriedBy pkt

/-- A reply goes to the slot of the sender. -/
theorem rcvPkt_reply {alloc : Allocator} {m : Machine} (packet : Packet)
    (hreply : packet.cmd &&& replyMask ≠ 0)
    (hbuf : m.heap.block m.buf = .ok packet.frame) :
    rcvPkt alloc m = .ok { m with
      delivered := m.delivered ++ [.tellsend packet.frame]
      repliedPkt := m.buf
      replied := 1
      i := 0
      buf := none } := by
  have hparse := macParse_frame packet
  have hload : packet.frame.load cmdOffset = .ok packet.cmd := rfl
  unfold rcvPkt
  simp only [hbuf, hparse, hload, bind, Except.bind, if_pos hreply,
    serHalTellsend, pure, Except.pure]

/-- A command is answered, and its packet is freed. -/
theorem rcvPkt_command {alloc : Allocator} (halloc : alloc.Succeeds)
    {m : Machine} (packet : Packet) (hcmd : packet.cmd ≠ 0)
    (hcommand : ¬ packet.cmd &&& replyMask ≠ 0)
    (hbuf : m.heap.block m.buf = .ok packet.frame) :
    ∃ heap, rcvPkt alloc m = .ok { m with
      delivered := m.delivered ++ [.dealcmd packet.frame]
      heap := heap
      written := m.written ++ [packet.reply.frame]
      i := 0
      buf := none } := by
  have hparse := macParse_frame packet
  have hload : packet.frame.load cmdOffset = .ok packet.cmd := rfl
  have hdeal := @serCmdDealcmd_eq alloc halloc
    { m with delivered := m.delivered ++ [.dealcmd packet.frame] } m.buf
    packet hcmd hbuf
  obtain ⟨heap, hfree⟩ :=
    Heap.free_eq_ok (Heap.block_append hbuf [none, none])
  refine ⟨heap, ?_⟩
  unfold rcvPkt
  simp only [hbuf, hparse, hload, bind, Except.bind, if_neg hcommand, hdeal,
    hfree, pure, Except.pure]

/-- A whole frame is in the buffer: its packet arrives, and the receiver is
idle again. -/
theorem rcvPkt_frame {alloc : Allocator} (halloc : alloc.Succeeds)
    {m : Machine} (packet : Packet) (hcmd : packet.cmd ≠ 0)
    (hbuf : m.heap.block m.buf = .ok packet.frame) :
    ∃ next delivery, rcvPkt alloc m = .ok next ∧ next.i = 0 ∧
      next.delivered = m.delivered ++ [delivery] ∧
      packet.Arrives delivery := by
  by_cases hreply : packet.cmd &&& replyMask ≠ 0
  · exact ⟨_, .tellsend packet.frame, rcvPkt_reply packet hreply hbuf, rfl, rfl,
      hreply, packet.carriedBy_frame⟩
  · obtain ⟨heap, hpkt⟩ := rcvPkt_command halloc packet hcmd hreply hbuf
    exact ⟨_, .dealcmd packet.frame, hpkt, rfl, rfl, not_not.mp hreply,
      packet.carriedBy_frame⟩

theorem rcvPkt_zero {alloc : Allocator} {m : Machine} (packet : Packet)
    (hcmd : packet.cmd = 0)
    (hbuf : m.heap.block m.buf = .ok packet.frame) :
    rcvPkt alloc m = .error .nullCall := by
  have hparse := macParse_frame packet
  have hload : packet.frame.load cmdOffset = .ok 0 := by
    rw [← hcmd]
    rfl
  have hdeal := @serCmdDealcmd_zero alloc
    { m with delivered := m.delivered ++ [.dealcmd packet.frame] } m.buf
    packet hcmd hbuf
  have hmask : ¬ (0 &&& replyMask : UInt8) ≠ 0 := by decide
  unfold rcvPkt
  simp only [hbuf, hparse, hload, bind, Except.bind, if_neg hmask, hdeal]

/-- An idle receiver takes one frame up to its last byte, and then looks at
the packet. -/
theorem rcv_frame {alloc : Allocator} (halloc : alloc.Succeeds)
    {m : Machine} (hidle : m.i = 0) (packet : Packet) :
    ∃ stored : Machine, stored.delivered = m.delivered ∧
      stored.heap.block stored.buf = .ok packet.frame ∧ Apart m stored ∧
      serCmdRcv alloc packet.frame m = rcvPkt alloc stored := by
  have hlength := packet.length_frame
  obtain ⟨last, hinit, hlast, hapart⟩ := rcv_frame_init halloc hidle packet
  have hlt : packet.frame.length - 1 < packet.frame.length := by omega
  obtain ⟨stored, _, _, hdelivered, hstored, ⟨block, hblock, hsize, htake⟩,
    hbyte⟩ := @rcvByte_store alloc m last packet.frame m.delivered _ (by omega)
      hlt hlast hapart
  have hend : packet.frame.length - 1 + 1 = packet.frame.length := by omega
  rw [if_pos hend] at hbyte
  have hsame : block = packet.frame := by
    rw [hend, List.take_length, ← hsize, List.take_length] at htake
    exact htake
  have hfinal : packet.frame.drop (packet.frame.length - 1) =
      [packet.frame[packet.frame.length - 1]] := by
    rw [List.drop_eq_getElem_cons hlt, hend, List.drop_length]
  refine ⟨stored, hdelivered, hsame ▸ hblock, hstored, ?_⟩
  calc
    serCmdRcv alloc packet.frame m =
        serCmdRcv alloc (packet.frame.take (packet.frame.length - 1) ++
          packet.frame.drop (packet.frame.length - 1)) m := by
          rw [List.take_append_drop]
    _ = serCmdRcv alloc [packet.frame[packet.frame.length - 1]] last := by
          rw [serCmdRcv_append, hinit, hfinal]
          rfl
    _ = rcvByte alloc last packet.frame[packet.frame.length - 1] := by
          unfold serCmdRcv
          rw [List.foldlM_cons]
          exact bind_pure _
    _ = rcvPkt alloc stored := hbyte

/-! ## Streams -/

/-- `_build_pkt` makes the frame of the packet in some buffer of its size. -/
def Packet.BuiltAs (packet : Packet) (frame : Block) : Prop :=
  ∃ buffer : Block, buffer.length = hdrLen + packet.payload.length ∧
    buildPkt packet.cmd packet.sn buffer (some packet.payload)
      (UInt32.ofNat packet.payload.length) = .ok frame

theorem Packet.BuiltAs.eq_frame {packet : Packet} {frame : Block}
    (hbuilt : packet.BuiltAs frame) : frame = packet.frame := by
  rcases hbuilt with ⟨buffer, hbuffer, hframe⟩
  have hle := packet.length_le
  have hlen : (UInt32.ofNat packet.payload.length).toNat =
      packet.payload.length := by
    rw [UInt32.toNat_ofNat']
    omega
  have hbuild := @buildPkt_eq packet.cmd packet.sn buffer
    (some packet.payload) (UInt32.ofNat packet.payload.length) packet rfl
    rfl hlen.symm (by rw [hbuffer, hlen]; rfl) (by
      intro data hdata
      cases hdata
      rw [hlen, List.take_length]
      exact ⟨le_rfl, rfl⟩) (by
      intro hnull
      cases hnull)
  rw [hbuild] at hframe
  exact (Except.ok.inj hframe).symm

theorem rcv_frames {alloc : Allocator} (halloc : alloc.Succeeds)
    {packets : List Packet} (hcmd : ∀ packet ∈ packets, packet.cmd ≠ 0)
    {m : Machine} (hidle : m.i = 0) :
    ∃ next added,
      serCmdRcv alloc (packets.map Packet.frame).flatten m = .ok next ∧
      next.delivered = m.delivered ++ added ∧
      List.Forall₂ Packet.Arrives packets added ∧ next.i = 0 := by
  induction packets generalizing m with
  | nil => exact ⟨m, [], rfl, by simp, .nil, hidle⟩
  | cons packet packets ih =>
      rcases rcv_frame halloc hidle packet with
        ⟨stored, hdelivered, hbuf, _, hframe⟩
      rcases rcvPkt_frame halloc packet (hcmd packet (by simp)) hbuf with
        ⟨middle, delivery, hpkt, hmiddle, hadded, harrives⟩
      rcases ih (fun other hother => hcmd other (by simp [hother])) hmiddle
        with ⟨next, added, hrun, hrest, hall, hnext⟩
      refine ⟨next, delivery :: added, ?_, ?_, .cons harrives hall, hnext⟩
      · rw [List.map_cons, List.flatten_cons, serCmdRcv_append, hframe, hpkt]
        exact hrun
      · rw [hrest, hadded, hdelivered, List.append_assoc]
        rfl

/-- The receiver does not outlive a frame with command `0x00`. -/
theorem rcv_frames_zero {alloc : Allocator} (halloc : alloc.Succeeds)
    {packets : List Packet} {m : Machine} (hidle : m.i = 0)
    {next : Machine}
    (hrun : serCmdRcv alloc (packets.map Packet.frame).flatten m =
      .ok next) :
    ∀ packet ∈ packets, packet.cmd ≠ 0 := by
  induction packets generalizing m with
  | nil => simp
  | cons packet packets ih =>
      rw [List.map_cons, List.flatten_cons, serCmdRcv_append] at hrun
      rcases rcv_frame halloc hidle packet with
        ⟨stored, hdelivered, hbuf, _, hframe⟩
      rw [hframe] at hrun
      by_cases hzero : packet.cmd = 0
      · rw [rcvPkt_zero packet hzero hbuf] at hrun
        cases hrun
      · rcases rcvPkt_frame halloc packet hzero hbuf with
          ⟨middle, delivery, hpkt, hmiddle, _⟩
        rw [hpkt] at hrun
        intro other hother
        rcases List.mem_cons.mp hother with hsame | hmem
        · rw [hsame]
          exact hzero
        · exact ih hmiddle hrun other hmem

/-- An idle receiver that is fed the frames of any packets delivers these
packets, each once and in order, and is idle again, if and only if none of
their commands is `0x00`. -/
theorem serCmdRcv_frames {alloc : Allocator} (halloc : alloc.Succeeds)
    {packets : List Packet} {frames : List Block}
    (hbuilt : List.Forall₂ Packet.BuiltAs packets frames)
    {m : Machine} (hidle : m.i = 0) :
    (∃ next added, serCmdRcv alloc frames.flatten m = .ok next ∧
      next.delivered = m.delivered ++ added ∧
      List.Forall₂ Packet.Arrives packets added ∧ next.i = 0) ↔
    ∀ packet ∈ packets, packet.cmd ≠ 0 := by
  have hframes : frames = packets.map Packet.frame := by
    induction hbuilt with
    | nil => rfl
    | cons hframe _ ih => rw [List.map_cons, hframe.eq_frame, ih]
  subst hframes
  constructor
  · rintro ⟨next, _, hrun, _⟩
    exact rcv_frames_zero halloc hidle hrun
  · intro hcmd
    exact rcv_frames halloc hcmd hidle

/-- A machine after its start, and memory whose fresh blocks are zero. -/
def zeroAlloc : Allocator := fun _ => some fun _ => 0

def idleMachine : Machine where
  heap := []
  head := .replicate 4 0
  buf := none
  pktLen := 0
  i := 0
  repliedPkt := none
  replied := 0
  written := []
  delivered := []

/-- An echo of the two header bytes, then a reply. -/
def echoAndReply : List Packet :=
  [⟨0x61, 3, macHead, by decide⟩, ⟨0x81, 4, [5], by decide⟩]

theorem serCmdRcv_frames_echoAndReply :
    ∃ next added, serCmdRcv zeroAlloc
        (echoAndReply.map Packet.frame).flatten idleMachine = .ok next ∧
      next.delivered = added ∧
      List.Forall₂ Packet.Arrives echoAndReply added := by
  have hbuilt : List.Forall₂ Packet.BuiltAs echoAndReply
      (echoAndReply.map Packet.frame) :=
    .cons ⟨List.replicate 8 0, rfl, rfl⟩
      (.cons ⟨List.replicate 7 0, rfl, rfl⟩ .nil)
  have hcmd : ∀ packet ∈ echoAndReply, packet.cmd ≠ 0 := by
    simp [echoAndReply]
  have hframes := serCmdRcv_frames (show zeroAlloc.Succeeds from
    fun _ => rfl) hbuilt (show idleMachine.i = 0 from rfl)
  rcases hframes.mpr hcmd with ⟨next, added, hrun, hadded, hall, _⟩
  exact ⟨next, added, hrun, hadded, hall⟩

/-- The frame of a command `0x00` ends the receiver. -/
theorem not_serCmdRcv_frames :
    ¬ ∀ alloc : Allocator, alloc.Succeeds →
      ∀ (packets : List Packet) (frames : List Block),
        List.Forall₂ Packet.BuiltAs packets frames →
        ∀ m : Machine, m.i = 0 →
          ∃ next added, serCmdRcv alloc frames.flatten m = .ok next ∧
            next.delivered = m.delivered ++ added ∧
            List.Forall₂ Packet.Arrives packets added ∧ next.i = 0 := by
  intro hstream
  have hbuilt : List.Forall₂ Packet.BuiltAs [⟨0x00, 1, [], by decide⟩]
      [[0x40, 0x3e, 0x06, 0x79, 0x01, 0x00]] :=
    .cons ⟨List.replicate 6 0, rfl, rfl⟩ .nil
  rcases hstream zeroAlloc (fun _ => rfl) _ _ hbuilt idleMachine rfl with
    ⟨next, added, hrun, _⟩
  have hcrash : serCmdRcv zeroAlloc
      [0x40, 0x3e, 0x06, 0x79, 0x01, 0x00] idleMachine =
        .error .nullCall := rfl
  cases hrun.symm.trans hcrash

end Serial

end ClpszDemos
