import ClpszDemos.SerialSend

/-!
# The length of a packet

The length of a payload has 32 bits, and the size of the allocation is summed
up in 32 bits as well, but the length field of a packet has eight.  Both
senders leave this unchecked, so that the packet of a long payload is broken.
-/

namespace ClpszDemos

namespace Serial

/-! ## Whole frames -/

/-- An idle receiver has the packet of this payload in its buffer behind the
last byte of the frame, and accepts it. -/
def HandsOver (frame payload : Block) : Prop :=
  ∀ (alloc : Allocator) (m : Machine), alloc.Succeeds → m.i = 0 →
    ∃ stored pkt, serCmdRcv alloc frame m = rcvPkt alloc stored ∧
      stored.heap.block stored.buf = .ok pkt ∧ macParse pkt = .ok .ok ∧
      pkt.drop hdrLen = payload

/-- A frame that covers the header and the payload, as its length field says. -/
structure WholeFrame (frame payload : Block) : Prop where
  field : ∃ n, frame.load lenOffset = .ok n ∧ n.toNat = frame.length
  length_eq : frame.length = hdrLen + payload.length
  handsOver : HandsOver frame payload

theorem wholeFrame_frame (packet : Packet) :
    WholeFrame packet.frame packet.payload := by
  refine ⟨⟨packet.len, rfl, packet.toNat_len⟩, packet.length_frame, ?_⟩
  intro alloc m halloc hidle
  obtain ⟨stored, _, hbuf, _, hrun⟩ := rcv_frame halloc hidle packet
  exact ⟨stored, packet.frame, hrun, hbuf, macParse_frame packet, rfl⟩

/-- The length field has eight bits. -/
theorem WholeFrame.length_le {frame payload : Block}
    (hwhole : WholeFrame frame payload) : payload.length ≤ 249 := by
  obtain ⟨n, _, hn⟩ := hwhole.field
  have hlength := hwhole.length_eq
  have hlt := n.toNat_lt
  unfold hdrLen at hlength
  omega

/-! ## Requests -/

/-- The size of the allocation does not wrap around, and `ser_cmd_send` returns
an error and writes nothing or writes a whole frame and waits. -/
def SendsWhole (alloc : Allocator) (cmd : UInt8) (payload : Block)
    (len : UInt32) (reply : Bool) (s : Station) : Prop :=
  (6 + len).toNat = hdrLen + len.toNat ∧
    ∃ s', serCmdSend alloc cmd (some payload) len reply s = .ok s' ∧
      ((∃ code, code ≠ ErrCode.ok ∧ s'.returned = s.returned ++ [some code] ∧
          s'.machine.written = s.machine.written ∧ s'.waiting = s.waiting) ∨
        ∃ frame, s'.machine.written = s.machine.written ++ [frame] ∧
          s'.returned = s.returned ∧ WholeFrame frame payload)

theorem size_eq_iff (len : UInt32) :
    (6 + len).toNat = hdrLen + len.toNat ↔ hdrLen + len.toNat < 2 ^ 32 := by
  have hsix : (6 : UInt32).toNat = 6 := rfl
  have hlt := len.toNat_lt
  rw [UInt32.toNat_add, hsix, hdrLen]
  omega

theorem size_lt_of_fits {len : UInt32} {noMemory : Prop}
    (hcondition : len.toNat ≤ 249 ∨
      (noMemory ∧ hdrLen + len.toNat < 2 ^ 32)) :
    hdrLen + len.toNat < 2 ^ 32 := by
  rcases hcondition with hle | ⟨_, hlt⟩
  · unfold hdrLen
    omega
  · exact hlt

/-- A sender that wrote something, and only whole frames. -/
theorem length_le_of_written {before after : List Block}
    {frame payload : Block} (hframe : after = before ++ [frame])
    (hwhole : after ≠ before →
      ∃ other, after = before ++ [other] ∧ WholeFrame other payload) :
    payload.length ≤ 249 := by
  have hne : after ≠ before := by
    intro hsame
    rw [hsame] at hframe
    have hlength := congrArg List.length hframe
    simp at hlength
  obtain ⟨other, _, hother⟩ := hwhole hne
  exact hother.length_le

theorem serCmdSend_none {alloc : Allocator} {s : Station} (cmd : UInt8)
    (pktData : Option Block) (len : UInt32) (reply : Bool)
    (hnone : alloc s.machine.heap.length = none) :
    serCmdSend alloc cmd pktData len reply s = .ok { s with
      machine := { s.machine with heap := s.machine.heap ++ [none] }
      returned := s.returned ++ [some .nomem] } := by
  unfold serCmdSend
  rw [Heap.malloc_none hnone]
  rfl

theorem serHalWrite_written {buf : Block} {len : UInt32} {m m' : Machine}
    (hwrite : serHalWrite buf len m = .ok m') :
    ∃ frame, m'.written = m.written ++ [frame] := by
  unfold serHalWrite at hwrite
  obtain ⟨frame, _, hrest⟩ := except_bind_eq_ok hwrite
  cases hrest
  exact ⟨frame, rfl⟩

/-- A request that finds memory is written. -/
theorem serCmdSend_written {alloc : Allocator} {s s' : Station} {cmd : UInt8}
    {pktData : Option Block} {len : UInt32} {reply : Bool}
    (hsome : (alloc s.machine.heap.length).isSome = true)
    (hsend : serCmdSend alloc cmd pktData len reply s = .ok s') :
    ∃ frame, s'.machine.written = s.machine.written ++ [frame] := by
  obtain ⟨fresh, _, hmalloc⟩ := Heap.malloc_some hsome (6 + len).toNat
  unfold serCmdSend at hsend
  rw [hmalloc] at hsend
  obtain ⟨buffer, _, hsend⟩ := except_bind_eq_ok hsend
  obtain ⟨pkt, _, hsend⟩ := except_bind_eq_ok hsend
  obtain ⟨machine, hwrite, hsend⟩ := except_bind_eq_ok hsend
  obtain ⟨sn, _, hsend⟩ := except_bind_eq_ok hsend
  cases hsend
  obtain ⟨frame, hframe⟩ := serHalWrite_written hwrite
  exact ⟨frame, hframe⟩

theorem sendsWhole_iff {alloc : Allocator} {cmd : UInt8} {payload : Block}
    {len : UInt32} {reply : Bool} {s : Station}
    (hpayload : payload.length = len.toNat) :
    SendsWhole alloc cmd payload len reply s ↔
      len.toNat ≤ 249 ∨ (alloc s.machine.heap.length = none ∧
        hdrLen + len.toNat < 2 ^ 32) := by
  constructor
  · rintro ⟨hsize, s', hsend, hwritten⟩
    by_cases hnone : alloc s.machine.heap.length = none
    · right
      exact ⟨hnone, (size_eq_iff len).mp hsize⟩
    · left
      have hsome := Option.isSome_iff_ne_none.mpr hnone
      obtain ⟨frame, hframe⟩ := serCmdSend_written hsome hsend
      rw [← hpayload]
      apply length_le_of_written hframe
      intro hne
      rcases hwritten with ⟨_, _, _, hsame, _⟩ | ⟨other, hother, _, hwhole⟩
      · exact absurd hsame hne
      · exact ⟨other, hother, hwhole⟩
  · intro hcondition
    refine ⟨(size_eq_iff len).mpr (size_lt_of_fits hcondition), ?_⟩
    by_cases hnone : alloc s.machine.heap.length = none
    · refine ⟨_, serCmdSend_none cmd _ len reply hnone, Or.inl ⟨.nomem, ?_⟩⟩
      exact ⟨by decide, rfl, rfl, rfl⟩
    · have hle : payload.length ≤ 249 := by
        rw [hpayload]
        exact hcondition.resolve_right fun h => hnone h.1
      have hsome := Option.isSome_iff_ne_none.mpr hnone
      have hsend := serCmdSend_some ⟨cmd, s.sendSn, payload, hle⟩ hsome rfl rfl
        hpayload (List.prefix_refl payload) reply
      exact ⟨_, hsend, Or.inr ⟨_, rfl, rfl, wholeFrame_frame _⟩⟩

/-! ## Replies -/

/-- `ser_cmd_reply` returns an error and writes nothing or writes a whole
frame, and the size of an allocation does not wrap around. -/
def RepliesWhole (alloc : Allocator) (pkt : Option ℕ) (cmd : UInt8)
    (payload : Block) (len : UInt32) (m : Machine) : Prop :=
  (pkt ≠ none → (6 + len).toNat = hdrLen + len.toNat) ∧
    ∃ code m', serCmdReply alloc pkt cmd (some payload) len m =
        .ok (code, m') ∧
      ((code ≠ .ok ∧ m'.written = m.written) ∨
        ∃ frame, m'.written = m.written ++ [frame] ∧ WholeFrame frame payload)

/-- A pointer to a request is null or points to a packet. -/
def RequestAt (pkt : Option ℕ) (m : Machine) : Prop :=
  ∀ p, pkt = some p → ∃ request sn, m.heap.block (some p) = .ok request ∧
    request.load snOffset = .ok sn

theorem serCmdReply_none {alloc : Allocator} {m : Machine} (p : ℕ) (cmd : UInt8)
    (pktData : Option Block) (len : UInt32)
    (hnone : alloc m.heap.length = none) :
    serCmdReply alloc (some p) cmd pktData len m =
      .ok (.nomem, { m with heap := m.heap ++ [none] }) := by
  unfold serCmdReply
  dsimp only
  rw [Heap.malloc_none hnone]
  rfl

/-- A reply that finds memory is written. -/
theorem serCmdReply_written {alloc : Allocator} {m m' : Machine} {p : ℕ}
    {cmd : UInt8} {pktData : Option Block} {len : UInt32} {code : ErrCode}
    (hsome : (alloc m.heap.length).isSome = true)
    (hreply : serCmdReply alloc (some p) cmd pktData len m = .ok (code, m')) :
    ∃ frame, m'.written = m.written ++ [frame] := by
  obtain ⟨fresh, _, hmalloc⟩ := Heap.malloc_some hsome (6 + len).toNat
  unfold serCmdReply at hreply
  dsimp only at hreply
  rw [hmalloc] at hreply
  obtain ⟨request, _, hreply⟩ := except_bind_eq_ok hreply
  obtain ⟨sn, _, hreply⟩ := except_bind_eq_ok hreply
  obtain ⟨buffer, _, hreply⟩ := except_bind_eq_ok hreply
  obtain ⟨newPkt, _, hreply⟩ := except_bind_eq_ok hreply
  obtain ⟨size, _, hreply⟩ := except_bind_eq_ok hreply
  obtain ⟨machine, hwrite, hreply⟩ := except_bind_eq_ok hreply
  obtain ⟨heap, _, hreply⟩ := except_bind_eq_ok hreply
  cases hreply
  obtain ⟨frame, hframe⟩ := serHalWrite_written hwrite
  exact ⟨frame, hframe⟩

theorem repliesWhole_iff {alloc : Allocator} {pkt : Option ℕ} {cmd : UInt8}
    {payload : Block} {len : UInt32} {m : Machine}
    (hpayload : payload.length = len.toNat) (hrequest : RequestAt pkt m) :
    RepliesWhole alloc pkt cmd payload len m ↔
      pkt = none ∨ len.toNat ≤ 249 ∨
        (alloc m.heap.length = none ∧ hdrLen + len.toNat < 2 ^ 32) := by
  cases pkt with
  | none =>
      constructor
      · intro _
        exact Or.inl rfl
      · intro _
        refine ⟨fun hne => absurd rfl hne, .err, m, rfl, Or.inl ⟨?_, rfl⟩⟩
        decide
  | some p =>
      constructor
      · rintro ⟨hsize, code, m', hreply, hwritten⟩
        right
        by_cases hnone : alloc m.heap.length = none
        · right
          exact ⟨hnone, (size_eq_iff len).mp (hsize (by simp))⟩
        · left
          have hsome := Option.isSome_iff_ne_none.mpr hnone
          obtain ⟨frame, hframe⟩ := serCmdReply_written hsome hreply
          rw [← hpayload]
          exact length_le_of_written hframe fun hne =>
            hwritten.resolve_left fun hsame => hne hsame.2
      · intro hcondition
        have hcases := hcondition.resolve_left (by simp)
        have hsize := (size_eq_iff len).mpr (size_lt_of_fits hcases)
        refine ⟨fun _ => hsize, ?_⟩
        by_cases hnone : alloc m.heap.length = none
        · refine ⟨_, _, serCmdReply_none p cmd _ len hnone, Or.inl ⟨?_, rfl⟩⟩
          decide
        · have hle : payload.length ≤ 249 := by
            rw [hpayload]
            exact hcases.resolve_right fun h => hnone h.1
          have hsome := Option.isSome_iff_ne_none.mpr hnone
          obtain ⟨request, sn, hblock, hsn⟩ := hrequest p rfl
          have hreply := @serCmdReply_some alloc m p request (some payload) cmd
            len ⟨cmd, sn, payload, hle⟩ hsome hblock hsn rfl hpayload (by
              intro data hdata
              cases hdata
              rw [← hpayload, List.take_length]
              exact ⟨le_rfl, rfl⟩) (by
              intro hnull
              cases hnull)
          exact ⟨_, _, hreply, Or.inr ⟨_, rfl, wholeFrame_frame _⟩⟩

/-- Both senders keep to the length of the payload up to 249 bytes, and beyond
that only while they find no memory. -/
theorem uart_length_iff {alloc : Allocator} {pkt : Option ℕ} {cmd : UInt8}
    {payload : Block} {len : UInt32} {s : Station}
    (hpayload : payload.length = len.toNat) (hrequest : RequestAt pkt s.machine)
    (reply : Bool) :
    (SendsWhole alloc cmd payload len reply s ↔
      len.toNat ≤ 249 ∨ (alloc s.machine.heap.length = none ∧
        hdrLen + len.toNat < 2 ^ 32)) ∧
    (RepliesWhole alloc pkt cmd payload len s.machine ↔
      pkt = none ∨ len.toNat ≤ 249 ∨
        (alloc s.machine.heap.length = none ∧
          hdrLen + len.toNat < 2 ^ 32)) :=
  ⟨sendsWhole_iff hpayload, repliesWhole_iff hpayload hrequest⟩

theorem uart_length_iff_three :
    SendsWhole zeroAlloc 0x61 [1, 2, 3] 3 true freshStation := by
  have hrequest : RequestAt none freshStation.machine := by
    intro p hp
    cases hp
  exact ((uart_length_iff (by decide) hrequest true).1).mpr (Or.inl (by decide))

/-- The length field of a payload of 250 bytes is 0. -/
theorem not_uart_length :
    ¬ ∀ (alloc : Allocator) (cmd : UInt8) (payload : Block) (len : UInt32)
        (reply : Bool) (s : Station), payload.length = len.toNat →
      SendsWhole alloc cmd payload len reply s := by
  intro hall
  have hlength : (List.replicate 250 (0 : UInt8)).length =
      (250 : UInt32).toNat := by
    rw [List.length_replicate]
    rfl
  have hsends := hall zeroAlloc 0x61 (List.replicate 250 0) 250 true
    freshStation hlength
  rcases (sendsWhole_iff hlength).mp hsends with hle | ⟨hnone, _⟩
  · exact absurd hle (by decide)
  · cases hnone

end Serial

end ClpszDemos
