import ClpszDemos.SerialReceiver
import ClpszDemos.SerialSend

/-!
# Commands and their answers

A command that the receiver accepts is answered by one frame, which the other
end accepts as a reply with the sequence number of the command.  The command
`0x00` is an exception: the search for its handler stops at the entry that ends
the table.
-/

namespace ClpszDemos

namespace Serial

/-! ## Every command is answered -/

/-- The handler registered for a command, or the one for those that are not
implemented. -/
def Registered (cmd : UInt8) (func : CmdFunc) : Prop :=
  (∃ entry ∈ serRcvcmdFuncs, entry.cmd = cmd ∧ entry.func = some func) ∨
    (∀ entry ∈ serRcvcmdFuncs, entry.cmd ≠ cmd) ∧ func = serCmdNotimplement

/-- An idle receiver takes the frame for one reply with this sequence number. -/
def ReplyFrame (frame : Block) (sn : UInt8) : Prop :=
  ∀ (alloc : Allocator) (peer : Machine), alloc.Succeeds → peer.i = 0 →
    ∃ next pkt cmd, serCmdRcv alloc frame peer = .ok next ∧
      next.delivered = peer.delivered ++ [.tellsend pkt] ∧ WellFormed pkt ∧
      pkt.load cmdOffset = .ok cmd ∧ cmd &&& replyMask ≠ 0 ∧
      pkt.load snOffset = .ok sn

/-- `ser_cmd_dealcmd` calls a handler and writes one reply. -/
def Answered (alloc : Allocator) (pkt : Option ℕ) (cmd sn : UInt8)
    (m : Machine) : Prop :=
  ∃ func next frame, chooseFun cmd = .ok func ∧ Registered cmd func ∧
    serCmdDealcmd alloc pkt m = .ok (.ok, next) ∧
    next.written = m.written ++ [frame] ∧ ReplyFrame frame sn

theorem chooseFun_registered {cmd : UInt8} (hcmd : cmd ≠ 0) :
    ∃ func, chooseFun cmd = .ok func ∧ Registered cmd func := by
  rw [chooseFun_eq, if_neg hcmd]
  by_cases hone : cmd = 0x01
  · subst hone
    exact ⟨_, rfl, Or.inl ⟨⟨0x01, some serCmdDiscover⟩, by simp [serRcvcmdFuncs],
      rfl, rfl⟩⟩
  by_cases htwo : cmd = 0x02
  · subst htwo
    exact ⟨_, rfl, Or.inl ⟨⟨0x02, some serCmdSend05⟩, by simp [serRcvcmdFuncs],
      rfl, rfl⟩⟩
  by_cases hecho : cmd = 0x61
  · subst hecho
    exact ⟨_, rfl, Or.inl ⟨⟨0x61, some serCmdEchoBack⟩, by simp [serRcvcmdFuncs],
      rfl, rfl⟩⟩
  rw [if_neg hone, if_neg htwo, if_neg hecho]
  refine ⟨_, rfl, ?_⟩
  by_cases hnp : cmd = 0x7f
  · subst hnp
    exact Or.inl ⟨⟨0x7f, some serCmdNotimplement⟩, by simp [serRcvcmdFuncs],
      rfl, rfl⟩
  · refine Or.inr ⟨?_, rfl⟩
    simp [serRcvcmdFuncs, Ne.symm hone, Ne.symm htwo, Ne.symm hecho,
      Ne.symm hnp, Ne.symm hcmd]

/-- A reply frame is put into the slot of an idle receiver. -/
theorem rcv_reply {alloc : Allocator} (halloc : alloc.Succeeds) {m : Machine}
    (hidle : m.i = 0) (packet : Packet)
    (hreply : packet.cmd &&& replyMask ≠ 0) :
    ∃ next, serCmdRcv alloc packet.frame m = .ok next ∧
      next.delivered = m.delivered ++ [.tellsend packet.frame] ∧
      next.replied = 1 ∧
      next.heap.block next.repliedPkt = .ok packet.frame := by
  obtain ⟨stored, hdelivered, hbuf, _, hframe⟩ := rcv_frame halloc hidle packet
  have hpkt := @rcvPkt_reply alloc stored packet hreply hbuf
  refine ⟨_, hframe.trans hpkt, ?_, rfl, hbuf⟩
  rw [← hdelivered]

/-- A command frame is answered by one frame. -/
theorem rcv_command {alloc : Allocator} (halloc : alloc.Succeeds) {m : Machine}
    (hidle : m.i = 0) (packet : Packet) (hcmd : packet.cmd ≠ 0)
    (hcommand : ¬ packet.cmd &&& replyMask ≠ 0) :
    ∃ next, serCmdRcv alloc packet.frame m = .ok next ∧
      next.written = m.written ++ [packet.reply.frame] := by
  obtain ⟨stored, _, hbuf, hapart, hframe⟩ := rcv_frame halloc hidle packet
  obtain ⟨heap, hpkt⟩ := rcvPkt_command halloc packet hcmd hcommand hbuf
  refine ⟨_, hframe.trans hpkt, ?_⟩
  rw [← hapart.written]

theorem Packet.replyFrame_reply (packet : Packet) :
    ReplyFrame packet.reply.frame packet.sn := by
  intro alloc peer halloc hidle
  have hmask : packet.reply.cmd &&& replyMask ≠ 0 :=
    show replyMask &&& replyMask ≠ 0 by decide
  obtain ⟨next, hrun, hdelivered, _⟩ := rcv_reply halloc hidle packet.reply hmask
  exact ⟨next, packet.reply.frame, replyMask, hrun, hdelivered,
    packet.reply.wellFormed_frame, rfl, hmask, rfl⟩

/-- A packet that the receiver accepts is answered by one reply with its
sequence number when it is dealt with as a command, if and only if this command
is not `0x00`. -/
theorem serCmdDealcmd_answered {alloc : Allocator} (halloc : alloc.Succeeds)
    {m : Machine} {pkt : Option ℕ} {request : Block} {cmd sn : UInt8}
    (hpkt : m.heap.block pkt = .ok request) (hwell : WellFormed request)
    (hcmd : request.load cmdOffset = .ok cmd)
    (hsn : request.load snOffset = .ok sn) :
    Answered alloc pkt cmd sn m ↔ cmd ≠ 0 := by
  obtain ⟨packet, rfl⟩ := hwell.exists_packet
  have hpacketCmd : packet.cmd = cmd := Except.ok.inj hcmd
  have hpacketSn : packet.sn = sn := Except.ok.inj hsn
  subst hpacketCmd hpacketSn
  constructor
  · rintro ⟨func, next, frame, hchoose, _⟩ hzero
    rw [chooseFun_eq, if_pos hzero] at hchoose
    cases hchoose
  · intro hzero
    obtain ⟨func, hchoose, hregistered⟩ := chooseFun_registered hzero
    exact ⟨func, _, packet.reply.frame, hchoose, hregistered,
      serCmdDealcmd_eq halloc packet hzero hpkt, rfl, packet.replyFrame_reply⟩

/-- A machine with one packet in memory. -/
def machineWith (pkt : Block) : Machine :=
  { idleMachine with heap := [some pkt] }

/-- A command that is not implemented. -/
theorem serCmdDealcmd_answered_unknown :
    Answered zeroAlloc (some 0) 0x33 9
      (machineWith (Packet.frame ⟨0x33, 9, [1, 2], by decide⟩)) := by
  have hanswered := @serCmdDealcmd_answered zeroAlloc (fun _ => rfl)
    (machineWith (Packet.frame ⟨0x33, 9, [1, 2], by decide⟩)) (some 0) _ 0x33 9
    rfl (Packet.wellFormed_frame _) rfl rfl
  exact hanswered.mpr (by decide)

theorem not_serCmdDealcmd_answered :
    ¬ ∀ alloc : Allocator, alloc.Succeeds →
      ∀ (m : Machine) (pkt : Option ℕ) (request : Block) (cmd sn : UInt8),
        m.heap.block pkt = .ok request → WellFormed request →
        request.load cmdOffset = .ok cmd → request.load snOffset = .ok sn →
        cmd &&& replyMask = 0 → Answered alloc pkt cmd sn m := by
  intro hanswered
  obtain ⟨func, _, _, hchoose, _⟩ := hanswered zeroAlloc (fun _ => rfl)
    (machineWith (Packet.frame ⟨0x00, 1, [], by decide⟩)) (some 0) _ 0x00 1 rfl
    (Packet.wellFormed_frame _) rfl rfl (by decide)
  have hnull : chooseFun 0x00 = .error .nullCall := rfl
  cases hnull.symm.trans hchoose

/-! ## The echo -/

/-- An echo: the request is written as one frame, the other end answers it by
one frame, and this one comes back as one reply with the sequence number and
the payload of the request. -/
theorem echo_exchange {alloc peerAlloc : Allocator} (halloc : alloc.Succeeds)
    (hpeerAlloc : peerAlloc.Succeeds) {s : Station} {peer : Machine}
    (hidle : s.machine.i = 0) (hpeerIdle : peer.i = 0) {payload data : Block}
    (hle : payload.length ≤ 249) (hdata : payload <+: data) (reply : Bool) :
    ∃ sent request answered answer replied pkt,
      serCmdSend alloc 0x61 (some data) (UInt32.ofNat payload.length) reply s =
        .ok sent ∧
      sent.machine.written = s.machine.written ++ [request] ∧
      sent.waiting = s.waiting ++
        [⟨s.machine.heap.length, s.sendSn, reply⟩] ∧
      serCmdRcv peerAlloc request peer = .ok answered ∧
      answered.written = peer.written ++ [answer] ∧
      serCmdRcv alloc answer sent.machine = .ok replied ∧
      replied.delivered = s.machine.delivered ++ [.tellsend pkt] ∧
      replied.replied = 1 ∧ replied.heap.block replied.repliedPkt = .ok pkt ∧
      pkt.load snOffset = .ok s.sendSn ∧ pkt.load cmdOffset = .ok 0x80 ∧
      pkt.drop hdrLen = payload := by
  have hlen : payload.length = (UInt32.ofNat payload.length).toNat := by
    rw [UInt32.toNat_ofNat']
    omega
  have hsend := @serCmdSend_some alloc s 0x61 data _
    ⟨0x61, s.sendSn, payload, hle⟩ (halloc _) rfl rfl hlen hdata reply
  obtain ⟨answered, hrequest, hwritten⟩ := @rcv_command peerAlloc hpeerAlloc peer
    hpeerIdle ⟨0x61, s.sendSn, payload, hle⟩ (show (0x61 : UInt8) ≠ 0 by decide)
    (show ¬ (0x61 &&& replyMask : UInt8) ≠ 0 by decide)
  obtain ⟨replied, hanswer, hdelivered, hreplied, hslot⟩ := @rcv_reply alloc
    halloc { s.machine with
      heap := s.machine.heap ++
        [some (Packet.frame ⟨0x61, s.sendSn, payload, hle⟩)]
      written := s.machine.written ++
        [Packet.frame ⟨0x61, s.sendSn, payload, hle⟩] } hidle
    (Packet.reply ⟨0x61, s.sendSn, payload, hle⟩)
    (show replyMask &&& replyMask ≠ 0 by decide)
  exact ⟨_, _, answered, _, replied, _, hsend, rfl, rfl, hrequest, hwritten,
    hanswer, hdelivered, hreplied, hslot, rfl, rfl, rfl⟩

/-- A station that has sent 255 commands. -/
def lateStation : Station where
  machine := idleMachine
  sendSn := 255
  waiting := []
  returned := []
  handed := []
  lost := []

theorem echo_exchange_at :
    ∃ sent request answered answer replied pkt,
      serCmdSend zeroAlloc 0x61 (some macHead) 2 true lateStation = .ok sent ∧
      sent.machine.written = [request] ∧ sent.sendSn = 0 ∧
      serCmdRcv zeroAlloc request idleMachine = .ok answered ∧
      answered.written = [answer] ∧
      serCmdRcv zeroAlloc answer sent.machine = .ok replied ∧
      replied.delivered = [.tellsend pkt] ∧ pkt.load snOffset = .ok 255 ∧
      pkt.drop hdrLen = macHead := by
  obtain ⟨sent, request, answered, answer, replied, pkt, hsend, hwritten, _,
    hrequest, hanswered, hanswer, hdelivered, _, _, hsn, _, hpayload⟩ :=
    @echo_exchange zeroAlloc zeroAlloc (fun _ => rfl) (fun _ => rfl)
      lateStation idleMachine rfl rfl macHead macHead (by decide)
      (List.prefix_refl macHead) true
  refine ⟨sent, request, answered, answer, replied, pkt, hsend, hwritten, ?_,
    hrequest, hanswered, hanswer, hdelivered, hsn, hpayload⟩
  cases hsend
  rfl

end Serial

end ClpszDemos
