import ClpszDemos.RequestReply
import ClpszDemos.SerialReplies

/-!
# Two stations on a line

Each station has a thread that calls `ser_cmd_send` and one that runs
`ser_cmd_rcv`; what one writes reaches the other byte by byte.  Calls, bytes and
turns of the wait come in any order.  The stations are the two parties of
`RequestReply`, whose messages are frames: a byte completes a message, or
changes nothing that can be seen there.
-/

namespace ClpszDemos

namespace Serial

open RequestReply

/-! ## A byte of a frame -/

section Bytes

variable {alloc : Allocator} {m : Machine} {current tail : Block} {ch : UInt8}

/-- The buffer of a receiver that is past the header of a frame. -/
theorem Holding.body_frame (hholding : Holding current m) (packet : Packet)
    (hframe : current ++ ch :: tail = packet.frame)
    (hbody : 3 ≤ current.length) :
    ¬ m.i ≤ 2 ∧ m.pktLen.toNat = packet.frame.length ∧
      ∃ block, m.heap.block m.buf = .ok block ∧
        block.length = packet.frame.length ∧
        block.take current.length = current := by
  obtain ⟨hlen, _, _, block, hblock, hsize, htake⟩ := hholding.body hbody
  have hindex := hholding.index
  have hpktLen : m.pktLen.toNat = packet.frame.length := by
    have hthird : packet.frame[2]? = some packet.len := rfl
    rw [← hframe, List.getElem?_append_left (by omega), hlen] at hthird
    rw [Option.some.inj hthird, packet.toNat_len]
  refine ⟨?_, hpktLen, block, hblock, hsize.trans hpktLen, htake⟩
  intro hle
  have hnat : m.i.toNat ≤ 2 := hle
  omega

/-- A byte that does not end its frame. -/
theorem rcvByte_inside (halloc : alloc.Succeeds) (hholding : Holding current m)
    (packet : Packet) (hframe : current ++ ch :: tail = packet.frame)
    (htail : tail ≠ []) :
    ∃ next, rcvByte alloc m ch = .ok next ∧ next.i = m.i + 1 ∧
      next.written = m.written := by
  have hindex := hholding.index
  have hlength := congrArg List.length hframe
  have hpacket := packet.length_frame
  have hpositive := List.length_pos_iff.mpr htail
  simp only [List.length_append, List.length_cons] at hlength
  by_cases hbody : 3 ≤ current.length
  · obtain ⟨hheader, hpktLen, block, hblock, hsize, _⟩ :=
      hholding.body_frame packet hframe hbody
    rw [rcvByte_body hheader hblock (by omega) ch, if_neg (by omega)]
    exact ⟨_, rfl, rfl, rfl⟩
  · rcases current with _ | ⟨first, _ | ⟨second, _ | ⟨third, rest⟩⟩⟩
    · have hi : m.i = 0 := index_eq hholding rfl
      have hch : ch = 0x40 := (List.cons.inj hframe).1
      subst hch
      rw [rcvByte_first hi, hi]
      exact ⟨_, rfl, rfl, rfl⟩
    · have hi : m.i = 1 := index_eq hholding rfl
      have hch : ch = 0x3e := (List.cons.inj (List.cons.inj hframe).2).1
      subst hch
      rw [rcvByte_second hi, hi]
      exact ⟨_, rfl, rfl, rfl⟩
    · have hi : m.i = 2 := index_eq hholding rfl
      have hch : ch = packet.len :=
        (List.cons.inj (List.cons.inj (List.cons.inj hframe).2).2).1
      subst hch
      have hthird : (m.head.set 2 packet.len).toList.take 3 =
          packet.frame.take 3 := by
        have hhead : m.head.toList.take 2 = [first, second] :=
          hholding.head (show 2 ≤ 2 from le_rfl)
        rw [take_head_set (by decide) packet.len hhead, ← hframe]
        rfl
      obtain ⟨next, hnext, hreceiving, hapart⟩ := @rcvLen_eq alloc halloc
        { m with head := m.head.set 2 packet.len } packet.frame packet.len
        packet.toNat_len (by omega) hi hthird
      rw [rcvByte_third hi]
      refine ⟨next, hnext, ?_, hapart.written⟩
      rw [hi]
      exact UInt8.toNat_inj.mp hreceiving.i
    · exact absurd (show 3 ≤ rest.length + 3 by omega) hbody

/-- The byte that ends a frame. -/
theorem rcvByte_last (hholding : Holding current m) (packet : Packet)
    (hframe : current ++ [ch] = packet.frame) :
    (m.heap.update m.buf packet.frame).block m.buf = .ok packet.frame ∧
      rcvByte alloc m ch = rcvPkt alloc
        { m with heap := m.heap.update m.buf packet.frame } := by
  have hindex := hholding.index
  have hlength := congrArg List.length hframe
  have hpacket := packet.length_frame
  simp only [List.length_append, List.length_singleton] at hlength
  have hbody : 3 ≤ current.length := by omega
  obtain ⟨hheader, hpktLen, block, hblock, hsize, htake⟩ :=
    hholding.body_frame packet hframe hbody
  have hwhole : block.set m.i.toNat ch = packet.frame := by
    have htake' := take_set_append (show current.length < block.length by omega)
      ch
    rw [htake, hframe] at htake'
    rw [← htake', ← hindex, List.take_of_length_le]
    rw [List.length_set]
    omega
  rw [rcvByte_body hheader hblock (by omega) ch, if_pos (by omega), hwhole]
  exact ⟨Heap.block_update hblock _, rfl⟩

end Bytes

/-! ## The line -/

/-- The stations and the bytes on their way to each. -/
structure Link where
  station : Side → Station
  wire : Side → List UInt8

inductive Move
  | call (side : Side) (cmd : UInt8) (data : Block) (len : UInt32)
      (reply : Bool)
  | arrive (side : Side)
  | poll (side : Side)
  deriving DecidableEq

namespace Link

/-- A station changes; what it has written goes to the other one. -/
def put (side : Side) (next : Station) (l : Link) : Link where
  station := Function.update l.station side next
  wire := Function.update l.wire side.other (l.wire side.other ++
    (next.machine.written.drop
      (l.station side).machine.written.length).flatten)

/-- While no byte comes, `ser_hal_read` waits. -/
def move (alloc : Side → Allocator) : Move → Link → Except Trap Link
  | .call side cmd data len reply, l => do
      let next ← serCmdSend (alloc side) cmd (some data) len reply
        (l.station side)
      return l.put side next
  | .arrive side, l =>
      match l.wire side with
      | [] => .ok l
      | ch :: rest => do
          let next ← receive (alloc side) ch (l.station side)
          return put side next
            { l with wire := Function.update l.wire side rest }
  | .poll side, l => do
      let next ← Serial.poll 0 (l.station side)
      return l.put side next

/-- The thread that calls waits for its reply first.  It sends a command that
is not `0x00` and has bit 7 clear, with `len` of its bytes, which fit a frame. -/
def Allowed : Move → Link → Prop
  | .call side cmd data len _, l =>
      (l.station side).waiting = [] ∧ cmd ≠ 0 ∧ cmd &&& replyMask = 0 ∧
        len.toNat ≤ 249 ∧ len.toNat ≤ data.length
  | _, _ => True

instance (move : Move) (l : Link) : Decidable (Allowed move l) :=
  match move with
  | .call side cmd data len _ => inferInstanceAs
      (Decidable ((l.station side).waiting = [] ∧ cmd ≠ 0 ∧
        cmd &&& replyMask = 0 ∧ len.toNat ≤ 249 ∧ len.toNat ≤ data.length))
  | .arrive _ => inferInstanceAs (Decidable True)
  | .poll _ => inferInstanceAs (Decidable True)

/-- What the calls of a side ask for. -/
def asked (side : Side) : List Move → List (UInt8 × Block)
  | [] => []
  | .call caller cmd data len _ :: moves =>
      if caller = side then (cmd, data.take len.toNat) :: asked side moves
      else asked side moves
  | _ :: moves => asked side moves

end Link

def links (alloc : Side → Allocator) : TransitionSystem Link Move where
  init l := ∀ side, (l.station side).machine.i = 0 ∧
    (l.station side).machine.replied = 0 ∧
    (l.station side).machine.written = [] ∧
    (l.station side).machine.delivered = [] ∧
    (l.station side).sendSn = 0 ∧ (l.station side).waiting = [] ∧
    (l.station side).returned = [] ∧ (l.station side).handed = [] ∧
    (l.station side).lost = [] ∧ l.wire side = []
  step move l := (l.move alloc move).toOption

/-! ## Frames as messages -/

def packetOf : Message Packet Packet → Packet
  | .request packet => packet
  | .reply packet => packet

def frameOf (message : Message Packet Packet) : Block :=
  (packetOf message).frame

/-- How the receiver hands over a message. -/
def deliveryOf : Message Packet Packet → Delivery
  | .request packet => .dealcmd packet.frame
  | .reply packet => .tellsend packet.frame

/-- Bit 7 of the command tells the messages apart. -/
def Proper : Message Packet Packet → Prop
  | .request packet => packet.cmd ≠ 0 ∧ packet.cmd &&& replyMask = 0
  | .reply packet => packet.cmd &&& replyMask ≠ 0

/-- The bytes under way are those of the messages that have not arrived, but for
what the receiver holds of the first one. -/
def Transit (m : Machine) (wire : List UInt8)
    (pending : List (Message Packet Packet)) : Prop :=
  ∃ current, Holding current m ∧
    current ++ wire = (pending.map frameOf).flatten ∧
    ∀ message ∈ pending.head?, current.length < (frameOf message).length

theorem length_frameOf_pos (message : Message Packet Packet) :
    0 < (frameOf message).length := by
  have hlength := (packetOf message).length_frame
  unfold frameOf
  omega

/-- More messages are sent. -/
theorem Transit.append {m : Machine} {wire : List UInt8}
    {pending : List (Message Packet Packet)} (htransit : Transit m wire pending)
    (messages : List (Message Packet Packet)) :
    Transit m (wire ++ (messages.map frameOf).flatten)
      (pending ++ messages) := by
  obtain ⟨current, hholding, hbytes, hhead⟩ := htransit
  refine ⟨current, hholding, ?_, ?_⟩
  · simp [← List.append_assoc, hbytes]
  · intro message hmessage
    cases pending with
    | nil =>
        have hempty : current = [] := (List.append_eq_nil_iff.mp hbytes).1
        rw [hempty]
        exact length_frameOf_pos message
    | cons first pending => exact hhead message hmessage

/-- The next byte belongs to the first message that has not arrived. -/
theorem Transit.cons {m : Machine} {ch : UInt8} {rest : List UInt8}
    {pending : List (Message Packet Packet)}
    (htransit : Transit m (ch :: rest) pending) :
    ∃ message more current tail, pending = message :: more ∧
      Holding current m ∧ current ++ ch :: tail = frameOf message ∧
      rest = tail ++ (more.map frameOf).flatten := by
  obtain ⟨current, hholding, hbytes, hhead⟩ := htransit
  cases pending with
  | nil => simp at hbytes
  | cons message more =>
      have hshort := hhead message rfl
      rw [List.map_cons, List.flatten_cons] at hbytes
      rcases List.append_eq_append_iff.mp hbytes with
        ⟨tail, hframe, hrest⟩ | ⟨extra, hcurrent, _⟩
      · cases tail with
        | nil =>
            rw [List.append_nil] at hframe
            rw [hframe] at hshort
            exact absurd hshort (lt_irrefl _)
        | cons first tail =>
            obtain ⟨rfl, hbehind⟩ := List.cons.inj hrest
            exact ⟨message, more, current, tail, rfl, hholding, hframe.symm,
              hbehind⟩
      · rw [hcurrent, List.length_append] at hshort
        omega

section Bytes

variable {alloc : Allocator} {m : Machine} {current tail : Block} {ch : UInt8}

theorem rcv_inside (halloc : alloc.Succeeds) (hholding : Holding current m)
    (packet : Packet) (hframe : current ++ ch :: tail = packet.frame)
    (htail : tail ≠ []) :
    ∃ next, rcvByte alloc m ch = .ok next ∧ Holding (current ++ [ch]) next ∧
      Leaves current m next [] ∧ byteDeliveries m ch = [] ∧
      next.written = m.written := by
  obtain ⟨next, hnext, hi, hwritten⟩ :=
    rcvByte_inside halloc hholding packet hframe htail
  have hindex := hholding.index
  have hsmall : current.length + 1 < 256 := by
    have hlength := congrArg List.length hframe
    have hpacket := packet.length_frame
    have hle := packet.length_le
    have hpositive := List.length_pos_iff.mpr htail
    simp only [List.length_append, List.length_cons] at hlength
    omega
  have hbusy : next.i.toNat = current.length + 1 := by
    have hone : (1 : UInt8).toNat = 1 := rfl
    rw [hi, UInt8.toNat_add, hone, hindex]
    omega
  have hstep := @byteStep alloc m current hholding ch
  rw [hnext] at hstep
  cases hstep with
  | dropped holds leaves handed =>
      have hzero : next.i.toNat = 0 := holds.index
      omega
  | extended holds leaves handed fresh stays =>
      exact ⟨next, hnext, holds, leaves, handed, hwritten⟩
  | packet wellFormed pkt holds leaves handed =>
      have hzero : next.i.toNat = 0 := holds.index
      omega

theorem rcv_last (halloc : alloc.Succeeds) (hholding : Holding current m)
    {message : Message Packet Packet} (hproper : Proper message)
    (hframe : current ++ [ch] = frameOf message) :
    ∃ next, rcvByte alloc m ch = .ok next ∧ Holding [] next ∧
      Leaves current m next [deliveryOf message] ∧
      byteDeliveries m ch = [deliveryOf message] ∧
      next.written = m.written ++
        (message.answered Packet.reply).map frameOf := by
  obtain ⟨hstored, hbyte⟩ :=
    @rcvByte_last alloc m current ch hholding (packetOf message) hframe
  have hpkt : ∃ next, rcvByte alloc m ch = .ok next ∧ next.i = 0 ∧
      next.delivered = m.delivered ++ [deliveryOf message] ∧
      next.written = m.written ++
        (message.answered Packet.reply).map frameOf := by
    rw [hbyte]
    cases message with
    | request packet =>
        obtain ⟨heap, hpkt⟩ := @rcvPkt_command alloc halloc
          { m with heap := m.heap.update m.buf packet.frame } packet
          hproper.1 (not_not.mpr hproper.2) hstored
        exact ⟨_, hpkt, rfl, rfl, rfl⟩
    | reply packet =>
        have hpkt := @rcvPkt_reply alloc
          { m with heap := m.heap.update m.buf packet.frame } packet hproper
          hstored
        exact ⟨_, hpkt, rfl, rfl, (List.append_nil _).symm⟩
  obtain ⟨next, hnext, hidle, hdelivered, hwritten⟩ := hpkt
  have hstep := @byteStep alloc m current hholding ch
  rw [hnext] at hstep
  have hsame : ∀ handed : List Delivery, Leaves current m next handed →
      handed = [deliveryOf message] := by
    intro handed hleaves
    exact List.append_cancel_left (hleaves.delivered.symm.trans hdelivered)
  cases hstep with
  | dropped holds leaves handed => cases hsame _ leaves
  | extended holds leaves handed fresh stays => cases hsame _ leaves
  | packet wellFormed pkt holds leaves handed =>
      have heq := hsame _ leaves
      rw [heq] at leaves handed
      exact ⟨next, hnext, holds, leaves, handed, hwritten⟩

end Bytes

/-! ## A station as a party -/

/-- The slot is free when all replies were taken, or holds the last one. -/
def Slot (m : Machine) (taken : ℕ) (got : List Packet) : Prop :=
  m.replied = 0 ∧ taken = got.length ∨
    m.replied ≠ 0 ∧ taken + 1 = got.length ∧
      ∃ packet, got[taken]? = some packet ∧
        m.heap.block m.repliedPkt = .ok packet.frame

/-- No call waits, or one waits for the reply to the last request, which is
still in memory. -/
def Waits (waiting : List Call) (heap : Heap) (taken : ℕ)
    (made : List Packet) : Prop :=
  waiting = [] ∧ made.length = taken ∨
    ∃ call packet, waiting = [call] ∧ made[taken]? = some packet ∧
      call.sn = packet.sn ∧ ∃ request, heap.block (some call.pkt) = .ok request

/-- The station does what the party does. -/
structure Carries (s : Station) (party : Party Packet Packet) : Prop where
  written : s.machine.written = party.sent.map frameOf
  delivered : s.machine.delivered = party.arrived.map deliveryOf
  slot : Slot s.machine party.taken (replies party.arrived)
  handed : s.handed = (party.made.take party.taken).map
    fun packet => (packet.sn, packet.reply.frame)
  returned : s.returned = List.replicate party.taken none
  waiting : Waits s.waiting s.machine.heap party.taken party.made
  sendSn : s.sendSn = UInt8.ofNat party.made.length
  numbered : ∀ i packet, party.made[i]? = some packet →
    packet.sn = UInt8.ofNat i
  commands : ∀ packet ∈ party.made,
    packet.cmd ≠ 0 ∧ packet.cmd &&& replyMask = 0
  orderly : Orderly s

section Stations

variable {alloc : Allocator} {s : Station} {party : Party Packet Packet}

theorem Machine.slot_eq_none {m : Machine} (hreplied : m.replied = 0) :
    m.slot = none :=
  if_pos hreplied

theorem Slot.free {m : Machine} {taken : ℕ} {got : List Packet}
    (hslot : Slot m taken got) (hle : got.length ≤ taken) : m.replied = 0 := by
  rcases hslot with ⟨hzero, _⟩ | ⟨_, htaken, _⟩
  · exact hzero
  · omega

/-- A byte does not touch the slot when it hands over no reply. -/
theorem Slot.leaves {taken : ℕ} {got : List Packet}
    (hslot : Slot s.machine taken got) (horderly : Orderly s)
    {current : Block} {machine : Machine} {handed : List Delivery}
    (hholding : Holding current s.machine)
    (hleaves : Leaves current s.machine machine handed)
    (hsame : machine.repliedPkt = s.machine.repliedPkt ∧
      machine.replied = s.machine.replied) : Slot machine taken got := by
  have hindex := hholding.index
  unfold Slot
  rw [hsame.1, hsame.2]
  rcases hslot with hempty | ⟨hfull, htaken, packet, hpacket, hblock⟩
  · exact Or.inl hempty
  · refine Or.inr ⟨hfull, htaken, packet, hpacket, ?_⟩
    apply hleaves.block _ _ _ hblock
    intro hbody
    exact horderly.slot_ne_buf hfull (by omega)

/-- A byte leaves the request of the waiting call in memory. -/
theorem Waits.leaves {taken : ℕ} {made : List Packet}
    (hwaits : Waits s.waiting s.machine.heap taken made) (horderly : Orderly s)
    {current : Block} {machine : Machine} {handed : List Delivery}
    (hholding : Holding current s.machine)
    (hleaves : Leaves current s.machine machine handed) :
    Waits s.waiting machine.heap taken made := by
  have hindex := hholding.index
  rcases hwaits with hnone | ⟨call, packet, hcall, hmade, hsn, request,
    hrequest⟩
  · exact Or.inl hnone
  · refine Or.inr ⟨call, packet, hcall, hmade, hsn, request, ?_⟩
    apply hleaves.block _ _ _ hrequest
    intro hbody
    exact horderly.request_ne_buf (by omega) call (by simp [hcall])

/-- A call goes out when the one before has its reply. -/
theorem carries_call (halloc : alloc.Succeeds) (hcarries : Carries s party)
    (hfree : party.made.length = party.taken)
    (hreplies : (replies party.arrived).length ≤ party.made.length)
    (packet : Packet) {data : Block} {len : UInt32}
    (hsn : packet.sn = s.sendSn) (hlen : packet.payload.length = len.toNat)
    (hdata : packet.payload <+: data) (hzero : packet.cmd ≠ 0)
    (hcommand : packet.cmd &&& replyMask = 0) (reply : Bool) :
    ∃ next, serCmdSend alloc packet.cmd (some data) len reply s = .ok next ∧
      Carries next (party.ask packet) ∧
      ∀ current, Holding current s.machine → Holding current next.machine := by
  have hsend := serCmdSend_some packet (halloc s.machine.heap.length) rfl hsn
    hlen hdata reply
  have hidle := hcarries.slot.free (hreplies.trans hfree.le)
  have hwaiting : s.waiting = [] := by
    rcases hcarries.waiting with ⟨hnone, _⟩ | ⟨_, _, _, hmade, _⟩
    · exact hnone
    · rw [List.getElem?_eq_none hfree.le] at hmade
      cases hmade
  have htimely : Timely (.send packet.cmd (some data) len reply) s := by
    intro pkt hpkt
    rw [Machine.slot_eq_none hidle] at hpkt
    cases hpkt
  refine ⟨_, hsend, ?_, ?_⟩
  · constructor
    · simp [Party.ask, hcarries.written, frameOf, packetOf]
    · exact hcarries.delivered
    · rcases hcarries.slot with hempty | ⟨hfull, _⟩
      · exact Or.inl hempty
      · exact absurd hidle hfull
    · simp only [Party.ask]
      rw [List.take_append_of_le_length hfree.ge]
      exact hcarries.handed
    · exact hcarries.returned
    · right
      refine ⟨⟨s.machine.heap.length, s.sendSn, reply⟩, packet, ?_, ?_,
        hsn.symm, _, Heap.block_append_self _ _⟩
      · simp [hwaiting]
      · simp only [Party.ask]
        rw [← hfree, List.getElem?_concat_length]
    · simp [Party.ask, hcarries.sendSn]
    · intro i other hother
      simp only [Party.ask, List.getElem?_append] at hother
      split at hother
      case isTrue => exact hcarries.numbered i other hother
      case isFalse hlast =>
        obtain ⟨hindex, rfl⟩ := List.getElem?_eq_some_iff.mp hother
        have hi : i = party.made.length := by
          simp only [List.length_singleton] at hindex
          omega
        rw [List.getElem_singleton, hsn, hcarries.sendSn, hi]
    · intro other hother
      rcases List.mem_append.mp hother with hold | hnew
      · exact hcarries.commands other hold
      · rw [List.mem_singleton.mp hnew]
        exact ⟨hzero, hcommand⟩
    · exact orderly_send hcarries.orderly htimely hsend
  · intro current hholding
    refine hholding.elsewhere rfl rfl rfl rfl ?_
    intro _ block hblock
    exact Heap.block_append hblock _

/-- The station when its receiver has taken a byte. -/
def afterByte (s : Station) (ch : UInt8) (machine : Machine) : Station :=
  { s with machine := machine, lost := s.lost ++ overwritten s ch }

@[simp] theorem afterByte_machine {ch : UInt8} {machine : Machine} :
    (afterByte s ch machine).machine = machine := rfl

@[simp] theorem afterByte_waiting {ch : UInt8} {machine : Machine} :
    (afterByte s ch machine).waiting = s.waiting := rfl

theorem receive_eq {ch : UInt8} {machine : Machine}
    (hbyte : rcvByte alloc s.machine ch = .ok machine) :
    receive alloc ch s = .ok (afterByte s ch machine) := by
  unfold receive
  rw [hbyte]
  rfl

/-- A byte that completes no message is not seen by the party. -/
theorem carries_inside (hcarries : Carries s party) {current : Block}
    {ch : UInt8} {machine : Machine} (hholding : Holding current s.machine)
    (hbyte : rcvByte alloc s.machine ch = .ok machine)
    (hleaves : Leaves current s.machine machine [])
    (hquiet : byteDeliveries s.machine ch = [])
    (hwritten : machine.written = s.machine.written) :
    Carries (afterByte s ch machine) party := by
  have htimely : Timely (.receive ch) s := by
    intro delivery hdelivery
    rw [hquiet] at hdelivery
    cases hdelivery
  constructor
  · exact hwritten.trans hcarries.written
  · rw [← hcarries.delivered]
    exact hleaves.delivered.trans (List.append_nil _)
  · exact hcarries.slot.leaves hcarries.orderly hholding hleaves hleaves.slot
  · exact hcarries.handed
  · exact hcarries.returned
  · exact hcarries.waiting.leaves hcarries.orderly hholding hleaves
  · exact hcarries.sendSn
  · exact hcarries.numbered
  · exact hcarries.commands
  · exact orderly_receive hcarries.orderly htimely (receive_eq hbyte)

/-- A message arrives.  If it is a reply, it is the one that is waited for. -/
theorem carries_last (hcarries : Carries s party) {current : Block}
    {ch : UInt8} {machine : Machine} {message : Message Packet Packet}
    (hholding : Holding current s.machine)
    (hbyte : rcvByte alloc s.machine ch = .ok machine)
    (hleaves : Leaves current s.machine machine [deliveryOf message])
    (hhanded : byteDeliveries s.machine ch = [deliveryOf message])
    (hwritten : machine.written = s.machine.written ++
      (message.answered Packet.reply).map frameOf)
    (hreply : ∀ packet, message = .reply packet →
      (replies party.arrived).length = party.taken ∧
        (party.made.map Packet.reply)[party.taken]? = some packet) :
    Carries (afterByte s ch machine)
      (party.receive Packet.reply message) := by
  have htimely : Timely (.receive ch) s := by
    intro delivery hdelivery hisReply call hcall
    rw [hhanded, List.mem_singleton] at hdelivery
    cases message with
    | request packet =>
        rw [hdelivery] at hisReply
        cases hisReply
    | reply packet =>
        obtain ⟨hlength, hpacket⟩ := hreply packet rfl
        have hidle := hcarries.slot.free hlength.le
        rcases hcarries.waiting with ⟨hnone, _⟩ | ⟨other, asked, hother, hmade,
          hsn, _⟩
        · rw [hnone] at hcall
          cases hcall
        · rw [hother, List.mem_singleton] at hcall
          rw [List.getElem?_map, hmade] at hpacket
          have hsame : asked.reply = packet := Option.some.inj hpacket
          rw [hdelivery, hcall, hsn, ← hsame]
          exact ⟨rfl, Machine.slot_eq_none hidle⟩
  constructor
  · simp [afterByte, Party.receive, hwritten, hcarries.written]
  · simp [afterByte, Party.receive, hleaves.delivered, hcarries.delivered]
  · cases message with
    | request packet =>
        simp only [Party.receive, replies_append, replies_request,
          List.append_nil]
        exact hcarries.slot.leaves hcarries.orderly hholding hleaves
          hleaves.slot
    | reply packet =>
        obtain ⟨hpkt, hreplied, hblock⟩ := hleaves.slot
        obtain ⟨hlength, _⟩ := hreply packet rfl
        simp only [Party.receive, replies_append, replies_reply,
          afterByte_machine]
        refine Or.inr ⟨?_, ?_, packet, ?_, ?_⟩
        · rw [hreplied]
          decide
        · simp [hlength]
        · rw [← hlength, List.getElem?_concat_length]
        · rw [hpkt]
          exact hblock
  · exact hcarries.handed
  · exact hcarries.returned
  · exact hcarries.waiting.leaves hcarries.orderly hholding hleaves
  · exact hcarries.sendSn
  · exact hcarries.numbered
  · exact hcarries.commands
  · exact orderly_receive hcarries.orderly htimely (receive_eq hbyte)

/-- The turn of a wait that finds the slot full. -/
theorem poll_taken {call : Call} {reply : Packet} {block : Block}
    (hcall : s.waiting = [call]) (hfull : s.machine.replied ≠ 0)
    (hreply : s.machine.heap.block s.machine.repliedPkt = .ok reply.frame)
    (hrequest : s.machine.heap.block (some call.pkt) = .ok block)
    (hne : s.machine.repliedPkt ≠ some call.pkt) :
    ∃ heap, poll 0 s = .ok { s with
        machine := { s.machine with replied := 0, heap := heap }
        waiting := []
        returned := s.returned ++ [none]
        handed := s.handed ++ [(call.sn, reply.frame)] } ∧
      ∀ pointer, pointer ≠ s.machine.repliedPkt → pointer ≠ some call.pkt →
        heap.block pointer = s.machine.heap.block pointer := by
  have hload : reply.frame.load lenOffset = .ok reply.len := rfl
  have hdump : readBytes reply.frame reply.len.toNat = .ok reply.frame := by
    rw [reply.toNat_len, readBytes, if_pos le_rfl, List.take_length]
  have hfirst : s.waiting[0]? = some call := by simp [hcall]
  have hrest : s.waiting.eraseIdx 0 = [] := by simp [hcall]
  unfold poll serHalRcvreply
  cases hwants : call.reply with
  | true =>
      obtain ⟨heap, hfree⟩ := Heap.free_eq_ok hrequest
      refine ⟨heap, ?_, ?_⟩
      · simp only [hfirst, hwants, if_neg hfull, hreply, hload, hdump, hfree,
          hrest, bind, Except.bind, pure, Except.pure, if_true, ne_eq,
          not_true_eq_false, if_false]
      · intro pointer _ hpointer
        exact Heap.block_free_ne hfree hpointer
  | false =>
      obtain ⟨middle, hmiddle⟩ := Heap.free_eq_ok hreply
      have hstays : middle.block (some call.pkt) = .ok block :=
        (Heap.block_free_ne hmiddle hne.symm).trans hrequest
      obtain ⟨heap, hfree⟩ := Heap.free_eq_ok hstays
      refine ⟨heap, ?_, ?_⟩
      · simp only [hfirst, hwants, if_neg hfull, hreply, hload, hdump, hmiddle,
          hfree, hrest, bind, Except.bind, pure, Except.pure,
          Bool.false_eq_true, if_false, ne_eq, not_true_eq_false]
      · intro pointer hslot hpointer
        exact (Heap.block_free_ne hfree hpointer).trans
          (Heap.block_free_ne hmiddle hslot)

/-- A turn of the wait finds nothing, or takes the reply. -/
theorem carries_poll (hcarries : Carries s party)
    (hbegins : replies party.arrived <+: party.made.map Packet.reply)
    (hmade_le : party.made.length ≤ party.taken + 1) :
    (poll 0 s = .ok s ∧ (s.waiting = [] ∨ s.machine.replied = 0)) ∨
      s.waiting ≠ [] ∧ s.machine.replied ≠ 0 ∧
      party.taken < (replies party.arrived).length ∧
        ∃ next, poll 0 s = .ok next ∧ Carries next party.take ∧
          next.waiting = [] ∧
          ∀ current, Holding current s.machine →
            Holding current next.machine := by
  rcases hcarries.waiting with ⟨hnone, _⟩ | ⟨call, asked, hcall, hmade, hsn,
    request, hrequest⟩
  · left
    refine ⟨?_, Or.inl hnone⟩
    unfold poll
    simp [hnone, pure, Except.pure]
  · rcases hcarries.slot with ⟨hidle, _⟩ | ⟨hfull, htaken, packet, hpacket,
      hblock⟩
    · left
      refine ⟨?_, Or.inr hidle⟩
      unfold poll serHalRcvreply
      simp only [hcall, hidle, List.getElem?_cons_zero, if_true, bind,
        Except.bind, pure, Except.pure]
      rw [← hcall]
    · right
      have hmem : call ∈ s.waiting := by simp [hcall]
      have hne := hcarries.orderly.slot_ne_request hfull call hmem
      obtain ⟨heap, hpoll, hothers⟩ :=
        poll_taken hcall hfull hblock hrequest hne
      have hreply : packet = asked.reply := by
        obtain ⟨rest, hrest⟩ := hbegins
        have hsame : (party.made.map Packet.reply)[party.taken]? =
            some packet := by
          rw [← hrest, List.getElem?_append_left (by omega), hpacket]
        rw [List.getElem?_map, hmade] at hsame
        exact (Option.some.inj hsame).symm
      have hlt : party.taken < party.made.length :=
        (List.getElem?_eq_some_iff.mp hmade).1
      refine ⟨by simp [hcall], hfull, by omega, _, hpoll, ?_, rfl, ?_⟩
      · constructor
        · exact hcarries.written
        · exact hcarries.delivered
        · exact Or.inl ⟨rfl, htaken⟩
        · simp only [Party.take]
          rw [List.take_add_one, hmade, List.map_append, ← hcarries.handed,
            hreply, hsn]
          rfl
        · simp only [Party.take]
          rw [hcarries.returned, ← List.replicate_succ']
        · exact Or.inl ⟨rfl, by simp only [Party.take]; omega⟩
        · exact hcarries.sendSn
        · exact hcarries.numbered
        · exact hcarries.commands
        · exact orderly_poll hcarries.orderly hpoll
      · intro current hholding
        refine hholding.elsewhere rfl rfl rfl rfl ?_
        intro hthree block hbuf
        exact (hothers _ (hcarries.orderly.slot_ne_buf hfull hthree).symm
          (hcarries.orderly.request_ne_buf hthree call hmem).symm).trans hbuf

end Stations

/-! ## The line as two parties -/

/-- The line does what the parties do, and its callers asked for `wanted`. -/
structure Linked (wanted : Side → List (UInt8 × Block)) (l : Link)
    (parties : Parties Packet Packet) : Prop where
  sound : Sound Packet.reply parties
  carries : ∀ side, Carries (l.station side) (parties side)
  transit : ∀ side, ∃ pending,
    (parties side.other).sent = (parties side).arrived ++ pending ∧
      Transit (l.station side).machine (l.wire side) pending
  wanted : ∀ side, (parties side).made.map
    (fun packet => (packet.cmd, packet.payload)) = wanted side

/-- What is left to do for the calls of a side and for the bytes that come to
it. -/
def Link.work (l : Link) (parties : Parties Packet Packet) (side : Side) : ℕ :=
  256 * ((parties side).made.length -
    (requests (parties side.other).arrived).length) +
    (l.wire side).length + (l.station side).waiting.length

namespace Link

variable {l : Link} {side : Side} {next : Station}

@[simp] theorem put_station_self : (l.put side next).station side = next := by
  simp [put]

@[simp] theorem put_station_other :
    (l.put side next).station side.other = l.station side.other := by
  simp [put]

@[simp] theorem put_wire_self :
    (l.put side next).wire side = l.wire side := by
  simp [put]

theorem put_wire_other {written : List Block}
    (hwritten : next.machine.written =
      (l.station side).machine.written ++ written) :
    (l.put side next).wire side.other =
      l.wire side.other ++ written.flatten := by
  simp [put, hwritten]

variable {alloc : Side → Allocator}

theorem move_call {cmd : UInt8} {data : Block} {len : UInt32} {reply : Bool}
    (hsend : serCmdSend (alloc side) cmd (some data) len reply
      (l.station side) = .ok next) :
    l.move alloc (.call side cmd data len reply) = .ok (l.put side next) := by
  simp only [move, hsend, bind, Except.bind, pure, Except.pure]

theorem move_arrive {ch : UInt8} {rest : List UInt8}
    (hwire : l.wire side = ch :: rest)
    (hreceive : receive (alloc side) ch (l.station side) = .ok next) :
    l.move alloc (.arrive side) = .ok (put side next
      { l with wire := Function.update l.wire side rest }) := by
  simp only [move, hwire, hreceive, bind, Except.bind, pure, Except.pure]

theorem move_poll (hpoll : Serial.poll 0 (l.station side) = .ok next) :
    l.move alloc (.poll side) = .ok (l.put side next) := by
  simp only [move, hpoll, bind, Except.bind, pure, Except.pure]

/-- No byte, or no reply: the station stays as it is. -/
theorem put_self : l.put side (l.station side) = l := by
  cases l
  simp [put]

theorem work_put {parties : Parties Packet Packet}
    {party : Party Packet Packet} {wire : List UInt8} {written : List Block}
    (hwritten : next.machine.written =
      (l.station side).machine.written ++ written) :
    (put side next { l with wire := Function.update l.wire side wire }).work
        (Function.update parties side party) side =
      256 * (party.made.length -
        (requests (parties side.other).arrived).length) + wire.length +
        next.waiting.length ∧
    (put side next { l with wire := Function.update l.wire side wire }).work
        (Function.update parties side party) side.other =
      256 * ((parties side.other).made.length -
        (requests party.arrived).length) +
        ((l.wire side.other).length + written.flatten.length) +
        (l.station side.other).waiting.length := by
  have hwire := put_wire_other (l :=
    { l with wire := Function.update l.wire side wire }) hwritten
  constructor
  · simp [work]
  · unfold work
    rw [hwire]
    simp

theorem asked_append (side : Side) (first second : List Move) :
    asked side (first ++ second) = asked side first ++ asked side second := by
  induction first with
  | nil => rfl
  | cons move first ih =>
      cases move with
      | call caller cmd data len reply =>
          simp only [List.cons_append, asked, ih]
          split <;> rfl
      | arrive other => exact ih
      | poll other => exact ih

end Link

section Linked

variable {wanted : Side → List (UInt8 × Block)} {l : Link}
  {parties : Parties Packet Packet}

/-- A party sends commands, and replies whose command is `0x80`. -/
theorem Linked.proper (hlinked : Linked wanted l parties) {side : Side}
    {message : Message Packet Packet}
    (hmem : message ∈ (parties side).sent) : Proper message := by
  cases message with
  | request packet =>
      have hmade := mem_requests.mpr hmem
      rw [hlinked.sound.made] at hmade
      exact (hlinked.carries side).commands packet hmade
  | reply packet =>
      have hreply := mem_replies.mpr hmem
      rw [hlinked.sound.answered] at hreply
      obtain ⟨request, _, rfl⟩ := List.mem_map.mp hreply
      exact show replyMask &&& replyMask ≠ 0 by decide

/-- A station and its party change; what they send is appended. -/
theorem Linked.put (hlinked : Linked wanted l parties) {side : Side}
    {next : Station} {party : Party Packet Packet}
    (wanted' : Side → List (UInt8 × Block))
    (hsound : Sound Packet.reply (Function.update parties side party))
    (hcarries : Carries next party)
    (messages : List (Message Packet Packet))
    (hsent : party.sent = (parties side).sent ++ messages)
    {wire : List UInt8} {pending : List (Message Packet Packet)}
    (hpending : (parties side.other).sent = party.arrived ++ pending)
    (htransit : Transit next.machine wire pending)
    (hwanted : party.made.map (fun packet => (packet.cmd, packet.payload)) =
      wanted' side)
    (hothers : wanted' side.other = wanted side.other) :
    Linked wanted' (Link.put side next
      { l with wire := Function.update l.wire side wire })
      (Function.update parties side party) := by
  have hcases : ∀ other, other = side ∨ other = side.other := by
    intro other
    by_cases hsame : other = side
    · exact Or.inl hsame
    · exact Or.inr (Side.eq_other_of_ne hsame)
  have hwritten : next.machine.written =
      (l.station side).machine.written ++ messages.map frameOf := by
    rw [hcarries.written, (hlinked.carries side).written, hsent, List.map_append]
  constructor
  · exact hsound
  · intro other
    rcases hcases other with rfl | rfl
    · simpa using hcarries
    · simpa using hlinked.carries side.other
  · intro other
    rcases hcases other with rfl | rfl
    · refine ⟨pending, ?_, ?_⟩
      · simpa using hpending
      · simpa using htransit
    · obtain ⟨before, hbefore, hline⟩ := hlinked.transit side.other
      refine ⟨before ++ messages, ?_, ?_⟩
      · rw [Side.other_other] at hbefore ⊢
        simp [hsent, hbefore]
      · have hwire := Link.put_wire_other (l :=
          { l with wire := Function.update l.wire side wire }) hwritten
        rw [hwire]
        simpa using hline.append messages
  · intro other
    rcases hcases other with rfl | rfl
    · simpa using hwanted
    · simpa [hothers] using hlinked.wanted side.other

variable {alloc : Side → Allocator}

/-- A call that may be made. -/
theorem linked_call (halloc : ∀ side, (alloc side).Succeeds)
    (hlinked : Linked wanted l parties) {side : Side} {cmd : UInt8}
    {data : Block} {len : UInt32} {reply : Bool}
    (hallowed : Link.Allowed (.call side cmd data len reply) l) :
    ∃ next parties', l.move alloc (.call side cmd data len reply) = .ok next ∧
      Linked (fun other => wanted other ++
        Link.asked other [.call side cmd data len reply]) next parties' := by
  obtain ⟨hwaiting, hzero, hcommand, hle, hdata⟩ := hallowed
  have hcarries := hlinked.carries side
  have hfree : (parties side).made.length = (parties side).taken := by
    rcases hcarries.waiting with ⟨_, hfree⟩ | ⟨call, _, hcall, _⟩
    · exact hfree
    · rw [hcall] at hwaiting
      cases hwaiting
  have hlength : (data.take len.toNat).length = len.toNat := by
    rw [List.length_take, min_eq_left hdata]
  obtain ⟨next, hsend, hnext, hholding⟩ := carries_call (halloc side) hcarries
    hfree (hlinked.sound.replies_le side)
    ⟨cmd, (l.station side).sendSn, data.take len.toNat, hlength.trans_le hle⟩
    rfl hlength (List.take_prefix _ _) hzero hcommand reply
  obtain ⟨pending, hpending, current, hcurrent, hbytes, hhead⟩ :=
    hlinked.transit side
  have hput := hlinked.put (fun other => wanted other ++
      Link.asked other [.call side cmd data len reply])
    (hlinked.sound.step (.ask side _ hfree)) hnext [_] rfl hpending
    ⟨current, hholding current hcurrent, hbytes, hhead⟩
    (by simp [Party.ask, Link.asked, hlinked.wanted]) (by simp [Link.asked])
  rw [Function.update_eq_self] at hput
  exact ⟨_, _, Link.move_call hsend, hput⟩

/-- The next byte. -/
theorem linked_arrive (halloc : ∀ side, (alloc side).Succeeds)
    (hlinked : Linked wanted l parties) {side : Side}
    (hwire : l.wire side ≠ []) :
    ∃ next parties', l.move alloc (.arrive side) = .ok next ∧
      Linked wanted next parties' ∧
      next.work parties' side + next.work parties' side.other <
        l.work parties side + l.work parties side.other := by
  obtain ⟨ch, rest, hbyte⟩ := List.exists_cons_of_ne_nil hwire
  have hcarries := hlinked.carries side
  obtain ⟨pending, hpending, htransit⟩ := hlinked.transit side
  rw [hbyte] at htransit
  obtain ⟨message, more, current, tail, rfl, hholding, hframe, hrest⟩ :=
    htransit.cons
  by_cases htail : tail = []
  · subst htail
    have hmem : message ∈ (parties side.other).sent := by simp [hpending]
    have hordered : (parties side).arrived ++ [message] <+:
        (parties side.other).sent := by
      rw [hpending]
      exact ⟨more, by simp⟩
    obtain ⟨machine, hnext, hholds, hleaves, hhanded, hwritten⟩ :=
      rcv_last (halloc side) hholding (hlinked.proper hmem) hframe
    have hlast := carries_last hcarries hholding hnext hleaves hhanded hwritten
      (by
        rintro packet rfl
        obtain ⟨hlength, _, hreply⟩ := hlinked.sound.reply_next hordered
        exact ⟨hlength, hreply⟩)
    have htransit' : Transit machine rest more := by
      refine ⟨[], hholds, hrest, ?_⟩
      intro first _
      exact length_frameOf_pos first
    have hput := hlinked.put wanted
      (hlinked.sound.step (.receive side message hordered)) hlast
      (message.answered Packet.reply) rfl
      (by simp [Party.receive, hpending]) htransit' (hlinked.wanted side) rfl
    refine ⟨_, _, Link.move_arrive hbyte (receive_eq hnext), hput, ?_⟩
    obtain ⟨hself, hother⟩ := @Link.work_put l side
      (afterByte (l.station side) ch machine) parties
      ((parties side).receive Packet.reply message) rest _ hwritten
    rw [hself, hother]
    simp only [Link.work, Side.other_other, hbyte, List.length_cons,
      afterByte_waiting]
    cases message with
    | request packet =>
        have hlt := hlinked.sound.request_next hordered
        have hlength := packet.reply.length_frame
        have hle := packet.reply.length_le
        simp only [Party.receive, Message.answered, requests_append,
          requests_request, List.length_append, List.length_singleton,
          List.map_cons, List.map_nil, List.flatten_cons, List.flatten_nil,
          frameOf, packetOf, List.append_nil]
        omega
    | reply packet =>
        simp only [Party.receive, Message.answered, requests_append,
          requests_reply, List.append_nil, List.map_nil, List.flatten_nil,
          List.length_nil]
        omega
  · obtain ⟨machine, hnext, hholds, hleaves, hquiet, hwritten⟩ :=
      rcv_inside (halloc side) hholding (packetOf message) hframe htail
    have hinside := carries_inside hcarries hholding hnext hleaves hquiet
      hwritten
    have htransit' : Transit machine rest (message :: more) := by
      refine ⟨current ++ [ch], hholds, ?_, ?_⟩
      · rw [hrest, List.map_cons, List.flatten_cons, ← hframe]
        simp
      · intro first hfirst
        cases hfirst
        have hlength := congrArg List.length hframe
        have hpositive := List.length_pos_iff.mpr htail
        simp only [List.length_append, List.length_cons, List.length_nil]
          at hlength ⊢
        omega
    have hsame := Function.update_eq_self side parties
    have hput := hlinked.put wanted (hsame.symm ▸ hlinked.sound) hinside []
      (List.append_nil _).symm hpending htransit' (hlinked.wanted side) rfl
    rw [hsame] at hput
    refine ⟨_, parties, Link.move_arrive hbyte (receive_eq hnext), hput, ?_⟩
    obtain ⟨hself, hother⟩ := @Link.work_put l side
      (afterByte (l.station side) ch machine) parties (parties side) rest []
      (hwritten.trans (List.append_nil _).symm)
    rw [hsame] at hself hother
    rw [hself, hother]
    simp only [Link.work, Side.other_other, hbyte, List.length_cons,
      afterByte_waiting, List.flatten_nil, List.length_nil]
    omega

/-- A turn of the wait. -/
theorem linked_poll (hlinked : Linked wanted l parties) (side : Side) :
    (l.move alloc (.poll side) = .ok l ∧
        ((l.station side).waiting = [] ∨ (l.station side).machine.replied = 0)) ∨
      ∃ next parties', l.move alloc (.poll side) = .ok next ∧
        Linked wanted next parties' ∧
        next.work parties' side + next.work parties' side.other <
          l.work parties side + l.work parties side.other := by
  rcases carries_poll (hlinked.carries side) (hlinked.sound.replied_in_order side)
    (hlinked.sound.made_le side) with ⟨hpoll, hidle⟩ | ⟨hwaiting, hfull, hready,
    next, hpoll, hnext, hnone, hholding⟩
  · refine Or.inl ⟨?_, hidle⟩
    rw [Link.move_poll hpoll, Link.put_self]
  · right
    obtain ⟨pending, hpending, current, hcurrent, hbytes, hhead⟩ :=
      hlinked.transit side
    have hput := hlinked.put wanted
      (hlinked.sound.step (.take side hready)) hnext [] (List.append_nil _).symm
      hpending ⟨current, hholding current hcurrent, hbytes, hhead⟩
      (hlinked.wanted side) rfl
    rw [Function.update_eq_self] at hput
    refine ⟨_, _, Link.move_poll hpoll, hput, ?_⟩
    have hwritten : next.machine.written =
        (l.station side).machine.written ++ [] := by
      rw [hnext.written, List.append_nil, (hlinked.carries side).written]
      rfl
    obtain ⟨hself, hother⟩ := @Link.work_put l side next parties
      (parties side).take (l.wire side) [] hwritten
    rw [Function.update_eq_self] at hself hother
    rw [hself, hother]
    have hcall := List.length_pos_iff.mpr hwaiting
    simp only [Link.work, Side.other_other, Party.take, hnone, List.length_nil,
      List.flatten_nil]
    omega

/-- Every move that may be made succeeds. -/
theorem linked_move (halloc : ∀ side, (alloc side).Succeeds)
    (hlinked : Linked wanted l parties) {move : Move}
    (hallowed : Link.Allowed move l) :
    ∃ next parties', l.move alloc move = .ok next ∧
      Linked (fun side => wanted side ++ Link.asked side [move]) next
        parties' := by
  have hnothing : ∀ side : Side, wanted side ++ [] = wanted side := by simp
  cases move with
  | call side cmd data len reply => exact linked_call halloc hlinked hallowed
  | arrive side =>
      simp only [Link.asked, hnothing]
      by_cases hwire : l.wire side = []
      · refine ⟨l, parties, ?_, hlinked⟩
        simp only [Link.move, hwire]
      · obtain ⟨next, parties', hmove, hnext, _⟩ :=
          linked_arrive halloc hlinked hwire
        exact ⟨next, parties', hmove, hnext⟩
  | poll side =>
      simp only [Link.asked, hnothing]
      rcases @linked_poll wanted l parties alloc hlinked side with ⟨hmove, _⟩ |
        ⟨next, parties', hmove, hnext, _⟩
      · exact ⟨l, parties, hmove, hlinked⟩
      · exact ⟨next, parties', hmove, hnext⟩

/-- Over a run, the calls are those of the run. -/
theorem linked_exec (halloc : ∀ side, (alloc side).Succeeds) {t : Link}
    {moves : List Move} (hlinked : Linked wanted l parties)
    (hexec : (links alloc).exec Link.Allowed moves l = some t) :
    ∃ parties', Linked (fun side => wanted side ++ Link.asked side moves) t
      parties' := by
  induction moves generalizing wanted l parties with
  | nil =>
      cases hexec
      refine ⟨parties, ?_⟩
      simpa [Link.asked] using hlinked
  | cons move moves ih =>
      obtain ⟨hallowed, middle, hmiddle, hrest⟩ :=
        TransitionSystem.exec_cons_eq_some.mp hexec
      obtain ⟨next, parties', hmove, hnext⟩ :=
        linked_move halloc hlinked hallowed
      have hsame : some next = some middle := by
        rw [← hmiddle]
        show _ = (l.move alloc move).toOption
        rw [hmove]
        rfl
      cases hsame
      obtain ⟨parties'', hlast⟩ := ih hnext hrest
      refine ⟨parties'', ?_⟩
      have hasked : ∀ side, Link.asked side (move :: moves) =
          Link.asked side [move] ++ Link.asked side moves :=
        fun side => Link.asked_append side [move] moves
      simpa only [hasked, ← List.append_assoc] using hlast

theorem linked_init (hinit : (links alloc).init l) :
    Linked (fun _ => []) l fun _ => ⟨[], [], [], 0⟩ := by
  constructor
  · exact sound_silent rfl rfl rfl rfl
  · intro side
    obtain ⟨hidle, hreplied, hwritten, hdelivered, hsendSn, hwaiting, hreturned,
      hhanded, hlost, _⟩ := hinit side
    constructor
    · simp [hwritten]
    · simp [hdelivered]
    · exact Or.inl ⟨hreplied, rfl⟩
    · simp [hhanded]
    · exact hreturned
    · exact Or.inl ⟨hwaiting, rfl⟩
    · exact hsendSn
    · intro i packet hpacket
      cases hpacket
    · intro packet hpacket
      cases hpacket
    · exact @orderly_init (alloc side) _
        ⟨hidle, hreplied, hwaiting, hhanded, hlost⟩
  · intro side
    obtain ⟨hidle, _, _, _, _, _, _, _, _, hwire⟩ := hinit side
    refine ⟨[], rfl, [], Holding.idle hidle, ?_, ?_⟩
    · simp [hwire]
    · intro message hmessage
      cases hmessage
  · intro side
    rfl

end Linked

/-! ## Calls and replies -/

/-- The commands among what was handed over. -/
def dealt : List Delivery → List Block
  | [] => []
  | .dealcmd pkt :: delivered => pkt :: dealt delivered
  | .tellsend _ :: delivered => dealt delivered

theorem dealt_map (messages : List (Message Packet Packet)) :
    dealt (messages.map deliveryOf) =
      (requests messages).map Packet.frame := by
  induction messages with
  | nil => rfl
  | cons message messages ih =>
      cases message <;> simp [deliveryOf, dealt, requests, ih]

/-- The calls of a side are numbered, and all but the last one have returned,
each with a value that was never set.  The other side executes them in order,
each once, and each call is handed the reply to its own request. -/
structure Served (side : Side) (calls : List Packet) (l : Link) : Prop where
  numbered : ∀ i packet, calls[i]? = some packet → packet.sn = UInt8.ofNat i
  waiting_le : (l.station side).waiting.length ≤ 1
  length_eq : calls.length =
    (l.station side).handed.length + (l.station side).waiting.length
  handed : (l.station side).handed <+:
    calls.map fun packet => (packet.sn, packet.reply.frame)
  returned : (l.station side).returned =
    List.replicate (l.station side).handed.length none
  executed : dealt (l.station side.other).machine.delivered <+:
    calls.map Packet.frame
  executed_ge : (l.station side).handed.length ≤
    (dealt (l.station side.other).machine.delivered).length
  lost : (l.station side).lost = []

/-- A byte is under way, or a call waits whose reply is in the slot. -/
def Link.Busy : Move → Link → Prop
  | .call .., _ => False
  | .arrive side, l => l.wire side ≠ []
  | .poll side, l =>
      (l.station side).waiting ≠ [] ∧ (l.station side).machine.replied ≠ 0

instance (move : Move) (l : Link) : Decidable (Link.Busy move l) :=
  match move with
  | .call .. => inferInstanceAs (Decidable False)
  | .arrive side => inferInstanceAs (Decidable (l.wire side ≠ []))
  | .poll side => inferInstanceAs (Decidable
      ((l.station side).waiting ≠ [] ∧ (l.station side).machine.replied ≠ 0))

section Calls

variable {wanted : Side → List (UInt8 × Block)} {l : Link}
  {parties : Parties Packet Packet} {alloc : Side → Allocator}

theorem Linked.taken_le (hlinked : Linked wanted l parties) (side : Side) :
    (parties side).taken ≤ (parties side).made.length :=
  (hlinked.sound.taken_le side).trans (hlinked.sound.replies_le side)

theorem Linked.length_handed (hlinked : Linked wanted l parties) (side : Side) :
    (l.station side).handed.length = (parties side).taken := by
  rw [(hlinked.carries side).handed, List.length_map, List.length_take,
    min_eq_left (hlinked.taken_le side)]

theorem Linked.served (hlinked : Linked wanted l parties) (side : Side) :
    Served side (parties side).made l := by
  have hcarries := hlinked.carries side
  have hhanded := hlinked.length_handed side
  have hdealt : dealt (l.station side.other).machine.delivered =
      (requests (parties side.other).arrived).map Packet.frame := by
    rw [(hlinked.carries side.other).delivered, dealt_map]
  have hmade := hlinked.sound.made_le side
  constructor
  · exact hcarries.numbered
  · rcases hcarries.waiting with ⟨hnone, _⟩ | ⟨call, _, hcall, _⟩
    · simp [hnone]
    · simp [hcall]
  · rw [hhanded]
    rcases hcarries.waiting with ⟨hnone, hfree⟩ | ⟨call, packet, hcall, hpacket,
      _⟩
    · simp [hnone, hfree]
    · have hlt := (List.getElem?_eq_some_iff.mp hpacket).1
      simp only [hcall, List.length_singleton]
      omega
  · rw [hcarries.handed]
    exact (List.take_prefix _ _).map _
  · rw [hhanded]
    exact hcarries.returned
  · rw [hdealt]
    exact (hlinked.sound.executed_in_order side).map _
  · have hordered := replies_mono (hlinked.sound.ordered side)
    rw [hlinked.sound.answered] at hordered
    have hlength := hordered.length_le
    have htaken := hlinked.sound.taken_le side
    rw [List.length_map] at hlength
    rw [hdealt, hhanded, List.length_map]
    omega
  · exact hcarries.orderly.matched.lost

/-- A busy line can move, and then has less to do. -/
theorem linked_busy (halloc : ∀ side, (alloc side).Succeeds)
    (hlinked : Linked wanted l parties) {move : Move}
    (hbusy : Link.Busy move l) :
    ∃ next parties', l.move alloc move = .ok next ∧
      Linked wanted next parties' ∧
      next.work parties' .near + next.work parties' .far <
        l.work parties .near + l.work parties .far := by
  have hsum : ∀ (line : Link) (parties' : Parties Packet Packet) (side : Side),
      line.work parties' side + line.work parties' side.other =
        line.work parties' .near + line.work parties' .far := by
    intro line parties' side
    cases side with
    | near => rfl
    | far => exact Nat.add_comm _ _
  cases move with
  | call side cmd data len reply => exact hbusy.elim
  | arrive side =>
      obtain ⟨next, parties', hmove, hnext, hwork⟩ :=
        linked_arrive halloc hlinked hbusy
      rw [hsum, hsum] at hwork
      exact ⟨next, parties', hmove, hnext, hwork⟩
  | poll side =>
      rcases @linked_poll wanted l parties alloc hlinked side with ⟨_, hidle⟩ |
        ⟨next, parties', hmove, hnext, hwork⟩
      · rcases hidle with hnone | hzero
        · exact absurd hnone hbusy.1
        · exact absurd hzero hbusy.2
      · rw [hsum, hsum] at hwork
        exact ⟨next, parties', hmove, hnext, hwork⟩

/-- A run of busy moves ends. -/
theorem linked_drain (halloc : ∀ side, (alloc side).Succeeds) {t : Link}
    {moves : List Move} (hlinked : Linked wanted l parties)
    (hexec : (links alloc).exec Link.Busy moves l = some t) :
    ∃ parties', Linked wanted t parties' ∧
      moves.length + (t.work parties' .near + t.work parties' .far) ≤
        l.work parties .near + l.work parties .far := by
  induction moves generalizing l parties with
  | nil =>
      cases hexec
      exact ⟨parties, hlinked, by simp⟩
  | cons move moves ih =>
      obtain ⟨hbusy, middle, hmiddle, hrest⟩ :=
        TransitionSystem.exec_cons_eq_some.mp hexec
      obtain ⟨next, parties', hmove, hnext, hwork⟩ :=
        linked_busy halloc hlinked hbusy
      have hsame : some next = some middle := by
        rw [← hmiddle]
        show _ = (l.move alloc move).toOption
        rw [hmove]
        rfl
      cases hsame
      obtain ⟨parties'', hlast, hle⟩ := ih hnext hrest
      refine ⟨parties'', hlast, ?_⟩
      rw [List.length_cons]
      omega

/-- A line that is not busy has nothing under way, and no call waits. -/
theorem Linked.settled (hlinked : Linked wanted l parties)
    (hquiet : ∀ move, ¬ Link.Busy move l) (side : Side) :
    l.wire side = [] ∧ (l.station side).waiting = [] ∧
      (parties side).made.length = (parties side).taken := by
  have hwire : ∀ other, l.wire other = [] := fun other =>
    not_not.mp (hquiet (.arrive other))
  have harrived : ∀ other,
      (parties other).arrived = (parties other.other).sent := by
    intro other
    obtain ⟨pending, hpending, current, _, hbytes, hhead⟩ :=
      hlinked.transit other
    cases pending with
    | nil => simpa using hpending.symm
    | cons message more =>
        have hshort := hhead message rfl
        have hlength := congrArg List.length hbytes
        rw [hwire other] at hlength
        simp only [List.append_nil, List.map_cons, List.flatten_cons,
          List.length_append] at hlength
        omega
  have hreplies := congrArg List.length (hlinked.sound.settled harrived side)
  rw [List.length_map] at hreplies
  rcases (hlinked.carries side).waiting with ⟨hnone, hfree⟩ | ⟨call, packet,
    hcall, hpacket, _⟩
  · exact ⟨hwire side, hnone, hfree⟩
  · have hlt := (List.getElem?_eq_some_iff.mp hpacket).1
    have hidle : (l.station side).machine.replied = 0 := by
      by_contra hfull
      exact hquiet (.poll side) ⟨by simp [hcall], hfull⟩
    rcases (hlinked.carries side).slot with ⟨_, htaken⟩ | ⟨hfull, _⟩
    · omega
    · exact absurd hidle hfull

/-- In every run of the line whose calls may be made, every move that may be
made succeeds, and the calls of both sides are served. -/
theorem link_serves (halloc : ∀ side, (alloc side).Succeeds) {start : Link}
    (hinit : (links alloc).init start) {moves : List Move}
    (hexec : (links alloc).exec Link.Allowed moves start = some l) :
    (∀ move, Link.Allowed move l → ∃ next, l.move alloc move = .ok next) ∧
      ∀ side, ∃ calls : List Packet,
        calls.map (fun packet => (packet.cmd, packet.payload)) =
          Link.asked side moves ∧ Served side calls l := by
  obtain ⟨parties, hlinked⟩ := linked_exec halloc (linked_init hinit) hexec
  constructor
  · intro move hallowed
    obtain ⟨next, _, hmove, _⟩ := linked_move halloc hlinked hallowed
    exact ⟨next, hmove⟩
  · intro side
    exact ⟨(parties side).made, hlinked.wanted side, hlinked.served side⟩

/-- Whatever was called, bytes and turns of the wait that do something go on for
a bounded number of steps, none of which fails; then every call has returned,
with the reply to its request and a value that was never set. -/
theorem link_settles (halloc : ∀ side, (alloc side).Succeeds) {start : Link}
    (hinit : (links alloc).init start) {moves : List Move}
    (hexec : (links alloc).exec Link.Allowed moves start = some l) :
    ∃ bound, ∀ (more : List Move) (t : Link),
      (links alloc).exec Link.Busy more l = some t → more.length ≤ bound ∧
        (∀ move, Link.Busy move t → ∃ next, t.move alloc move = .ok next) ∧
        ((∀ move, ¬ Link.Busy move t) → ∀ side,
          t.wire side = [] ∧ (t.station side).waiting = [] ∧
            ∃ calls : List Packet,
              calls.map (fun packet => (packet.cmd, packet.payload)) =
                Link.asked side moves ∧
              (t.station side).handed = calls.map
                (fun packet => (packet.sn, packet.reply.frame)) ∧
              (t.station side).returned =
                List.replicate calls.length none) := by
  obtain ⟨parties, hlinked⟩ := linked_exec halloc (linked_init hinit) hexec
  refine ⟨l.work parties .near + l.work parties .far, ?_⟩
  intro more t hmore
  obtain ⟨parties', hlast, hle⟩ := linked_drain halloc hlinked hmore
  refine ⟨by omega, ?_, ?_⟩
  · intro move hbusy
    obtain ⟨next, _, hmove, _⟩ := linked_busy halloc hlast hbusy
    exact ⟨next, hmove⟩
  · intro hquiet side
    obtain ⟨hwire, hwaiting, htaken⟩ := hlast.settled hquiet side
    refine ⟨hwire, hwaiting, (parties' side).made, hlast.wanted side, ?_, ?_⟩
    · rw [(hlast.carries side).handed, ← htaken, List.take_length]
    · rw [(hlast.carries side).returned, htaken]

end Calls

/-! ## Two calls that cross -/

def freshLink : Link where
  station _ := freshStation
  wire _ := []

theorem freshLink_init (alloc : Side → Allocator) :
    (links alloc).init freshLink :=
  fun _ => ⟨rfl, rfl, rfl, rfl, rfl, rfl, rfl, rfl, rfl, rfl⟩

/-- Both sides call, and the far one answers before it has its own reply. -/
def crossingCalls : List Move :=
  [.call .near 0x61 [9, 8] 1 true, .call .far 0x02 [] 0 false] ++
    List.replicate 7 (.arrive .far) ++ List.replicate 10 (.arrive .near)

theorem link_serves_crossingCalls :
    ∃ l, (links fun _ => zeroAlloc).exec Link.Allowed crossingCalls freshLink =
        some l ∧
      (∀ side, ((l.station side).waiting.length = 1)) ∧
      ∀ side, ∃ calls : List Packet,
        calls.map (fun packet => (packet.cmd, packet.payload)) =
          Link.asked side crossingCalls ∧ Served side calls l := by
  have hexec : (links fun _ => zeroAlloc).exec Link.Allowed crossingCalls
      freshLink = some _ := rfl
  have hserves := link_serves (fun _ _ => rfl) (freshLink_init _) hexec
  refine ⟨_, hexec, ?_, hserves.2⟩
  intro side
  cases side <;> rfl

/-- The rest of both replies, and the turns that take them. -/
def remainingMoves : List Move :=
  List.replicate 3 (.arrive .near) ++ List.replicate 7 (.arrive .far) ++
    [.poll .near, .poll .far]

def crossed : Link :=
  ((links fun _ => zeroAlloc).exec Link.Allowed crossingCalls freshLink).getD
    freshLink

def settled : Link :=
  ((links fun _ => zeroAlloc).exec Link.Busy remainingMoves crossed).getD
    crossed

theorem link_settles_crossingCalls :
    ∃ bound, remainingMoves.length ≤ bound ∧
      ∀ side, ∃ calls : List Packet,
        calls.map (fun packet => (packet.cmd, packet.payload)) =
          Link.asked side crossingCalls ∧
        (settled.station side).handed = calls.map
          (fun packet => (packet.sn, packet.reply.frame)) ∧
        (settled.station side).returned =
          List.replicate calls.length none := by
  have hexec : (links fun _ => zeroAlloc).exec Link.Allowed crossingCalls
      freshLink = some crossed := rfl
  have hmore : (links fun _ => zeroAlloc).exec Link.Busy remainingMoves
      crossed = some settled := rfl
  have hidle : ∀ move, ¬ Link.Busy move settled := by
    intro move hbusy
    cases move with
    | call => exact hbusy
    | arrive side => cases side <;> exact hbusy rfl
    | poll side => cases side <;> exact hbusy.1 rfl
  obtain ⟨bound, hsettles⟩ :=
    link_settles (fun _ _ => rfl) (freshLink_init _) hexec
  obtain ⟨hle, _, hquiet⟩ := hsettles _ _ hmore
  refine ⟨bound, hle, ?_⟩
  intro side
  obtain ⟨_, _, hcalls⟩ := hquiet hidle side
  exact hcalls

end Serial

end ClpszDemos
