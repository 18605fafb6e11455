import ClpszDemos.ProgramLogic
import ClpszDemos.SerialFrames

/-!
# Sending a command

`ser_cmd_send` writes a request and waits for the flag of the reply slot, which
the receiver sets.  Its wait is cut into polls, and what it does after the wait
belongs to the poll that finds the flag set.  The sequence number of the
request is passed to the wait, which does not look at it.
-/

namespace ClpszDemos

namespace Serial

/-- A call of `ser_cmd_send` that waits; `reply` says that its caller wants
the reply packet. -/
structure Call where
  pkt : ℕ
  sn : UInt8
  reply : Bool

/-- One end of the line: the receiver, the sequence counter and the waiting
calls.  For the statements only, it keeps what the calls have returned, where
`none` is a variable that was never set, the replies that they were handed, each
with the sequence number of the request, and those that were overwritten while a
request with their number was outstanding. -/
structure Station where
  machine : Machine
  sendSn : UInt8
  waiting : List Call
  returned : List (Option ErrCode)
  handed : List (UInt8 × Block)
  lost : List Block

/-- Nothing was received or sent yet. -/
def freshStation : Station where
  machine := idleMachine
  sendSn := 0
  waiting := []
  returned := []
  handed := []
  lost := []

/-- `ser_cmd_send` up to its wait. -/
def serCmdSend (alloc : Allocator) (cmd : UInt8) (pktData : Option Block)
    (len : UInt32) (reply : Bool) (s : Station) : Except Trap Station := do
  match s.machine.heap.malloc alloc (6 + len).toNat with
  | (none, heap) => return { s with
      machine := { s.machine with heap := heap }
      returned := s.returned ++ [some .nomem] }
  | (some p, heap) =>
      let pkt ← heap.block (some p)
      let pkt ← buildPkt cmd s.sendSn pkt pktData len
      let machine ← serHalWrite pkt (6 + len)
        { s.machine with heap := heap.update (some p) pkt }
      let sn ← pkt.load snOffset
      return { s with
        machine := machine
        sendSn := s.sendSn + 1
        waiting := s.waiting ++ [⟨p, sn, reply⟩] }

/-- One turn of the wait of `ser_hal_rcvreply`, and what follows the wait: its
code and the reply. -/
def serHalRcvreply (pkt : Bool) (_sn : UInt8) (m : Machine) :
    Except Trap (Option (ErrCode × Block) × Machine) := do
  if m.replied = 0 then return (none, m)
  else
    let m := { m with replied := 0 }
    let reply ← m.heap.block m.repliedPkt
    let len ← reply.load lenOffset
    let _ ← readBytes reply len.toNat
    if pkt then return (some (.ok, reply), m)
    else
      let heap ← m.heap.free m.repliedPkt
      return (some (.ok, reply), { m with heap := heap })

/-- The `k`-th waiting call of `ser_cmd_send` looks for its reply.  Behind the
wait `ret_res` is set if the wait has failed, and is returned in any case. -/
def poll (k : ℕ) (s : Station) : Except Trap Station := do
  match s.waiting[k]? with
  | none => return s
  | some call =>
      match ← serHalRcvreply call.reply call.sn s.machine with
      | (none, machine) => return { s with machine := machine }
      | (some (res, reply), machine) =>
          let retRes := if res ≠ .ok then some res else none
          let heap ← machine.heap.free (some call.pkt)
          return { s with
            machine := { machine with heap := heap }
            waiting := s.waiting.eraseIdx k
            returned := s.returned ++ [retRes]
            handed := s.handed ++ [(call.sn, reply)] }

/-! ## The request -/

theorem Block.load_store_ne {block next : Block} {i j : ℕ} {byte : UInt8}
    (hstore : block.store i byte = .ok next) (hne : i ≠ j) :
    next.load j = block.load j := by
  unfold Block.store at hstore
  split at hstore
  · cases hstore
    unfold Block.load
    rw [List.getElem?_set_ne hne]
  · cases hstore

theorem Block.load_store_self {block next : Block} {i : ℕ} {byte : UInt8}
    (hstore : block.store i byte = .ok next) : next.load i = .ok byte := by
  unfold Block.store at hstore
  split at hstore
  case isTrue hlt =>
    cases hstore
    unfold Block.load
    rw [List.getElem?_set_self hlt]
  case isFalse => cases hstore

theorem Block.load_memcpy_lt {block source next : Block} {offset len i : ℕ}
    (hcopy : block.memcpy offset source len = .ok next) (hlt : i < offset) :
    next.load i = block.load i := by
  unfold Block.memcpy at hcopy
  split at hcopy
  case isTrue hfits =>
    cases hcopy
    have hlength : i < (block.take offset).length := by
      rw [List.length_take]
      omega
    unfold Block.load
    rw [List.append_assoc, List.getElem?_append_left hlength,
      List.getElem?_take_of_lt hlt]
  case isFalse => cases hcopy

/-- Whatever it is given, `_build_pkt` stores the sequence number. -/
theorem buildPkt_sn {cmd sn : UInt8} {buffer pkt : Block}
    {pktData : Option Block} {len : UInt32}
    (hbuild : buildPkt cmd sn buffer pktData len = .ok pkt) :
    pkt.load snOffset = .ok sn := by
  unfold buildPkt at hbuild
  obtain ⟨headed, _, hbuild⟩ := except_bind_eq_ok hbuild
  obtain ⟨sized, _, hbuild⟩ := except_bind_eq_ok hbuild
  obtain ⟨numbered, hnumbered, hbuild⟩ := except_bind_eq_ok hbuild
  obtain ⟨commanded, hcommanded, hbuild⟩ := except_bind_eq_ok hbuild
  have hcommand : commanded.load snOffset = .ok sn :=
    (Block.load_store_ne hcommanded (by decide)).trans
      (Block.load_store_self hnumbered)
  cases pktData with
  | none =>
      obtain ⟨filled, hfilled, hbuild⟩ := except_bind_eq_ok hbuild
      obtain ⟨sum, _, hsummed⟩ := except_bind_eq_ok hbuild
      cases hfilled
      exact (Block.load_store_ne hsummed (by decide)).trans hcommand
  | some data =>
      obtain ⟨filled, hfilled, hbuild⟩ := except_bind_eq_ok hbuild
      obtain ⟨sum, _, hsummed⟩ := except_bind_eq_ok hbuild
      calc
        pkt.load snOffset = filled.load snOffset :=
          Block.load_store_ne hsummed (by decide)
        _ = commanded.load snOffset :=
          Block.load_memcpy_lt hfilled (by decide)
        _ = .ok sn := hcommand

/-- A request of at most 249 bytes is written as one frame. -/
theorem serCmdSend_some {alloc : Allocator} {s : Station} {cmd : UInt8}
    {data : Block} {len : UInt32} (packet : Packet)
    (hsome : (alloc s.machine.heap.length).isSome = true)
    (hcmd : packet.cmd = cmd) (hsn : packet.sn = s.sendSn)
    (hlen : packet.payload.length = len.toNat)
    (hdata : packet.payload <+: data) (reply : Bool) :
    serCmdSend alloc cmd (some data) len reply s = .ok { s with
      machine := { s.machine with
        heap := s.machine.heap ++ [some packet.frame]
        written := s.machine.written ++ [packet.frame] }
      sendSn := s.sendSn + 1
      waiting := s.waiting ++ [⟨s.machine.heap.length, s.sendSn, reply⟩] } := by
  have hle := packet.length_le
  have hlength := packet.length_frame
  have hsize : (6 + len).toNat = 6 + len.toNat := by
    have hsix : (6 : UInt32).toNat = 6 := rfl
    simp only [UInt32.toNat_add, hsix]
    omega
  obtain ⟨fresh, hfresh, hmalloc⟩ := Heap.malloc_some hsome (6 + len).toNat
  have hbuild : buildPkt cmd s.sendSn fresh (some data) len =
      .ok packet.frame := by
    apply buildPkt_eq packet hcmd hsn hlen (hfresh.trans hsize)
    · intro other hother
      cases hother
      rw [← hlen]
      exact ⟨hdata.length_le, List.prefix_iff_eq_take.mp hdata⟩
    · intro hnone
      cases hnone
  have hwrite : readBytes packet.frame (6 + len).toNat = .ok packet.frame := by
    have hwhole : (6 + len).toNat = packet.frame.length := by omega
    rw [hwhole, readBytes, if_pos le_rfl, List.take_length]
  have hload : packet.frame.load snOffset = .ok packet.sn := rfl
  unfold serCmdSend
  simp only [hmalloc, Heap.block_append_self, hbuild, Heap.update_append_self,
    serHalWrite, hwrite, hload, hsn, bind, Except.bind, pure, Except.pure]

end Serial

end ClpszDemos
