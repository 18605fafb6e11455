import ClpszDemos.SerialReceiver
import ClpszDemos.SerialSend
import ClpszDemos.TransitionSystem

/-!
# Requests and their replies

Calls of `ser_cmd_send`, bytes for the receiver and polls of the waiting calls
come in any order.  Nothing compares sequence numbers: a reply goes to the slot
whatever its number and whatever the slot holds, and the next poll takes what is
there.  Replies meet their requests as long as they come on time.
-/

namespace ClpszDemos

namespace Serial

/-! ## The station -/

/-- What happens at a station. -/
inductive Event
  | send (cmd : UInt8) (pktData : Option Block) (len : UInt32) (reply : Bool)
  | receive (ch : UInt8)
  | poll (k : ℕ)

def replySn (pkt : Block) : Option UInt8 := pkt[snOffset]?

/-- The reply that waits in the slot. -/
def Machine.slot (m : Machine) : Option Block :=
  if m.replied = 0 then none else (m.heap.block m.repliedPkt).toOption

def Delivery.isReply : Delivery → Bool
  | .tellsend _ => true
  | .dealcmd _ => false

/-- The reply to an outstanding request that this byte makes the receiver
overwrite. -/
def overwritten (s : Station) (ch : UInt8) : List Block :=
  if (byteDeliveries s.machine ch).any Delivery.isReply then
    s.machine.slot.toList.filter fun pkt =>
      s.waiting.any fun call => replySn pkt = some call.sn
  else []

def receive (alloc : Allocator) (ch : UInt8) (s : Station) :
    Except Trap Station := do
  let machine ← rcvByte alloc s.machine ch
  return { s with machine := machine, lost := s.lost ++ overwritten s ch }

def Station.step (alloc : Allocator) : Event → Station → Except Trap Station
  | .send cmd pktData len reply, s => serCmdSend alloc cmd pktData len reply s
  | .receive ch, s => receive alloc ch s
  | .poll k, s => Serial.poll k s

def stations (alloc : Allocator) : TransitionSystem Station Event where
  init s := s.machine.i = 0 ∧ s.machine.replied = 0 ∧ s.waiting = [] ∧
    s.handed = [] ∧ s.lost = []
  step event s := (s.step alloc event).toOption

/-- Every reply that was handed to a call has the sequence number of its
request, and none was lost that a call was waiting for. -/
structure Matched (s : Station) : Prop where
  handed : ∀ exchange ∈ s.handed, replySn exchange.2 = some exchange.1
  lost : s.lost = []

/-- A request is sent while the slot is free, or holds a reply with its number.
A reply comes with the number of the waiting request, and not before the reply
that came first was taken; while no call waits it may come at any time. -/
def Timely : Event → Station → Prop
  | .send .., s => ∀ pkt ∈ s.machine.slot, replySn pkt = some s.sendSn
  | .receive ch, s => ∀ delivery ∈ byteDeliveries s.machine ch,
      delivery.isReply = true → ∀ call ∈ s.waiting,
        replySn delivery.pkt = some call.sn ∧ s.machine.slot = none
  | .poll _, _ => True

/-! ## The invariant -/

/-- The buffer of the receiver, the reply in the slot and the requests are
different blocks, and whichever call takes the reply gets its own. -/
structure Orderly (s : Station) : Prop where
  holding : ∃ current, Holding current s.machine
  slot : s.machine.replied ≠ 0 → ∃ pkt,
    s.machine.heap.block s.machine.repliedPkt = .ok pkt ∧
      ∀ call ∈ s.waiting, replySn pkt = some call.sn
  slot_ne_buf : s.machine.replied ≠ 0 → 3 ≤ s.machine.i.toNat →
    s.machine.repliedPkt ≠ s.machine.buf
  slot_ne_request : s.machine.replied ≠ 0 → ∀ call ∈ s.waiting,
    s.machine.repliedPkt ≠ some call.pkt
  request_lt : ∀ call ∈ s.waiting, call.pkt < s.machine.heap.length
  request_ne_buf : 3 ≤ s.machine.i.toNat → ∀ call ∈ s.waiting,
    some call.pkt ≠ s.machine.buf
  matched : Matched s

/-- A buffer that is in use is in memory. -/
theorem Holding.exists_buffer {current : Block} {m : Machine}
    (hholding : Holding current m) (hthree : 3 ≤ m.i.toNat) :
    ∃ p block, m.buf = some p ∧ m.heap.block (some p) = .ok block := by
  have hlength : 3 ≤ current.length := by
    rw [← hholding.index]
    exact hthree
  obtain ⟨block, hblock, _⟩ := (hholding.body hlength).block
  obtain ⟨p, hp, _⟩ := Heap.block_eq_ok_iff.mp hblock
  rw [hp] at hblock
  exact ⟨p, block, hp, hblock⟩

/-- The receiver does not notice changes outside its buffer. -/
theorem Holding.elsewhere {current : Block} {m next : Machine}
    (hholding : Holding current m) (hi : next.i = m.i)
    (hhead : next.head = m.head) (hpktLen : next.pktLen = m.pktLen)
    (hbuf : next.buf = m.buf)
    (hblock : 3 ≤ m.i.toNat → ∀ block, m.heap.block m.buf = .ok block →
      next.heap.block m.buf = .ok block) : Holding current next where
  index := by
    rw [hi]
    exact hholding.index
  mac_head := hholding.mac_head
  head := by
    rw [hhead]
    exact hholding.head
  body := by
    intro hlength
    have hbody := hholding.body hlength
    obtain ⟨block, hin, hsize, htake⟩ := hbody.block
    have hthree : 3 ≤ m.i.toNat := by
      rw [hholding.index]
      exact hlength
    constructor
    · rw [hpktLen]
      exact hbody.len
    · rw [hpktLen]
      exact hbody.length_ge
    · rw [hpktLen]
      exact hbody.length_lt
    · refine ⟨block, ?_, ?_, htake⟩
      · rw [hbuf]
        exact hblock hthree block hin
      · rw [hpktLen]
        exact hsize

theorem Machine.slot_eq_some {m : Machine} {pkt : Block}
    (hreplied : m.replied ≠ 0)
    (hblock : m.heap.block m.repliedPkt = .ok pkt) : m.slot = some pkt := by
  unfold Machine.slot
  rw [if_neg hreplied, hblock]
  rfl

/-! ## What the steps do -/

theorem serCmdSend_cases {alloc : Allocator} {cmd : UInt8}
    {pktData : Option Block} {len : UInt32} {reply : Bool} {s t : Station}
    (hsend : serCmdSend alloc cmd pktData len reply s = .ok t) :
    ∃ entry written sendSn calls returned,
      t = { s with
        machine := { s.machine with
          heap := s.machine.heap ++ [entry]
          written := written }
        sendSn := sendSn
        waiting := s.waiting ++ calls
        returned := returned } ∧
      ∀ call ∈ calls, call.pkt = s.machine.heap.length ∧
        call.sn = s.sendSn := by
  unfold serCmdSend at hsend
  cases hfill : alloc s.machine.heap.length with
  | none =>
      rw [Heap.malloc_none hfill] at hsend
      cases hsend
      refine ⟨none, s.machine.written, s.sendSn, [],
        s.returned ++ [some .nomem], ?_, ?_⟩
      · rw [List.append_nil]
      · intro call hcall
        cases hcall
  | some fill =>
      have hsome : (alloc s.machine.heap.length).isSome = true := by
        rw [hfill]
        rfl
      obtain ⟨fresh, _, hmalloc⟩ := Heap.malloc_some hsome (6 + len).toNat
      rw [hmalloc] at hsend
      obtain ⟨buffer, _, hsend⟩ := except_bind_eq_ok hsend
      obtain ⟨pkt, hbuild, hsend⟩ := except_bind_eq_ok hsend
      obtain ⟨machine, hwrite, hsend⟩ := except_bind_eq_ok hsend
      obtain ⟨sn, hsn, hsend⟩ := except_bind_eq_ok hsend
      obtain ⟨frame, _, hwritten⟩ := except_bind_eq_ok hwrite
      rw [buildPkt_sn hbuild] at hsn
      rw [Heap.update_append_self] at hwritten
      cases hsn
      cases hwritten
      cases hsend
      refine ⟨some pkt, s.machine.written ++ [frame], s.sendSn + 1,
        [⟨s.machine.heap.length, s.sendSn, reply⟩], s.returned, rfl, ?_⟩
      intro call hcall
      rw [List.mem_singleton.mp hcall]
      exact ⟨rfl, rfl⟩

theorem serHalRcvreply_cases {pkt : Bool} {sn : UInt8} {m next : Machine}
    {found : Option (ErrCode × Block)}
    (hreply : serHalRcvreply pkt sn m = .ok (found, next)) :
    found = none ∧ next = m ∨ ∃ reply heap, found = some (.ok, reply) ∧
      m.replied ≠ 0 ∧ m.heap.block m.repliedPkt = .ok reply ∧
      next = { m with replied := 0, heap := heap } ∧
      heap.length = m.heap.length ∧
      ∀ pointer, pointer ≠ m.repliedPkt →
        heap.block pointer = m.heap.block pointer := by
  unfold serHalRcvreply at hreply
  by_cases hreplied : m.replied = 0
  · rw [if_pos hreplied] at hreply
    cases hreply
    exact Or.inl ⟨rfl, rfl⟩
  · rw [if_neg hreplied] at hreply
    obtain ⟨reply, hblock, hreply⟩ := except_bind_eq_ok hreply
    obtain ⟨len, _, hreply⟩ := except_bind_eq_ok hreply
    obtain ⟨dump, _, hreply⟩ := except_bind_eq_ok hreply
    right
    cases pkt with
    | true =>
        cases hreply
        exact ⟨reply, m.heap, rfl, hreplied, hblock, rfl, rfl,
          fun _ _ => rfl⟩
    | false =>
        obtain ⟨heap, hfree, hreply⟩ := except_bind_eq_ok hreply
        cases hreply
        exact ⟨reply, heap, rfl, hreplied, hblock, rfl, Heap.length_free hfree,
          fun _ hne => Heap.block_free_ne hfree hne⟩

theorem poll_cases {k : ℕ} {s t : Station} (hpoll : poll k s = .ok t) :
    t = s ∨ ∃ call reply heap, call ∈ s.waiting ∧ s.machine.replied ≠ 0 ∧
      s.machine.heap.block s.machine.repliedPkt = .ok reply ∧
      t = { s with
        machine := { s.machine with replied := 0, heap := heap }
        waiting := s.waiting.eraseIdx k
        returned := s.returned ++ [none]
        handed := s.handed ++ [(call.sn, reply)] } ∧
      heap.length = s.machine.heap.length ∧
      ∀ pointer, pointer ≠ s.machine.repliedPkt → pointer ≠ some call.pkt →
        heap.block pointer = s.machine.heap.block pointer := by
  unfold poll at hpoll
  cases hcall : s.waiting[k]? with
  | none =>
      rw [hcall] at hpoll
      cases hpoll
      exact Or.inl rfl
  | some call =>
      rw [hcall] at hpoll
      obtain ⟨⟨found, machine⟩, hreply, hpoll⟩ := except_bind_eq_ok hpoll
      rcases serHalRcvreply_cases hreply with ⟨rfl, rfl⟩ |
        ⟨reply, heap, rfl, hreplied, hblock, rfl, hlength, hothers⟩
      · cases hpoll
        exact Or.inl rfl
      · obtain ⟨freed, hfree, hpoll⟩ := except_bind_eq_ok hpoll
        cases hpoll
        refine Or.inr ⟨call, reply, freed, List.mem_of_getElem? hcall, hreplied,
          hblock, rfl, (Heap.length_free hfree).trans hlength, ?_⟩
        intro pointer hslot hrequest
        exact (Heap.block_free_ne hfree hrequest).trans (hothers pointer hslot)

/-! ## Timely steps -/

section Steps

variable {alloc : Allocator} {s t : Station}

theorem Orderly.slot_lt (horderly : Orderly s) (hreplied : s.machine.replied ≠ 0)
    {p : ℕ} (hp : s.machine.repliedPkt = some p) :
    p < s.machine.heap.length := by
  obtain ⟨pkt, hpkt, _⟩ := horderly.slot hreplied
  rw [hp] at hpkt
  exact Heap.lt_length_of_block hpkt

theorem orderly_send (horderly : Orderly s) {cmd : UInt8}
    {pktData : Option Block} {len : UInt32} {reply : Bool}
    (htimely : Timely (.send cmd pktData len reply) s)
    (hsend : serCmdSend alloc cmd pktData len reply s = .ok t) :
    Orderly t := by
  obtain ⟨entry, written, sendSn, calls, returned, rfl, hcalls⟩ :=
    serCmdSend_cases hsend
  constructor
  · obtain ⟨current, hholding⟩ := horderly.holding
    refine ⟨current, hholding.elsewhere rfl rfl rfl rfl ?_⟩
    intro _ block hblock
    exact Heap.block_append hblock [entry]
  · intro hreplied
    obtain ⟨pkt, hpkt, hsn⟩ := horderly.slot hreplied
    refine ⟨pkt, Heap.block_append hpkt [entry], ?_⟩
    intro call hcall
    rcases List.mem_append.mp hcall with hold | hnew
    · exact hsn call hold
    · rw [(hcalls call hnew).2]
      exact htimely pkt (Machine.slot_eq_some hreplied hpkt)
  · exact horderly.slot_ne_buf
  · intro hreplied call hcall
    rcases List.mem_append.mp hcall with hold | hnew
    · exact horderly.slot_ne_request hreplied call hold
    · intro hsame
      have hlt := horderly.slot_lt hreplied hsame
      rw [(hcalls call hnew).1] at hlt
      exact absurd hlt (lt_irrefl _)
  · intro call hcall
    show call.pkt < (s.machine.heap ++ [entry]).length
    rw [List.length_append, List.length_singleton]
    rcases List.mem_append.mp hcall with hold | hnew
    · have hlt := horderly.request_lt call hold
      omega
    · rw [(hcalls call hnew).1]
      omega
  · intro hthree call hcall
    rcases List.mem_append.mp hcall with hold | hnew
    · exact horderly.request_ne_buf hthree call hold
    · obtain ⟨current, hholding⟩ := horderly.holding
      obtain ⟨p, block, hp, hblock⟩ := hholding.exists_buffer hthree
      have hlt := Heap.lt_length_of_block hblock
      show some call.pkt ≠ s.machine.buf
      rw [hp, (hcalls call hnew).1]
      intro hsame
      cases hsame
      exact absurd hlt (lt_irrefl _)
  · exact ⟨horderly.matched.handed, horderly.matched.lost⟩

theorem orderly_poll (horderly : Orderly s) {k : ℕ}
    (hpoll : poll k s = .ok t) : Orderly t := by
  rcases poll_cases hpoll with rfl | ⟨call, reply, heap, hcall, hreplied, hreply,
    rfl, hlength, hothers⟩
  · exact horderly
  · have hzero : ∀ {P : Prop}, (0 : UInt8) ≠ 0 → P := fun hne =>
      absurd rfl hne
    have hmem : ∀ other ∈ s.waiting.eraseIdx k, other ∈ s.waiting :=
      fun other hother => List.mem_of_mem_eraseIdx hother
    constructor
    · obtain ⟨current, hholding⟩ := horderly.holding
      refine ⟨current, hholding.elsewhere rfl rfl rfl rfl ?_⟩
      intro hthree block hblock
      have hslot := (horderly.slot_ne_buf hreplied hthree).symm
      have hrequest := (horderly.request_ne_buf hthree call hcall).symm
      exact (hothers _ hslot hrequest).trans hblock
    · exact fun hne => hzero hne
    · exact fun hne => hzero hne
    · exact fun hne => hzero hne
    · intro other hother
      exact hlength ▸ horderly.request_lt other (hmem other hother)
    · intro hthree other hother
      exact horderly.request_ne_buf hthree other (hmem other hother)
    · constructor
      · intro exchange hexchange
        rcases List.mem_append.mp hexchange with hold | hnew
        · exact horderly.matched.handed exchange hold
        · obtain ⟨pkt, hpkt, hsn⟩ := horderly.slot hreplied
          rw [hreply] at hpkt
          rw [List.mem_singleton.mp hnew, Except.ok.inj hpkt]
          exact hsn call hcall
      · exact horderly.matched.lost

/-- A byte that hands no reply over. -/
theorem orderly_quiet (horderly : Orderly s) {current next : Block}
    {handed : List Delivery} {machine : Machine}
    (hholding : Holding current s.machine) (hnext : Holding next machine)
    (hbuf : 3 ≤ next.length → machine.buf = some s.machine.heap.length ∨
      3 ≤ current.length ∧ machine.buf = s.machine.buf)
    (hleaves : Leaves current s.machine machine handed)
    (hslot : machine.repliedPkt = s.machine.repliedPkt ∧
      machine.replied = s.machine.replied) :
    Orderly { s with machine := machine } := by
  have hindex := hholding.index
  have hnextIndex := hnext.index
  constructor
  · exact ⟨next, hnext⟩
  · intro hreplied
    show ∃ pkt, machine.heap.block machine.repliedPkt = .ok pkt ∧ _
    have hreplied : s.machine.replied ≠ 0 := hslot.2 ▸ hreplied
    obtain ⟨pkt, hpkt, hsn⟩ := horderly.slot hreplied
    refine ⟨pkt, ?_, hsn⟩
    rw [hslot.1]
    apply hleaves.block _ _ _ hpkt
    intro hlength
    exact horderly.slot_ne_buf hreplied (by omega)
  · intro hreplied hthree
    show machine.repliedPkt ≠ machine.buf
    have hreplied : s.machine.replied ≠ 0 := hslot.2 ▸ hreplied
    rw [hslot.1]
    rcases hbuf (hnextIndex ▸ hthree) with hfresh | ⟨hlength, hsame⟩
    · rw [hfresh]
      intro hp
      exact absurd (horderly.slot_lt hreplied hp) (lt_irrefl _)
    · rw [hsame]
      exact horderly.slot_ne_buf hreplied (by omega)
  · intro hreplied call hcall
    show machine.repliedPkt ≠ _
    rw [hslot.1]
    exact horderly.slot_ne_request (hslot.2 ▸ hreplied) call hcall
  · intro call hcall
    exact (horderly.request_lt call hcall).trans_le hleaves.length_le
  · intro hthree call hcall
    show some call.pkt ≠ machine.buf
    rcases hbuf (hnextIndex ▸ hthree) with hfresh | ⟨hlength, hsame⟩
    · rw [hfresh]
      intro hp
      have hlt := horderly.request_lt call hcall
      rw [Option.some.inj hp] at hlt
      exact absurd hlt (lt_irrefl _)
    · rw [hsame]
      exact horderly.request_ne_buf (by omega) call hcall
  · exact ⟨horderly.matched.handed, horderly.matched.lost⟩

theorem overwritten_quiet {ch : UInt8} {handed : List Delivery}
    (hhanded : byteDeliveries s.machine ch = handed)
    (hquiet : handed.any Delivery.isReply = false) :
    overwritten s ch = [] := by
  unfold overwritten
  rw [hhanded, hquiet]
  rfl

/-- A reply that comes on time overwrites none that is waited for. -/
theorem overwritten_timely {ch : UInt8} {pkt : Block}
    (htimely : Timely (.receive ch) s)
    (hhanded : byteDeliveries s.machine ch = [.tellsend pkt]) :
    overwritten s ch = [] := by
  unfold overwritten
  rw [hhanded]
  cases hwaiting : s.waiting with
  | nil => simp
  | cons call calls =>
      have hmem : call ∈ s.waiting := by
        rw [hwaiting]
        exact List.mem_cons_self
      have hslot := (htimely (.tellsend pkt) (by
        rw [hhanded]
        exact List.mem_singleton_self _) rfl call hmem).2
      rw [hslot]
      simp

/-- A reply that comes on time. -/
theorem orderly_reply (horderly : Orderly s) {current pkt : Block} {ch : UInt8}
    {machine : Machine} (hholding : Holding current s.machine)
    (hlength : 3 ≤ current.length) (hnext : Holding [] machine)
    (hleaves : Leaves current s.machine machine [.tellsend pkt])
    (hhanded : byteDeliveries s.machine ch = [.tellsend pkt])
    (htimely : Timely (.receive ch) s) :
    Orderly { s with machine := machine } := by
  obtain ⟨hslot, _, hblock⟩ := hleaves.slot
  have hidle : machine.i.toNat = 0 := hnext.index
  have hthree : 3 ≤ s.machine.i.toNat := by
    rw [hholding.index]
    exact hlength
  constructor
  · exact ⟨[], hnext⟩
  · intro _
    refine ⟨pkt, ?_, ?_⟩
    · show machine.heap.block machine.repliedPkt = .ok pkt
      rw [hslot]
      exact hblock
    · intro call hcall
      exact (htimely (.tellsend pkt) (by
        rw [hhanded]
        exact List.mem_singleton_self _) rfl call hcall).1
  · intro _ hbusy
    have hbusy : 3 ≤ machine.i.toNat := hbusy
    omega
  · intro _ call hcall
    show machine.repliedPkt ≠ _
    rw [hslot]
    exact (horderly.request_ne_buf hthree call hcall).symm
  · intro call hcall
    exact (horderly.request_lt call hcall).trans_le hleaves.length_le
  · intro hbusy
    have hbusy : 3 ≤ machine.i.toNat := hbusy
    omega
  · exact ⟨horderly.matched.handed, horderly.matched.lost⟩

theorem orderly_receive (horderly : Orderly s) {ch : UInt8}
    (htimely : Timely (.receive ch) s) (hreceive : receive alloc ch s = .ok t) :
    Orderly t := by
  obtain ⟨machine, hbyte, hreceive⟩ := except_bind_eq_ok hreceive
  cases hreceive
  obtain ⟨current, hholding⟩ := horderly.holding
  have hstep : ByteStep s.machine current ch (rcvByte alloc s.machine ch) :=
    byteStep hholding ch
  rw [hbyte] at hstep
  suffices horderly' : Orderly { s with machine := machine } ∧
      overwritten s ch = [] by
    obtain ⟨hnext, hnone⟩ := horderly'
    rw [hnone, List.append_nil]
    exact hnext
  cases hstep with
  | dropped holds leaves handed =>
      refine ⟨orderly_quiet horderly hholding holds ?_ leaves leaves.slot,
        overwritten_quiet handed rfl⟩
      intro hthree
      exact absurd hthree (show ¬ 3 ≤ 0 by decide)
  | extended holds leaves handed fresh stays =>
      refine ⟨orderly_quiet horderly hholding holds ?_ leaves leaves.slot,
        overwritten_quiet handed rfl⟩
      intro hthree
      rw [List.length_append, List.length_singleton] at hthree
      by_cases htwo : current.length = 2
      · exact Or.inl (fresh htwo)
      · have hbody : 3 ≤ current.length := by omega
        exact Or.inr ⟨hbody, stays hbody⟩
  | @packet _ delivery wellFormed pkt holds leaves handed =>
      have hlength : 3 ≤ current.length := by
        have hge := wellFormed.length_ge
        rw [List.length_append, List.length_singleton] at hge
        unfold hdrLen at hge
        omega
      cases delivery with
      | tellsend reply =>
          exact ⟨orderly_reply horderly hholding hlength holds leaves handed
            htimely, overwritten_timely htimely handed⟩
      | dealcmd command =>
          refine ⟨orderly_quiet horderly hholding holds ?_ leaves leaves.slot,
            overwritten_quiet handed rfl⟩
          intro hthree
          exact absurd hthree (show ¬ 3 ≤ 0 by decide)

theorem orderly_step (event : Event) (htimely : Timely event s)
    (hstep : s.step alloc event = .ok t) (horderly : Orderly s) :
    Orderly t := by
  cases event with
  | send cmd pktData len reply => exact orderly_send horderly htimely hstep
  | receive ch => exact orderly_receive horderly htimely hstep
  | poll k => exact orderly_poll horderly hstep

theorem orderly_init (hinit : (stations alloc).init s) : Orderly s := by
  obtain ⟨hidle, hreplied, hwaiting, hhanded, hlost⟩ := hinit
  have hzero : ¬ 3 ≤ s.machine.i.toNat := by
    rw [hidle]
    decide
  have hnone : ∀ call, call ∉ s.waiting := by
    rw [hwaiting]
    exact fun call => List.not_mem_nil
  constructor
  · exact ⟨[], Holding.idle hidle⟩
  · exact fun hne => absurd hreplied hne
  · exact fun hne => absurd hreplied hne
  · exact fun hne => absurd hreplied hne
  · exact fun call hcall => absurd hcall (hnone call)
  · exact fun hthree => absurd hthree hzero
  · constructor
    · rw [hhanded]
      exact fun exchange hexchange => absurd hexchange List.not_mem_nil
    · exact hlost

/-- In every run whose steps come on time, each reply that a call was handed
has the number of its request, and no reply to an outstanding request was
overwritten. -/
theorem replies_matched (hreach : (stations alloc).ReachableBy Timely s) :
    Matched s := by
  have horderly : Orderly s := by
    apply hreach.invariant Orderly
    · intro start hinit
      exact orderly_init hinit
    · intro event before after htimely hnext horderly
      cases hstep : before.step alloc event with
      | error trap =>
          have hnone : (stations alloc).step event before = none := by
            show (before.step alloc event).toOption = none
            rw [hstep]
            rfl
          rw [hnone] at hnext
          cases hnext
      | ok next =>
          have hsome : (stations alloc).step event before = some next := by
            show (before.step alloc event).toOption = some next
            rw [hstep]
            rfl
          rw [hsome] at hnext
          rw [← Option.some.inj hnext]
          exact orderly_step event htimely hstep horderly
  exact horderly.matched

end Steps

/-! ## Two runs -/

instance (event : Event) (s : Station) : Decidable (Timely event s) :=
  match event with
  | .send .. => inferInstanceAs
      (Decidable (∀ pkt ∈ s.machine.slot, replySn pkt = some s.sendSn))
  | .receive ch => inferInstanceAs
      (Decidable (∀ delivery ∈ byteDeliveries s.machine ch,
        delivery.isReply = true → ∀ call ∈ s.waiting,
          replySn delivery.pkt = some call.sn ∧ s.machine.slot = none))
  | .poll _ => inferInstanceAs (Decidable True)

theorem length_nil_le : ([] : Block).length ≤ 249 := by
  decide

/-- The frame of a reply `0x80` without payload. -/
def replyFrame (sn : UInt8) : Block :=
  Packet.frame ⟨0x80, sn, [], length_nil_le⟩

theorem freshStation_init : (stations zeroAlloc).init freshStation :=
  ⟨rfl, rfl, rfl, rfl, rfl⟩

/-- A request, its reply, and the poll that takes it. -/
def timelyRun : List Event :=
  .send 0x02 none 0 true :: (replyFrame 0).map .receive ++ [.poll 0]

theorem replies_matched_timelyRun :
    ∃ s, (stations zeroAlloc).ReachableBy Timely s ∧
      s.handed = [(0, replyFrame 0)] ∧ Matched s := by
  have hreach : (stations zeroAlloc).ReachableBy Timely _ :=
    TransitionSystem.reachableBy_of_exec freshStation_init
      (show (stations zeroAlloc).exec Timely timelyRun freshStation = some _
        from rfl)
  exact ⟨_, hreach, rfl, replies_matched hreach⟩

/-- A reply left over from before meets the next request. -/
def lateRun : List Event :=
  (replyFrame 9).map .receive ++ [.send 0x02 none 0 true, .poll 0]

theorem not_replies_matched :
    ¬ ∀ (alloc : Allocator) (s : Station),
      (stations alloc).Reachable s → Matched s := by
  intro hmatched
  have hreach : (stations zeroAlloc).Reachable _ :=
    TransitionSystem.reachableBy_of_exec freshStation_init
      (show (stations zeroAlloc).exec (fun _ _ => True) lateRun freshStation =
        some _ from rfl)
  have hhanded := (hmatched zeroAlloc _ hreach).handed (0, replyFrame 9)
    List.mem_cons_self
  have hsn : replySn (replyFrame 9) = some 9 := rfl
  cases hsn.symm.trans hhanded

end Serial

end ClpszDemos
