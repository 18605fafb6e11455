import ClpszDemos.SerialReceiver

/-!
# Resynchronisation

Noise in which no header begins leaves the receiver idle or behind an `@`,
where it waits for `>`.  A second `@` is not taken for a new beginning there,
so every other `@` at the end of the noise is lost, and with an odd number of
them the `@` of the frame that follows is.
-/

namespace ClpszDemos

namespace Serial

/-! ## Noise -/

/-- The number of `@` at the end of the noise. -/
def trailingAts (noise : List UInt8) : ℕ :=
  (noise.reverse.takeWhile (· = 0x40)).length

theorem trailingAts_snoc (noise : List UInt8) (ch : UInt8) :
    trailingAts (noise ++ [ch]) =
      if ch = 0x40 then trailingAts noise + 1 else 0 := by
  unfold trailingAts
  rw [List.reverse_append, List.reverse_singleton, List.singleton_append,
    List.takeWhile_cons]
  by_cases hat : ch = 0x40
  · simp [hat]
  · simp [hat]

theorem exists_of_trailingAts {noise : List UInt8}
    (hats : trailingAts noise ≠ 0) : ∃ init, noise = init ++ [0x40] := by
  rcases List.eq_nil_or_concat noise with rfl | ⟨init, ch, rfl⟩
  · exact absurd rfl hats
  · rw [List.concat_eq_append, trailingAts_snoc] at hats
    by_cases hat : ch = 0x40
    · exact ⟨init, by rw [List.concat_eq_append, hat]⟩
    · rw [if_neg hat] at hats
      exact absurd rfl hats

/-- Behind an odd number of `@` the receiver waits for `>`. -/
theorem rcv_noise (alloc : Allocator) {m : Machine} (hidle : m.i = 0)
    {noise : List UInt8} (hnoise : ¬ macHead <:+: noise) :
    ∃ next, serCmdRcv alloc noise m = .ok next ∧
      deliveries alloc noise m = [] ∧ next.delivered = m.delivered ∧
      next.i = if Even (trailingAts noise) then 0 else 1 := by
  induction noise using List.reverseRecOn with
  | nil => exact ⟨m, rfl, rfl, rfl, hidle⟩
  | append_singleton noise ch ih =>
      have hinit : ¬ macHead <:+: noise := fun hwithin =>
        hnoise (hwithin.trans (List.prefix_append noise [ch]).isInfix)
      obtain ⟨middle, hrun, hnone, hkept, hi⟩ := ih hinit
      rw [serCmdRcv_snoc, deliveries_snoc, hrun, hnone, trailingAts_snoc]
      by_cases heven : Even (trailingAts noise)
      · rw [if_pos heven] at hi
        have hheader : byteDeliveries middle ch = [] :=
          byteDeliveries_header (by rw [hi]; decide) ch
        refine ⟨_, rcvByte_first hi ch, hheader, hkept, ?_⟩
        by_cases hat : ch = 0x40
        · simp [hat, Nat.even_add_one, heven]
        · simp [hat]
      · rw [if_neg heven] at hi
        have hheader : byteDeliveries middle ch = [] :=
          byteDeliveries_header (by rw [hi]; decide) ch
        refine ⟨_, rcvByte_second hi ch, hheader, hkept, ?_⟩
        have hgt : ch ≠ 0x3e := by
          intro hgt
          apply hnoise
          have hats : trailingAts noise ≠ 0 := by
            intro hzero
            rw [hzero] at heven
            exact heven ⟨0, rfl⟩
          obtain ⟨init, hlast⟩ := exists_of_trailingAts hats
          refine ⟨init, [], ?_⟩
          rw [hlast, hgt, List.append_nil, List.append_assoc]
          rfl
        by_cases hat : ch = 0x40
        · simp [hat, Nat.even_add_one, heven]
        · simp [hat, hgt]

/-! ## The frame behind the noise -/

/-- An idle receiver hands a frame over, even if it does not survive it. -/
theorem deliveries_frame {alloc : Allocator} (halloc : alloc.Succeeds)
    {m : Machine} (hidle : m.i = 0) (packet : Packet) :
    deliveries alloc packet.frame m = handOver packet.frame := by
  have hlength := packet.length_frame
  obtain ⟨last, hinit, hlast, _⟩ := rcv_frame_init halloc hidle packet
  obtain ⟨block, hblock, hsize, htake⟩ := hlast.buf
  have hlt : packet.frame.length - 1 < packet.frame.length := by omega
  have hend : packet.frame.length - 1 + 1 = packet.frame.length := by omega
  have hnone : deliveries alloc
      (packet.frame.take (packet.frame.length - 1)) m = [] := by
    have hdelivered := (received hidle hinit).delivered
    rw [hlast.delivered] at hdelivered
    exact List.self_eq_append_right.mp hdelivered
  have hwhole : block.set (packet.frame.length - 1)
      packet.frame[packet.frame.length - 1] = packet.frame := by
    have hset := take_set_append (show packet.frame.length - 1 < block.length
      by omega) packet.frame[packet.frame.length - 1]
    rw [htake, List.take_append_getElem, List.take_of_length_le (by
      rw [List.length_set, hsize, hend]), List.take_of_length_le hend.ge] at hset
    exact hset
  have hcompleted : completed last packet.frame[packet.frame.length - 1] =
      some packet.frame := by
    have hheader : ¬ last.i ≤ 2 := by
      intro hle
      have hnat : last.i.toNat ≤ 2 := hle
      rw [hlast.i] at hnat
      omega
    have hindex : (last.i.toNat : ℤ) = last.pktLen.toNat - 1 := by
      rw [hlast.i, hlast.pktLen]
      omega
    unfold completed
    rw [if_neg hheader, hblock]
    simp only [if_pos hindex]
    rw [hlast.i, hwhole]
  have hsplit : packet.frame = packet.frame.take (packet.frame.length - 1) ++
      [packet.frame[packet.frame.length - 1]] := by
    rw [List.take_append_getElem, List.take_of_length_le hend.ge]
  calc
    deliveries alloc packet.frame m =
        deliveries alloc (packet.frame.take (packet.frame.length - 1) ++
          [packet.frame[packet.frame.length - 1]]) m := by
          rw [← hsplit]
    _ = byteDeliveries last packet.frame[packet.frame.length - 1] := by
          rw [deliveries_snoc, hinit, hnone]
          rfl
    _ = handOver packet.frame := by
          unfold byteDeliveries
          rw [hcompleted]

theorem Packet.handOver_arrives (packet : Packet) :
    ∃ delivery, handOver packet.frame = [delivery] ∧
      packet.Arrives delivery := by
  rw [handOver_frame]
  by_cases hreply : packet.cmd &&& replyMask ≠ 0
  · rw [if_pos hreply]
    exact ⟨_, rfl, hreply, packet.carriedBy_frame⟩
  · rw [if_neg hreply]
    exact ⟨_, rfl, not_not.mp hreply, packet.carriedBy_frame⟩

/-- A receiver that waits for `>` drops the header of a frame. -/
theorem rcv_header_lost (alloc : Allocator) {m : Machine} (hi : m.i = 1)
    (packet : Packet) :
    ∃ next, next.i = 0 ∧ next.delivered = m.delivered ∧
      serCmdRcv alloc packet.frame m =
        serCmdRcv alloc (packet.frame.drop 2) next ∧
      deliveries alloc packet.frame m =
        deliveries alloc (packet.frame.drop 2) next := by
  have hsecond := @rcvByte_second alloc m hi 0x40
  have hfirst := @rcvByte_first alloc
    { m with head := m.head.set 1 0x40, i := 0 } rfl 0x3e
  have hboth : serCmdRcv alloc macHead m = .ok { m with
      head := (m.head.set 1 0x40).set 0 0x3e
      i := 0 } := by
    show (rcvByte alloc m 0x40 >>= fun next => rcvByte alloc next 0x3e >>=
      fun next => pure next) = _
    rw [hsecond]
    exact hfirst
  have hnone : deliveries alloc macHead m = [] := by
    unfold macHead
    rw [deliveries_cons, byteDeliveries_header (by rw [hi]; decide), hsecond]
    exact deliveries_singleton alloc 0x3e _
  have hsplit : packet.frame = macHead ++ packet.frame.drop 2 := rfl
  refine ⟨{ m with
      head := (m.head.set 1 0x40).set 0 0x3e
      i := 0 }, rfl, rfl, ?_, ?_⟩
  · rw [hsplit, serCmdRcv_append, hboth]
    rfl
  · rw [hsplit, deliveries_append, hboth, hnone]
    rfl

/-- What carries a packet is not shorter than its frame. -/
theorem Packet.CarriedBy.length_le {packet : Packet} {pkt : Block}
    (hcarried : packet.CarriedBy pkt) : packet.frame.length ≤ pkt.length := by
  have hlong : cmdOffset < pkt.length := by
    by_contra hshort
    have hcmd := hcarried.cmd
    unfold Block.load at hcmd
    rw [List.getElem?_eq_none (by omega)] at hcmd
    cases hcmd
  have hpayload := congrArg List.length hcarried.payload
  rw [List.length_drop] at hpayload
  unfold cmdOffset at hlong
  unfold hdrLen at hpayload
  rw [packet.length_frame]
  omega

theorem Packet.Arrives.carriedBy {packet : Packet} {delivery : Delivery}
    (harrives : packet.Arrives delivery) : packet.CarriedBy delivery.pkt := by
  cases delivery with
  | tellsend pkt => exact harrives.2
  | dealcmd pkt => exact harrives.2

/-! ## Resynchronisation -/

section Resync

variable {alloc : Allocator} {noise : List UInt8} {packet : Packet}
  {m : Machine}

theorem not_infix_of_first {rest : Block}
    (hfirst : ∀ k < noise.length, ¬ macHead <+: (noise ++ rest).drop k) :
    ¬ macHead <:+: noise := by
  rintro ⟨before, after, rfl⟩
  have hlt : before.length < (before ++ macHead ++ after).length := by
    simp [macHead]
  apply hfirst before.length hlt
  rw [List.append_assoc, List.append_assoc, List.drop_left]
  exact List.prefix_append _ _

/-- The frame is handed over if the receiver is idle behind the noise. -/
theorem deliveries_resync (halloc : alloc.Succeeds)
    (hnoise : ¬ macHead <:+: noise) (hidle : m.i = 0)
    (heven : Even (trailingAts noise)) :
    ∃ middle, middle.i = 0 ∧ middle.delivered = m.delivered ∧
      serCmdRcv alloc (noise ++ packet.frame) m =
        serCmdRcv alloc packet.frame middle ∧
      deliveries alloc (noise ++ packet.frame) m = handOver packet.frame := by
  obtain ⟨middle, hrun, hnone, hkept, hi⟩ := rcv_noise alloc hidle hnoise
  rw [if_pos heven] at hi
  refine ⟨middle, hi, hkept, ?_, ?_⟩
  · rw [serCmdRcv_append, hrun]
    rfl
  · rw [deliveries_append, hrun, hnone]
    exact deliveries_frame halloc hi packet

/-- It is lost if the receiver waits for `>`. -/
theorem not_arrives_of_odd (hnoise : ¬ macHead <:+: noise) (hidle : m.i = 0)
    (hodd : ¬ Even (trailingAts noise)) :
    ∀ delivery ∈ deliveries alloc (noise ++ packet.frame) m,
      ¬ packet.Arrives delivery := by
  obtain ⟨middle, hrun, hnone, hkept, hi⟩ := rcv_noise alloc hidle hnoise
  rw [if_neg hodd] at hi
  obtain ⟨next, hnext, _, _, hlost⟩ := rcv_header_lost alloc hi packet
  intro delivery hmem harrives
  have hrest : deliveries alloc (noise ++ packet.frame) m =
      deliveries alloc (packet.frame.drop 2) next := by
    rw [deliveries_append, hrun, hnone]
    exact hlost
  rw [hrest] at hmem
  obtain ⟨hpieces, _⟩ := @handed_over alloc next (packet.frame.drop 2) hnext
  have hshort := hpieces.length_le (List.mem_map_of_mem hmem)
  have hlong := harrives.carriedBy.length_le
  have hlength := packet.length_frame
  rw [List.length_drop] at hshort
  omega

/-- Behind noise in which no header begins, a frame is handed over, and
nothing else is, if and only if the noise ends with an even number of `@`; the
receiver goes on after it unless its command is `0x00`. -/
theorem serCmdRcv_resync (halloc : alloc.Succeeds) {frame : Block}
    (hbuilt : packet.BuiltAs frame)
    (hfirst : ∀ k < noise.length, ¬ macHead <+: (noise ++ frame).drop k)
    (hidle : m.i = 0) :
    ((∃ delivery, deliveries alloc (noise ++ frame) m = [delivery] ∧
      packet.Arrives delivery) ↔ Even (trailingAts noise)) ∧
    ((∃ next delivery, serCmdRcv alloc (noise ++ frame) m = .ok next ∧
      next.delivered = m.delivered ++ [delivery] ∧
      packet.Arrives delivery) ↔
        Even (trailingAts noise) ∧ packet.cmd ≠ 0) := by
  have hframe : frame = packet.frame := hbuilt.eq_frame
  subst hframe
  have hnoise := not_infix_of_first hfirst
  have htrace : ∀ delivery,
      deliveries alloc (noise ++ packet.frame) m = [delivery] →
      packet.Arrives delivery → Even (trailingAts noise) := by
    intro delivery hone harrives
    by_contra hodd
    have hmem : delivery ∈ deliveries alloc (noise ++ packet.frame) m := by
      rw [hone]
      exact List.mem_singleton_self delivery
    exact not_arrives_of_odd hnoise hidle hodd delivery hmem harrives
  constructor
  · constructor
    · rintro ⟨delivery, hone, harrives⟩
      exact htrace delivery hone harrives
    · intro heven
      obtain ⟨_, _, _, _, hhanded⟩ :=
        @deliveries_resync alloc noise packet m halloc hnoise hidle heven
      obtain ⟨delivery, hone, harrives⟩ := packet.handOver_arrives
      exact ⟨delivery, hhanded.trans hone, harrives⟩
  · constructor
    · rintro ⟨next, delivery, hrun, hdelivered, harrives⟩
      have hlog := (received hidle hrun).delivered
      have hone := List.append_cancel_left (hlog.symm.trans hdelivered)
      have heven := htrace delivery hone harrives
      refine ⟨heven, ?_⟩
      intro hzero
      obtain ⟨middle, hi, _, hsame, _⟩ :=
        @deliveries_resync alloc noise packet m halloc hnoise hidle heven
      obtain ⟨stored, _, hbuf, _, hframe⟩ := rcv_frame halloc hi packet
      rw [hsame, hframe, rcvPkt_zero packet hzero hbuf] at hrun
      cases hrun
    · rintro ⟨heven, hcmd⟩
      obtain ⟨middle, hi, hkept, hsame, _⟩ :=
        @deliveries_resync alloc noise packet m halloc hnoise hidle heven
      obtain ⟨stored, hstored, hbuf, _, hframe⟩ := rcv_frame halloc hi packet
      obtain ⟨next, delivery, hpkt, _, hadded, harrives⟩ :=
        rcvPkt_frame halloc packet hcmd hbuf
      refine ⟨next, delivery, ?_, ?_, harrives⟩
      · rw [hsame, hframe, hpkt]
      · rw [hadded, hstored, hkept]

end Resync

/-- Two `@` before a frame do no harm. -/
theorem serCmdRcv_resync_twoAts :
    ∃ next delivery,
      serCmdRcv zeroAlloc ([0x3e, 0x40, 0x40] ++
        [0x40, 0x3e, 0x06, 0x7d, 0x07, 0x02]) idleMachine = .ok next ∧
      next.delivered = [delivery] ∧
      Packet.Arrives ⟨0x02, 7, [], by decide⟩ delivery := by
  have hbuilt : Packet.BuiltAs ⟨0x02, 7, [], by decide⟩
      [0x40, 0x3e, 0x06, 0x7d, 0x07, 0x02] :=
    ⟨List.replicate 6 0, rfl, rfl⟩
  have hresync := @serCmdRcv_resync zeroAlloc [0x3e, 0x40, 0x40] _ idleMachine
    (fun _ => rfl) _ hbuilt (by decide) rfl
  exact hresync.2.mpr ⟨by decide, by decide⟩

/-- One `@` before a frame takes the header of the frame away. -/
theorem not_serCmdRcv_resync :
    ¬ ∀ alloc : Allocator, alloc.Succeeds →
      ∀ (noise frame : Block) (packet : Packet), packet.BuiltAs frame →
        (∀ k < noise.length, ¬ macHead <+: (noise ++ frame).drop k) →
        ∀ m : Machine, m.i = 0 → ∃ delivery,
          deliveries alloc (noise ++ frame) m = [delivery] ∧
            packet.Arrives delivery := by
  intro hresync
  have hbuilt : Packet.BuiltAs ⟨0x02, 7, [], by decide⟩
      [0x40, 0x3e, 0x06, 0x7d, 0x07, 0x02] :=
    ⟨List.replicate 6 0, rfl, rfl⟩
  obtain ⟨delivery, hone, _⟩ := hresync zeroAlloc (fun _ => rfl) [0x40] _ _
    hbuilt (by decide) idleMachine rfl
  have hnone : deliveries zeroAlloc ([0x40] ++
      [0x40, 0x3e, 0x06, 0x7d, 0x07, 0x02]) idleMachine = [] := rfl
  rw [hnone] at hone
  cases hone

end Serial

end ClpszDemos
