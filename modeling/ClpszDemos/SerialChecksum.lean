import ClpszDemos.SerialSend

/-!
# The checksum of a packet

The checksum is one of the bytes that are summed up, and both ends sum it up
once more to leave it out.  A packet is accepted when all its bytes cancel out,
so the change of any one of them is found.
-/

namespace ClpszDemos

namespace Serial

/-! ## Sums -/

theorem xorSum_set {bytes : List UInt8} {i : ℕ} (hi : i < bytes.length)
    (byte : UInt8) :
    xorSum (bytes.set i byte) = xorSum bytes ^^^ (bytes[i] ^^^ byte) := by
  induction bytes generalizing i with
  | nil => simp at hi
  | cons first others ih =>
      cases i with
      | zero =>
          simp only [List.set_cons_zero, xorSum_cons, List.getElem_cons_zero]
          have hcancel : first ^^^ xorSum others ^^^ (first ^^^ byte) =
              byte ^^^ xorSum others ^^^ (first ^^^ first) := by
            ac_rfl
          rw [hcancel, UInt8.xor_self, UInt8.xor_zero]
      | succ i =>
          have htail := @ih i (by simpa using hi)
          simp only [List.set_cons_succ, xorSum_cons,
            List.getElem_cons_succ, htail, UInt8.xor_assoc]

theorem xor_ne_zero {a b : UInt8} (hne : a ≠ b) : a ^^^ b ≠ 0 := by
  intro hzero
  have hxor := congrArg (· ^^^ b) hzero
  simp only [UInt8.xor_assoc, UInt8.xor_self, UInt8.xor_zero,
    UInt8.zero_xor] at hxor
  exact hne hxor

/-! ## Packets in a buffer -/

/-- The length field is `n`, and the first `n` bytes are there. -/
structure Present (pkt : Block) (n : UInt8) : Prop where
  field : pkt.load lenOffset = .ok n
  hdrLen_le : hdrLen ≤ n.toNat
  le_length : n.toNat ≤ pkt.length

theorem Block.getElem_of_load {block : Block} {i : ℕ} {byte : UInt8}
    (hi : i < block.length) (hload : block.load i = .ok byte) :
    block[i] = byte := by
  rw [Block.load_eq_ok hi] at hload
  exact Except.ok.inj hload

theorem head_iff {pkt : Block} (hlength : 1 < pkt.length) :
    [pkt[0], pkt[1]] = macHead ↔ macHead <+: pkt := by
  match pkt, hlength with
  | first :: second :: rest, _ =>
      simp [macHead, List.cons_prefix_cons]
      grind

/-- The parser accepts what begins with the two header bytes and has bytes
that cancel out. -/
theorem macParse_ok_iff {pkt : Block} {n : UInt8} (hpresent : Present pkt n) :
    macParse pkt = .ok .ok ↔
      macHead <+: pkt ∧ xorSum (pkt.take n.toNat) = 0 := by
  have hmin := hpresent.hdrLen_le
  have hle := hpresent.le_length
  unfold hdrLen at hmin
  have hfield : pkt[2] = n := Block.getElem_of_load (by omega) hpresent.field
  rw [macParse_eq (by omega) (by rw [hfield]; exact hle), hfield,
    ← head_iff (by omega)]
  by_cases hhead : [pkt[0], pkt[1]] = macHead
  · by_cases hsum : xorSum (pkt.take n.toNat) = 0
    · simp [hhead, hsum]
    · simp [hhead, hsum]
  · simp [hhead]

theorem macParse_returns {pkt : Block} {n : UInt8} (hpresent : Present pkt n) :
    ∃ code, macParse pkt = .ok code := by
  have hmin := hpresent.hdrLen_le
  have hle := hpresent.le_length
  unfold hdrLen at hmin
  have hfield : pkt[2] = n := Block.getElem_of_load (by omega) hpresent.field
  exact ⟨_, macParse_eq (by omega) (by rw [hfield]; exact hle)⟩

/-! ## One changed byte -/

theorem Present.set {pkt : Block} {n : UInt8} (hpresent : Present pkt n) {i : ℕ}
    (hi : i ≠ lenOffset) (byte : UInt8) : Present (pkt.set i byte) n := by
  refine ⟨?_, hpresent.hdrLen_le, ?_⟩
  · rw [← hpresent.field]
    unfold Block.load
    rw [List.getElem?_set_ne hi]
  · rw [List.length_set]
    exact hpresent.le_length

/-- One byte of an accepted packet that is changed leaves a sum of its own. -/
theorem macParse_set {pkt : Block} {n : UInt8} (hpresent : Present pkt n)
    (haccepted : macParse pkt = .ok .ok) {i : ℕ} (hi : i < n.toNat)
    (hne : i ≠ lenOffset) {byte : UInt8} (hbyte : pkt.load i ≠ .ok byte) :
    ∃ code, code ≠ .ok ∧ macParse (pkt.set i byte) = .ok code := by
  have hchanged := hpresent.set hne byte
  obtain ⟨code, hcode⟩ := macParse_returns hchanged
  refine ⟨code, ?_, hcode⟩
  intro hok
  rw [hok] at hcode
  have hbefore := ((macParse_ok_iff hpresent).mp haccepted).2
  have hafter := ((macParse_ok_iff hchanged).mp hcode).2
  have hlength := hpresent.le_length
  have hprefix : i < (pkt.take n.toNat).length := by
    rw [List.length_take]
    omega
  have hdiffers : (pkt.take n.toNat)[i] ≠ byte := by
    rw [List.getElem_take]
    intro hsame
    apply hbyte
    rw [Block.load_eq_ok (by omega), hsame]
  rw [List.take_set, xorSum_set hprefix, hbefore, UInt8.zero_xor] at hafter
  exact xor_ne_zero hdiffers hafter

/-! ## Packets that are built -/

/-- A packet of `size` bytes with the two header bytes and the length `n`. -/
structure Headed (size : ℕ) (n : UInt8) (pkt : Block) : Prop where
  length_eq : pkt.length = size
  front : pkt.take 3 = macHead ++ [n]

namespace Headed

variable {size : ℕ} {n : UInt8} {pkt : Block}

theorem set (hheaded : Headed size n pkt) {i : ℕ} (hi : 3 ≤ i) (byte : UInt8) :
    Headed size n (pkt.set i byte) := by
  constructor
  · rw [List.length_set]
    exact hheaded.length_eq
  · rw [List.take_set_of_le hi]
    exact hheaded.front

theorem memcpy (hheaded : Headed size n pkt) {data : Block} {len : ℕ}
    (hdata : len ≤ data.length) (hsize : hdrLen + len ≤ size) :
    ∃ next, pkt.memcpy hdrLen data len = .ok next ∧ Headed size n next := by
  have hlength := hheaded.length_eq
  unfold hdrLen at hsize ⊢
  refine ⟨_, Block.memcpy_eq_ok hdata (by omega), ?_, ?_⟩
  · simp only [List.length_append, List.length_take, List.length_drop]
    omega
  · have hfront : 3 ≤ (pkt.take 6).length := by
      rw [List.length_take]
      omega
    rw [List.append_assoc, List.take_append_of_le_length hfront, List.take_take]
    exact hheaded.front

theorem present (hheaded : Headed size n pkt) (hmin : hdrLen ≤ n.toNat)
    (hsize : n.toNat ≤ size) : Present pkt n := by
  refine ⟨?_, hmin, ?_⟩
  · have hget : pkt[2]? = (pkt.take 3)[2]? := by
      rw [List.getElem?_take_of_lt (by decide)]
    unfold Block.load lenOffset
    rw [hget, hheaded.front]
    rfl
  · rw [hheaded.length_eq]
    exact hsize

theorem head (hheaded : Headed size n pkt) : macHead <+: pkt := by
  have hfront : macHead <+: pkt.take 3 := by
    rw [hheaded.front]
    exact List.prefix_append macHead [n]
  exact hfront.trans (List.take_prefix 3 pkt)

/-- With its own checksum stored, the packet is accepted. -/
theorem accepted (hheaded : Headed size n pkt) (hmin : hdrLen ≤ n.toNat)
    (hsize : n.toNat ≤ size) :
    ∃ sum next, serCalcChecksum pkt = .ok sum ∧
      pkt.store checkSumOffset sum = .ok next ∧ macParse next = .ok .ok := by
  have hpresent := hheaded.present hmin hsize
  have hlength := hheaded.length_eq
  unfold hdrLen at hmin
  have hfield : pkt[2] = n := Block.getElem_of_load (by omega) hpresent.field
  have hsum : serCalcChecksum pkt =
      .ok (xorSum (pkt.take n.toNat) ^^^ pkt[3]) := by
    rw [serCalcChecksum_eq (by omega) (by rw [hfield]; omega), hfield]
  refine ⟨_, _, hsum, Block.store_eq_ok (by unfold checkSumOffset; omega) _, ?_⟩
  have hnext := hheaded.set (show 3 ≤ checkSumOffset from le_rfl)
    (xorSum (pkt.take n.toNat) ^^^ pkt[3])
  apply (macParse_ok_iff (hnext.present hmin hsize)).mpr
  refine ⟨hnext.head, ?_⟩
  have hprefix : checkSumOffset < (pkt.take n.toNat).length := by
    rw [List.length_take, checkSumOffset]
    omega
  rw [List.take_set, xorSum_set hprefix, List.getElem_take]
  have hcancel : ∀ a b : UInt8, a ^^^ (b ^^^ (a ^^^ b)) = 0 := by
    intro a b
    have hpairs : a ^^^ (b ^^^ (a ^^^ b)) = (a ^^^ a) ^^^ (b ^^^ b) := by
      ac_rfl
    rw [hpairs, UInt8.xor_self, UInt8.xor_self, UInt8.xor_zero]
  exact hcancel _ _

end Headed

/-- The two header bytes and the length are stored first. -/
theorem headed_front {buffer : Block} (hlength : hdrLen ≤ buffer.length)
    (n : UInt8) :
    ∃ first front, buffer.memcpy 0 macHead 2 = .ok first ∧
      first.store lenOffset n = .ok front ∧ Headed buffer.length n front := by
  unfold hdrLen at hlength
  have hcopy := @Block.memcpy_eq_ok buffer macHead 0 2 le_rfl (by omega)
  rw [List.take_zero, List.nil_append] at hcopy
  have hfirst : (macHead.take 2 ++ buffer.drop (0 + 2)).length =
      buffer.length := by
    simp only [List.length_append, List.length_take, List.length_drop, macHead,
      List.length_cons, List.length_nil]
    omega
  have hstore := @Block.store_eq_ok
    (macHead.take 2 ++ buffer.drop (0 + 2)) lenOffset
    (by unfold lenOffset; omega) n
  refine ⟨_, _, hcopy, hstore, ?_, ?_⟩
  · rw [List.length_set, hfirst]
  · rcases buffer with _ | ⟨_, _ | ⟨_, _ | ⟨_, rest⟩⟩⟩
    · simp at hlength
    · simp at hlength
    · simp at hlength
    · rfl

/-- What `_build_pkt` makes of at most 249 bytes of payload is accepted. -/
theorem buildPkt_accepted {cmd sn : UInt8} {buffer : Block}
    {pktData : Option Block} {len : UInt32} (hlen : len.toNat ≤ 249)
    (hbuffer : hdrLen + len.toNat ≤ buffer.length)
    (hdata : ∀ data, pktData = some data → len.toNat ≤ data.length) :
    ∃ pkt, buildPkt cmd sn buffer pktData len = .ok pkt ∧
      macParse pkt = .ok .ok := by
  have hfield : (6 + len).toUInt8.toNat = hdrLen + len.toNat := by
    have hsix : (6 : UInt32).toNat = 6 := rfl
    simp only [UInt32.toNat_toUInt8, UInt32.toNat_add, hsix, hdrLen]
    omega
  have hroom : hdrLen ≤ buffer.length := by omega
  obtain ⟨first, front, hfirst, hfront, hheaded⟩ :=
    headed_front hroom (6 + len).toUInt8
  have hlength := hheaded.length_eq
  have hsn := Block.store_eq_ok (show snOffset < front.length by
    rw [hlength]
    exact lt_of_lt_of_le (by decide) hroom) sn
  have hnumbered := hheaded.set (show 3 ≤ snOffset by decide) sn
  have hcmd := Block.store_eq_ok
    (show cmdOffset < (front.set snOffset sn).length by
      rw [hnumbered.length_eq]
      exact lt_of_lt_of_le (by decide) hroom) cmd
  have hcommanded := hnumbered.set (show 3 ≤ cmdOffset by decide) cmd
  have hmin : hdrLen ≤ (6 + len).toUInt8.toNat := by omega
  have hsize : (6 + len).toUInt8.toNat ≤ buffer.length := by omega
  unfold buildPkt
  cases pktData with
  | none =>
      obtain ⟨sum, pkt, hsum, hpkt, haccepted⟩ :=
        hcommanded.accepted hmin hsize
      refine ⟨pkt, ?_, haccepted⟩
      simp only [hfirst, hfront, hsn, hcmd, hsum, hpkt, bind, Except.bind]
  | some data =>
      obtain ⟨filled, hfilled, hheaded⟩ :=
        hcommanded.memcpy (hdata data rfl) hbuffer
      obtain ⟨sum, pkt, hsum, hpkt, haccepted⟩ := hheaded.accepted hmin hsize
      refine ⟨pkt, ?_, haccepted⟩
      simp only [hfirst, hfront, hsn, hcmd, hfilled, hsum, hpkt, bind,
        Except.bind]

/-- A packet is accepted for its header bytes and the sum of its bytes only,
every packet that is built is, and none of its bytes can be changed alone. -/
theorem uart_checksum :
    (∀ (pkt : Block) (n : UInt8), Present pkt n →
      (macParse pkt = .ok .ok ↔
        macHead <+: pkt ∧ xorSum (pkt.take n.toNat) = 0)) ∧
    (∀ (cmd sn : UInt8) (buffer : Block) (pktData : Option Block)
      (len : UInt32), len.toNat ≤ 249 →
      hdrLen + len.toNat ≤ buffer.length →
      (∀ data, pktData = some data → len.toNat ≤ data.length) →
      ∃ pkt, buildPkt cmd sn buffer pktData len = .ok pkt ∧
        macParse pkt = .ok .ok) ∧
    ∀ (pkt : Block) (n : UInt8), Present pkt n → macParse pkt = .ok .ok →
      ∀ (i : ℕ) (byte : UInt8), i < n.toNat → i ≠ lenOffset →
        pkt.load i ≠ .ok byte →
        ∃ code, code ≠ .ok ∧ macParse (pkt.set i byte) = .ok code := by
  refine ⟨?_, ?_, ?_⟩
  · intro pkt n hpresent
    exact macParse_ok_iff hpresent
  · intro cmd sn buffer pktData len hlen hbuffer hdata
    exact buildPkt_accepted hlen hbuffer hdata
  · intro pkt n hpresent haccepted i byte hi hne hbyte
    exact macParse_set hpresent haccepted hi hne hbyte

/-- The header bytes changed in the packet of an empty discovery command -/
theorem uart_checksum_discover :
    ∃ code, code ≠ .ok ∧
      macParse ([0x40, 0x3e, 0x06, 0x7b, 0x02, 0x01].set 1 0x3f) =
        .ok code := by
  have hpresent : Present [0x40, 0x3e, 0x06, 0x7b, 0x02, 0x01] 6 :=
    ⟨rfl, by decide, by decide⟩
  exact uart_checksum.2.2 _ 6 hpresent rfl 1 0x3f (by decide) (by decide)
    (by decide)

end Serial

end ClpszDemos
