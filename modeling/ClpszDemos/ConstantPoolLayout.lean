import ClpszDemos.ClassFileEncoding
import Mathlib.Data.List.ReduceOption

/-!
# The layout of the constant pool

The loop of `readConstantPool` over the indices of the array it has made, and
where it puts each constant of the stream.  A `Long` or a `Double` takes two
indices, of which the second one stays nil.
-/

namespace ClpszDemos

namespace Jvm

namespace Classfile

open BigEndian

/-! ## What the readers take -/

theorem accepts_readUint8 :
    Accepts readUint8 fun value bytes => bytes = [value] := by
  intro data value rest hread
  match data with
  | [] => cases hread
  | _ :: _ =>
      cases hread
      exact ⟨[value], supplies_list.mpr rfl, rfl⟩

theorem accepts_readUint16 :
    Accepts readUint16 fun value bytes => bytes = bytes16 value := by
  intro data value rest hread
  match data with
  | [] => cases hread
  | [_] => cases hread
  | byte1 :: byte2 :: _ =>
      cases hread
      exact ⟨[byte1, byte2], supplies_list.mpr rfl,
        (bytes16_join16 byte1 byte2).symm⟩

theorem accepts_readUint32 :
    Accepts readUint32 fun value bytes => bytes = bytes32 value := by
  intro data value rest hread
  match data with
  | [] => cases hread
  | [_] => cases hread
  | [_, _] => cases hread
  | [_, _, _] => cases hread
  | byte1 :: byte2 :: byte3 :: byte4 :: _ =>
      cases hread
      exact ⟨[byte1, byte2, byte3, byte4], supplies_list.mpr rfl,
        (bytes32_join32 byte1 byte2 byte3 byte4).symm⟩

theorem accepts_readUint64 :
    Accepts readUint64 fun value bytes => bytes = bytes64 value := by
  intro data value rest hread
  match data with
  | [] => cases hread
  | [_] => cases hread
  | [_, _] => cases hread
  | [_, _, _] => cases hread
  | [_, _, _, _] => cases hread
  | [_, _, _, _, _] => cases hread
  | [_, _, _, _, _, _] => cases hread
  | [_, _, _, _, _, _, _] => cases hread
  | byte1 :: byte2 :: byte3 :: byte4 :: byte5 :: byte6 :: byte7 :: byte8 ::
      _ =>
      cases hread
      refine ⟨[byte1, byte2, byte3, byte4, byte5, byte6, byte7, byte8],
        supplies_list.mpr rfl, ?_⟩
      dsimp only
      rw [bytes64_join64, bytes32_join32, bytes32_join32]
      rfl

theorem accepts_readBytes (n : ℕ) :
    Accepts (readBytes n) fun value bytes =>
      value.length = n ∧ bytes = value := by
  intro data value rest hread
  unfold readBytes at hread
  by_cases hn : n ≤ data.length
  · rw [if_pos hn] at hread
    cases hread
    refine ⟨data.take n, supplies_list.mpr ?_, ?_, rfl⟩
    · rw [List.take_append_drop]
    · rw [List.length_take]
      omega
  · rw [if_neg hn] at hread
    cases hread

theorem accepts_readUtf8 :
    Accepts readUtf8 fun c bytes =>
      c.tag = 1#8 ∧ c.InRange ∧ bytes = c.content := by
  apply accepts_readUint16.bind
  intro length first hfirst
  apply (accepts_readBytes length.toNat).bind
  intro str bytes hstr
  apply Accepts.pure
  refine ⟨rfl, ?_, ?_⟩
  · show str.length < 2 ^ 16
    rw [hstr.1]
    exact length.isLt
  · show first ++ (bytes ++ []) = count str.length ++ str
    rw [hfirst, hstr.2, hstr.1, List.append_nil, count, BitVec.ofNat_toNat,
      BitVec.setWidth_eq]

/-- The four constants of two indexes. -/
theorem accepts_readIndexPair {make : BitVec 16 → BitVec 16 → ConstantInfo}
    {tag : Byte} (hmake : ∀ index1 index2,
      (make index1 index2).tag = tag ∧ (make index1 index2).InRange ∧
        (make index1 index2).content = bytes16 index1 ++ bytes16 index2) :
    Accepts (readIndexPair make) fun c bytes =>
      c.tag = tag ∧ c.InRange ∧ bytes = c.content := by
  apply accepts_readUint16.bind
  intro index1 first hfirst
  apply accepts_readUint16.bind
  intro index2 second hsecond
  apply Accepts.pure
  obtain ⟨htag, hrange, hcontent⟩ := hmake index1 index2
  refine ⟨htag, hrange, ?_⟩
  rw [hcontent, hfirst, hsecond, List.append_nil]

theorem accepts_readConstantContent (tag : Byte) :
    Accepts (readConstantContent tag) fun c bytes =>
      c.tag = tag ∧ c.InRange ∧ bytes = c.content := by
  unfold readConstantContent
  split
  · exact accepts_readUint32.map fun _ _ hval => ⟨rfl, trivial, hval⟩
  · exact accepts_readUint32.map fun _ _ hval => ⟨rfl, trivial, hval⟩
  · exact accepts_readUint64.map fun _ _ hval => ⟨rfl, trivial, hval⟩
  · exact accepts_readUint64.map fun _ _ hval => ⟨rfl, trivial, hval⟩
  · exact accepts_readUtf8
  · exact accepts_readIndexPair fun _ _ => ⟨rfl, trivial, rfl⟩
  · exact accepts_readUint16.map fun _ _ hval => ⟨rfl, trivial, hval⟩
  · exact accepts_readUint16.map fun _ _ hval => ⟨rfl, trivial, hval⟩
  · exact accepts_readIndexPair fun _ _ => ⟨rfl, trivial, rfl⟩
  · exact accepts_readIndexPair fun _ _ => ⟨rfl, trivial, rfl⟩
  · exact accepts_readIndexPair fun _ _ => ⟨rfl, trivial, rfl⟩
  · intro data c rest hread
    cases hread

theorem accepts_readConstantInfo :
    Accepts readConstantInfo fun c bytes => c.InRange ∧ bytes = c.encode := by
  apply accepts_readUint8.bind
  intro tag first hfirst
  apply (accepts_readConstantContent tag).weaken
  rintro c bytes ⟨htag, hrange, hbytes⟩
  refine ⟨hrange, ?_⟩
  rw [hfirst, hbytes, ← htag]
  rfl

/-! ## The loop -/

/-- The loop of `readConstantPool`, at index `i`. -/
def constantPoolLoop (cpLength i : ℕ) (cp : ConstantPool) :
    Read ConstantPool :=
  if i < cpLength then do
    let c ← readConstantInfo
    let cp := cp.set i (some c)
    if c.isWide then constantPoolLoop cpLength (i + 2) cp
    else constantPoolLoop cpLength (i + 1) cp
  else return cp
termination_by cpLength - i

/-- `readConstantPool`, on the array it makes. -/
def readConstantPoolArray : Read ConstantPool := do
  let cpLength ← readUint16
  constantPoolLoop cpLength.toNat 1 (List.replicate cpLength.toNat none)

/-- The indices before `i` are done, and the others are still nil. -/
theorem constantPoolLoop_eq (done : ConstantPool) (n : ℕ) :
    constantPoolLoop (done.length + n) done.length
        (done ++ List.replicate n none) =
      (done ++ ·) <$> readConstants n := by
  induction n using Nat.strong_induction_on generalizing done with
  | _ n ih =>
      cases n with
      | zero =>
          unfold constantPoolLoop readConstants
          simp
      | succ n =>
          have hset : ∀ c : ConstantInfo,
              (done ++ List.replicate (n + 1) none).set done.length (some c) =
                (done ++ [some c]) ++ List.replicate n none := by
            intro c
            rw [List.replicate_succ, List.set_append_right _ _ le_rfl,
              Nat.sub_self, List.set_cons_zero, List.append_assoc]
            rfl
          unfold constantPoolLoop readConstants
          rw [if_pos (by omega), map_bind]
          congr 1
          funext c
          rw [hset c]
          cases hwide : c.isWide with
          | false =>
              have hnext := ih n (Nat.lt_succ_self n) (done ++ [some c])
              rw [List.length_append, List.length_singleton,
                Nat.add_assoc, Nat.add_comm 1 n] at hnext
              rw [if_neg Bool.false_ne_true, if_neg Bool.false_ne_true, hnext]
              simp
          | true =>
              rw [if_pos rfl, if_pos rfl]
              cases n with
              | zero =>
                  unfold constantPoolLoop
                  simp
              | succ n =>
                  have hnext := ih n (by omega) (done ++ [some c, none])
                  have hlength : (done ++ [some c, none]).length =
                      done.length + 2 := by simp
                  rw [hlength] at hnext
                  have htotal : done.length + 2 + n = done.length + (n + 1 + 1) := by
                    omega
                  have hpool : done ++ [some c] ++ List.replicate (n + 1) none =
                      done ++ [some c, none] ++ List.replicate n none := by
                    simp [List.replicate_succ]
                  rw [hpool, ← htotal, hnext]
                  simp

theorem readConstantPoolArray_eq : readConstantPoolArray = readConstantPool := by
  unfold readConstantPoolArray readConstantPool
  congr 1
  funext cpLength
  cases hlength : cpLength.toNat with
  | zero =>
      unfold constantPoolLoop
      simp
  | succ n =>
      have hloop := constantPoolLoop_eq [none] n
      rw [List.length_singleton, Nat.add_comm 1 n] at hloop
      have hpool : List.replicate (n + 1) (none : Option ConstantInfo) =
          [none] ++ List.replicate n none :=
        List.replicate_succ
      rw [hpool, hloop]
      simp

/-! ## Constants and entries -/

/-- The entries from some index on, where the array may end in the middle of a
`Long` or a `Double`. -/
inductive LaidOut : List ConstantInfo → ConstantPool → Prop
  | nil : LaidOut [] []
  | single {c : ConstantInfo} {constants : List ConstantInfo}
      {pool : ConstantPool} (isWide : c.isWide = false)
      (tail : LaidOut constants pool) :
      LaidOut (c :: constants) (some c :: pool)
  | wide {c : ConstantInfo} {constants : List ConstantInfo}
      {pool : ConstantPool} (isWide : c.isWide = true)
      (tail : LaidOut constants pool) :
      LaidOut (c :: constants) (some c :: none :: pool)
  | last {c : ConstantInfo} (isWide : c.isWide = true) :
      LaidOut [c] [some c]

/-- The constants that some entries are read from. -/
def StreamOf (pool : ConstantPool) (bytes : List Byte)
    (constants : List ConstantInfo) : Prop :=
  LaidOut constants pool ∧ (∀ c ∈ constants, c.InRange) ∧
    bytes = constants.flatMap ConstantInfo.encode

theorem accepts_readConstants (n : ℕ) :
    Accepts (readConstants n) fun pool bytes =>
      pool.length = n ∧ ∃ constants, StreamOf pool bytes constants := by
  induction n using Nat.strong_induction_on with
  | _ n ih =>
      cases n with
      | zero => exact Accepts.pure ⟨rfl, [], LaidOut.nil, by simp, rfl⟩
      | succ n =>
          unfold readConstants
          apply accepts_readConstantInfo.bind
          rintro c first ⟨hrange, hfirst⟩
          have hranges : ∀ constants : List ConstantInfo,
              (∀ c ∈ constants, c.InRange) → ∀ d ∈ c :: constants, d.InRange := by
            intro constants hconstants
            exact List.forall_mem_cons.mpr ⟨hrange, hconstants⟩
          cases hwide : c.isWide with
          | false =>
              rw [if_neg Bool.false_ne_true]
              apply (ih n (Nat.lt_succ_self n)).map
              rintro pool bytes ⟨hlength, constants, hlaid, hin, hbytes⟩
              refine ⟨by rw [List.length_cons, hlength], c :: constants,
                LaidOut.single hwide hlaid, hranges constants hin, ?_⟩
              rw [hfirst, hbytes, List.flatMap_cons]
          | true =>
              rw [if_pos rfl]
              cases n with
              | zero =>
                  apply Accepts.pure
                  refine ⟨rfl, [c], LaidOut.last hwide, hranges [] (by simp), ?_⟩
                  rw [hfirst, List.flatMap_singleton, List.append_nil]
              | succ n =>
                  dsimp only
                  apply (ih n (by omega)).map
                    (f := fun rest => some c :: none :: rest)
                  rintro pool bytes ⟨hlength, constants, hlaid, hin, hbytes⟩
                  refine ⟨by rw [List.length_cons, List.length_cons, hlength],
                    c :: constants, LaidOut.wide hwide hlaid,
                    hranges constants hin, ?_⟩
                  rw [hfirst, hbytes, List.flatMap_cons]

/-- Constants before the `k`-th one and second halves among them. -/
def slotsBefore (constants : List ConstantInfo) (k : ℕ) : ℕ :=
  k + (constants.take k).countP ConstantInfo.isWide

namespace LaidOut

variable {constants : List ConstantInfo} {pool : ConstantPool}

theorem head_ne_none (hlaid : LaidOut constants pool) :
    pool[0]? ≠ some none := by
  cases hlaid with
  | nil => simp
  | single isWide tail => simp
  | wide isWide tail => simp
  | last isWide => simp

/-- The second halves are the only entries that are nil. -/
theorem none_iff (hlaid : LaidOut constants pool) {i : ℕ}
    (hi : i + 1 < pool.length) :
    pool[i + 1]? = some none ↔
      ∃ c, pool[i]? = some (some c) ∧ c.isWide = true := by
  induction hlaid generalizing i with
  | nil => simp at hi
  | @single c constants pool isWide tail ih =>
      cases i with
      | zero =>
          have hhead := tail.head_ne_none
          simp [isWide, hhead]
      | succ i =>
          have htail := @ih i (by simpa using hi)
          simpa using htail
  | @wide c constants pool isWide tail ih =>
      cases i with
      | zero => simp [isWide]
      | succ i =>
          cases i with
          | zero =>
              have hhead := tail.head_ne_none
              simp [hhead]
          | succ i =>
              have htail := @ih i (by simpa using hi)
              simpa using htail
  | last isWide => simp at hi

theorem stored (hlaid : LaidOut constants pool) {k : ℕ} {c : ConstantInfo}
    (hk : constants[k]? = some c) :
    pool[slotsBefore constants k]? = some (some c) := by
  induction hlaid generalizing k with
  | nil => simp at hk
  | @single d constants pool isWide tail ih =>
      cases k with
      | zero => simpa [slotsBefore] using hk
      | succ k =>
          have htail := @ih k (by simpa using hk)
          have hslots : slotsBefore (d :: constants) (k + 1) =
              slotsBefore constants k + 1 := by
            simp [slotsBefore, isWide]
            omega
          rw [hslots]
          simpa using htail
  | @wide d constants pool isWide tail ih =>
      cases k with
      | zero => simpa [slotsBefore] using hk
      | succ k =>
          have htail := @ih k (by simpa using hk)
          have hslots : slotsBefore (d :: constants) (k + 1) =
              slotsBefore constants k + 2 := by
            simp [slotsBefore, isWide]
            omega
          rw [hslots]
          simpa using htail
  | @last d isWide =>
      cases k with
      | zero => simpa [slotsBefore] using hk
      | succ k => simp at hk

/-- There are no other entries. -/
theorem reduceOption_eq (hlaid : LaidOut constants pool) :
    pool.reduceOption = constants := by
  induction hlaid with
  | nil => rfl
  | single isWide tail ih => rw [List.reduceOption_cons_of_some, ih]
  | wide isWide tail ih =>
      rw [List.reduceOption_cons_of_some, List.reduceOption_cons_of_none, ih]
  | last isWide => rfl

end LaidOut

/-! ## The pool -/

/-- Where the constants of the stream are in the pool. -/
structure PoolLayout (constants : List ConstantInfo) (cp : ConstantPool) :
    Prop where
  first : 0 < cp.length → cp[0]? = some none
  nil_iff : ∀ i, 1 ≤ i → i < cp.length →
    (cp[i]? = some none ↔
      ∃ c, cp[i - 1]? = some (some c) ∧ c.isWide = true)
  stored : ∀ k c, constants[k]? = some c →
    cp[1 + slotsBefore constants k]? = some (some c)
  complete : cp.reduceOption = constants

theorem LaidOut.poolLayout {constants : List ConstantInfo} {pool : ConstantPool}
    (hlaid : LaidOut constants pool) : PoolLayout constants (none :: pool) := by
  constructor
  · intro _
    rfl
  · intro i hi hlength
    obtain ⟨j, rfl⟩ := Nat.exists_eq_add_of_le' hi
    rw [List.length_cons] at hlength
    cases j with
    | zero =>
        have hhead := hlaid.head_ne_none
        simp [hhead]
    | succ j =>
        have hnone := hlaid.none_iff (show j + 1 < pool.length by omega)
        simpa using hnone
  · intro k c hk
    have hstored := hlaid.stored hk
    rw [Nat.add_comm]
    simpa using hstored
  · rw [List.reduceOption_cons_of_none]
    exact hlaid.reduceOption_eq

theorem accepts_readConstantPool :
    Accepts readConstantPool fun cp bytes =>
      ∃ (c : BitVec 16) (constants : List ConstantInfo),
        bytes = bytes16 c ++ constants.flatMap ConstantInfo.encode ∧
        (∀ constant ∈ constants, constant.InRange) ∧
        cp.length = c.toNat ∧ PoolLayout constants cp := by
  apply accepts_readUint16.bind
  intro c first hfirst
  cases hlength : c.toNat with
  | zero =>
      apply Accepts.pure
      refine ⟨c, [], ?_, by simp, by rw [hlength]; rfl, ?_⟩
      · rw [hfirst]
        rfl
      · constructor
        · simp
        · simp
        · simp
        · rfl
  | succ n =>
      apply (accepts_readConstants n).map
      rintro pool bytes ⟨hpool, constants, hlaid, hin, hbytes⟩
      refine ⟨c, constants, ?_, hin, ?_, hlaid.poolLayout⟩
      · rw [hfirst, hbytes]
      · rw [List.length_cons, hpool, hlength]

/-- The pool has as many entries as its count says, every constant of the
stream is at its index, and the reader is behind the last of them. -/
theorem readConstantPool_layout {data rest : List Byte} {cp : ConstantPool}
    (hread : readConstantPoolArray data = .ok (cp, rest)) :
    ∃ (c : BitVec 16) (constants : List ConstantInfo),
      data = bytes16 c ++ (constants.flatMap ConstantInfo.encode ++ rest) ∧
      (∀ constant ∈ constants, constant.InRange) ∧
      data.length = 2 +
        (constants.map fun constant => constant.encode.length).sum +
          rest.length ∧
      cp.length = c.toNat ∧ PoolLayout constants cp := by
  rw [readConstantPoolArray_eq] at hread
  obtain ⟨bytes, hsupplies, c, constants, hbytes, hrange, hlength, hlayout⟩ :=
    accepts_readConstantPool data cp rest hread
  have hdata : data =
      bytes16 c ++ (constants.flatMap ConstantInfo.encode ++ rest) := by
    rw [supplies_list.mp hsupplies, hbytes, List.append_assoc]
  refine ⟨c, constants, hdata, hrange, ?_, hlength, hlayout⟩
  rw [hdata, List.length_append, List.length_append, List.length_flatMap,
    length_bytes16]
  omega

/-- A `Double` at the last index of the pool -/
theorem readConstantPool_layout_last :
    ∃ (c : BitVec 16) (constants : List ConstantInfo),
      [0, 3, 8, 0, 2, 6, 0, 0, 0, 0, 0, 0, 0, 7, 1] =
        bytes16 c ++ (constants.flatMap ConstantInfo.encode ++ [1]) ∧
      (∀ constant ∈ constants, constant.InRange) ∧
      [0, 3, 8, 0, 2, 6, 0, 0, 0, 0, 0, 0, 0, 7, (1 : Byte)].length = 2 +
        (constants.map fun constant => constant.encode.length).sum +
          [(1 : Byte)].length ∧
      ([none, some (.string 2), some (.double 7)] : ConstantPool).length =
        c.toNat ∧
      PoolLayout constants [none, some (.string 2), some (.double 7)] := by
  have hread : readConstantPoolArray
      [0, 3, 8, 0, 2, 6, 0, 0, 0, 0, 0, 0, 0, 7, 1] =
      .ok ([none, some (.string 2), some (.double 7)], [1]) := by
    rw [readConstantPoolArray_eq]
    rfl
  exact readConstantPool_layout hread

end Classfile

end Jvm

end ClpszDemos
