import ClpszDemos.BytecodeEncoding
import ClpszDemos.JvmRuntime

/-!
# What the decoder accepts

Every reader of the decoder makes its value out of an encoding of this value,
so that an instruction which is decoded was encoded there, with two kinds of
exceptions: `wide` takes any opcode behind it, and the length of a switch table
is computed with 32 bits, where an illegal header can wrap around to a length
that is present.
-/

namespace ClpszDemos

namespace Jvm

open BigEndian BytecodeReader

/-! ## Readers -/

theorem accepts_readUint8 :
    Accepts readUint8 fun byte bytes => bytes = [byte] := by
  intro reader byte t hrun
  refine ⟨[byte], ?_, rfl⟩
  unfold readUint8 at hrun
  cases hnext : reader.next? with
  | none =>
      rw [hnext] at hrun
      cases hrun
  | some pair =>
      rw [hnext] at hrun
      cases hrun
      exact ⟨_, hnext, rfl⟩

theorem accepts_readUint16 :
    Accepts readUint16 fun value bytes => bytes = bytes16 value := by
  apply accepts_readUint8.bind
  intro byte1 bytes1 h1
  apply accepts_readUint8.bind
  intro byte2 bytes2 h2
  apply Accepts.pure
  rw [h1, h2, bytes16_join16]
  rfl

theorem accepts_readInt32 :
    Accepts readInt32 fun value bytes => bytes = bytes32 value := by
  apply accepts_readUint8.bind
  intro byte1 bytes1 h1
  apply accepts_readUint8.bind
  intro byte2 bytes2 h2
  apply accepts_readUint8.bind
  intro byte3 bytes3 h3
  apply accepts_readUint8.bind
  intro byte4 bytes4 h4
  apply Accepts.pure
  rw [h1, h2, h3, h4, bytes32_join32]
  rfl

theorem accepts_readInt32s (n : BitVec 32) :
    Accepts (readInt32s n) fun ints bytes =>
      n.toInt = ints.length ∧ bytes = ints.flatMap bytes32 := by
  intro reader ints t hrun
  unfold readInt32s at hrun
  by_cases hneg : n.toInt < 0
  · rw [if_pos hneg] at hrun
    cases hrun
  · rw [if_neg hneg] at hrun
    obtain ⟨bytes, hsupplies, hlength, hbytes⟩ :=
      accepts_readInt32.many _ reader ints t hrun
    exact ⟨bytes, hsupplies, by omega, hbytes⟩

theorem offsetInRange_toInt {bits : ℕ} (value : BitVec bits) :
    Instruction.OffsetInRange bits value.toInt :=
  ⟨BitVec.le_toInt value, BitVec.toInt_lt⟩

theorem accepts_fetchOffset :
    Accepts Instruction.fetchOffset fun offset bytes =>
      Instruction.OffsetInRange 16 offset ∧
        bytes = Instruction.offsetBytes offset := by
  apply accepts_readUint16.bind
  intro value bytes hbytes
  apply Accepts.pure
  unfold Instruction.offsetBytes
  rw [BitVec.ofInt_toInt, List.append_nil]
  exact ⟨offsetInRange_toInt value, hbytes⟩

theorem accepts_fetchIndex8 :
    Accepts Instruction.fetchIndex8 fun index bytes =>
      index < 256 ^ 1 ∧ bytes = [BitVec.ofNat 8 index] := by
  apply accepts_readUint8.bind
  intro byte bytes hbytes
  apply Accepts.pure
  rw [BitVec.ofNat_toNat, BitVec.setWidth_eq, List.append_nil]
  exact ⟨byte.isLt, hbytes⟩

theorem accepts_fetchIndex16 :
    Accepts Instruction.fetchIndex16 fun index bytes =>
      index < 256 ^ 2 ∧ bytes = bytes16 (BitVec.ofNat 16 index) := by
  apply accepts_readUint16.bind
  intro value bytes hbytes
  apply Accepts.pure
  rw [BitVec.ofNat_toNat, BitVec.setWidth_eq, List.append_nil]
  exact ⟨value.isLt, hbytes⟩

/-! ## Operands -/

namespace Instruction

/-- What is known of operands that were fetched. -/
def Fetched : Instruction → Prop
  | tableSwitch _ low high jumpOffsets =>
      (high - low + 1).toInt = jumpOffsets.length
  | lookupSwitch _ npairs matchOffsets =>
      (npairs * 2).toInt = matchOffsets.length
  | inst => inst.InRange

/-- `bytes` are the operands of `inst`, which has the opcode of `new`. -/
def Operands (new inst : Instruction) (bytes : List Byte) : Prop :=
  inst.opcode = new.opcode ∧ inst.Fetched ∧
    ∀ padding, bytes = inst.operands padding

theorem setWidth_signExtend {bits : ℕ} (hbits : bits ≤ 32)
    (const : BitVec bits) :
    ((const.signExtend 32).setWidth bits) = const ∧
      OffsetInRange bits (const.signExtend 32).toInt := by
  have htoInt : (const.signExtend 32).toInt = const.toInt :=
    BitVec.toInt_signExtend_of_le hbits
  refine ⟨?_, ?_⟩
  · apply BitVec.eq_of_getLsbD_eq
    intro i hi
    have hi32 : i < 32 := by omega
    rw [BitVec.getLsbD_setWidth, BitVec.getLsbD_signExtend]
    simp [hi, hi32]
  · rw [htoInt]
    exact offsetInRange_toInt const

theorem accepts_iincFetch :
    Accepts iincFetch (Operands (iinc 0 0)) := by
  apply accepts_fetchIndex8.bind
  intro index bytes hindex
  apply accepts_readUint8.bind
  intro const rest hconst
  obtain ⟨hwidth, hrange⟩ := setWidth_signExtend (show 8 ≤ 32 by omega) const
  apply Accepts.pure
  refine ⟨rfl, ⟨hindex.1, hrange⟩, fun padding => ?_⟩
  rw [hindex.2, hconst]
  simp only [operands, indexOperands, hwidth]
  rfl

/-- The operands of an instruction that is neither a switch nor `wide`. -/
theorem accepts_operands {new : Instruction} (hunpadded : new.Unpadded)
    (hwide : ∀ modified, new ≠ wide modified) :
    Accepts (fetchOperands new) (Operands new) := by
  cases new with
  | bipush val =>
      apply accepts_readUint8.map
      intro byte bytes hbytes
      exact ⟨rfl, trivial, fun _ => hbytes⟩
  | sipush val =>
      apply accepts_readUint16.map
      intro value bytes hbytes
      exact ⟨rfl, trivial, fun _ => hbytes⟩
  | index instruction =>
      cases instruction with
      | load type i | store type i =>
          apply accepts_fetchIndex8.map
          intro index bytes hindex
          exact ⟨rfl, hindex.1, fun _ => hindex.2⟩
      | iinc i const => exact accepts_iincFetch
  | ifCond | ifIcmp | ifAcmp | goto | ifNull =>
      apply accepts_fetchOffset.map
      intro value bytes hbytes
      exact ⟨rfl, hbytes.1, fun _ => hbytes.2⟩
  | goto_w offset =>
      apply accepts_readInt32.map
      intro value bytes hbytes
      refine ⟨rfl, offsetInRange_toInt value, fun padding => ?_⟩
      rw [hbytes, operands, BitVec.ofInt_toInt]
  | tableSwitch defaultOffset low high jumpOffsets => exact hunpadded.elim
  | lookupSwitch defaultOffset npairs matchOffsets => exact hunpadded.elim
  | wide modified => exact absurd rfl (hwide modified)
  | _ => exact Accepts.pure ⟨rfl, trivial, fun _ => rfl⟩

/-! ## Operands of `wide` -/

/-- The opcodes that the switch of `WIDE.FetchOperands` has a case for; the
last of them panics. -/
def wideOpcodes : List Byte :=
  [0x15, 0x16, 0x17, 0x18, 0x19, 0x36, 0x37, 0x38, 0x39, 0x3a, 0x84, 0xa9]

/-- What `wide` makes of the opcode behind it and of what follows. -/
def WideOperands (opcode : Byte) (inst : Instruction) (bytes : List Byte) :
    Prop :=
  (∃ instruction, inst = wide (some instruction) ∧
    IndexInRange 2 instruction ∧ opcode :: bytes = wideOperands instruction) ∨
  (inst = wide none ∧ bytes = [] ∧ opcode ∉ wideOpcodes)

theorem accepts_wideLoad (type : ValueType) :
    Accepts (wideLoad type)
      (WideOperands (BitVec.ofNat 8 (0x15 + type.rank))) := by
  apply accepts_fetchIndex16.map
  intro index bytes hindex
  exact .inl ⟨.load type index, rfl, hindex.1, by rw [hindex.2]; rfl⟩

theorem accepts_wideStore (type : ValueType) :
    Accepts (wideStore type)
      (WideOperands (BitVec.ofNat 8 (0x36 + type.rank))) := by
  apply accepts_fetchIndex16.map
  intro index bytes hindex
  exact .inl ⟨.store type index, rfl, hindex.1, by rw [hindex.2]; rfl⟩

theorem accepts_wideIinc : Accepts wideIinc (WideOperands 0x84) := by
  apply accepts_fetchIndex16.bind
  intro index bytes hindex
  apply accepts_readUint16.bind
  intro const rest hconst
  obtain ⟨hwidth, hrange⟩ := setWidth_signExtend (show 16 ≤ 32 by omega) const
  apply Accepts.pure
  refine .inl ⟨.iinc index (const.signExtend 32), rfl,
    ⟨hindex.1, hrange⟩, ?_⟩
  rw [hindex.2, hconst]
  simp only [wideOperands, hwidth, List.append_nil]
  rfl

theorem accepts_wideModified (opcode : Byte) :
    Accepts (wideModified opcode) (WideOperands opcode) := by
  unfold wideModified
  split
  · exact accepts_wideLoad .int
  · exact accepts_wideLoad .long
  · exact accepts_wideLoad .float
  · exact accepts_wideLoad .double
  · exact accepts_wideLoad .ref
  · exact accepts_wideStore .int
  · exact accepts_wideStore .long
  · exact accepts_wideStore .float
  · exact accepts_wideStore .double
  · exact accepts_wideStore .ref
  · exact accepts_wideIinc
  · intro reader inst t hrun
    cases hrun
  · apply Accepts.pure
    refine .inr ⟨rfl, rfl, ?_⟩
    simp_all [wideOpcodes]

theorem accepts_wideFetch :
    Accepts wideFetch fun inst bytes =>
      ∃ opcode rest, bytes = opcode :: rest ∧
        WideOperands opcode inst rest := by
  apply accepts_readUint8.bind
  intro opcode bytes hopcode reader inst t hrun
  obtain ⟨rest, hsupplies, hoperands⟩ :=
    accepts_wideModified opcode reader inst t hrun
  exact ⟨rest, hsupplies, opcode, rest, by rw [hopcode]; rfl, hoperands⟩

/-! ## Operands of a switch -/

/-- `FetchOperands` of `TABLE_SWITCH`, from any position. -/
theorem tableSwitchFetch_eq_ok {reader t : BytecodeReader}
    {inst : Instruction} (hrun : tableSwitchFetch reader = .ok (inst, t)) :
    ∃ (padding : List Byte) (defaultOffset low high : BitVec 32)
      (jumpOffsets : List (BitVec 32)),
      (padding.length : ℤ) = (-reader.pc) % 4 ∧
      inst = tableSwitch defaultOffset low high jumpOffsets ∧
      (high - low + 1).toInt = jumpOffsets.length ∧
      Supplies reader (inst.operands padding) t := by
  obtain ⟨_, u, hskip, hrest⟩ := bind_eq_ok hrun
  obtain ⟨padding, hpadding, hlength⟩ := skipPadding_skips hskip
  have htable : Accepts (do
      let defaultOffset ← readInt32
      let low ← readInt32
      let high ← readInt32
      let jumpOffsets ← readInt32s (high - low + 1)
      return tableSwitch defaultOffset low high jumpOffsets)
      fun inst bytes => ∃ (defaultOffset low high : BitVec 32)
        (jumpOffsets : List (BitVec 32)),
        inst = tableSwitch defaultOffset low high jumpOffsets ∧
        (high - low + 1).toInt = jumpOffsets.length ∧
        bytes = inst.operands [] := by
    apply accepts_readInt32.bind
    intro defaultOffset bytes1 h1
    apply accepts_readInt32.bind
    intro low bytes2 h2
    apply accepts_readInt32.bind
    intro high bytes3 h3
    apply (accepts_readInt32s _).bind
    intro jumpOffsets bytes4 h4
    apply Accepts.pure
    refine ⟨defaultOffset, low, high, jumpOffsets, rfl, h4.1, ?_⟩
    rw [h1, h2, h3, h4.2, List.append_nil]
    rfl
  obtain ⟨bytes, hbytes, defaultOffset, low, high, jumpOffsets, rfl, hcount,
    rfl⟩ := htable u inst t hrest
  exact ⟨padding, defaultOffset, low, high, jumpOffsets, hlength, rfl, hcount,
    supplies_append.mpr ⟨u, hpadding, hbytes⟩⟩

theorem lookupSwitchFetch_eq_ok {reader t : BytecodeReader}
    {inst : Instruction} (hrun : lookupSwitchFetch reader = .ok (inst, t)) :
    ∃ (padding : List Byte) (defaultOffset npairs : BitVec 32)
      (matchOffsets : List (BitVec 32)),
      (padding.length : ℤ) = (-reader.pc) % 4 ∧
      inst = lookupSwitch defaultOffset npairs matchOffsets ∧
      (npairs * 2).toInt = matchOffsets.length ∧
      Supplies reader (inst.operands padding) t := by
  obtain ⟨_, u, hskip, hrest⟩ := bind_eq_ok hrun
  obtain ⟨padding, hpadding, hlength⟩ := skipPadding_skips hskip
  have htable : Accepts (do
      let defaultOffset ← readInt32
      let npairs ← readInt32
      let matchOffsets ← readInt32s (npairs * 2)
      return lookupSwitch defaultOffset npairs matchOffsets)
      fun inst bytes => ∃ (defaultOffset npairs : BitVec 32)
        (matchOffsets : List (BitVec 32)),
        inst = lookupSwitch defaultOffset npairs matchOffsets ∧
        (npairs * 2).toInt = matchOffsets.length ∧
        bytes = inst.operands [] := by
    apply accepts_readInt32.bind
    intro defaultOffset bytes1 h1
    apply accepts_readInt32.bind
    intro npairs bytes2 h2
    apply (accepts_readInt32s _).bind
    intro matchOffsets bytes3 h3
    apply Accepts.pure
    refine ⟨defaultOffset, npairs, matchOffsets, rfl, h3.1, ?_⟩
    rw [h1, h2, h3.2, List.append_nil]
    rfl
  obtain ⟨bytes, hbytes, defaultOffset, npairs, matchOffsets, rfl, hcount,
    rfl⟩ := htable u inst t hrest
  exact ⟨padding, defaultOffset, npairs, matchOffsets, hlength, rfl, hcount,
    supplies_append.mpr ⟨u, hpadding, hbytes⟩⟩

/-! ## Positions in the code -/

/-- The 32-bit word of the code at a position. -/
def wordAt (code : List Byte) (position : ℤ) : Option (BitVec 32) :=
  if position < 0 then none
  else
    match code.drop position.toNat with
    | byte1 :: byte2 :: byte3 :: byte4 :: _ =>
        some (join32 byte1 byte2 byte3 byte4)
    | _ => none

theorem wordAt_of_bytes {code rest : List Byte} {position : ℕ}
    {word : BitVec 32} (hword : bytes32 word ++ rest <+: code.drop position) :
    wordAt code position = some word := by
  obtain ⟨after, hafter⟩ := hword
  have hnonneg : ¬ (position : ℤ) < 0 := by omega
  unfold wordAt
  rw [if_neg hnonneg, Int.toNat_natCast, ← hafter]
  simp [bytes32]

theorem prefix_drop_append {code before rest : List Byte} {position : ℕ}
    (hbytes : before ++ rest <+: code.drop position) :
    rest <+: code.drop (position + before.length) := by
  obtain ⟨after, hafter⟩ := hbytes
  refine ⟨after, ?_⟩
  rw [← List.drop_drop, ← hafter, List.append_assoc, List.drop_left]

/-- The reader hands out what the code has at its position. -/
theorem supplies_code_iff {code bytes : List Byte} {pc : ℕ}
    {t : BytecodeReader} :
    Supplies (⟨code, pc⟩ : BytecodeReader) bytes t ↔
      bytes <+: code.drop pc ∧ t = ⟨code, (pc + bytes.length : ℕ)⟩ := by
  constructor
  · intro hsupplies
    have hstarts : bytes <+: code.drop pc := by
      induction bytes generalizing pc with
      | nil => exact List.nil_prefix
      | cons byte bytes ih =>
          obtain ⟨u, hnext, htail⟩ := hsupplies
          have hself : next? ⟨code, pc⟩ = some (byte, u) := hnext
          have hnonneg : ¬ (pc : ℤ) < 0 := by omega
          simp only [next?, if_neg hnonneg, Int.toNat_natCast,
            Option.map_eq_some_iff, Prod.mk.injEq] at hself
          obtain ⟨_, hcode, rfl, hu⟩ := hself
          have htail' := ih (hu ▸ htail : Supplies
            (⟨code, (pc + 1 : ℕ)⟩ : BytecodeReader) bytes t)
          obtain ⟨hlt, hget⟩ := List.getElem?_eq_some_iff.mp hcode
          rw [← List.cons_getElem_drop_succ (h := hlt), hget]
          exact List.cons_prefix_cons.mpr ⟨rfl, htail'⟩
    exact ⟨hstarts, hsupplies.unique (supplies_code hstarts)⟩
  · rintro ⟨hstarts, rfl⟩
    exact supplies_code hstarts

/-- A reader that hands out a byte is at a position of the code. -/
theorem position_of_supplies {reader t : BytecodeReader} {byte : Byte}
    {bytes : List Byte} (hsupplies : Supplies reader (byte :: bytes) t) :
    ∃ pc : ℕ, reader = ⟨reader.code, pc⟩ := by
  obtain ⟨u, hnext, _⟩ := hsupplies
  have hself : reader.next? = some (byte, u) := hnext
  unfold next? at hself
  by_cases hneg : reader.pc < 0
  · rw [if_pos hneg] at hself
    cases hself
  · obtain ⟨pc, hpc⟩ := Int.eq_ofNat_of_zero_le (not_lt.mp hneg)
    exact ⟨pc, by rw [← hpc]⟩

/-! ## Decoding -/

theorem opcode_of_newInstruction {opcode : Byte} {new : Instruction}
    (hnew : newInstruction opcode = .ok new) : new.opcode = opcode := by
  unfold newInstruction at hnew
  split at hnew
  all_goals
    cases hnew
  all_goals rfl

theorem decode_eq_ok {reader t : BytecodeReader} {inst : Instruction}
    (hdecode : decode reader = .ok (inst, t)) :
    ∃ (opcode : Byte) (new : Instruction) (next : BytecodeReader),
      Supplies reader [opcode] next ∧ new.opcode = opcode ∧
      fetchOperands new next = .ok (inst, t) := by
  obtain ⟨opcode, next, hread, hrest⟩ := bind_eq_ok hdecode
  obtain ⟨new, next', hnew, hfetch⟩ := bind_eq_ok hrest
  obtain ⟨bytes, hsupplies, rfl⟩ := accepts_readUint8 reader opcode next hread
  cases hmade : newInstruction opcode with
  | error panic =>
      rw [hmade] at hnew
      cases hnew
  | ok made =>
      rw [hmade] at hnew
      cases hnew
      exact ⟨opcode, new, next, hsupplies, opcode_of_newInstruction hmade,
        hfetch⟩

/-- The operands that are fetched are those of the instruction that is
returned, or `wide` has taken an opcode without a case. -/
theorem fetchOperands_eq_ok {new inst : Instruction} {next t : BytecodeReader}
    (hfetch : fetchOperands new next = .ok (inst, t)) :
    (∃ padding : List Byte, (padding.length : ℤ) = (-next.pc) % 4 ∧
      inst.opcode = new.opcode ∧ inst.Fetched ∧
      Supplies next (inst.operands padding) t) ∨
    (inst = wide none ∧ new.opcode = 0xc4 ∧
      ∃ opcode, Supplies next [opcode] t ∧ opcode ∉ wideOpcodes) := by
  -- An instruction without padding takes any padding for its encoding
  have hzeros : ((List.replicate ((-next.pc) % 4).toNat (0 : Byte)).length :
      ℤ) = (-next.pc) % 4 := by
    rw [List.length_replicate]
    omega
  by_cases hwide : ∃ modified, new = wide modified
  · obtain ⟨modified, rfl⟩ := hwide
    obtain ⟨bytes, hbytes, sub, rest, rfl, hoperands⟩ :=
      accepts_wideFetch next inst t hfetch
    rcases hoperands with
      ⟨instruction, rfl, hrange, hencoded⟩ | ⟨rfl, rfl, hunknown⟩
    · left
      rw [hencoded] at hbytes
      exact ⟨_, hzeros, rfl, ⟨instruction, rfl, hrange⟩, hbytes⟩
    · right
      exact ⟨rfl, rfl, sub, hbytes, hunknown⟩
  left
  by_cases hunpadded : new.Unpadded
  · have hplain : ∀ modified, new ≠ wide modified := by
      intro modified hmodified
      exact hwide ⟨modified, hmodified⟩
    obtain ⟨bytes, hbytes, hinst, hfetched, hoperands⟩ :=
      accepts_operands hunpadded hplain next inst t hfetch
    rw [hoperands (List.replicate ((-next.pc) % 4).toNat 0)] at hbytes
    exact ⟨_, hzeros, hinst, hfetched, hbytes⟩
  cases new with
  | tableSwitch =>
      obtain ⟨padding, defaultOffset, low, high, jumpOffsets, hlength, rfl,
        hcount, hoperands⟩ := tableSwitchFetch_eq_ok hfetch
      exact ⟨padding, hlength, rfl, hcount, hoperands⟩
  | lookupSwitch =>
      obtain ⟨padding, defaultOffset, npairs, matchOffsets, hlength, rfl,
        hcount, hoperands⟩ := lookupSwitchFetch_eq_ok hfetch
      exact ⟨padding, hlength, rfl, hcount, hoperands⟩
  | _ => exact absurd trivial hunpadded

/-- The bytes behind the opcode at a position. -/
theorem code_of_supplies {code bytes : List Byte} {n : ℕ} {opcode : Byte}
    {next t : BytecodeReader}
    (hopcode : Supplies (⟨code, n⟩ : BytecodeReader) [opcode] next)
    (hbytes : Supplies next bytes t) :
    opcode :: bytes <+: code.drop n ∧
      t = ⟨code, (n + (opcode :: bytes).length : ℕ)⟩ := by
  have hboth : Supplies (⟨code, n⟩ : BytecodeReader) ([opcode] ++ bytes) t :=
    supplies_append.mpr ⟨next, hopcode, hbytes⟩
  exact supplies_code_iff.mp hboth

/-- `decode` reads an encoding of what it returns, up to the header of a
switch, or a `wide` before an opcode without a case. -/
theorem decode_sound {code : List Byte} {pc : ℤ} {inst : Instruction}
    {t : BytecodeReader} (hdecode : decode ⟨code, pc⟩ = .ok (inst, t)) :
    ∃ n : ℕ, pc = n ∧
      ((∃ padding : List Byte, padding.length = paddingLength n ∧
          inst.encode padding <+: code.drop n ∧
          t = ⟨code, (n + (inst.encode padding).length : ℕ)⟩ ∧
          inst.Fetched) ∨
        inst = wide none ∧ ∃ opcode, [0xc4, opcode] <+: code.drop n ∧
          opcode ∉ wideOpcodes) := by
  obtain ⟨opcode, new, next, hopcode, hnew, hfetch⟩ := decode_eq_ok hdecode
  obtain ⟨n, hn⟩ := position_of_supplies hopcode
  obtain rfl : pc = n := congrArg BytecodeReader.pc hn
  refine ⟨n, rfl, ?_⟩
  obtain ⟨_, hnext⟩ := supplies_code_iff.mp hopcode
  have hpadding : (-next.pc) % 4 = paddingLength n := by
    rw [hnext]
    unfold paddingLength
    simp only [List.length_singleton]
    push_cast
    omega
  rcases fetchOperands_eq_ok hfetch with
    ⟨padding, hlength, hinst, hfetched, hoperands⟩ |
    ⟨rfl, hc4, sub, hsub, hunknown⟩
  · left
    have hpad : padding.length = paddingLength n := by omega
    rw [← hnew, ← hinst] at hopcode
    obtain ⟨hstarts, ht⟩ := code_of_supplies hopcode hoperands
    exact ⟨padding, hpad, hstarts, ht, hfetched⟩
  · right
    rw [← hnew, hc4] at hopcode
    obtain ⟨hstarts, _⟩ := code_of_supplies hopcode hsub
    exact ⟨rfl, sub, hstarts, hunknown⟩

/-! ## Malformed code that is decoded -/

/-- Where the words of a switch at `pc` begin. -/
def switchBase (pc : ℕ) : ℕ := pc + 1 + paddingLength pc

/-- A `wide` before an opcode that its switch has no case for. -/
def WideUnhandled (code : List Byte) (pc : ℕ) : Prop :=
  ∃ opcode, [0xc4, opcode] <+: code.drop pc ∧ opcode ∉ wideOpcodes

/-- A `lookupswitch` with a negative number of pairs: its double, taken as an
`int32`, is a number of words that are all there. -/
def NegativePairs (code : List Byte) (pc : ℕ) : Prop :=
  code[pc]? = some 0xab ∧ ∃ npairs : BitVec 32,
    wordAt code (switchBase pc + 4 : ℕ) = some npairs ∧ npairs.toInt < 0 ∧
    ∃ count : ℕ, (count : ℤ) = Int.bmod (npairs.toInt * 2) (2 ^ 32) ∧
      switchBase pc + 8 + 4 * count ≤ code.length

/-- A `tableswitch` with `high < low`, or one for every `int32`: the number of
its offsets, taken as an `int32`, is a number of words that are all there. -/
def WrappedTable (code : List Byte) (pc : ℕ) : Prop :=
  code[pc]? = some 0xaa ∧ ∃ low high : BitVec 32,
    wordAt code (switchBase pc + 4 : ℕ) = some low ∧
    wordAt code (switchBase pc + 8 : ℕ) = some high ∧
    (high.toInt < low.toInt ∨ high.toInt - low.toInt + 1 = 2 ^ 32) ∧
    ∃ count : ℕ,
      (count : ℤ) = Int.bmod (high.toInt - low.toInt + 1) (2 ^ 32) ∧
      switchBase pc + 12 + 4 * count ≤ code.length

def Malformed (code : List Byte) (pc : ℕ) : Prop :=
  WideUnhandled code pc ∨ NegativePairs code pc ∨ WrappedTable code pc

/-- A count from `2 ^ 31` on wraps around to a negative number. -/
theorem bmod_of_large {count : ℤ} (hlarge : 2 ^ 31 ≤ count)
    (hlt : count < 2 ^ 32) : Int.bmod count (2 ^ 32) = count - 2 ^ 32 := by
  have hcast : ((2 ^ 32 : ℕ) : ℤ) = 2 ^ 32 := by norm_num
  rw [← Int.sub_bmod_right, hcast]
  apply Int.bmod_eq_of_le
  · omega
  · omega

theorem inRange_tableSwitch {defaultOffset low high : BitVec 32}
    {jumpOffsets : List (BitVec 32)}
    (hfetched : (high - low + 1).toInt = jumpOffsets.length)
    (hlow : low.toInt ≤ high.toInt)
    (hnotAll : high.toInt - low.toInt + 1 ≠ 2 ^ 32) :
    (tableSwitch defaultOffset low high jumpOffsets).InRange := by
  refine ⟨hlow, ?_⟩
  have hlowBounds := offsetInRange_toInt low
  have hhighBounds := offsetInRange_toInt high
  unfold OffsetInRange at hlowBounds hhighBounds
  rw [jumpOffsetsCount_toInt] at hfetched
  rw [← hfetched]
  by_cases hsmall : high.toInt - low.toInt + 1 < 2 ^ 31
  · apply Int.bmod_eq_of_le
    · omega
    · omega
  · have hwraps := bmod_of_large (not_lt.mp hsmall) (by omega)
    omega

theorem inRange_lookupSwitch {defaultOffset npairs : BitVec 32}
    {matchOffsets : List (BitVec 32)}
    (hfetched : (npairs * 2).toInt = matchOffsets.length)
    (hnonneg : 0 ≤ npairs.toInt) :
    (lookupSwitch defaultOffset npairs matchOffsets).InRange := by
  refine ⟨hnonneg, ?_⟩
  have hbounds := offsetInRange_toInt npairs
  unfold OffsetInRange at hbounds
  rw [matchOffsetsCount_toInt] at hfetched
  rw [← hfetched]
  by_cases hsmall : npairs.toInt * 2 < 2 ^ 31
  · apply Int.bmod_eq_of_le
    · omega
    · omega
  · have hwraps := bmod_of_large (not_lt.mp hsmall) (by omega)
    omega

/-- The words behind the padding of a switch. -/
theorem words_of_operands {code padding bytes rest : List Byte} {pc : ℕ}
    {opcode : Byte} (hlength : padding.length = paddingLength pc)
    (hcode : opcode :: (padding ++ (bytes ++ rest)) <+: code.drop pc) :
    rest <+: code.drop (switchBase pc + bytes.length) := by
  have hpadding := prefix_drop_succ hcode
  have hbytes := prefix_drop_append hpadding
  have hrest := prefix_drop_append hbytes
  rw [hlength] at hrest
  exact hrest

/-- A decoded instruction that is no encoding is of malformed code. -/
theorem encodes_of_decode {code : List Byte} {pc : ℤ} {inst : Instruction}
    {t : BytecodeReader} (hdecode : decode ⟨code, pc⟩ = .ok (inst, t))
    (hlegal : ∀ n : ℕ, pc = n → ¬ Malformed code n) :
    ∃ (n : ℕ) (bytes : List Byte), pc = n ∧ bytes <+: code.drop n ∧
      Encodes n inst bytes ∧ t = ⟨code, (n + bytes.length : ℕ)⟩ := by
  obtain ⟨n, rfl, hread | ⟨_, hwide⟩⟩ := decode_sound hdecode
  · obtain ⟨padding, hlength, hcode, ht, hfetched⟩ := hread
    refine ⟨n, inst.encode padding, rfl, hcode, ⟨?_, padding, hlength, rfl⟩,
      ht⟩
    have hmalformed := hlegal n rfl
    have hopcode := getElem?_of_prefix_drop hcode
    have hend := hcode.length_le
    rw [List.length_drop] at hend
    cases inst with
    | tableSwitch defaultOffset low high jumpOffsets =>
        have hwords := words_of_operands hlength hcode
        have hlow := wordAt_of_bytes hwords
        have hhigh := wordAt_of_bytes (prefix_drop_append hwords)
        simp only [encode, operands, List.length_cons, List.length_append,
          length_bytes32, length_flatMap_bytes32, hlength] at hend
        have hcount : (jumpOffsets.length : ℤ) =
            Int.bmod (high.toInt - low.toInt + 1) (2 ^ 32) := by
          rw [← jumpOffsetsCount_toInt, hfetched]
        by_cases hbad : high.toInt < low.toInt ∨
            high.toInt - low.toInt + 1 = 2 ^ 32
        · have hwrapped : WrappedTable code n := by
            refine ⟨hopcode, low, high, hlow, hhigh, hbad,
              jumpOffsets.length, hcount, ?_⟩
            unfold switchBase
            omega
          exact absurd (.inr (.inr hwrapped)) hmalformed
        · rw [not_or, not_lt] at hbad
          exact inRange_tableSwitch hfetched hbad.1 hbad.2
    | lookupSwitch defaultOffset npairs matchOffsets =>
        have hwords := words_of_operands hlength hcode
        have hnpairs := wordAt_of_bytes hwords
        simp only [encode, operands, List.length_cons, List.length_append,
          length_bytes32, length_flatMap_bytes32, hlength] at hend
        have hcount : (matchOffsets.length : ℤ) =
            Int.bmod (npairs.toInt * 2) (2 ^ 32) := by
          rw [← matchOffsetsCount_toInt, hfetched]
        by_cases hneg : npairs.toInt < 0
        · have hpairs : NegativePairs code n := by
            refine ⟨hopcode, npairs, hnpairs, hneg, matchOffsets.length,
              hcount, ?_⟩
            unfold switchBase
            omega
          exact absurd (.inr (.inl hpairs)) hmalformed
        · exact inRange_lookupSwitch hfetched (not_lt.mp hneg)
    | _ => exact hfetched
  · exact absurd (.inl hwide) (hlegal n rfl)

theorem reads_wideUnhandled {opcode : Byte} (hunknown : opcode ∉ wideOpcodes) :
    Reads wideFetch [opcode] (wide none) := by
  have hmodified : wideModified opcode = return wide none := by
    unfold wideModified
    split
    case h_13 => rfl
    all_goals exact absurd (by decide) hunknown
  have hnone : Reads (wideModified opcode) [] (wide none) := by
    rw [hmodified]
    exact Reads.pure _
  exact Reads.bind (reads_readUint8 opcode) hnone

/-- An opcode with padding and words behind it, where the code is long
enough. -/
theorem switch_at {code : List Byte} {pc n : ℕ} {opcode : Byte}
    (hopcode : code[pc]? = some opcode)
    (hend : switchBase pc + 4 * n ≤ code.length) :
    ∃ (padding : List Byte) (words : List (BitVec 32)),
      padding.length = paddingLength pc ∧ words.length = n ∧
      opcode :: (padding ++ words.flatMap bytes32) <+: code.drop pc := by
  unfold switchBase at hend
  obtain ⟨hlt, hget⟩ := List.getElem?_eq_some_iff.mp hopcode
  obtain ⟨words, hcount, hwords⟩ := @exists_words
    (code.drop (pc + 1 + paddingLength pc)) n (by rw [List.length_drop]; omega)
  have hpadding : ((code.drop (pc + 1)).take (paddingLength pc)).length =
      paddingLength pc := by
    rw [List.length_take, List.length_drop]
    omega
  refine ⟨_, words, hpadding, hcount, ?_⟩
  rw [← List.cons_getElem_drop_succ (h := hlt), hget]
  apply List.cons_prefix_cons.mpr
  refine ⟨rfl, ?_⟩
  have hsplit := List.take_append_drop (paddingLength pc) (code.drop (pc + 1))
  rw [List.drop_drop] at hsplit
  conv_rhs => rw [← hsplit]
  exact (List.prefix_append_right_inj _).mpr hwords

theorem decode_negativePairs {code : List Byte} {pc : ℕ}
    (hpairs : NegativePairs code pc) :
    ∃ inst t, decode ⟨code, pc⟩ = .ok (inst, t) ∧ ¬ inst.InRange := by
  obtain ⟨hopcode, npairs, hnpairs, hneg, count, hcount, hend⟩ := hpairs
  obtain ⟨padding, words, hlength, hwords, hcode⟩ :=
    switch_at hopcode (show switchBase pc + 4 * (count + 2) ≤ code.length by
      omega)
  obtain ⟨defaultOffset, word, matchOffsets, rfl⟩ :
      ∃ defaultOffset word matchOffsets,
        words = defaultOffset :: word :: matchOffsets := by
    cases words with
    | nil => simp at hwords
    | cons defaultOffset words =>
        cases words with
        | nil => simp at hwords
        | cons word matchOffsets => exact ⟨_, _, _, rfl⟩
  simp only [List.length_cons] at hwords
  have hword := wordAt_of_bytes (words_of_operands hlength hcode)
  obtain rfl : word = npairs := by
    have hboth := hword.symm.trans hnpairs
    exact Option.some.inj hboth
  have hfetch := @lookupSwitchFetch_supplies code padding pc defaultOffset word
    matchOffsets _ (by rw [matchOffsetsCount_toInt, ← hcount]; omega) hlength
    (supplies_operands hcode)
  have hdecode := @decode_opcode code _ pc
    (lookupSwitch defaultOffset word matchOffsets) hcode
  refine ⟨_, _, hdecode.trans hfetch, ?_⟩
  intro hrange
  have hnonneg : 0 ≤ word.toInt := hrange.1
  omega

theorem decode_wrappedTable {code : List Byte} {pc : ℕ}
    (htable : WrappedTable code pc) :
    ∃ inst t, decode ⟨code, pc⟩ = .ok (inst, t) ∧ ¬ inst.InRange := by
  obtain ⟨hopcode, low, high, hlow, hhigh, hbad, count, hcount, hend⟩ := htable
  obtain ⟨padding, words, hlength, hwords, hcode⟩ :=
    switch_at hopcode (show switchBase pc + 4 * (count + 3) ≤ code.length by
      omega)
  obtain ⟨defaultOffset, word, word', jumpOffsets, rfl⟩ :
      ∃ defaultOffset word word' jumpOffsets,
        words = defaultOffset :: word :: word' :: jumpOffsets := by
    cases words with
    | nil => simp at hwords
    | cons defaultOffset words =>
        cases words with
        | nil => simp at hwords
        | cons word words =>
            cases words with
            | nil => simp at hwords
            | cons word' jumpOffsets => exact ⟨_, _, _, _, rfl⟩
  simp only [List.length_cons] at hwords
  have hbounds := words_of_operands hlength hcode
  obtain rfl : word = low := by
    have hboth := (wordAt_of_bytes hbounds).symm.trans hlow
    exact Option.some.inj hboth
  obtain rfl : word' = high := by
    have hboth :=
      (wordAt_of_bytes (prefix_drop_append hbounds)).symm.trans hhigh
    exact Option.some.inj hboth
  have hfetch := @tableSwitchFetch_supplies code padding pc defaultOffset word
    word' jumpOffsets _ (by rw [jumpOffsetsCount_toInt, ← hcount]; omega)
    hlength (supplies_operands hcode)
  have hdecode := @decode_opcode code _ pc
    (tableSwitch defaultOffset word word' jumpOffsets) hcode
  refine ⟨_, _, hdecode.trans hfetch, ?_⟩
  rintro ⟨hle, hall⟩
  have hwrapped : Int.bmod (2 ^ 32) (2 ^ 32) = 0 := by decide
  rcases hbad with hlt | hfull
  · omega
  · rw [hfull, hwrapped] at hcount
    omega

/-- Malformed code is decoded all the same. -/
theorem decode_of_malformed {code : List Byte} {pc : ℕ}
    (hmalformed : Malformed code pc) :
    ∃ inst t, decode ⟨code, pc⟩ = .ok (inst, t) ∧ ¬ inst.InRange := by
  rcases hmalformed with ⟨opcode, hcode, hunknown⟩ | hpairs | htable
  · have hdecode := @decode_opcode code [opcode] pc (wide none) hcode
    have hfetch := reads_wideUnhandled hunknown _ _ (supplies_operands hcode)
    refine ⟨_, _, hdecode.trans hfetch, ?_⟩
    rintro ⟨instruction, hsome, _⟩
    cases hsome
  · exact decode_negativePairs hpairs
  · exact decode_wrappedTable htable

/-! ## The decoder as a gate -/

/-- An instruction is encoded at `pc`. -/
def EncodedAt (code : List Byte) (pc : ℤ) : Prop :=
  ∃ (n : ℕ) (inst : Instruction) (bytes : List Byte),
    pc = n ∧ bytes <+: code.drop n ∧ Encodes n inst bytes

/-- What is decoded at `pc` is encoded in the bytes that were consumed; and
where no instruction is encoded the decoder panics, so that a round of the
loop ends with this panic, whatever the frame and the instructions do. -/
def DecodesEncodings (code : List Byte) (pc : ℤ) : Prop :=
  (∀ inst t, decode ⟨code, pc⟩ = .ok (inst, t) →
    ∃ (n : ℕ) (bytes : List Byte), pc = n ∧ bytes <+: code.drop n ∧
      Encodes n inst bytes ∧ t = ⟨code, (n + bytes.length : ℕ)⟩) ∧
  (¬ EncodedAt code pc → ∃ panic, decode ⟨code, pc⟩ = .error panic ∧
    ∀ (unit : FloatUnit) (frame : Frame), frame.nextPc = pc →
      loopRound unit code frame = .error panic)

/-- The decoder accepts encodings only, except at malformed code that it
decodes. -/
theorem decodesEncodings_iff (code : List Byte) (pc : ℤ) :
    DecodesEncodings code pc ↔ ∀ n : ℕ, pc = n → ¬ Malformed code n := by
  constructor
  · rintro ⟨hdecodes, _⟩ n rfl hmalformed
    obtain ⟨inst, t, hdecode, hinst⟩ := decode_of_malformed hmalformed
    obtain ⟨_, _, _, _, hencodes, _⟩ := hdecodes inst t hdecode
    exact hinst hencodes.1
  · intro hlegal
    refine ⟨fun inst t hdecode => encodes_of_decode hdecode hlegal, ?_⟩
    intro hnone
    cases hdecode : decode ⟨code, pc⟩ with
    | ok result =>
        obtain ⟨n, bytes, hpc, hbytes, hencodes, _⟩ :=
          encodes_of_decode hdecode hlegal
        exact absurd ⟨n, result.1, bytes, hpc, hbytes, hencodes⟩ hnone
    | error panic =>
        refine ⟨panic, rfl, ?_⟩
        intro unit frame hpc
        exact loopRound_of_panic unit hpc hdecode

/-- `wide` before `nop` is decoded. -/
theorem not_decodesEncodings :
    ¬ ∀ (code : List Byte) (pc : ℤ), DecodesEncodings code pc := by
  intro hdecodes
  have hdecode : decode ⟨[0xc4, 0x00], 0⟩ =
      .ok (wide none, ⟨[0xc4, 0x00], 2⟩) := rfl
  obtain ⟨_, _, _, _, hencodes, _⟩ :=
    (hdecodes [0xc4, 0x00] 0).1 _ _ hdecode
  obtain ⟨instruction, hsome, _⟩ := hencodes.1
  cases hsome

end Instruction

end Jvm

end ClpszDemos
