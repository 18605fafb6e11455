import ClpszDemos.InterpreterSimulation

/-!
# The encodings of a local-variable access

A load, a store or an increment has a `wide` form, a form with an index of one
byte, and for the first four variables a load or a store has an opcode with
the index built in.  They all execute the same function on the local variables
and the operand stack, which neither reads nor sets a program counter.
-/

namespace ClpszDemos

namespace Jvm

/-- The forms of an access, each for the operands that it has room for. -/
inductive AccessForm (access : IndexInstruction) : Instruction → Prop
  | wide (hrange : Instruction.IndexInRange 2 access) :
      AccessForm access (.wide (some access))
  | oneByte (hrange : Instruction.IndexInRange 1 access) :
      AccessForm access (.index access)
  | loadN {type : ValueType} {n : Fin 4} (haccess : access = .load type n) :
      AccessForm access (.loadN type n)
  | storeN {type : ValueType} {n : Fin 4} (haccess : access = .store type n) :
      AccessForm access (.storeN type n)

/-- The data of a frame: its local variables and its operand stack. -/
abbrev FrameData : Type := LocalVars × OperandStack

/-- The frame with this data, after the instruction at `pc`. -/
def frameAfter (pc next : ℤ) (data : FrameData) : Frame where
  localVars := data.1
  operandStack := data.2
  thread := ⟨pc⟩
  nextPc := next

/-- The program counters of a frame replaced. -/
def Frame.relocate (pc next : ℤ) (frame : Frame) : Frame :=
  { frame with thread := ⟨pc⟩, nextPc := next }

section Relocate

variable {pc next : ℤ}

theorem onStack_ignores {α : Type} (m : StackM α) :
    Ignores (Frame.relocate pc next) (onStack m) := by
  apply Ignores.zoom
  · intro frame
    rfl
  · intro stack frame
    rfl

theorem readLocal_ignores {α : Type} (read : LocalVars → Except GoPanic α) :
    Ignores (Frame.relocate pc next) (readLocal read) := by
  intro frame
  have hread : ∀ frame, readLocal read frame =
      (read frame.localVars).map fun val => (val, frame) := by
    intro frame
    unfold readLocal
    cases read frame.localVars <;> rfl
  rw [hread, hread]
  have hvars : (frame.relocate pc next).localVars = frame.localVars := rfl
  rw [hvars]
  cases read frame.localVars <;> rfl

theorem writeLocal_ignores (write : LocalVars → Except GoPanic LocalVars) :
    Ignores (Frame.relocate pc next) (writeLocal write) := by
  intro frame
  have hwrite : ∀ frame, writeLocal write frame =
      (write frame.localVars).map fun vars =>
        ((), { frame with localVars := vars }) := by
    intro frame
    unfold writeLocal
    cases write frame.localVars <;> rfl
  rw [hwrite, hwrite]
  have hvars : (frame.relocate pc next).localVars = frame.localVars := rfl
  rw [hvars]
  cases write frame.localVars <;> rfl

theorem load_ignores (type : ValueType) (index : ℕ) :
    Ignores (Frame.relocate pc next) (load type index) := by
  cases type with
  | int | long | float | double | ref =>
      apply (readLocal_ignores _).bind
      intro val
      exact onStack_ignores _

theorem store_ignores (type : ValueType) (index : ℕ) :
    Ignores (Frame.relocate pc next) (store type index) := by
  cases type with
  | int | long | float | double | ref =>
      apply (onStack_ignores _).bind
      intro val
      exact writeLocal_ignores _

theorem iinc_ignores (index : ℕ) (const : BitVec 32) :
    Ignores (Frame.relocate pc next) (iinc index const) := by
  apply (readLocal_ignores _).bind
  intro val
  exact writeLocal_ignores _

theorem execute_ignores (access : IndexInstruction) :
    Ignores (Frame.relocate pc next) access.execute := by
  cases access with
  | load type index => exact load_ignores type index
  | store type index => exact store_ignores type index
  | iinc index const => exact iinc_ignores index const

end Relocate

/-- What an access makes of the data of a frame. -/
def IndexInstruction.effect (access : IndexInstruction) (frame : Frame) :
    Except GoPanic FrameData :=
  (access.execute frame).map fun p => (p.2.localVars, p.2.operandStack)

namespace AccessForm

variable {access : IndexInstruction} {inst : Instruction}

theorem inRange (hform : AccessForm access inst) : inst.InRange := by
  cases hform with
  | wide hrange => exact ⟨access, rfl, hrange⟩
  | oneByte hrange => exact hrange
  | loadN | storeN => trivial

theorem tableBounded (hform : AccessForm access inst) :
    inst.TableBounded := by
  cases hform with
  | wide | oneByte | loadN | storeN => trivial

theorem operands_eq (hform : AccessForm access inst)
    (padding : List Byte) : inst.operands padding = inst.operands [] := by
  cases hform with
  | wide | oneByte | loadN | storeN => rfl

/-- Every form executes the access itself. -/
theorem execute_eq (hform : AccessForm access inst) (unit : FloatUnit) :
    inst.execute unit = access.execute := by
  cases hform with
  | wide | oneByte => rfl
  | loadN haccess | storeN haccess =>
      rw [haccess]
      rfl

theorem encodes (hform : AccessForm access inst) (pc : ℕ) :
    Instruction.Encodes pc inst (inst.encode []) := by
  have hencode : inst.encode [] =
      inst.encode (List.replicate (Instruction.paddingLength pc) 0) := by
    unfold Instruction.encode
    rw [hform.operands_eq (List.replicate _ _)]
  exact ⟨hform.inRange, _, List.length_replicate, hencode⟩

end AccessForm

/-- One round of the loop on any form of an access does the same to the local
variables and the operand stack, or panics in the same way; the next program
counter is behind the form that was read. -/
theorem accessForms_agree (unit : FloatUnit) (access : IndexInstruction)
    (frame : Frame) {pc : ℕ} (hpc : frame.nextPc = pc) :
    ∀ (inst : Instruction) (code : List Byte), AccessForm access inst →
      inst.encode [] <+: code.drop pc →
      loopRound unit code frame = (access.effect frame).map
        (frameAfter pc (pc + (inst.encode []).length)) := by
  intro inst code hform hcode
  have hencodes := hform.encodes pc
  have hdecode := Instruction.decode_encodes hencodes hform.tableBounded hcode
  have hsize : ((pc + inst.sizeAt pc : ℕ) : ℤ) =
      pc + (inst.encode []).length := by
    rw [hencodes.length_eq]
    push_cast
    rfl
  have hrun : access.execute (frame.relocate pc (pc + inst.sizeAt pc : ℕ)) =
      (access.execute frame).map fun p =>
        (p.1, p.2.relocate pc (pc + inst.sizeAt pc : ℕ)) :=
    execute_ignores access frame
  have hframe : { frame with
      thread := ⟨pc⟩
      nextPc := ((pc + inst.sizeAt pc : ℕ) : ℤ) } =
    frame.relocate pc (pc + inst.sizeAt pc : ℕ) := rfl
  rw [loopRound_of_decode unit hpc hdecode, hform.execute_eq, hframe, hrun,
    hsize]
  unfold IndexInstruction.effect
  cases access.execute frame with
  | ok result => rfl
  | error panic => rfl

/-- Reading the `long` in the last two variables, in three ways; there is one
variable too few. -/
theorem accessForms_agree_lload :
    loopRound integerUnit [0xc4, 0x16, 0, 3] (newFrame ⟨0⟩ 4 2) =
        .error .indexOutOfRange ∧
      loopRound integerUnit [0x16, 3] (newFrame ⟨0⟩ 4 2) =
        .error .indexOutOfRange ∧
      loopRound integerUnit [0x21] (newFrame ⟨0⟩ 4 2) =
        .error .indexOutOfRange := by
  have hforms := accessForms_agree integerUnit (.load .long 3)
    (newFrame ⟨0⟩ 4 2) (show (newFrame ⟨0⟩ 4 2).nextPc = (0 : ℕ) from rfl)
  have hpanics : IndexInstruction.effect (.load .long 3) (newFrame ⟨0⟩ 4 2) =
      .error .indexOutOfRange := rfl
  rw [hpanics] at hforms
  refine ⟨?_, ?_, ?_⟩
  · exact hforms _ _ (.wide (show 3 < 256 ^ 2 by decide)) (List.prefix_refl _)
  · exact hforms _ _ (.oneByte (show 3 < 256 ^ 1 by decide)) (List.prefix_refl _)
  · exact hforms _ _ (@AccessForm.loadN _ .long 3 rfl) (List.prefix_refl _)

end Jvm

end ClpszDemos
