import ClpszDemos.InterpreterSimulation
import ClpszDemos.TransitionSystem

/-!
# Storage of `long` and `double`

A value of 64 bits is cut into the numbers of two slots, and read back from
them, on the operand stack and in the local variables.  In between, a frame may
be accessed in any way that leaves the two slots alone.
-/

namespace ClpszDemos

namespace Jvm

open BigEndian

/-! ## Values of type `float64` -/

section Doubles

variable {Float64 : Type} (float64bits : Float64 ≃ BitVec 64)

/-- `PushDouble`, with `math.Float64bits` and its inverse
`math.Float64frombits` -/
def OperandStack.pushFloat64 (val : Float64) : StackM Unit :=
  pushDouble (float64bits val)

def OperandStack.popFloat64 : StackM Float64 := do
  let bits ← popDouble
  return float64bits.symm bits

def LocalVars.setFloat64 (self : LocalVars) (index : ℕ) (val : Float64) :
    Except GoPanic LocalVars :=
  self.setDouble index (float64bits val)

def LocalVars.getFloat64 (self : LocalVars) (index : ℕ) :
    Except GoPanic Float64 := do
  let bits ← self.getDouble index
  return float64bits.symm bits

/-- The pushes of a `long` and of the `double` with the same bits -/
inductive PushesBits (val : BitVec 64) : StackM Unit → Prop
  | long : PushesBits val (OperandStack.pushLong val)
  | double {float : Float64} (hbits : float64bits float = val) :
      PushesBits val (OperandStack.pushFloat64 float64bits float)

/-- The stores of a `long` and of the `double` with the same bits -/
inductive StoresBits (index : ℕ) (val : BitVec 64) :
    (LocalVars → Except GoPanic LocalVars) → Prop
  | long : StoresBits index val fun vars => vars.setLong index val
  | double {float : Float64} (hbits : float64bits float = val) :
      StoresBits index val fun vars => vars.setFloat64 float64bits index float

end Doubles

/-! ## Accesses to a frame -/

/-- The calls that change the operand stack or a local variable. -/
inductive Access
  | pushInt (val : BitVec 32)
  | popInt
  | pushFloat (bits : BitVec 32)
  | popFloat
  | pushLong (val : BitVec 64)
  | popLong
  | pushDouble (bits : BitVec 64)
  | popDouble
  | pushRef (ref : Ref)
  | popRef
  | pushSlot (slot : Slot)
  | popSlot
  | setInt (index : ℕ) (val : BitVec 32)
  | setFloat (index : ℕ) (bits : BitVec 32)
  | setLong (index : ℕ) (val : BitVec 64)
  | setDouble (index : ℕ) (bits : BitVec 64)
  | setRef (index : ℕ) (ref : Ref)
  deriving DecidableEq, Repr

namespace Access

def discard {α : Type} (pop : StackM α) : Exec :=
  onStack do
    let _ ← pop

def run : Access → Exec
  | pushInt val => onStack (OperandStack.pushInt val)
  | popInt => discard OperandStack.popInt
  | pushFloat bits => onStack (OperandStack.pushFloat bits)
  | popFloat => discard OperandStack.popFloat
  | pushLong val => onStack (OperandStack.pushLong val)
  | popLong => discard OperandStack.popLong
  | pushDouble bits => onStack (OperandStack.pushDouble bits)
  | popDouble => discard OperandStack.popDouble
  | pushRef ref => onStack (OperandStack.pushRef ref)
  | popRef => discard OperandStack.popRef
  | pushSlot slot => onStack (OperandStack.pushSlot slot)
  | popSlot => discard OperandStack.popSlot
  | setInt index val => writeLocal (·.setInt index val)
  | setFloat index bits => writeLocal (·.setFloat index bits)
  | setLong index val => writeLocal (·.setLong index val)
  | setDouble index bits => writeLocal (·.setDouble index bits)
  | setRef index ref => writeLocal (·.setRef index ref)

/-- The number of slots that are popped -/
def pops : Access → ℕ
  | popInt | popFloat | popRef | popSlot => 1
  | popLong | popDouble => 2
  | _ => 0

/-- The local variables whose number is stored -/
def stores : Access → List ℕ
  | setInt index _ | setFloat index _ => [index]
  | setLong index _ | setDouble index _ => [index, index + 1]
  | _ => []

end Access

def accesses : TransitionSystem Frame Access where
  init _ := True
  step access frame :=
    match access.run frame with
    | .ok (_, next) => some next
    | .error _ => none

/-- The access pops no slot below `level`. -/
def KeepsStack (level : ℕ) (access : Access) (frame : Frame) : Prop :=
  level + access.pops ≤ frame.operandStack.size

/-- The access stores to other numbers than the two of a `long`. -/
def KeepsLocal (index : ℕ) (access : Access) (_ : Frame) : Prop :=
  index ∉ access.stores ∧ index + 1 ∉ access.stores

instance (level : ℕ) (access : Access) (frame : Frame) :
    Decidable (KeepsStack level access frame) :=
  inferInstanceAs (Decidable (_ ≤ _))

instance (index : ℕ) (access : Access) (frame : Frame) :
    Decidable (KeepsLocal index access frame) :=
  inferInstanceAs (Decidable (_ ∧ _))

theorem accesses_step_eq_some {access : Access} {frame next : Frame}
    (hstep : accesses.step access frame = some next) :
    access.run frame = .ok ((), next) := by
  unfold accesses at hstep
  dsimp only at hstep
  cases hrun : access.run frame with
  | ok result =>
      rw [hrun] at hstep
      cases hstep
      rfl
  | error panic =>
      rw [hrun] at hstep
      cases hstep

/-! ## The slots in use -/

namespace OperandStack

theorem push_live (f : Slot → Slot) {stack : OperandStack}
    (hroom : stack.size < stack.slots.length) :
    ∃ next, push f stack = .ok ((), next) ∧
      next.live = f stack.slots[stack.size] :: stack.live ∧
      next.slots.length = stack.slots.length := by
  unfold push
  rw [dif_pos hroom]
  refine ⟨_, rfl, live_set_succ hroom _ _ stack.size_le, ?_⟩
  exact List.length_set

theorem pop_live (f : Slot → Slot) {stack : OperandStack} {slot : Slot}
    {rest : List Slot} (hlive : stack.live = slot :: rest) :
    ∃ next, pop f stack = .ok (slot, next) ∧ next.live = rest := by
  have hlength := length_live stack
  obtain ⟨size, slots, hle⟩ := stack
  rw [hlive, List.length_cons] at hlength
  have hsize : size = rest.length + 1 := hlength.symm
  subst hsize
  have hlast : rest.length < slots.length := hle
  have hcons := live_eq_cons hlast (f slots[rest.length]) hle (by
    rw [List.length_set]
    exact hlast.le)
  rw [hlive] at hcons
  obtain ⟨hslot, hrest⟩ := List.cons_eq_cons.mp hcons
  refine ⟨_, ?_, hrest.symm⟩
  rw [hslot]
  rfl

/-- The slots of a `long` are on top. -/
theorem pushLong_live (val : BitVec 64) {stack : OperandStack}
    (hroom : stack.size + 2 ≤ stack.slots.length) :
    ∃ next high low, pushLong val stack = .ok ((), next) ∧
      next.live = high :: low :: stack.live ∧
      high.num = val.extractLsb' 32 32 ∧ low.num = val.extractLsb' 0 32 := by
  obtain ⟨mid, hlow, hmid, hlength⟩ :=
    push_live (fun slot => { slot with num := val.setWidth 32 })
      (show stack.size < stack.slots.length by omega)
  have hsize : mid.size = stack.size + 1 := by
    rw [← length_live, hmid, List.length_cons, length_live]
  obtain ⟨next, hhigh, hnext, _⟩ :=
    push_live (fun slot =>
      { slot with num := (val.sshiftRight 32).setWidth 32 })
      (show mid.size < mid.slots.length by omega)
  refine ⟨next, _, _, ?_, hnext.trans (congrArg _ hmid), setWidth_high val,
    setWidth_low val⟩
  show (pushInt (val.setWidth 32) >>= fun _ =>
    pushInt ((val.sshiftRight 32).setWidth 32)) stack = _
  have hfirst : pushInt (val.setWidth 32) stack = .ok ((), mid) := hlow
  have hbind : ∀ m : Unit → StackM Unit,
      (pushInt (val.setWidth 32) >>= m) stack =
        (pushInt (val.setWidth 32) stack >>= fun p => m p.1 p.2) :=
    fun _ => rfl
  rw [hbind, hfirst]
  exact hhigh

theorem popLong_live {stack : OperandStack} {high low : Slot}
    {rest : List Slot} (hlive : stack.live = high :: low :: rest) :
    ∃ next, popLong stack = .ok (join64 high.num low.num, next) ∧
      next.live = rest := by
  obtain ⟨mid, hhigh, hmid⟩ := pop_live id hlive
  obtain ⟨next, hlow, hnext⟩ := pop_live id hmid
  refine ⟨next, ?_, hnext⟩
  have hfirst : popInt stack = .ok (high.num, mid) := by
    show (pop id stack >>= fun p => Except.ok (p.1.num, p.2)) = _
    rw [hhigh]
    rfl
  have hsecond : popInt mid = .ok (low.num, next) := by
    show (pop id mid >>= fun p => Except.ok (p.1.num, p.2)) = _
    rw [hlow]
    rfl
  show (popInt stack >>= fun p => popInt p.2 >>= fun q =>
    Except.ok (join64 p.1 q.1, q.2)) = _
  rw [hfirst]
  show (popInt mid >>= fun q => Except.ok (join64 high.num q.1, q.2)) = _
  rw [hsecond]
  rfl

/-! ## What stays below -/

/-- At least `n` slots are in use above `base`. -/
def Above (base : List Slot) (n : ℕ) (stack : OperandStack) : Prop :=
  ∃ above, n ≤ above.length ∧ stack.live = above ++ base

/-- The program pops no more than `k` of the slots that are in use before. -/
def Leaves {α : Type} (k : ℕ) (m : StackM α) : Prop :=
  ∀ base n, Triple (Above base (k + n)) m (fun _ => Above base n)
    fun _ => True

namespace Leaves

variable {α β : Type} {k l : ℕ}

theorem pure (a : α) : Leaves 0 (Pure.pure a : StackM α) := by
  intro base n
  apply Triple.pure
  intro stack habove
  rwa [Nat.zero_add] at habove

theorem bind {m : StackM α} {f : α → StackM β} (hm : Leaves k m)
    (hf : ∀ a, Leaves l (f a)) : Leaves (k + l) (m >>= f) := by
  intro base n
  rw [Nat.add_assoc]
  apply (hm base (l + n)).bind
  intro a
  exact hf a base n

theorem push (f : Slot → Slot) : Leaves 0 (OperandStack.push f) := by
  rintro base n stack ⟨above, hn, hlive⟩
  by_cases hroom : stack.size < stack.slots.length
  · obtain ⟨next, hpush, hnext, _⟩ := push_live f hroom
    rw [hpush]
    refine ⟨f stack.slots[stack.size] :: above, ?_, ?_⟩
    · rw [List.length_cons]
      omega
    · rw [hnext, hlive]
      rfl
  · unfold OperandStack.push
    rw [dif_neg hroom]
    trivial

theorem pop (f : Slot → Slot) : Leaves 1 (OperandStack.pop f) := by
  rintro base n stack ⟨above, hn, hlive⟩
  cases above with
  | nil =>
      rw [List.length_nil] at hn
      omega
  | cons slot above =>
      obtain ⟨next, hpop, hnext⟩ := pop_live f hlive
      rw [hpop]
      rw [List.length_cons] at hn
      exact ⟨above, by omega, hnext⟩

theorem pushInt (val : BitVec 32) : Leaves 0 (OperandStack.pushInt val) :=
  push _

theorem popInt : Leaves 1 OperandStack.popInt :=
  (pop id).bind fun _ => pure _

theorem pushLong (val : BitVec 64) : Leaves 0 (OperandStack.pushLong val) :=
  (pushInt _).bind fun _ => pushInt _

theorem popLong : Leaves 2 OperandStack.popLong :=
  popInt.bind fun _ => popInt.bind fun _ => pure _

theorem popRef : Leaves 1 OperandStack.popRef :=
  (pop _).bind fun _ => pure _

end Leaves

theorem le_size_iff_above {base : List Slot} {n : ℕ} {stack : OperandStack}
    (habove : Above base 0 stack) :
    base.length + n ≤ stack.size ↔ Above base n stack := by
  obtain ⟨above, _, hlive⟩ := habove
  have hsize := length_live stack
  rw [hlive, List.length_append] at hsize
  constructor
  · intro hle
    exact ⟨above, by omega, hlive⟩
  · rintro ⟨other, hn, hother⟩
    have hsame : other.length = above.length := by
      have hlength := congrArg List.length (hother.symm.trans hlive)
      rw [List.length_append, List.length_append] at hlength
      omega
    omega

end OperandStack

/-! ## The numbers of the local variables -/

namespace LocalVars

def num (self : LocalVars) (index : ℕ) : Option (BitVec 32) :=
  self[index]?.map Slot.num

theorem update_eq_ok {vars next : LocalVars} {index : ℕ} {f : Slot → Slot}
    (hupdate : vars.update index f = .ok next) :
    ∃ slot, vars[index]? = some slot ∧ next = vars.set index (f slot) := by
  obtain ⟨slot, hslot, hset⟩ := except_bind_eq_ok hupdate
  cases hset
  refine ⟨slot, ?_, rfl⟩
  unfold LocalVars.slot at hslot
  cases hget : vars[index]? with
  | none =>
      rw [hget] at hslot
      cases hslot
  | some found =>
      rw [hget] at hslot
      cases hslot
      rfl

theorem num_update_of_ne {vars next : LocalVars} {index j : ℕ}
    {f : Slot → Slot} (hupdate : vars.update index f = .ok next)
    (hj : j ≠ index) : next.num j = vars.num j := by
  obtain ⟨slot, _, rfl⟩ := update_eq_ok hupdate
  unfold num
  rw [List.getElem?_set_ne (Ne.symm hj)]

/-- A store that keeps the number of its slot keeps all numbers. -/
theorem num_update_of_num {vars next : LocalVars} {index : ℕ}
    {f : Slot → Slot} (hupdate : vars.update index f = .ok next)
    (hf : ∀ slot, (f slot).num = slot.num) (j : ℕ) :
    next.num j = vars.num j := by
  by_cases hj : j = index
  · subst hj
    obtain ⟨slot, hslot, rfl⟩ := update_eq_ok hupdate
    have hlt := (List.getElem?_eq_some_iff.mp hslot).1
    unfold num
    rw [List.getElem?_set_self hlt, hslot]
    exact congrArg some (hf slot)
  · exact num_update_of_ne hupdate hj

theorem setLong_eq_ok {vars next : LocalVars} {index : ℕ} {val : BitVec 64}
    (hset : vars.setLong index val = .ok next) :
    ∃ mid, vars.setInt index (val.setWidth 32) = .ok mid ∧
      mid.setInt (index + 1) ((val.sshiftRight 32).setWidth 32) = .ok next :=
  except_bind_eq_ok hset

theorem num_setLong_of_ne {vars next : LocalVars} {index j : ℕ}
    {val : BitVec 64} (hset : vars.setLong index val = .ok next)
    (hj : j ≠ index) (hnext : j ≠ index + 1) : next.num j = vars.num j := by
  obtain ⟨mid, hlow, hhigh⟩ := setLong_eq_ok hset
  rw [num_update_of_ne hhigh hnext, num_update_of_ne hlow hj]

theorem getInt_of_num {vars : LocalVars} {index : ℕ} {val : BitVec 32}
    (hnum : vars.num index = some val) : vars.getInt index = .ok val := by
  obtain ⟨slot, hslot, rfl⟩ := Option.map_eq_some_iff.mp hnum
  unfold getInt LocalVars.slot
  rw [hslot]
  rfl

theorem getLong_of_num {vars : LocalVars} {index : ℕ} {high low : BitVec 32}
    (hlow : vars.num index = some low)
    (hhigh : vars.num (index + 1) = some high) :
    vars.getLong index = .ok (join64 high low) := by
  unfold getLong
  rw [getInt_of_num hlow, getInt_of_num hhigh]
  rfl

end LocalVars

/-! ## One access -/

theorem onStack_above {α : Type} {k : ℕ} {m : StackM α}
    (hm : OperandStack.Leaves k m) (base : List Slot) (n : ℕ) :
    Triple (fun frame => frame.operandStack.Above base (k + n)) (onStack m)
      (fun _ frame => frame.operandStack.Above base n) fun _ => True :=
  (hm base n).zoom (fun _ habove => habove) fun _ _ _ _ habove => habove

theorem onStack_localVars {α : Type} (m : StackM α)
    (P : LocalVars → Prop) :
    Triple (fun frame => P frame.localVars) (onStack m)
      (fun _ frame => P frame.localVars) fun _ => True := by
  intro frame hvars
  unfold onStack zoom
  cases m frame.operandStack with
  | ok result => exact hvars
  | error panic => trivial

theorem writeLocal_operandStack
    (write : LocalVars → Except GoPanic LocalVars) (P : OperandStack → Prop) :
    Triple (fun frame => P frame.operandStack) (writeLocal write)
      (fun _ frame => P frame.operandStack) fun _ => True := by
  intro frame hstack
  unfold writeLocal
  cases write frame.localVars with
  | ok vars => exact hstack
  | error panic => trivial

theorem writeLocal_num {write : LocalVars → Except GoPanic LocalVars} {j : ℕ}
    (hwrite : ∀ vars next, write vars = .ok next → next.num j = vars.num j)
    (x : Option (BitVec 32)) :
    Triple (fun frame => frame.localVars.num j = x) (writeLocal write)
      (fun _ frame => frame.localVars.num j = x) fun _ => True := by
  intro frame hnum
  unfold writeLocal
  cases hvars : write frame.localVars with
  | ok vars => exact (hwrite _ _ hvars).trans hnum
  | error panic => trivial

namespace Access

open OperandStack

theorem discard_above {α : Type} {k : ℕ} {pop : StackM α}
    (hpop : Leaves k pop) (base : List Slot) (n : ℕ) :
    Triple (fun frame => frame.operandStack.Above base (k + n)) (discard pop)
      (fun _ frame => frame.operandStack.Above base n) fun _ => True :=
  onStack_above (hpop.bind fun _ => Leaves.pure _) base n

theorem run_above (access : Access) (base : List Slot) (n : ℕ) :
    Triple (fun frame => frame.operandStack.Above base (access.pops + n))
      access.run (fun _ frame => frame.operandStack.Above base n)
      fun _ => True := by
  cases access with
  | pushInt val | pushFloat val =>
      exact onStack_above (Leaves.pushInt val) base n
  | pushLong val | pushDouble val =>
      exact onStack_above (Leaves.pushLong val) base n
  | pushRef | pushSlot =>
      simp only [run, OperandStack.pushRef, OperandStack.pushSlot]
      exact onStack_above (Leaves.push _) base n
  | popInt | popFloat => exact discard_above Leaves.popInt base n
  | popLong | popDouble => exact discard_above Leaves.popLong base n
  | popRef => exact discard_above Leaves.popRef base n
  | popSlot => exact discard_above (Leaves.pop id) base n
  | setInt | setFloat | setLong | setDouble | setRef =>
      simp only [pops, run, Nat.zero_add]
      exact writeLocal_operandStack _ _

theorem run_num {access : Access} {j : ℕ} (hj : j ∉ access.stores)
    (x : Option (BitVec 32)) :
    Triple (fun frame => frame.localVars.num j = x) access.run
      (fun _ frame => frame.localVars.num j = x) fun _ => True := by
  cases access with
  | setInt | setFloat =>
      simp only [run]
      apply writeLocal_num
      intro vars next hset
      exact LocalVars.num_update_of_ne hset (List.ne_of_not_mem_cons hj)
  | setLong | setDouble =>
      simp only [run]
      apply writeLocal_num
      intro vars next hset
      have hrest := List.not_mem_of_not_mem_cons hj
      exact LocalVars.num_setLong_of_ne hset (List.ne_of_not_mem_cons hj)
        (List.ne_of_not_mem_cons hrest)
  | setRef =>
      simp only [run]
      apply writeLocal_num
      intro vars next hset
      exact LocalVars.num_update_of_num hset (fun _ => rfl) j
  | _ => exact onStack_localVars _ (fun vars => vars.num j = x)

end Access

/-! ## Runs of accesses -/

section Runs

variable {frame later : Frame}

theorem above_of_run {base : List Slot}
    (hrun : accesses.Run (KeepsStack base.length) frame later)
    (habove : frame.operandStack.Above base 0) :
    later.operandStack.Above base 0 := by
  apply hrun.invariant (fun frame => frame.operandStack.Above base 0) _ habove
  intro access s t hguard hstep hs
  have hroom := (OperandStack.le_size_iff_above hs).mp hguard
  have hends := access.run_above base 0 s hroom
  rw [accesses_step_eq_some hstep] at hends
  exact hends

theorem num_of_run {index j : ℕ} {x : Option (BitVec 32)}
    (hrun : accesses.Run (KeepsLocal index) frame later)
    (hj : j = index ∨ j = index + 1) (hnum : frame.localVars.num j = x) :
    later.localVars.num j = x := by
  apply hrun.invariant (fun frame => frame.localVars.num j = x) _ hnum
  intro access s t hguard hstep hs
  have hother : j ∉ access.stores := by
    rcases hj with rfl | rfl
    · exact hguard.1
    · exact hguard.2
  have hends := access.run_num hother x s hs
  rw [accesses_step_eq_some hstep] at hends
  exact hends

/-- The slots that were on top are on top again. -/
theorem live_of_run {base : List Slot} (hbase : frame.operandStack.live = base)
    (hrun : accesses.Run (KeepsStack frame.operandStack.size) frame later)
    (hsize : later.operandStack.size = frame.operandStack.size) :
    later.operandStack.live = base := by
  have hlength : frame.operandStack.size = base.length := by
    rw [← hbase, OperandStack.length_live]
  rw [hlength] at hrun
  obtain ⟨above, _, hlive⟩ := above_of_run hrun ⟨[], Nat.zero_le _, hbase⟩
  have hsum := OperandStack.length_live later.operandStack
  rw [hlive, List.length_append, hsize, hlength] at hsum
  have hnil : above = [] := List.length_eq_zero_iff.mp (by omega)
  rw [hlive, hnil, List.nil_append]

end Runs

/-! ## A value of 64 bits -/

theorem onStack_eq_ok {α : Type} {m : StackM α} {frame : Frame} {a : α}
    {stack : OperandStack} (hm : m frame.operandStack = .ok (a, stack)) :
    onStack m frame = .ok (a, { frame with operandStack := stack }) := by
  unfold onStack zoom
  rw [hm]

theorem OperandStack.slots_of_live {stack other : OperandStack}
    (hlive : other.live = stack.live) :
    other.size = stack.size ∧
      ∀ j < stack.size, other.slots[j]? = stack.slots[j]? := by
  have hsize : other.size = stack.size := by
    rw [← length_live, hlive, length_live]
  refine ⟨hsize, ?_⟩
  intro j hj
  have htake : other.slots.take stack.size = stack.slots.take stack.size := by
    unfold live at hlive
    rw [hsize] at hlive
    exact List.reverse_injective hlive
  have hget := congrArg (fun slots : List Slot => slots[j]?) htake
  simpa [hj] using hget

/-- Nothing is different but the numbers of two slots. -/
structure ChangesNums (index : ℕ) (vars next : LocalVars) : Prop where
  others : ∀ j, j ≠ index → j ≠ index + 1 → next[j]? = vars[j]?
  refs : ∀ j : ℕ, next[j]?.map Slot.ref = vars[j]?.map Slot.ref

theorem LocalVars.setLong_changes {vars : LocalVars} {index : ℕ}
    (val : BitVec 64) (hindex : index + 1 < vars.length) :
    ∃ next, vars.setLong index val = .ok next ∧
      next.num index = some (val.extractLsb' 0 32) ∧
      next.num (index + 1) = some (val.extractLsb' 32 32) ∧
      ChangesNums index vars next := by
  have hfirst : index < vars.length := by omega
  have hsecond : index + 1 < (vars.set index
      { vars[index] with num := val.setWidth 32 }).length := by
    rw [List.length_set]
    exact hindex
  have hset : vars.setLong index val = .ok ((vars.set index
      { vars[index] with num := val.setWidth 32 }).set (index + 1)
        { vars[index + 1] with
          num := (val.sshiftRight 32).setWidth 32 }) := by
    unfold setLong setInt
    rw [update_eq hfirst]
    show LocalVars.update _ (index + 1) _ = _
    rw [update_eq hsecond, List.getElem_set_ne (by omega)]
  refine ⟨_, hset, ?_, ?_, ?_, ?_⟩
  · unfold num
    rw [List.getElem?_set_ne (by omega), List.getElem?_set_self hfirst]
    exact congrArg some (OperandStack.setWidth_low val)
  · unfold num
    rw [List.getElem?_set_self hsecond]
    exact congrArg some (OperandStack.setWidth_high val)
  · intro j hj hnext
    rw [List.getElem?_set_ne (Ne.symm hnext), List.getElem?_set_ne (Ne.symm hj)]
  · intro j
    by_cases hnext : index + 1 = j
    · subst hnext
      simp [hindex]
    · rw [List.getElem?_set_ne hnext]
      by_cases hj : index = j
      · subst hj
        simp [hfirst]
      · rw [List.getElem?_set_ne hj]

section Storage

variable {Float64 : Type} (float64bits : Float64 ≃ BitVec 64)

/-- The bits come off the stack as either type, and what is below is as it was
in `frame`. -/
def PopsBits (val : BitVec 64) (frame later : Frame) : Prop :=
  ∃ popped, onStack OperandStack.popLong later = .ok (val, popped) ∧
    onStack (OperandStack.popFloat64 float64bits) later =
      .ok (float64bits.symm val, popped) ∧
    popped.operandStack.size = frame.operandStack.size ∧
    ∀ j < frame.operandStack.size,
      popped.operandStack.slots[j]? = frame.operandStack.slots[j]?

variable {float64bits} {val : BitVec 64} {frame : Frame}

theorem PushesBits.eq_pushLong {push : StackM Unit}
    (hpush : PushesBits float64bits val push) :
    push = OperandStack.pushLong val := by
  cases hpush with
  | long => rfl
  | double hbits =>
      unfold OperandStack.pushFloat64
      rw [hbits]
      rfl

theorem StoresBits.eq_setLong {index : ℕ}
    {write : LocalVars → Except GoPanic LocalVars}
    (hwrite : StoresBits float64bits index val write) :
    write = fun vars => vars.setLong index val := by
  cases hwrite with
  | long => rfl
  | double hbits =>
      unfold LocalVars.setFloat64
      rw [hbits]
      rfl

theorem popsBits_of_live {later : Frame} {high low : Slot}
    (hhigh : high.num = val.extractLsb' 32 32)
    (hlow : low.num = val.extractLsb' 0 32)
    (hlive : later.operandStack.live =
      high :: low :: frame.operandStack.live) :
    PopsBits float64bits val frame later := by
  obtain ⟨popped, hpop, hrest⟩ := OperandStack.popLong_live hlive
  rw [hhigh, hlow, join64_extract] at hpop
  have hdouble : OperandStack.popFloat64 float64bits later.operandStack =
      .ok (float64bits.symm val, popped) := by
    show (OperandStack.popLong later.operandStack >>= fun p =>
      Except.ok (float64bits.symm p.1, p.2)) = _
    rw [hpop]
    rfl
  obtain ⟨hsize, hslots⟩ := OperandStack.slots_of_live hrest
  exact ⟨_, onStack_eq_ok hpop, onStack_eq_ok hdouble, hsize, hslots⟩

/-- A `long` and a `double` of the same bits are stored in the same way, and
accesses to other slots leave the bits as they are: on the stack until the
accesses above have come down to them again, in the local variables always. -/
theorem long_storage (float64bits : Float64 ≃ BitVec 64) (val : BitVec 64)
    (frame : Frame) :
    (∀ push, PushesBits float64bits val push →
      frame.operandStack.size + 2 ≤ frame.operandStack.slots.length →
      ∃ pushed, onStack push frame = .ok ((), pushed) ∧
        pushed.operandStack.size = frame.operandStack.size + 2 ∧
        ∀ later,
          accesses.Run (KeepsStack pushed.operandStack.size) pushed later →
          later.operandStack.size = pushed.operandStack.size →
          PopsBits float64bits val frame later) ∧
    (∀ index write, StoresBits float64bits index val write →
      index + 1 < frame.localVars.length →
      ∃ stored, writeLocal write frame = .ok ((), stored) ∧
        ChangesNums index frame.localVars stored.localVars ∧
        ∀ later, accesses.Run (KeepsLocal index) stored later →
          later.localVars.getLong index = .ok val ∧
          later.localVars.getFloat64 float64bits index =
            .ok (float64bits.symm val)) := by
  constructor
  · intro push hpush hroom
    obtain ⟨stack, high, low, hrun, hlive, hhigh, hlow⟩ :=
      OperandStack.pushLong_live val hroom
    rw [hpush.eq_pushLong]
    refine ⟨_, onStack_eq_ok hrun, ?_, ?_⟩
    · show stack.size = _
      rw [← OperandStack.length_live, hlive, List.length_cons,
        List.length_cons, OperandStack.length_live]
    · intro later hlater hsize
      exact popsBits_of_live hhigh hlow (live_of_run hlive hlater hsize)
  · intro index write hwrite hindex
    obtain ⟨vars, hset, hlow, hhigh, hchanges⟩ :=
      LocalVars.setLong_changes val hindex
    have hstored : writeLocal write frame =
        .ok ((), { frame with localVars := vars }) := by
      rw [hwrite.eq_setLong]
      show (frame.localVars.setLong index val >>= _) = _
      rw [hset]
      rfl
    refine ⟨_, hstored, hchanges, ?_⟩
    intro later hlater
    have hlong := LocalVars.getLong_of_num (num_of_run hlater (.inl rfl) hlow)
      (num_of_run hlater (.inr rfl) hhigh)
    rw [join64_extract] at hlong
    refine ⟨hlong, ?_⟩
    show (later.localVars.getLong index >>= fun bits =>
      Except.ok (float64bits.symm bits)) = _
    rw [hlong]
    rfl

end Storage

/-- A number whose halves are both negative as an `int` -/
def minusTwo : BitVec 64 := -2

/-- Accesses above the `long` and beside it -/
def otherAccesses : List Access :=
  [.pushInt 7, .setInt 0 9, .setRef 1 (some 5), .popInt, .pushLong 3, .popLong]

theorem long_storage_minusTwo :
    (∃ pushed later,
      onStack (OperandStack.pushLong minusTwo) (newFrame ⟨0⟩ 4 6) =
        .ok ((), pushed) ∧
      accesses.exec (KeepsStack 2) otherAccesses pushed = some later ∧
      PopsBits (Equiv.refl (BitVec 64)) minusTwo (newFrame ⟨0⟩ 4 6) later) ∧
    ∃ stored later, writeLocal (fun vars => vars.setLong 1 minusTwo)
        (newFrame ⟨0⟩ 4 6) = .ok ((), stored) ∧
      accesses.exec (KeepsLocal 1) otherAccesses stored = some later ∧
      later.localVars.getLong 1 = .ok minusTwo := by
  have hstorage := long_storage (Equiv.refl (BitVec 64)) minusTwo
    (newFrame ⟨0⟩ 4 6)
  have hstack : ∃ pushed later,
      onStack (OperandStack.pushLong minusTwo) (newFrame ⟨0⟩ 4 6) =
        .ok ((), pushed) ∧
      accesses.exec (KeepsStack 2) otherAccesses pushed = some later ∧
      pushed.operandStack.size = 2 ∧ later.operandStack.size = 2 :=
    ⟨_, _, rfl, rfl, rfl, rfl⟩
  have hlocals : ∃ stored later, writeLocal
        (fun vars => vars.setLong 1 minusTwo) (newFrame ⟨0⟩ 4 6) =
          .ok ((), stored) ∧
      accesses.exec (KeepsLocal 1) otherAccesses stored = some later :=
    ⟨_, _, rfl, rfl⟩
  constructor
  · obtain ⟨pushed, later, hpush, hlater, hsize, htwo⟩ := hstack
    obtain ⟨other, hother, _, hpops⟩ := hstorage.1 _ .long (by decide)
    obtain rfl : pushed = other := by
      rw [hpush] at hother
      exact congrArg Prod.snd (Except.ok.inj hother)
    rw [hsize] at hpops
    have hrun := (TransitionSystem.Run.refl pushed).of_exec hlater
    exact ⟨pushed, later, hpush, hlater, hpops later hrun htwo⟩
  · obtain ⟨stored, later, hset, hlater⟩ := hlocals
    obtain ⟨other, hother, _, hkeeps⟩ := hstorage.2 1 _ .long (by decide)
    obtain rfl : stored = other := by
      rw [hset] at hother
      exact congrArg Prod.snd (Except.ok.inj hother)
    have hrun := (TransitionSystem.Run.refl stored).of_exec hlater
    exact ⟨stored, later, hset, hlater, (hkeeps later hrun).1⟩

end Jvm

end ClpszDemos
