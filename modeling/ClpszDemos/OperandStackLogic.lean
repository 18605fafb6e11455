import ClpszDemos.JvmRuntime

/-!
# Typed values on the operand stack

The slots below `size` hold typed values when each slot shows, through the half
its type uses, the right word or reference; the other half may be anything.
The typed pops and pushes are specified on such values, and, without types, on
the number of slots alone.
-/

namespace ClpszDemos

namespace Jvm

open BigEndian

/-! ## Values -/

/-- `float` and `double` are bit patterns. -/
inductive Value
  | int (val : BitVec 32)
  | long (val : BitVec 64)
  | float (bits : BitVec 32)
  | double (bits : BitVec 64)
  | ref (ref : Ref)
  deriving DecidableEq, Repr

inductive Half
  | num (val : BitVec 32)
  | ref (ref : Ref)
  deriving DecidableEq, Repr

def Slot.Shows (slot : Slot) : Half → Prop
  | .num val => slot.num = val
  | .ref r => slot.ref = r

/-- The halves of the slots a value takes, the upper slot first. -/
def Value.halves : Value → List Half
  | .int val => [.num val]
  | .long val => [.num (val.extractLsb' 32 32), .num (val.extractLsb' 0 32)]
  | .float bits => [.num bits]
  | .double bits =>
      [.num (bits.extractLsb' 32 32), .num (bits.extractLsb' 0 32)]
  | .ref r => [.ref r]

namespace OperandStack

/-- The slots in use, the top of the stack first. -/
def live (stack : OperandStack) : List Slot :=
  (stack.slots.take stack.size).reverse

/-- A stack of `cap` slots that hold `halves`, the top of the stack first. -/
structure Holds (cap : ℕ) (halves : List Half) (stack : OperandStack) :
    Prop where
  capacity : stack.slots.length = cap
  shows_live : List.Forall₂ Slot.Shows stack.live halves

theorem length_live (stack : OperandStack) :
    stack.live.length = stack.size := by
  unfold live
  rw [List.length_reverse, List.length_take]
  exact min_eq_left stack.size_le

theorem Holds.size_eq {cap : ℕ} {halves : List Half} {stack : OperandStack}
    (hholds : Holds cap halves stack) : stack.size = halves.length := by
  rw [← length_live]
  exact hholds.shows_live.length_eq

theorem live_set_succ {slots : List Slot} {size : ℕ} (hsize : size < slots.length)
    (slot : Slot) (hle : size + 1 ≤ (slots.set size slot).length)
    (hle' : size ≤ slots.length) :
    live ⟨size + 1, slots.set size slot, hle⟩ =
      slot :: live ⟨size, slots, hle'⟩ := by
  unfold live
  have htake : (slots.set size slot).take (size + 1) =
      slots.take size ++ [slot] := by
    rw [List.take_add_one, List.take_set_of_le (le_refl size)]
    simp [hsize]
  simp only [htake, List.reverse_append, List.reverse_cons, List.reverse_nil,
    List.nil_append, List.singleton_append]

theorem live_eq_cons {slots : List Slot} {size : ℕ}
    (hsize : size < slots.length) (slot : Slot)
    (hle : size + 1 ≤ slots.length)
    (hle' : size ≤ (slots.set size slot).length) :
    live ⟨size + 1, slots, hle⟩ =
      slots[size] :: live ⟨size, slots.set size slot, hle'⟩ := by
  unfold live
  have htake : slots.take (size + 1) = slots.take size ++ [slots[size]] := by
    rw [List.take_add_one]
    simp [hsize]
  have hset : (slots.set size slot).take size = slots.take size :=
    List.take_set_of_le (le_refl size)
  simp only [htake, hset, List.reverse_append, List.reverse_cons,
    List.reverse_nil, List.nil_append, List.singleton_append]

section Triples

variable {cap : ℕ} {halves : List Half} {E : GoPanic → Prop}

theorem push_triple {f : Slot → Slot} {half : Half}
    (hf : ∀ slot, (f slot).Shows half) (hroom : halves.length < cap) :
    Triple (Holds cap halves) (push f)
      (fun _ => Holds cap (half :: halves)) E := by
  intro stack hholds
  have hsize : stack.size < stack.slots.length := by
    rw [hholds.size_eq, hholds.capacity]
    exact hroom
  unfold push
  rw [dif_pos hsize]
  constructor
  · rw [List.length_set]
    exact hholds.capacity
  · rw [live_set_succ hsize _ _ stack.size_le]
    exact .cons (hf _) hholds.shows_live

theorem pop_triple (f : Slot → Slot) {half : Half} :
    Triple (Holds cap (half :: halves)) (pop f)
      (fun slot stack => slot.Shows half ∧ Holds cap halves stack) E := by
  intro stack hholds
  obtain ⟨size, slots, hle⟩ := stack
  have hsize : size = halves.length + 1 := hholds.size_eq
  subst hsize
  have hlast : halves.length < slots.length := hle
  have hlive := live_eq_cons hlast (f slots[halves.length]) hle (by
    rw [List.length_set]
    exact hlast.le)
  have hshows := hholds.shows_live
  rw [hlive] at hshows
  obtain ⟨htop, hrest⟩ := List.forall₂_cons.mp hshows
  have hcapacity : slots.length = cap := hholds.capacity
  have hset : (slots.set halves.length (f slots[halves.length])).length =
      cap := by
    rw [List.length_set, hcapacity]
  exact ⟨htop, hset, hrest⟩

end Triples

/-! ## Typed accesses -/

/-- `pop` takes a value off the stack and returns it. -/
def Pops {α : Type} (pop : StackM α) (value : α → Value) : Prop :=
  ∀ (cap : ℕ) (halves : List Half) (E : GoPanic → Prop) (v : α),
    Triple (Holds cap ((value v).halves ++ halves)) pop
      (fun a stack => a = v ∧ Holds cap halves stack) E

/-- `push` puts its argument on a stack with enough free slots. -/
def Pushes {α : Type} (push : α → StackM Unit) (value : α → Value) : Prop :=
  ∀ (cap : ℕ) (halves : List Half) (E : GoPanic → Prop) (v : α),
    ((value v).halves ++ halves).length ≤ cap →
    Triple (Holds cap halves) (push v)
      (fun _ => Holds cap ((value v).halves ++ halves)) E

theorem popInt_triple {cap : ℕ} {halves : List Half} {E : GoPanic → Prop}
    {val : BitVec 32} :
    Triple (Holds cap (.num val :: halves)) popInt
      (fun a stack => a = val ∧ Holds cap halves stack) E := by
  apply (pop_triple id).bind
  intro slot
  apply Triple.pure
  intro stack hholds
  exact hholds

theorem pushInt_triple {cap : ℕ} {halves : List Half} {E : GoPanic → Prop}
    {val : BitVec 32} (hroom : halves.length < cap) :
    Triple (Holds cap halves) (pushInt val)
      (fun _ => Holds cap (.num val :: halves)) E :=
  push_triple (fun _ => rfl) hroom

theorem setWidth_low (val : BitVec 64) :
    val.setWidth 32 = val.extractLsb' 0 32 := by
  apply BitVec.eq_of_getLsbD_eq
  intro i hi
  simp [hi]

theorem setWidth_high (val : BitVec 64) :
    (val.sshiftRight 32).setWidth 32 = val.extractLsb' 32 32 := by
  apply BitVec.eq_of_getLsbD_eq
  intro i hi
  have hlt : 32 + i < 64 := by omega
  have hle : i < 64 := by omega
  simp [hi, BitVec.getElem_sshiftRight, hlt, hle]

theorem popLong_triple {cap : ℕ} {halves : List Half} {E : GoPanic → Prop}
    {val : BitVec 64} :
    Triple (Holds cap (.num (val.extractLsb' 32 32) ::
        .num (val.extractLsb' 0 32) :: halves)) popLong
      (fun a stack => a = val ∧ Holds cap halves stack) E := by
  apply popInt_triple.bind_value
  apply popInt_triple.bind_value
  apply Triple.pure
  intro stack hholds
  exact ⟨join64_extract val, hholds⟩

theorem pushLong_triple {cap : ℕ} {halves : List Half} {E : GoPanic → Prop}
    {val : BitVec 64} (hroom : halves.length + 1 < cap) :
    Triple (Holds cap halves) (pushLong val)
      (fun _ => Holds cap (.num (val.extractLsb' 32 32) ::
        .num (val.extractLsb' 0 32) :: halves)) E := by
  unfold pushLong
  rw [setWidth_low, setWidth_high]
  apply (pushInt_triple (by omega)).bind
  intro _
  exact pushInt_triple hroom

theorem pops_int : Pops popInt .int := fun _ _ _ _ => popInt_triple

theorem pops_long : Pops popLong .long := fun _ _ _ _ => popLong_triple

theorem pops_float : Pops popFloat .float := fun _ _ _ _ => popInt_triple

theorem pops_double : Pops popDouble .double := fun _ _ _ _ => popLong_triple

theorem pops_ref : Pops popRef .ref := by
  intro cap halves E ref
  apply (pop_triple _).bind
  intro slot
  apply Triple.pure
  intro stack hholds
  exact hholds

theorem pushes_int : Pushes pushInt .int :=
  fun _ _ _ _ hroom => pushInt_triple hroom

theorem pushes_long : Pushes pushLong .long :=
  fun _ _ _ _ hroom => pushLong_triple hroom

theorem pushes_float : Pushes pushFloat .float :=
  fun _ _ _ _ hroom => pushInt_triple hroom

theorem pushes_double : Pushes pushDouble .double :=
  fun _ _ _ _ hroom => pushLong_triple hroom

theorem pushes_ref : Pushes pushRef .ref :=
  fun _ _ _ _ hroom => push_triple (fun _ => rfl) hroom

theorem popSlot_triple {cap : ℕ} {halves : List Half} {E : GoPanic → Prop}
    {half : Half} :
    Triple (Holds cap (half :: halves)) popSlot
      (fun slot stack => slot.Shows half ∧ Holds cap halves stack) E :=
  pop_triple id

theorem pushSlot_triple {cap : ℕ} {halves : List Half} {E : GoPanic → Prop}
    {slot : Slot} {half : Half} (hshows : slot.Shows half)
    (hroom : halves.length < cap) :
    Triple (Holds cap halves) (pushSlot slot)
      (fun _ => Holds cap (half :: halves)) E :=
  push_triple (fun _ => hshows) hroom

/-! ## Operators -/

section Operators

variable {α β γ : Type} {a : α → Value} {b : β → Value} {c : γ → Value}
variable {cap : ℕ} {halves : List Half} {E : GoPanic → Prop}

theorem unary_triple {pop : StackM α} {push : γ → StackM Unit} (hpop : Pops pop a)
    (hpush : Pushes push c) (result : α → γ) {v : α}
    (hroom : ((c (result v)).halves ++ halves).length ≤ cap) :
    Triple (Holds cap ((a v).halves ++ halves)) (unary pop result push)
      (fun _ => Holds cap ((c (result v)).halves ++ halves)) E := by
  apply (hpop cap halves E v).bind_value
  exact hpush cap halves E (result v) hroom

theorem binary_triple {popRight : StackM β} {popLeft : StackM α}
    {push : γ → StackM Unit} (hright : Pops popRight b) (hleft : Pops popLeft a)
    (hpush : Pushes push c) (result : α → β → γ) {v1 : α} {v2 : β}
    (hroom : ((c (result v1 v2)).halves ++ halves).length ≤ cap) :
    Triple (Holds cap ((b v2).halves ++ ((a v1).halves ++ halves)))
      (binary popRight popLeft result push)
      (fun _ => Holds cap ((c (result v1 v2)).halves ++ halves)) E := by
  apply (hright cap _ E v2).bind_value
  apply (hleft cap _ E v1).bind_value
  exact hpush cap halves E (result v1 v2) hroom

variable {w : ℕ} {value : BitVec w → Value}

theorem division_triple {pop : StackM (BitVec w)}
    {push : BitVec w → StackM Unit} (hpop : Pops pop value)
    (hpush : Pushes push value) (result : BitVec w → BitVec w → BitVec w)
    {v1 v2 : BitVec w} (hnonzero : v2 ≠ 0)
    (hroom : ((value (result v1 v2)).halves ++ halves).length ≤ cap) :
    Triple (Holds cap ((value v2).halves ++ ((value v1).halves ++ halves)))
      (division pop result push)
      (fun _ => Holds cap ((value (result v1 v2)).halves ++ halves)) E := by
  apply (hpop cap _ E v2).bind_value
  apply (hpop cap _ E v1).bind_value
  rw [if_neg hnonzero]
  exact hpush cap halves E (result v1 v2) hroom

theorem division_zero_triple {pop : StackM (BitVec w)}
    {push : BitVec w → StackM Unit} (hpop : Pops pop value)
    (result : BitVec w → BitVec w → BitVec w) {v1 v2 : BitVec w}
    (hzero : v2 = 0) :
    Triple (Holds cap ((value v2).halves ++ ((value v1).halves ++ halves)))
      (division pop result push) (fun _ _ => False)
      (fun e => e = .divideByZero) := by
  apply (hpop cap _ _ v2).bind_value
  apply (hpop cap _ _ v1).bind_value
  rw [if_pos hzero]
  exact Triple.throw rfl

end Operators

/-! ## Copies of slots -/

section Copies

variable {cap : ℕ} {halves : List Half} {E : GoPanic → Prop}
variable {h1 h2 h3 h4 : Half}

theorem popSlot_bind {m : Slot → StackM Unit} {Q : Unit → OperandStack → Prop}
    (hm : ∀ slot : Slot, slot.Shows h1 → Triple (Holds cap halves) (m slot) Q E) :
    Triple (Holds cap (h1 :: halves)) (popSlot >>= m) Q E := by
  apply popSlot_triple.bind
  rintro slot stack ⟨hshows, hholds⟩
  exact hm slot hshows stack hholds

theorem pushSlot_bind {slot : Slot} {m : Unit → StackM Unit}
    {Q : Unit → OperandStack → Prop} (hshows : slot.Shows h1)
    (hroom : halves.length < cap)
    (hm : Triple (Holds cap (h1 :: halves)) (m ()) Q E) :
    Triple (Holds cap halves) (pushSlot slot >>= m) Q E := by
  apply (pushSlot_triple hshows hroom).bind
  intro _
  exact hm

theorem pop1_triple :
    Triple (Holds cap (h1 :: halves)) pop1 (fun _ => Holds cap halves) E := by
  apply popSlot_bind
  intro slot _
  exact Triple.pure fun _ hholds => hholds

theorem pop2_triple :
    Triple (Holds cap (h1 :: h2 :: halves)) pop2
      (fun _ => Holds cap halves) E := by
  apply popSlot_bind
  intro slot1 _
  apply popSlot_bind
  intro slot2 _
  exact Triple.pure fun _ hholds => hholds

theorem dup_triple (hroom : halves.length + 2 ≤ cap) :
    Triple (Holds cap (h1 :: halves)) dup
      (fun _ => Holds cap (h1 :: h1 :: halves)) E := by
  apply popSlot_bind
  intro slot hslot
  apply pushSlot_bind hslot (by omega)
  exact pushSlot_triple hslot (by simp; omega)

theorem dup_x1_triple (hroom : halves.length + 3 ≤ cap) :
    Triple (Holds cap (h1 :: h2 :: halves)) dup_x1
      (fun _ => Holds cap (h1 :: h2 :: h1 :: halves)) E := by
  apply popSlot_bind
  intro slot1 hslot1
  apply popSlot_bind
  intro slot2 hslot2
  apply pushSlot_bind hslot1 (by omega)
  apply pushSlot_bind hslot2 (by simp; omega)
  exact pushSlot_triple hslot1 (by simp; omega)

theorem dup_x2_triple (hroom : halves.length + 4 ≤ cap) :
    Triple (Holds cap (h1 :: h2 :: h3 :: halves)) dup_x2
      (fun _ => Holds cap (h1 :: h2 :: h3 :: h1 :: halves)) E := by
  apply popSlot_bind
  intro slot1 hslot1
  apply popSlot_bind
  intro slot2 hslot2
  apply popSlot_bind
  intro slot3 hslot3
  apply pushSlot_bind hslot1 (by omega)
  apply pushSlot_bind hslot3 (by simp; omega)
  apply pushSlot_bind hslot2 (by simp; omega)
  exact pushSlot_triple hslot1 (by simp; omega)

theorem dup2_triple (hroom : halves.length + 4 ≤ cap) :
    Triple (Holds cap (h1 :: h2 :: halves)) dup2
      (fun _ => Holds cap (h1 :: h2 :: h1 :: h2 :: halves)) E := by
  apply popSlot_bind
  intro slot1 hslot1
  apply popSlot_bind
  intro slot2 hslot2
  apply pushSlot_bind hslot2 (by omega)
  apply pushSlot_bind hslot1 (by simp; omega)
  apply pushSlot_bind hslot2 (by simp; omega)
  exact pushSlot_triple hslot1 (by simp; omega)

theorem dup2_x1_triple (hroom : halves.length + 5 ≤ cap) :
    Triple (Holds cap (h1 :: h2 :: h3 :: halves)) dup2_x1
      (fun _ => Holds cap (h1 :: h2 :: h3 :: h1 :: h2 :: halves)) E := by
  apply popSlot_bind
  intro slot1 hslot1
  apply popSlot_bind
  intro slot2 hslot2
  apply popSlot_bind
  intro slot3 hslot3
  apply pushSlot_bind hslot2 (by omega)
  apply pushSlot_bind hslot1 (by simp; omega)
  apply pushSlot_bind hslot3 (by simp; omega)
  apply pushSlot_bind hslot2 (by simp; omega)
  exact pushSlot_triple hslot1 (by simp; omega)

theorem dup2_x2_triple (hroom : halves.length + 6 ≤ cap) :
    Triple (Holds cap (h1 :: h2 :: h3 :: h4 :: halves)) dup2_x2
      (fun _ => Holds cap (h1 :: h2 :: h3 :: h4 :: h1 :: h2 :: halves)) E := by
  apply popSlot_bind
  intro slot1 hslot1
  apply popSlot_bind
  intro slot2 hslot2
  apply popSlot_bind
  intro slot3 hslot3
  apply popSlot_bind
  intro slot4 hslot4
  apply pushSlot_bind hslot2 (by omega)
  apply pushSlot_bind hslot1 (by simp; omega)
  apply pushSlot_bind hslot4 (by simp; omega)
  apply pushSlot_bind hslot3 (by simp; omega)
  apply pushSlot_bind hslot2 (by simp; omega)
  exact pushSlot_triple hslot1 (by simp; omega)

theorem swap_triple (hroom : halves.length + 2 ≤ cap) :
    Triple (Holds cap (h1 :: h2 :: halves)) swap
      (fun _ => Holds cap (h2 :: h1 :: halves)) E := by
  apply popSlot_bind
  intro slot1 hslot1
  apply popSlot_bind
  intro slot2 hslot2
  apply pushSlot_bind hslot1 (by omega)
  exact pushSlot_triple hslot2 (by simp; omega)

end Copies

end OperandStack

end Jvm

end ClpszDemos
