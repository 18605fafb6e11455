import Mathlib.Logic.Function.Basic
import Mathlib.Data.List.Infix
import Mathlib.Data.Nat.Notation

/-!
# Requests and replies between two parties

Each party has a thread that asks, and waits for the reply before it asks
again, and one that receives: it answers a request at once and keeps a reply
until the first thread takes it.  The channels between them keep the order of
what is sent.  Replies carry nothing that says which request they belong to;
they meet their requests all the same.
-/

namespace ClpszDemos

namespace RequestReply

/-! ## Two sides -/

inductive Side
  | near
  | far
  deriving DecidableEq, Repr

def Side.other : Side → Side
  | near => far
  | far => near

@[simp] theorem Side.other_other (side : Side) : side.other.other = side := by
  cases side <;> rfl

@[simp] theorem Side.other_ne (side : Side) : side.other ≠ side := by
  cases side <;> simp [other]

@[simp] theorem Side.ne_other (side : Side) : side ≠ side.other :=
  side.other_ne.symm

theorem Side.eq_other_of_ne {side other : Side} (hne : other ≠ side) :
    other = side.other := by
  cases side <;> cases other <;> simp_all [Side.other]

/-! ## Messages -/

variable {α β : Type*}

inductive Message (α β : Type*)
  | request (a : α)
  | reply (b : β)

def requests : List (Message α β) → List α
  | [] => []
  | .request a :: messages => a :: requests messages
  | .reply _ :: messages => requests messages

def replies : List (Message α β) → List β
  | [] => []
  | .request _ :: messages => replies messages
  | .reply b :: messages => b :: replies messages

@[simp] theorem requests_append (first second : List (Message α β)) :
    requests (first ++ second) = requests first ++ requests second := by
  induction first with
  | nil => rfl
  | cons message first ih => cases message <;> simp [requests, ih]

@[simp] theorem replies_append (first second : List (Message α β)) :
    replies (first ++ second) = replies first ++ replies second := by
  induction first with
  | nil => rfl
  | cons message first ih => cases message <;> simp [replies, ih]

@[simp] theorem requests_request (a : α) :
    requests [(Message.request a : Message α β)] = [a] := rfl

@[simp] theorem requests_reply (b : β) :
    requests [(Message.reply b : Message α β)] = [] := rfl

@[simp] theorem replies_request (a : α) :
    replies [(Message.request a : Message α β)] = [] := rfl

@[simp] theorem replies_reply (b : β) :
    replies [(Message.reply b : Message α β)] = [b] := rfl

theorem requests_mono {first second : List (Message α β)}
    (hbegins : first <+: second) : requests first <+: requests second := by
  obtain ⟨rest, rfl⟩ := hbegins
  simp

theorem replies_mono {first second : List (Message α β)}
    (hbegins : first <+: second) : replies first <+: replies second := by
  obtain ⟨rest, rfl⟩ := hbegins
  simp

theorem mem_requests {messages : List (Message α β)} {a : α} :
    a ∈ requests messages ↔ Message.request a ∈ messages := by
  induction messages with
  | nil => simp [requests]
  | cons message messages ih => cases message <;> simp [requests, ih]

theorem mem_replies {messages : List (Message α β)} {b : β} :
    b ∈ replies messages ↔ Message.reply b ∈ messages := by
  induction messages with
  | nil => simp [replies]
  | cons message messages ih => cases message <;> simp [replies, ih]

/-- What goes back at once: a request is answered. -/
def Message.answered (answer : α → β) : Message α β → List (Message α β)
  | request a => [reply (answer a)]
  | reply _ => []

/-! ## The parties -/

/-- The requests of a party, all that it has sent and received, and the number
of replies that its first thread has taken. -/
structure Party (α β : Type*) where
  made : List α
  sent : List (Message α β)
  arrived : List (Message α β)
  taken : ℕ

namespace Party

def ask (a : α) (party : Party α β) : Party α β :=
  { party with made := party.made ++ [a], sent := party.sent ++ [.request a] }

def receive (answer : α → β) (message : Message α β) (party : Party α β) :
    Party α β :=
  { party with
    sent := party.sent ++ message.answered answer
    arrived := party.arrived ++ [message] }

def take (party : Party α β) : Party α β :=
  { party with taken := party.taken + 1 }

end Party

abbrev Parties (α β : Type*) : Type _ := Side → Party α β

/-- A party asks when it has the replies to all it asked before, receives the
next message, or takes a reply that is there. -/
inductive Step (answer : α → β) (parties : Parties α β) : Parties α β → Prop
  | ask (side : Side) (a : α)
      (hfree : (parties side).made.length = (parties side).taken) :
      Step answer parties
        (Function.update parties side ((parties side).ask a))
  | receive (side : Side) (message : Message α β)
      (hnext : (parties side).arrived ++ [message] <+:
        (parties side.other).sent) :
      Step answer parties
        (Function.update parties side
          ((parties side).receive answer message))
  | take (side : Side)
      (hready : (parties side).taken <
        (replies (parties side).arrived).length) :
      Step answer parties (Function.update parties side (parties side).take)

/-- What holds of the parties at any time. -/
structure Sound (answer : α → β) (parties : Parties α β) : Prop where
  made : ∀ side, requests (parties side).sent = (parties side).made
  answered : ∀ side, replies (parties side).sent =
    (requests (parties side).arrived).map answer
  ordered : ∀ side, (parties side).arrived <+: (parties side.other).sent
  taken_le : ∀ side,
    (parties side).taken ≤ (replies (parties side).arrived).length
  made_le : ∀ side, (parties side).made.length ≤ (parties side).taken + 1

section Sound

variable {answer : α → β} {parties next : Parties α β}

theorem sound_silent {party : Party α β} (hmade : party.made = [])
    (hsent : party.sent = []) (harrived : party.arrived = [])
    (htaken : party.taken = 0) : Sound answer fun _ => party := by
  constructor <;> simp [hmade, hsent, harrived, htaken, requests, replies]

/-- One party changes, and does not take back what it has sent. -/
theorem Sound.update (hsound : Sound answer parties) (side : Side)
    {party : Party α β} (hmade : requests party.sent = party.made)
    (hanswered : replies party.sent = (requests party.arrived).map answer)
    (hordered : party.arrived <+: (parties side.other).sent)
    (hsent : (parties side).sent <+: party.sent)
    (htaken : party.taken ≤ (replies party.arrived).length)
    (hmade_le : party.made.length ≤ party.taken + 1) :
    Sound answer (Function.update parties side party) := by
  have hcases : ∀ other, other = side ∨ other = side.other := by
    intro other
    by_cases hsame : other = side
    · exact Or.inl hsame
    · exact Or.inr (Side.eq_other_of_ne hsame)
  constructor
  · intro other
    rcases hcases other with rfl | rfl
    · simpa using hmade
    · simpa using hsound.made side.other
  · intro other
    rcases hcases other with rfl | rfl
    · simpa using hanswered
    · simpa using hsound.answered side.other
  · intro other
    rcases hcases other with rfl | rfl
    · simpa using hordered
    · have hbefore := hsound.ordered side.other
      rw [Side.other_other] at hbefore
      simpa using hbefore.trans hsent
  · intro other
    rcases hcases other with rfl | rfl
    · simpa using htaken
    · simpa using hsound.taken_le side.other
  · intro other
    rcases hcases other with rfl | rfl
    · simpa using hmade_le
    · simpa using hsound.made_le side.other

theorem Sound.step (hsound : Sound answer parties)
    (hstep : Step answer parties next) : Sound answer next := by
  cases hstep with
  | ask side a hfree =>
      refine hsound.update side ?_ ?_ (hsound.ordered side) ?_
        (hsound.taken_le side) ?_
      · simp [Party.ask, hsound.made side]
      · simp [Party.ask, hsound.answered side]
      · exact List.prefix_append _ _
      · simp [Party.ask, hfree]
  | receive side message hnext =>
      cases message with
      | request a =>
          refine hsound.update side ?_ ?_ hnext ?_ ?_ (hsound.made_le side)
          · simp [Party.receive, Message.answered, hsound.made side]
          · simp [Party.receive, Message.answered, hsound.answered side]
          · exact List.prefix_append _ _
          · simpa [Party.receive] using hsound.taken_le side
      | reply b =>
          refine hsound.update side ?_ ?_ hnext (List.prefix_append _ _) ?_
            (hsound.made_le side)
          · simp [Party.receive, Message.answered, hsound.made side]
          · simp [Party.receive, Message.answered, hsound.answered side]
          · have hle := hsound.taken_le side
            simp [Party.receive]
            omega
  | take side hready =>
      have hle := hsound.made_le side
      exact hsound.update side (hsound.made side) (hsound.answered side)
        (hsound.ordered side) (List.prefix_refl _) hready (by
          simp only [Party.take]
          omega)

/-- The other party executes the requests in order, each once. -/
theorem Sound.executed_in_order (hsound : Sound answer parties) (side : Side) :
    requests (parties side.other).arrived <+: (parties side).made := by
  have hordered := requests_mono (hsound.ordered side.other)
  rw [Side.other_other, hsound.made] at hordered
  exact hordered

/-- The replies that have come answer the requests, in order. -/
theorem Sound.replied_in_order (hsound : Sound answer parties) (side : Side) :
    replies (parties side).arrived <+: (parties side).made.map answer := by
  have hordered := replies_mono (hsound.ordered side)
  rw [hsound.answered] at hordered
  exact hordered.trans ((hsound.executed_in_order side).map answer)

theorem Sound.replies_le (hsound : Sound answer parties) (side : Side) :
    (replies (parties side).arrived).length ≤ (parties side).made.length := by
  simpa using (hsound.replied_in_order side).length_le

/-- A reply comes when the one before was taken, and answers the request that
waits for it. -/
theorem Sound.reply_next (hsound : Sound answer parties) {side : Side} {b : β}
    (hnext : (parties side).arrived ++ [.reply b] <+:
      (parties side.other).sent) :
    (replies (parties side).arrived).length = (parties side).taken ∧
      (parties side).made.length = (parties side).taken + 1 ∧
      ((parties side).made.map answer)[(parties side).taken]? = some b := by
  have hafter := (hsound.step (.receive side _ hnext)).replied_in_order side
  simp only [Function.update_self, Party.receive, replies_append,
    replies_reply] at hafter
  have hlength := hafter.length_le
  simp only [List.length_append, List.length_singleton, List.length_map]
    at hlength
  have htaken := hsound.taken_le side
  have hmade := hsound.made_le side
  have hsame : (replies (parties side).arrived).length =
      (parties side).taken := by
    omega
  refine ⟨hsame, by omega, ?_⟩
  obtain ⟨rest, hrest⟩ := hafter
  rw [← hrest, ← hsame]
  simp

/-- A request that comes is one that waits for its reply. -/
theorem Sound.request_next (hsound : Sound answer parties) {side : Side}
    {a : α} (hnext : (parties side).arrived ++ [.request a] <+:
      (parties side.other).sent) :
    (requests (parties side).arrived).length <
      (parties side.other).made.length := by
  have hafter := (hsound.step (.receive side _ hnext)).executed_in_order
    side.other
  rw [Side.other_other] at hafter
  have hlength := hafter.length_le
  simp [Party.receive] at hlength
  omega

/-- Nothing is under way: every request has its reply. -/
theorem Sound.settled (hsound : Sound answer parties)
    (hquiet : ∀ side, (parties side).arrived = (parties side.other).sent)
    (side : Side) :
    replies (parties side).arrived = (parties side).made.map answer := by
  rw [hquiet side, hsound.answered, hquiet side.other, Side.other_other,
    hsound.made]

end Sound

end RequestReply

end ClpszDemos
