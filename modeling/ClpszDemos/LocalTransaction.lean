import ClpszDemos.ProgramLogic

/-!
# Local transactions with failing commits

A service method opens a connection, turns autocommit off, runs its
statements in a `try` block and closes the connection in a `finally` block.
Its statements are a state-passing computation on a working copy of the
database.  The block ends in one of two ways: by `conn.commit()` followed by
a `return`, or by a `return` alone, where closing the connection rolls the
working copy back.  A `Fault` says what the environment does to one call.
-/

namespace ClpszDemos

/-- How a `try` block ends: `conn.commit(); return b;` or `return b;` with
no commit before it. -/
inductive Exit (β : Type*)
  | committed (b : β)
  | returned (b : β)
  deriving DecidableEq, Repr

/-- What the environment does to one call of a service method.  Nothing
fails; or a statement throws before the commit and the rollback succeeds; or
`conn.commit()` throws, applied by the server or not, and the rollback
succeeds; or an `SQLException` leaves the method, because the connection
cannot be opened or because `rollback` or `close` throws. -/
inductive Fault
  | none
  | statement
  | commit (applied : Bool)
  | escape (applied : Bool)
  deriving DecidableEq, Repr

/-- A `try` block that reaches its commit takes effect. -/
def Fault.applies : Fault → Bool
  | none | commit true | escape true => true
  | statement | commit false | escape false => false

abbrev Statements (δ β : Type) : Type := StateT δ (Except String) β

namespace Statements

variable {δ β γ : Type}

@[simp] theorem run_pure (b : β) (db : δ) :
    (pure b : Statements δ β) db = .ok (b, db) := rfl

@[simp] theorem run_throw (message : String) (db : δ) :
    (throw message : Statements δ β) db = .error message := rfl

@[simp] theorem run_bind (body : Statements δ β)
    (rest : β → Statements δ γ) (db : δ) :
    (body >>= rest) db =
      match body db with
      | .ok (b, next) => rest b next
      | .error message => .error message := by
  change (body db >>= fun p => rest p.1 p.2) = _
  cases body db <;> rfl

theorem bind_eq_ok_iff {body : Statements δ β}
    {rest : β → Statements δ γ} {db : δ} {result : γ × δ} :
    (body >>= rest) db = .ok result ↔
      ∃ b next, body db = .ok (b, next) ∧ rest b next = .ok result := by
  change (body db >>= fun p => rest p.1 p.2) = _ ↔ _
  rw [except_bind_eq_ok_iff]
  simp only [Prod.exists]

def read (query : δ → Except String β) : Statements δ β := fun db =>
  match query db with
  | .ok b => .ok (b, db)
  | .error message => .error message

def write (update : δ → Except String δ) : Statements δ Unit := fun db =>
  match update db with
  | .ok next => .ok ((), next)
  | .error message => .error message

end Statements

variable {δ β : Type}

namespace Statements

theorem read_eq_ok_iff {query : δ → Except String β} {db : δ}
    {b : β} {next : δ} :
    read query db = .ok (b, next) ↔ query db = .ok b ∧ next = db := by
  unfold read
  cases query db <;> simp [eq_comm]

theorem write_eq_ok_iff {update : δ → Except String δ} {db : δ}
    {u : Unit} {next : δ} :
    write update db = .ok (u, next) ↔ update db = .ok next := by
  unfold write
  cases update db <;> simp

end Statements

/-- One call of a service method under a fault: the database afterwards and
the value returned, `none` when an `SQLException` leaves the method.
`onThrow` is what the `catch` block returns after its rollback. -/
def callService (body : Statements δ (Exit β)) (onThrow : β)
    (fault : Fault) (db : δ) : δ × Option β :=
  match body db with
  | .error _ =>
      match fault with
      | .escape _ => (db, none)
      | _ => (db, some onThrow)
  | .ok (.returned b, _) =>
      match fault with
      | .none | .commit _ => (db, some b)
      | .statement => (db, some onThrow)
      | .escape _ => (db, none)
  | .ok (.committed b, next) =>
      match fault with
      | .none => (next, some b)
      | .statement => (db, some onThrow)
      | .commit applied => (if applied then next else db, some onThrow)
      | .escape applied => (if applied then next else db, none)

/-- What one call can do, whatever the fault: the database keeps its value
or takes the working copy of a block that reached its commit, and a value
other than that of the `catch` block is the one of the `try` block. -/
theorem callService_cases (body : Statements δ (Exit β)) (onThrow : β)
    (fault : Fault) (db : δ) :
    ((callService body onThrow fault db).1 = db ∧
      ((callService body onThrow fault db).2 = none ∨
        (callService body onThrow fault db).2 = some onThrow ∨
        ∃ b next, body db = .ok (.returned b, next) ∧
          (callService body onThrow fault db).2 = some b)) ∨
    ∃ b next, body db = .ok (.committed b, next) ∧
      (callService body onThrow fault db).1 = next ∧
      ((callService body onThrow fault db).2 = none ∨
        (callService body onThrow fault db).2 = some onThrow ∨
        (callService body onThrow fault db).2 = some b) := by
  unfold callService
  rcases hbody : body db with message | ⟨exit, next⟩
  · left
    cases fault <;> simp
  · rcases exit with b | b
    · cases fault with
      | none => exact .inr ⟨b, next, rfl, by simp⟩
      | statement => simp
      | commit applied =>
          cases applied
          · simp
          · exact .inr ⟨b, next, rfl, by simp⟩
      | escape applied =>
          cases applied
          · simp
          · exact .inr ⟨b, next, rfl, by simp⟩
    · left
      cases fault <;> simp

/-- A block that does not reach its commit leaves the database as it is. -/
theorem callService_of_not_committed {body : Statements δ (Exit β)}
    {onThrow : β} {fault : Fault} {db : δ}
    (hbody : ∀ b next, body db ≠ .ok (.committed b, next)) :
    (callService body onThrow fault db).1 = db := by
  rcases callService_cases body onThrow fault db with
    ⟨hsame, _⟩ | ⟨b, next, hcommitted, _, _⟩
  · exact hsame
  · exact absurd hcommitted (hbody b next)

/-- What returns true is the block. -/
theorem exists_body_of_true {body : Statements δ (Exit Bool)}
    {fault : Fault} {db : δ}
    (htrue : (callService body false fault db).2 = some true) :
    ∃ next, body db = .ok (.returned true, next) ∨
      body db = .ok (.committed true, next) := by
  rcases callService_cases body false fault db with
    ⟨_, hresult⟩ | ⟨b, next, hbody, _, hresult⟩
  · rcases hresult with hnone | hfalse | ⟨b, next, hbody, hb⟩
    · rw [hnone] at htrue
      cases htrue
    · rw [hfalse] at htrue
      cases htrue
    · rw [hb] at htrue
      cases htrue
      exact ⟨next, .inl hbody⟩
  · rcases hresult with hnone | hfalse | hb
    · rw [hnone] at htrue
      cases htrue
    · rw [hfalse] at htrue
      cases htrue
    · rw [hb] at htrue
      cases htrue
      exact ⟨next, .inr hbody⟩

/-- A call does what it does without a fault, or it fails, and its commit may
have been applied all the same. -/
theorem callService_none_or_fails (body : Statements δ (Exit β)) (onThrow : β)
    (fault : Fault) (db : δ) :
    callService body onThrow fault db = callService body onThrow .none db ∨
      fault ≠ .none ∧
        ((callService body onThrow fault db).1 = db ∨
          (callService body onThrow fault db).1 =
            (callService body onThrow .none db).1) ∧
        ((callService body onThrow fault db).2 = none ∨
          (callService body onThrow fault db).2 = some onThrow) := by
  unfold callService
  rcases body db with message | ⟨exit, next⟩
  · cases fault <;> simp
  · rcases exit with b | b
    · cases fault with
      | none => simp
      | statement => simp
      | commit applied => cases applied <;> simp
      | escape applied => cases applied <;> simp
    · cases fault <;> simp

theorem callService_fst (body : Statements δ (Exit β)) (onThrow : β)
    (fault : Fault) (db : δ) :
    (callService body onThrow fault db).1 =
        (callService body onThrow .none db).1 ∨
      fault ≠ .none ∧ (callService body onThrow fault db).1 = db := by
  rcases callService_none_or_fails body onThrow fault db with
    hsame | ⟨hfault, hdb | hdb, _⟩
  · exact .inl (congrArg Prod.fst hsame)
  · exact .inr ⟨hfault, hdb⟩
  · exact .inl hdb

theorem callService_escape (body : Statements δ (Exit β)) (onThrow : β)
    (applied : Bool) (db : δ) :
    (callService body onThrow (.escape applied) db).2 = none := by
  unfold callService
  rcases body db with message | ⟨b | b, next⟩ <;> rfl

theorem callService_of_not_applies (body : Statements δ (Exit β))
    (onThrow : β) {fault : Fault} (hfault : fault.applies = false)
    (db : δ) : (callService body onThrow fault db).1 = db := by
  unfold callService
  cases fault with
  | none => cases hfault
  | statement => rcases body db with message | ⟨b | b, next⟩ <;> rfl
  | commit applied =>
      cases applied
      · rcases body db with message | ⟨b | b, next⟩ <;> rfl
      · cases hfault
  | escape applied =>
      cases applied
      · rcases body db with message | ⟨b | b, next⟩ <;> rfl
      · cases hfault

/-- Without a fault every call returns. -/
theorem callService_none_returns (body : Statements δ (Exit β))
    (onThrow : β) (db : δ) :
    ∃ b, (callService body onThrow .none db).2 = some b := by
  unfold callService
  split
  · exact ⟨_, rfl⟩
  · exact ⟨_, rfl⟩
  · exact ⟨_, rfl⟩

/-- Without a fault a call returns what its `try` block says. -/
theorem callService_none_eq {body : Statements δ (Exit β)}
    (onThrow : β) {db next : δ} {b : β}
    (hbody : body db = .ok (.committed b, next)) :
    callService body onThrow .none db = (next, some b) := by
  simp [callService, hbody]

/-- A statement that throws leaves the database as it is. -/
theorem callService_statement (body : Statements δ (Exit β)) (onThrow : β)
    (db : δ) : callService body onThrow .statement db = (db, some onThrow) := by
  unfold callService
  split
  · rfl
  · rfl
  · rfl

/-- A commit that throws may have been applied. -/
theorem callService_commit_eq {body : Statements δ (Exit β)}
    (onThrow : β) {db next : δ} {b : β}
    (hbody : body db = .ok (.committed b, next)) (applied : Bool) :
    callService body onThrow (.commit applied) db =
      (if applied then next else db, some onThrow) := by
  simp [callService, hbody]

/-- An exception leaves the method, after a commit that may have been
applied. -/
theorem callService_escape_eq {body : Statements δ (Exit β)} (onThrow : β)
    {db next : δ} {b : β} (hbody : body db = .ok (.committed b, next))
    (applied : Bool) :
    callService body onThrow (.escape applied) db =
      (if applied then next else db, none) := by
  simp [callService, hbody]

/-- An exception leaves the method before its commit. -/
theorem callService_escape_false (body : Statements δ (Exit β)) (onThrow : β)
    (db : δ) : callService body onThrow (.escape false) db = (db, none) := by
  apply Prod.ext
  · exact callService_of_not_applies body onThrow rfl db
  · exact callService_escape body onThrow false db

/-- A predicate which the committed working copy inherits survives every
call, whatever the fault. -/
theorem callService_preserves (Inv : δ → Prop)
    {body : Statements δ (Exit β)} {db : δ}
    (hbody : ∀ b next, body db = .ok (.committed b, next) → Inv next)
    (onThrow : β) (fault : Fault) (hdb : Inv db) :
    Inv (callService body onThrow fault db).1 := by
  rcases callService_cases body onThrow fault db with
    ⟨hsame, _⟩ | ⟨b, next, hnext, hdone, _⟩
  · rw [hsame]
    exact hdb
  · rw [hdone]
    exact hbody b next hnext

end ClpszDemos
