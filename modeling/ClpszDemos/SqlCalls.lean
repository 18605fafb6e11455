import ClpszDemos.LocalTransaction

/-!
# Service methods call by call

`callService` says what one fault does to a whole service method.  Here a
method is the sequence of its calls to the database, each of which may throw.
An exception leaves behind what was committed and the events that were put
before it.
-/

namespace ClpszDemos

/-- The calls to the database of a service method, which makes each of them at
most once. -/
inductive SqlCall
  | getConnection | setAutoCommit
  | selectItem | selectRow | insertRow | updateItem
  | commit | rollback | close
  deriving DecidableEq, Repr

/-- Which calls throw, and whether the server applied a commit that throws. -/
structure SqlOutcomes where
  throws : SqlCall → Bool
  applied : Bool

structure CallState (δ ε : Type) where
  committed : δ
  working : δ
  events : List ε

/-- Nothing is done yet. -/
def CallState.start {δ ε : Type} (db : δ) : CallState δ ε where
  committed := db
  working := db
  events := []

def Method (δ ε α : Type) : Type :=
  SqlOutcomes → CallState δ ε → Except String α × CallState δ ε

namespace Method

variable {δ ε α β : Type}

instance : Monad (Method δ ε) where
  pure a := fun _ state => (.ok a, state)
  bind method next := fun outcomes state =>
    match method outcomes state with
    | (.ok a, state) => next a outcomes state
    | (.error message, state) => (.error message, state)

def sqlException : String := "java.sql.SQLException"

/-- A call to the database, with what it does when it does not throw. -/
def sql (call : SqlCall) (body : Statements δ α) : Method δ ε α :=
  fun outcomes state =>
    if outcomes.throws call then (.error sqlException, state)
    else
      match body state.working with
      | .ok (a, working) => (.ok a, { state with working := working })
      | .error message => (.error message, state)

/-- A check of the method itself, which may throw. -/
def check (result : Except String α) : Method δ ε α := fun _ state =>
  (result, state)

def commit : Method δ ε Unit := fun outcomes state =>
  if outcomes.throws .commit then
    (.error sqlException,
      if outcomes.applied then { state with committed := state.working }
      else state)
  else (.ok (), { state with committed := state.working })

def rollback : Method δ ε Unit := fun outcomes state =>
  if outcomes.throws .rollback then (.error sqlException, state)
  else (.ok (), { state with working := state.committed })

def putEvent (event : ε) : Method δ ε Unit := fun _ state =>
  (.ok (), { state with events := state.events ++ [event] })

def tryCatch (body handler : Method δ ε α) : Method δ ε α :=
  fun outcomes state =>
    match body outcomes state with
    | (.ok a, state) => (.ok a, state)
    | (.error _, state) => handler outcomes state

/-- A `finally` block; what it throws replaces the result. -/
def andFinally (method : Method δ ε α) (last : Method δ ε Unit) :
    Method δ ε α := fun outcomes state =>
  match last outcomes (method outcomes state).2 with
  | (.ok _, state') => ((method outcomes state).1, state')
  | (.error message, state') => (.error message, state')

/-- The frame that all service methods share. -/
def transaction (body handler : Method δ ε α) : Method δ ε α := do
  sql .getConnection (pure ())
  sql .setAutoCommit (pure ())
  andFinally
    (tryCatch body (do
      rollback
      handler))
    (sql .close (pure ()))

/-! ## Evaluation -/

variable {outcomes : SqlOutcomes} {state next : CallState δ ε}

@[simp] theorem run_pure (a : α) :
    (pure a : Method δ ε α) outcomes state = (.ok a, state) := rfl

theorem bind_of_ok {method : Method δ ε α} {a : α}
    (hmethod : method outcomes state = (.ok a, next))
    (rest : α → Method δ ε β) :
    (method >>= rest) outcomes state = rest a outcomes next := by
  show (match method outcomes state with
    | (.ok a, state) => rest a outcomes state
    | (.error message, state) => (.error message, state)) = _
  rw [hmethod]

theorem bind_of_error {method : Method δ ε α} {message : String}
    (hmethod : method outcomes state = (.error message, next))
    (rest : α → Method δ ε β) :
    (method >>= rest) outcomes state = (.error message, next) := by
  show (match method outcomes state with
    | (.ok a, state) => rest a outcomes state
    | (.error message, state) => (.error message, state)) = _
  rw [hmethod]

theorem sql_throws {call : SqlCall} (hthrows : outcomes.throws call = true)
    (body : Statements δ α) :
    sql call body outcomes state = (.error sqlException, state) := by
  unfold sql
  rw [if_pos hthrows]

theorem sql_ok {call : SqlCall} (hreturns : outcomes.throws call = false)
    {body : Statements δ α} {a : α} {working : δ}
    (hbody : body state.working = .ok (a, working)) :
    sql call body outcomes state =
      (.ok a, { state with working := working }) := by
  unfold sql
  rw [hreturns, if_neg Bool.false_ne_true, hbody]

theorem sql_error {call : SqlCall} (hreturns : outcomes.throws call = false)
    {body : Statements δ α} {message : String}
    (hbody : body state.working = .error message) :
    sql call body outcomes state = (.error message, state) := by
  unfold sql
  rw [hreturns, if_neg Bool.false_ne_true, hbody]

theorem commit_throws (hcommit : outcomes.throws .commit = true) :
    (commit : Method δ ε Unit) outcomes state =
      (.error sqlException, { state with
        committed := if outcomes.applied then state.working
          else state.committed }) := by
  unfold commit
  rw [hcommit, if_pos rfl]
  cases outcomes.applied <;> rfl

theorem commit_returns (hcommit : outcomes.throws .commit = false) :
    (commit : Method δ ε Unit) outcomes state =
      (.ok (), { state with committed := state.working }) := by
  unfold commit
  rw [hcommit, if_neg Bool.false_ne_true]

/-- The connection was opened, so that the `try` block is entered. -/
def Connects (outcomes : SqlOutcomes) : Prop :=
  outcomes.throws .getConnection = false ∧
    outcomes.throws .setAutoCommit = false

variable {body handler : Method δ ε α} {a : α} {message : String}

theorem transaction_not_connects (hnot : ¬ Connects outcomes) :
    (transaction body handler outcomes state).2 = state := by
  unfold transaction
  cases hconnection : outcomes.throws .getConnection with
  | true => rw [bind_of_error (sql_throws hconnection _)]
  | false =>
      rw [bind_of_ok (sql_ok hconnection rfl)]
      cases hcommit : outcomes.throws .setAutoCommit with
      | true => rw [bind_of_error (sql_throws hcommit _)]
      | false => exact absurd ⟨hconnection, hcommit⟩ hnot

theorem close_state :
    ((sql .close (pure ()) : Method δ ε Unit) outcomes state).2 = state := by
  cases hclose : outcomes.throws .close with
  | true => rw [sql_throws hclose]
  | false => rw [sql_ok hclose rfl]

/-- Closing the connection changes nothing that stays. -/
theorem andFinally_close (method : Method δ ε α) :
    (andFinally method (sql .close (pure ())) outcomes state).2 =
      (method outcomes state).2 := by
  have hclose := @close_state δ ε outcomes (method outcomes state).2
  unfold andFinally
  split
  · next heq =>
      rw [heq] at hclose
      exact hclose
  · next heq =>
      rw [heq] at hclose
      exact hclose

theorem transaction_connects (hconnects : Connects outcomes) :
    (transaction body handler outcomes state).2 =
      (tryCatch body (do
        rollback
        handler) outcomes state).2 := by
  unfold transaction
  rw [bind_of_ok (sql_ok hconnects.1 rfl), bind_of_ok (sql_ok hconnects.2 rfl),
    andFinally_close]

theorem transaction_returns (hconnects : Connects outcomes)
    (hbody : body outcomes state = (.ok a, next)) :
    (transaction body handler outcomes state).2 = next := by
  rw [transaction_connects hconnects, tryCatch, hbody]

/-- The handler runs on what the rollback leaves. -/
theorem transaction_catches (hconnects : Connects outcomes)
    (hbody : body outcomes state = (.error message, next))
    (hrollback : outcomes.throws .rollback = false) :
    (transaction body handler outcomes state).2 =
      (handler outcomes { next with working := next.committed }).2 := by
  have hback : (rollback : Method δ ε Unit) outcomes next =
      (.ok (), { next with working := next.committed }) := by
    unfold rollback
    rw [hrollback]
    rfl
  rw [transaction_connects hconnects, tryCatch, hbody]
  dsimp only
  rw [bind_of_ok hback]

theorem transaction_escapes (hconnects : Connects outcomes)
    (hbody : body outcomes state = (.error message, next))
    (hrollback : outcomes.throws .rollback = true) :
    (transaction body handler outcomes state).2 = next := by
  have hback : (rollback : Method δ ε Unit) outcomes next =
      (.error sqlException, next) := by
    unfold rollback
    rw [hrollback]
    rfl
  rw [transaction_connects hconnects, tryCatch, hbody]
  dsimp only
  rw [bind_of_error hback]

end Method

end ClpszDemos
