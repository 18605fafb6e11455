import ClpszDemos.TransitionSystem
import ClpszDemos.SagaServices

/-!
# The Saga demo

A `placeOrder` call inserts a saga, starts one more event loop and puts the
INIT event.  Every event loop is a worker: it takes an event and runs its
`processEvent`, which is a chain of service calls.  `deductStock` puts its
event before it commits, so it is split at `putEvent`; the row locks which
the open transaction holds keep other stock transactions on its item or its
saga waiting until it ends.
-/

namespace ClpszDemos

namespace Saga

/-- A `CreateOrderEvent`. -/
structure Event where
  sagaId : JLong
  name : EventName
  itemId : JLong
  itemCount : JLong
  succeed : Bool
  deriving DecidableEq, Repr

def Event.outcome (e : Event) (name : EventName) (succeed : Bool) : Event :=
  { e with name := name, succeed := succeed }

structure Db where
  stock : ItemStockDb
  sagas : StatusDb SagaStatus
  logs : SagaLogDb
  orders : OrderDb OrderStatus

/-- The next statement of a worker that processes an event.  In a transaction
of `deductStock` which will commit, `putEventInDeduct` and
`commitDeductStock` are the last two statements.  The lists are the part of
the saga log which `processCancel` has still to walk through. -/
inductive Task
  | updateSagaLogSucceed (e : Event)
  | insertSagaLog (e : Event) (event : EventName)
  | createOrder (e : Event)
  | deductStock (e : Event)
  | putEvent (e : Event)
  | putEventInDeduct (e : Event)
  | commitDeductStock (e : Event)
  | updateSagaStatus (e : Event) (status : SagaStatus)
  | selectSagaLog (e : Event)
  | cancelDeductStock (e : Event) (rest : List SagaLog)
  | cancelOrder (e : Event) (rest : List SagaLog)
  | updateSagaLogCanceled (e : Event) (event : EventName)
      (rest : List SagaLog)
  deriving DecidableEq, Repr

/-- The first statement of `processEvent`. -/
def Event.processEvent (e : Event) : Task :=
  if e.succeed then
    match e.name with
    | .init => .insertSagaLog e .createOrder
    | .createOrder | .deductStock => .updateSagaLogSucceed e
  else .selectSagaLog e

namespace Task

def event : Task → Event
  | updateSagaLogSucceed e | insertSagaLog e _ | createOrder e
  | deductStock e | putEvent e | putEventInDeduct e | commitDeductStock e
  | updateSagaStatus e _ | selectSagaLog e | cancelDeductStock e _
  | cancelOrder e _ | updateSagaLogCanceled e _ _ => e

/-- The statement after the log of a step that succeeded is written. -/
def afterSucceed (e : Event) : Task :=
  match e.name with
  | .init => insertSagaLog e .createOrder
  | .createOrder => insertSagaLog e .deductStock
  | .deductStock => updateSagaStatus e .finished

def afterInsertSagaLog (e : Event) : EventName → Task
  | .deductStock => deductStock e
  | _ => createOrder e

/-- The loop of `processCancel` up to its next service call. -/
def cancelFrom (e : Event) : List SagaLog → Task
  | [] => updateSagaStatus e .canceled
  | sagaLog :: rest =>
      if sagaLog.eventStatus = .canceled then cancelFrom e rest
      else
        match sagaLog.event with
        | .deductStock => cancelDeductStock e rest
        | .createOrder => cancelOrder e rest
        | .init => cancelFrom e rest

/-- What one statement of a worker does: the databases afterwards, the event
that it puts and the statement that follows. -/
structure Outcome where
  db : Db
  put : Option Event
  next : Option Task

/-- An `SQLException` leaves `processEvent`, and the worker is idle again. -/
def resume {β : Type} (db : Db) (result : Option β)
    (next : β → Option Task) : Outcome where
  db := db
  put := none
  next := result.bind next

/-- The statement of `deductStock` after those on the tables. -/
def afterDeductStock (e : Event) :
    Except String (Exit Bool × ItemStockDb) → Task
  | .error _ => putEvent (e.outcome .deductStock false)
  | .ok (.returned _, _) => putEvent (e.outcome .deductStock true)
  | .ok (.committed _, _) => putEventInDeduct e

/-- `deductStock` up to its commit. -/
def beginDeductStock (e : Event) (fault : Fault) (db : Db) : Option Task :=
  match fault with
  | .escape _ => none
  | .statement => some (putEvent (e.outcome .deductStock false))
  | .none | .commit _ => some (afterDeductStock e
      (ItemStockService.deductStock e.sagaId e.itemId e.itemCount db.stock))

def step (fault : Fault) (db : Db) : Task → Outcome
  | updateSagaLogSucceed e =>
      let (logs, result) := callService
        (SagaLogService.updateSagaLogEventStatus e.sagaId e.name .succeed)
        false fault db.logs
      resume { db with logs := logs } result fun _ => some (afterSucceed e)
  | insertSagaLog e event =>
      let (logs, result) := callService
        (SagaLogService.insertSagaLog e.sagaId event) none fault db.logs
      resume { db with logs := logs } result fun _ =>
        some (afterInsertSagaLog e event)
  | createOrder e =>
      let (orders, result) := callService
        (OrderService.createOrder e.sagaId e.itemId e.itemCount (some 100))
        (some false) fault db.orders
      resume { db with orders := orders } result fun succeed =>
        succeed.map fun succeed => putEvent (e.outcome .createOrder succeed)
  | deductStock e =>
      { db := db, put := none, next := beginDeductStock e fault db }
  | putEvent e => { db := db, put := some e, next := none }
  | putEventInDeduct e =>
      { db := db, put := some (e.outcome .deductStock true)
        next := some (commitDeductStock e) }
  | commitDeductStock e =>
      -- The locked rows are as the statements left them, so the working
      -- copy of the open transaction is computed here.
      let (stock, result) := callService
        (ItemStockService.deductStock e.sagaId e.itemId e.itemCount)
        false fault db.stock
      resume { db with stock := stock } result fun success =>
        if success then none
        else some (putEvent (e.outcome .deductStock false))
  | updateSagaStatus e status =>
      let (sagas, result) := callService
        (SagaService.updateSagaStatus e.sagaId status) 0 fault db.sagas
      resume { db with sagas := sagas } result fun _ => none
  | selectSagaLog e =>
      { db := db, put := none
        next := match fault with
          | .statement | .escape _ => none
          | .none | .commit _ => some (cancelFrom e
              (SagaLogDao.selectBySagaId e.sagaId db.logs).reverse) }
  | cancelDeductStock e rest =>
      let (stock, result) := callService
        (ItemStockService.cancelDeductStock e.sagaId e.itemId) false fault
        db.stock
      resume { db with stock := stock } result fun success =>
        if success then some (updateSagaLogCanceled e .deductStock rest)
        else none
  | cancelOrder e rest =>
      let (orders, result) := callService
        (OrderService.cancelOrder e.sagaId) false fault db.orders
      resume { db with orders := orders } result fun success =>
        if success then some (updateSagaLogCanceled e .createOrder rest)
        else none
  | updateSagaLogCanceled e event rest =>
      let (logs, result) := callService
        (SagaLogService.updateSagaLogEventStatus e.sagaId event .canceled)
        false fault db.logs
      resume { db with logs := logs } result fun _ =>
        some (cancelFrom e rest)

/-! ## Row locks of the item database -/

/-- The task is inside an open transaction of `deductStock`. -/
def Holds : Task → Bool
  | putEventInDeduct _ | commitDeductStock _ => true
  | _ => false

/-- The next statement of the task selects stock rows `for update`. -/
def Selects : Task → Bool
  | deductStock _ | cancelDeductStock _ _ => true
  | _ => false

/-- The transactions of the two tasks lock a common row. -/
def SharesRow (task other : Task) : Prop :=
  task.event.itemId = other.event.itemId ∨
    task.event.sagaId = other.event.sagaId

instance (task other : Task) : Decidable (task.SharesRow other) :=
  inferInstanceAs (Decidable (_ ∨ _))

end Task

/-- A statement that waits for a lock can only fail, before its commit. -/
def mayWait (fault : Fault) : Bool :=
  match fault with
  | .statement | .escape false => true
  | _ => false

/-! ## The system -/

/-- A `placeOrder` call with its local variables. -/
inductive Caller
  | insertSaga (itemId itemCount : JLong)
  | startEventLoop (sagaId itemId itemCount : JLong)
  | putEvent (sagaId itemId itemCount : JLong)
  | returned (sagaId itemId itemCount : JLong)
  | threw (itemId itemCount : JLong)
  deriving DecidableEq, Repr

/-- An `SQLException` of `insertSaga` leaves `placeOrder` as well. -/
def Caller.afterInsertSaga (itemId itemCount : JLong) :
    Option JLong → Caller
  | some sagaId => startEventLoop sagaId itemId itemCount
  | none => threw itemId itemCount

/-- The event queue holds at most 100 events; an idle worker is `none`. -/
structure World where
  db : Db
  queue : List Event
  workers : List (Option Task)
  callers : List Caller

inductive Action
  | placeOrder (itemId itemCount : JLong)
  | startEventLoop
  | call (k : ℕ) (fault : Fault)
  | work (k : ℕ) (fault : Fault)
  deriving DecidableEq, Repr

def queueCapacity : ℕ := 100

/-- `queue.put`, which waits while the queue is full. -/
def World.put (world : World) (event : Option Event) : Option World :=
  match event with
  | none => some world
  | some e =>
      if world.queue.length < queueCapacity then
        some { world with queue := world.queue ++ [e] }
      else none

/-- Another worker holds a lock that the task of worker `k` needs. -/
def World.Waits (world : World) (k : ℕ) (task : Task) : Bool :=
  task.Selects && (world.workers.zipIdx.any fun (other, j) =>
    j != k && other.any fun other =>
      other.Holds && decide (task.SharesRow other))

def World.work (world : World) (k : ℕ) (fault : Fault) (task : Task) :
    Option World :=
  if world.Waits k task && !mayWait fault then none
  else
    let outcome := task.step fault world.db
    World.put { world with
      db := outcome.db
      workers := world.workers.set k outcome.next } outcome.put

def World.call (world : World) (k : ℕ) (fault : Fault) :
    Caller → Option World
  | .insertSaga itemId itemCount =>
      let (sagas, result) := callService SagaService.insertSaga none fault
        world.db.sagas
      some { world with
        db := { world.db with sagas := sagas }
        callers := world.callers.set k
          (Caller.afterInsertSaga itemId itemCount result) }
  | .startEventLoop sagaId itemId itemCount =>
      some { world with
        workers := world.workers ++ [none]
        callers := world.callers.set k
          (.putEvent sagaId itemId itemCount) }
  | .putEvent sagaId itemId itemCount =>
      World.put { world with
        callers := world.callers.set k
          (.returned sagaId itemId itemCount) }
        (some ⟨sagaId, .init, itemId, itemCount, true⟩)
  | .returned _ _ _ | .threw _ _ => none

def World.step (action : Action) (world : World) : Option World :=
  match action with
  | .placeOrder itemId itemCount =>
      some { world with
        callers := world.callers ++ [.insertSaga itemId itemCount] }
  | .startEventLoop =>
      some { world with workers := world.workers ++ [none] }
  | .call k fault =>
      match world.callers[k]? with
      | some caller => world.call k fault caller
      | none => none
  | .work k fault =>
      match world.workers[k]? with
      | some (some task) => world.work k fault task
      | some none =>
          match world.queue with
          | e :: queue => some { world with
              queue := queue
              workers := world.workers.set k (some e.processEvent) }
          | [] => none
      | none => none

/-- Any items; the other tables are empty and nothing runs. -/
def World.Initial (world : World) : Prop :=
  world.queue = [] ∧ world.workers = [] ∧ world.callers = [] ∧
    world.db.stock.reserves = .empty _ ∧ world.db.sagas = .empty _ ∧
    world.db.logs = .empty _ ∧ world.db.orders = .empty _

def shop : TransitionSystem World Action where
  init := World.Initial
  step := World.step

end Saga

end ClpszDemos
