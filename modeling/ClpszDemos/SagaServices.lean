import ClpszDemos.OrderTables

/-!
# The services of the Saga demo

The statements of every service call up to its commit.  Putting an event is
not part of a transaction; where a service puts one, the event center model
says when.
-/

namespace ClpszDemos

namespace Saga

inductive SagaStatus
  | init | finished | canceled
  deriving DecidableEq, Repr

def SagaStatus.getVal : SagaStatus → String
  | init => "INIT"
  | finished => "FINISHED"
  | canceled => "CANCELED"

inductive ReserveStatus
  | normal | canceled
  deriving DecidableEq, Repr

inductive OrderStatus
  | normal | canceled | finished
  deriving DecidableEq, Repr

inductive SagaLogEventStatus
  | init | succeed | canceled
  deriving DecidableEq, Repr

/-- The names of a `CreateOrderEvent`, which `saga_log_table` records. -/
inductive EventName
  | init | createOrder | deductStock
  deriving DecidableEq, Repr

abbrev ItemStockDb : Type := StockDb ReserveStatus

namespace ItemStockService

def deductStock (sagaId itemId stock : JLong) :
    Statements ItemStockDb (Exit Bool) :=
  reserveStock ReserveStatus.normal sagaId itemId stock

def cancelDeductStock (sagaId itemId : JLong) :
    Statements ItemStockDb (Exit Bool) :=
  releaseStock ReserveStatus.normal ReserveStatus.canceled sagaId itemId

end ItemStockService

namespace OrderService

/-- The result is the `succeed` flag of the event that the method puts after
its commit; it puts none for an order that is already there. -/
def createOrder (sagaId itemId itemCount payedAmount : JLong) :
    Statements (OrderDb OrderStatus) (Exit (Option Bool)) :=
  openOrder OrderStatus.normal none (some true) sagaId itemId itemCount
    payedAmount

def cancelOrder (sagaId : JLong) :
    Statements (OrderDb OrderStatus) (Exit Bool) :=
  cancelOpenOrder OrderStatus.normal OrderStatus.canceled sagaId

end OrderService

namespace SagaService

def insertSaga : Statements (StatusDb SagaStatus) (Exit JLong) :=
  insertStatus .init

def updateSagaStatus (sagaId : JLong) (sagaStatus : SagaStatus) :
    Statements (StatusDb SagaStatus) (Exit ℕ) :=
  updateStatus (fun status => status == .init)
    (fun status => s!"expected tcc status is INIT, get %d {status.getVal}")
    sagaStatus sagaId

end SagaService

/-! ## The saga log -/

structure SagaLog where
  sagaLogId : ℕ
  sagaId : ℕ
  event : EventName
  eventStatus : SagaLogEventStatus
  deriving DecidableEq, Repr

instance : KeyedRow SagaLog where
  primaryKey := SagaLog.sagaLogId
  uniqueKey := SagaLog.sagaLogId

def SagaLog.setStatus (status : SagaLogEventStatus) :
    KeyedRow.Update SagaLog where
  apply row := { row with eventStatus := status }
  primaryKey_apply _ := rfl
  uniqueKey_apply _ := rfl

abbrev SagaLogDb : Type := UniqueTable SagaLog

/-- `select * from saga_log_table where saga_id = sagaId`, in the order of
the primary key. -/
def SagaLogDao.selectBySagaId (sagaId : JLong) (db : SagaLogDb) :
    List SagaLog :=
  db.rows.filter fun row => sagaId == some (row.sagaId : ℤ)

def SagaLogDao.selectBySagaIdAndEventForUpdate (sagaId : JLong)
    (event : EventName) (db : SagaLogDb) : Option SagaLog :=
  (selectBySagaId sagaId db).find? fun row => row.event == event

namespace SagaLogService

def insertSagaLog (sagaId : JLong) (event : EventName) :
    Statements SagaLogDb (Exit JLong) := fun db => do
  let sagaId ← unbox sagaId
  let sagaId ← toUnsigned sagaId
  match db.insert (fun sagaLogId => ⟨sagaLogId, sagaId, event, .init⟩)
      (fun _ => rfl) with
  | some next => .ok (.committed (some (db.nextKey : ℤ)), next)
  | none => .error "Duplicate entry"

def updateSagaLogEventStatus (sagaId : JLong) (event : EventName)
    (status : SagaLogEventStatus) : Statements SagaLogDb (Exit Bool) := do
  match ← Statements.read fun db => .ok
      (SagaLogDao.selectBySagaIdAndEventForUpdate sagaId event db) with
  | none => throw "sagaLog not exist"
  | some sagaLog =>
      Statements.write fun db =>
        .ok (db.modify sagaLog.sagaLogId (SagaLog.setStatus status))
      return .committed true

end SagaLogService

end Saga

end ClpszDemos
