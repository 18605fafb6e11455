import ClpszDemos.TransitionSystem
import ClpszDemos.OrderTables

/-!
# The TCC demo

`ShopController.placeOrder` runs its service calls one after the other; the
next program point depends on what the last call returned.  A call is one
local transaction with its fault.  Any number of coordinators run at once,
interleaved call by call, and each of them may stop between two calls.
-/

namespace ClpszDemos

namespace Tcc

inductive TccStatus
  | init | toConfirm | toCancel | finished
  deriving DecidableEq, Repr

def TccStatus.getVal : TccStatus → String
  | init => "INIT"
  | toConfirm => "TO_CONFIRM"
  | toCancel => "TO_CANCEL"
  | finished => "FINISHED"

inductive ReserveStatus
  | init | confirmed | canceled
  deriving DecidableEq, Repr

inductive OrderStatus
  | init | normal | canceled | finished
  deriving DecidableEq, Repr

abbrev ItemStockDb : Type := StockDb ReserveStatus

namespace ItemStockService

def tryReserveStock (tccId itemId stock : JLong) :
    Statements ItemStockDb (Exit Bool) :=
  reserveStock ReserveStatus.init tccId itemId stock

def confirmReserveStock (tccId : JLong) :
    Statements ItemStockDb (Exit Bool) := do
  match ← ItemReserveStockDao.selectByTxIdForUpdate tccId with
  | none => throw "java.lang.NullPointerException"
  | some row =>
      if row.reserveStatus = .init then
        ItemReserveStockDao.updateReserveStatus row.irsId
          ReserveStatus.confirmed
        return .committed true
      else if row.reserveStatus = .confirmed then
        return .returned true
      else throw "canceled, can not confirm"

def cancelReserveStock (tccId itemId : JLong) :
    Statements ItemStockDb (Exit Bool) :=
  releaseStock ReserveStatus.init ReserveStatus.canceled tccId itemId

theorem confirmReserveStock_eq_ok {tccId : JLong} {db next : ItemStockDb}
    {exit : Exit Bool}
    (hok : confirmReserveStock tccId db = .ok (exit, next)) :
    ∃ (t : ℕ) (row : ReserveRow ReserveStatus),
      tccId = some (t : ℤ) ∧ db.reserves.find t = some row ∧
      ((exit = .returned true ∧ next = db ∧
          row.reserveStatus = .confirmed) ∨
        (exit = .committed true ∧ row.reserveStatus = .init ∧
          next = { db with
            reserves := db.reserves.modify row.irsId
              (ReserveRow.setStatus .confirmed) })) := by
  obtain ⟨row?, mid, hread, hrest⟩ := Statements.bind_eq_ok_iff.mp hok
  clear hok
  obtain ⟨rfl, rfl⟩ :=
    ItemReserveStockDao.selectByTxIdForUpdate_eq_ok hread
  cases hselect : mid.reserves.select tccId with
  | none =>
      rw [hselect] at hrest
      cases hrest
  | some row =>
      rw [hselect] at hrest
      dsimp only at hrest
      obtain ⟨t, rfl, hfind⟩ := UniqueTable.select_eq_some hselect
      refine ⟨t, row, rfl, hfind, ?_⟩
      by_cases hinit : row.reserveStatus = .init
      · rw [if_pos hinit] at hrest
        obtain ⟨_, updated, hwrite, hdone⟩ :=
          Statements.bind_eq_ok_iff.mp hrest
        cases Statements.write_eq_ok_iff.mp hwrite
        cases hdone
        exact .inr ⟨rfl, hinit, rfl⟩
      · rw [if_neg hinit] at hrest
        by_cases hconfirmed : row.reserveStatus = .confirmed
        · rw [if_pos hconfirmed] at hrest
          cases hrest
          exact .inl ⟨rfl, rfl, hconfirmed⟩
        · rw [if_neg hconfirmed] at hrest
          cases hrest

end ItemStockService

namespace OrderService

def tryCreateOrder (tccId itemId itemCount payedAmount : JLong) :
    Statements (OrderDb OrderStatus) (Exit Bool) :=
  openOrder OrderStatus.init true true tccId itemId itemCount payedAmount

def confirmCreateOrder (tccId : JLong) :
    Statements (OrderDb OrderStatus) (Exit Bool) := do
  match ← OrderDao.selectByTxIdForUpdate tccId with
  | none => throw "java.lang.NullPointerException"
  | some order =>
      if order.orderStatus = .init then
        OrderDao.updateOrderStatus order.orderId OrderStatus.normal
        return .committed true
      else return .returned false

def cancelCreateOrder (tccId : JLong) :
    Statements (OrderDb OrderStatus) (Exit Bool) :=
  cancelOpenOrder OrderStatus.init OrderStatus.canceled tccId

theorem confirmCreateOrder_eq_ok {tccId : JLong}
    {db next : OrderDb OrderStatus} {exit : Exit Bool}
    (hok : confirmCreateOrder tccId db = .ok (exit, next)) :
    ∃ (t : ℕ) (order : OrderRow OrderStatus),
      tccId = some (t : ℤ) ∧ db.find t = some order ∧
      ((exit = .returned false ∧ next = db) ∨
        (exit = .committed true ∧ order.orderStatus = .init ∧
          next = db.modify order.orderId (OrderRow.setStatus .normal))) := by
  obtain ⟨order?, mid, hread, hrest⟩ := Statements.bind_eq_ok_iff.mp hok
  clear hok
  obtain ⟨rfl, rfl⟩ := OrderDao.selectByTxIdForUpdate_eq_ok hread
  cases hselect : mid.select tccId with
  | none =>
      rw [hselect] at hrest
      cases hrest
  | some order =>
      rw [hselect] at hrest
      dsimp only at hrest
      obtain ⟨t, rfl, hfind⟩ := UniqueTable.select_eq_some hselect
      refine ⟨t, order, rfl, hfind, ?_⟩
      by_cases hinit : order.orderStatus = .init
      · rw [if_pos hinit] at hrest
        obtain ⟨_, updated, hwrite, hdone⟩ :=
          Statements.bind_eq_ok_iff.mp hrest
        cases Statements.write_eq_ok_iff.mp hwrite
        cases hdone
        exact .inr ⟨rfl, hinit, rfl⟩
      · rw [if_neg hinit] at hrest
        cases hrest
        exact .inl ⟨rfl, rfl⟩

end OrderService

namespace TccService

def insertTcc : Statements (StatusDb TccStatus) (Exit JLong) :=
  insertStatus .init

def updateTccFromInit (tccId : JLong) (tccStatus : TccStatus) :
    Statements (StatusDb TccStatus) (Exit ℕ) :=
  updateStatus (fun status => status == .init)
    (fun status => s!"expected tcc status is INIT, get %d {status.getVal}")
    tccStatus tccId

def updateTccToFinished (tccId : JLong) :
    Statements (StatusDb TccStatus) (Exit ℕ) :=
  updateStatus (fun status => status == .toConfirm || status == .toCancel)
    (fun status => "expected tcc status is TO_CONFIRM or TO_CANCEL, " ++
      s!"get %d {status.getVal}")
    .finished tccId

end TccService

namespace ItemService

/-- The method catches every exception, that of `close` included. -/
def getItemById (itemId : JLong) (fault : Fault) (db : ItemStockDb) :
    Option Item :=
  match fault with
  | .statement | .escape _ => none
  | .none | .commit _ =>
      match ItemDao.selectById itemId db with
      | .ok item? => item?
      | .error _ => none

end ItemService

/-! ## The coordinator -/

/-- The databases of the demo. -/
structure Db where
  stock : ItemStockDb
  tccs : StatusDb TccStatus
  orders : OrderDb OrderStatus

/-- The next service call of a `placeOrder` call, with the local variables
that it and the calls after it read. -/
inductive Coordinator
  | insertTcc (itemId itemCount : JLong)
  | getItemById (tccId itemId itemCount : JLong)
  | tryCreateOrder (tccId itemId itemCount payedAmount : JLong)
  | tryReserveStock (tccId itemId itemCount : JLong)
      (tryCreateOrderSuccess : Bool)
  | updateTccFromInit (tccId itemId : JLong)
      (tryCreateOrderSuccess tryReserveStockSuccess : Bool)
  | confirmReserveStock (tccId : JLong)
  | confirmCreateOrder (tccId : JLong) (itemConfirmSuccess : Bool)
  | cancelReserveStock (tccId itemId : JLong)
  | cancelCreateOrder (tccId : JLong) (itemCancelSuccess : Bool)
  | updateTccToFinished (tccId : JLong)
  | stopped
  deriving DecidableEq, Repr

namespace Coordinator

/-- An `SQLException` of a service leaves `placeOrder` as well. -/
def resume {β : Type} (result : Option β) (next : β → Coordinator) :
    Coordinator :=
  match result with
  | some b => next b
  | none => stopped

def afterGetItem (tccId itemId itemCount : JLong) :
    Option Item → Coordinator
  | none => stopped
  | some item =>
      match itemCount with
      | none => stopped
      | some count =>
          tryCreateOrder tccId itemId itemCount
            (some (wrap64 (count * item.price)))

def afterUpdateFromInit (tccId itemId : JLong) (confirm : Bool)
    (updated : ℕ) : Coordinator :=
  if updated > 0 then
    if confirm then confirmReserveStock tccId
    else cancelReserveStock tccId itemId
  else stopped

def afterSecond (tccId : JLong) (firstSuccess secondSuccess : Bool) :
    Coordinator :=
  if firstSuccess && secondSuccess then updateTccToFinished tccId
  else stopped

def step (fault : Fault) (db : Db) : Coordinator → Db × Coordinator
  | insertTcc itemId itemCount =>
      let (tccs, result) := callService TccService.insertTcc none fault
        db.tccs
      ({ db with tccs := tccs },
        resume result fun tccId => getItemById tccId itemId itemCount)
  | getItemById tccId itemId itemCount =>
      (db, afterGetItem tccId itemId itemCount
        (ItemService.getItemById itemId fault db.stock))
  | tryCreateOrder tccId itemId itemCount payedAmount =>
      let (orders, result) := callService
        (OrderService.tryCreateOrder tccId itemId itemCount payedAmount)
        false fault db.orders
      ({ db with orders := orders },
        resume result fun success =>
          tryReserveStock tccId itemId itemCount success)
  | tryReserveStock tccId itemId itemCount tryCreateOrderSuccess =>
      let (stock, result) := callService
        (ItemStockService.tryReserveStock tccId itemId itemCount)
        false fault db.stock
      ({ db with stock := stock },
        resume result fun success =>
          updateTccFromInit tccId itemId tryCreateOrderSuccess success)
  | updateTccFromInit tccId itemId tryCreateOrderSuccess
      tryReserveStockSuccess =>
      let confirm := tryReserveStockSuccess && tryCreateOrderSuccess
      let (tccs, result) := callService
        (TccService.updateTccFromInit tccId
          (if confirm then .toConfirm else .toCancel)) 0 fault db.tccs
      ({ db with tccs := tccs },
        resume result (afterUpdateFromInit tccId itemId confirm))
  | confirmReserveStock tccId =>
      let (stock, result) := callService
        (ItemStockService.confirmReserveStock tccId) false fault db.stock
      ({ db with stock := stock }, resume result (confirmCreateOrder tccId))
  | confirmCreateOrder tccId itemConfirmSuccess =>
      let (orders, result) := callService
        (OrderService.confirmCreateOrder tccId) false fault db.orders
      ({ db with orders := orders },
        resume result (afterSecond tccId itemConfirmSuccess))
  | cancelReserveStock tccId itemId =>
      let (stock, result) := callService
        (ItemStockService.cancelReserveStock tccId itemId) false fault
        db.stock
      ({ db with stock := stock }, resume result (cancelCreateOrder tccId))
  | cancelCreateOrder tccId itemCancelSuccess =>
      let (orders, result) := callService
        (OrderService.cancelCreateOrder tccId) false fault db.orders
      ({ db with orders := orders },
        resume result (afterSecond tccId itemCancelSuccess))
  | updateTccToFinished tccId =>
      let (tccs, _) := callService (TccService.updateTccToFinished tccId)
        0 fault db.tccs
      ({ db with tccs := tccs }, stopped)
  | stopped => (db, stopped)

end Coordinator

/-! ## The system -/

structure World where
  db : Db
  calls : List Coordinator

inductive Action
  | placeOrder (itemId itemCount : JLong)
  | call (k : ℕ) (fault : Fault)
  | stop (k : ℕ)
  deriving DecidableEq, Repr

def World.step (action : Action) (world : World) : Option World :=
  match action with
  | .placeOrder itemId itemCount =>
      some { world with
        calls := world.calls ++ [.insertTcc itemId itemCount] }
  | .call k fault =>
      match world.calls[k]? with
      | none => none
      | some coordinator =>
          let (db, next) := coordinator.step fault world.db
          some { db := db, calls := world.calls.set k next }
  | .stop k => some { world with calls := world.calls.set k .stopped }

/-- Any items; the other tables are empty and nothing runs. -/
def World.Initial (world : World) : Prop :=
  world.calls = [] ∧
    world.db.stock.reserves = .empty _ ∧
    world.db.tccs = .empty _ ∧ world.db.orders = .empty _

def shop : TransitionSystem World Action where
  init := World.Initial
  step := World.step

end Tcc

end ClpszDemos
