import ClpszDemos.SagaOutcomeSafety
import ClpszDemos.StockConservation

/-!
# Quiescence of the Saga demo

Without faults every order of an item that can be read comes to an end: the
saga is FINISHED with its order and its reservation, or it is CANCELED and
has neither.  The compensation of an order whose item is not there refuses,
and leaves the saga INIT beside a NORMAL order.
-/

namespace ClpszDemos

namespace Saga

/-! ## What is known in a run without faults -/

/-- The item can be read from the table. -/
def ReadableItem (items : ℕ → Option ItemRow) (i : ℕ) : Prop :=
  ∃ row ∈ items i, row.Readable

instance (items : ℕ → Option ItemRow) :
    DecidablePred (ReadableItem items) := fun i =>
  inferInstanceAs (Decidable (∃ row ∈ items i, row.Readable))

/-- Arguments that an order can be made of name an item that can be read. -/
def Orderable (items : ℕ → Option ItemRow) (itemId itemCount : JLong) :
    Prop :=
  ∀ i ∈ itemId, ∀ n ∈ itemCount, 0 ≤ i → 0 ≤ n →
    ReadableItem items i.toNat

instance (items : ℕ → Option ItemRow) (itemId itemCount : JLong) :
    Decidable (Orderable items itemId itemCount) :=
  inferInstanceAs (Decidable (∀ i ∈ itemId, ∀ n ∈ itemCount, 0 ≤ i →
    0 ≤ n → ReadableItem items i.toNat))

theorem Orderable.readable {items : ℕ → Option ItemRow}
    {itemId itemCount : JLong} (hargs : Orderable items itemId itemCount)
    {i n : ℕ} (hi : itemId = some (i : ℤ))
    (hn : itemCount = some (n : ℤ)) : ReadableItem items i := by
  have hitem := hargs i hi n hn (Int.natCast_nonneg i)
    (Int.natCast_nonneg n)
  rwa [Int.toNat_natCast] at hitem

/-- The order of the event was made. -/
def Event.Payable (items : ℕ → Option ItemRow) (e : Event) : Prop :=
  ∃ i n : ℕ, e.itemId = some (i : ℤ) ∧ e.itemCount = some (n : ℤ) ∧
    ReadableItem items i

namespace SagaView

/-- The saga was carried out or undone. -/
def Done (v : SagaView) : Prop :=
  (v.saga = some .finished ∧ v.orderStatus = some .normal ∧
    v.reserveStatus = some .normal) ∨
  (v.saga = some .canceled ∧ v.orderStatus ≠ some .normal ∧
    v.reserveStatus ≠ some .normal)

/-- The stock is not reserved, or not any more. -/
structure Undoing (v : SagaView) : Prop where
  saga : v.saga = some .init
  reserve : v.reserveStatus ≠ some .normal

end SagaView

/-- The rest of the log is the open entry of the order. -/
def OrderEntry (rest : List SagaLog) : Prop :=
  ∃ row, rest = [row] ∧ row.event = .createOrder ∧
    row.eventStatus ≠ .canceled

def Event.Tracks (items : ℕ → Option ItemRow) (v : SagaView) (e : Event) :
    Prop :=
  match e.name, e.succeed with
  | .init, true => v.Fresh ∧ LogsOpen [] v.logs
  | .init, false => False
  | .createOrder, true =>
      v.Ordered ∧ LogsOpen [.createOrder] v.logs ∧ e.Payable items
  | .createOrder, false => v.Fresh ∧ LogsOpen [.createOrder] v.logs
  | .deductStock, true => v.Reserved
  | .deductStock, false =>
      v.Ordered ∧ LogsOpen [.createOrder, .deductStock] v.logs ∧
        e.Payable items

def Task.Tracks (items : ℕ → Option ItemRow) (v : SagaView) : Task → Prop
  | updateSagaLogSucceed e =>
      e.name ≠ .init ∧ { e with succeed := true }.Tracks items v
  | insertSagaLog _ .createOrder => v.Fresh ∧ LogsOpen [] v.logs
  | insertSagaLog e .deductStock =>
      v.Ordered ∧ LogsOpen [.createOrder] v.logs ∧ e.Payable items
  | insertSagaLog _ .init => False
  | createOrder _ => v.Fresh ∧ LogsOpen [.createOrder] v.logs
  | deductStock e | putEventInDeduct e =>
      v.Ordered ∧ LogsOpen [.createOrder, .deductStock] v.logs ∧
        e.Payable items
  | putEvent e => e.Tracks items v
  | commitDeductStock _ => False
  | updateSagaStatus _ .finished => v.Reserved
  | updateSagaStatus _ .canceled =>
      v.Undoing ∧ v.orderStatus ≠ some .normal
  | updateSagaStatus _ .init => False
  | selectSagaLog e =>
      (v.Fresh ∧ LogsOpen [.createOrder] v.logs) ∨
        (v.Ordered ∧ LogsOpen [.createOrder, .deductStock] v.logs ∧
          e.Payable items)
  | cancelDeductStock e rest =>
      v.Ordered ∧ e.Payable items ∧ OrderEntry rest
  | cancelOrder _ rest =>
      v.Undoing ∧ rest = [] ∧
        (v.orderStatus = none ∨ v.orderStatus = some .normal)
  | updateSagaLogCanceled _ _ rest =>
      v.Undoing ∧
        ((v.orderStatus = some .normal ∧ OrderEntry rest) ∨
          (v.orderStatus ≠ some .normal ∧ rest = []))

theorem Event.Tracks.saga {items : ℕ → Option ItemRow} {v : SagaView}
    {e : Event} (he : e.Tracks items v) : v.saga = some .init := by
  rcases e with ⟨sagaId, name, itemId, itemCount, succeed⟩
  cases name with
  | init =>
      cases succeed with
      | false => exact he.elim
      | true => exact he.1.saga
  | createOrder =>
      cases succeed with
      | false => exact he.1.saga
      | true => exact he.1.saga
  | deductStock =>
      cases succeed with
      | false => exact he.1.saga
      | true => exact SagaView.Reserved.saga he

theorem Task.Tracks.saga {items : ℕ → Option ItemRow} {v : SagaView}
    {task : Task} (htask : task.Tracks items v) : v.saga = some .init := by
  cases task with
  | updateSagaLogSucceed e => exact htask.2.saga
  | insertSagaLog e event =>
      cases event with
      | init => exact htask.elim
      | createOrder => exact htask.1.saga
      | deductStock => exact htask.1.saga
  | putEvent e => exact Event.Tracks.saga htask
  | commitDeductStock e => exact htask.elim
  | updateSagaStatus e status =>
      cases status with
      | init => exact htask.elim
      | finished => exact SagaView.Reserved.saga htask
      | canceled => exact htask.1.saga
  | selectSagaLog e =>
      rcases htask with hfresh | hordered
      · exact hfresh.1.saga
      · exact hordered.1.saga
  | createOrder | deductStock | putEventInDeduct | cancelDeductStock
  | cancelOrder | updateSagaLogCanceled => exact htask.1.saga

/-- When only the commit of the stock is left, the saga is FINISHED. -/
def progress (items : ℕ → Option ItemRow) : Knowledge where
  Idle := SagaView.Done
  At v task := task.Tracks items v
  Alone v := v.saga = some .finished ∧ v.orderStatus = some .normal ∧
    v.reserveStatus = none
  saga_of_at _ _ htask := htask.saga
  saga_of_alone _ hv := by simp [hv.1]

/-! ## The services without faults -/

/-- A saga that is INIT takes every status it is given. -/
theorem updateSagaStatus_none {db : Db} {t : ℕ} {sagaId : JLong}
    (hsagaId : sagaId = some (t : ℤ))
    (hsaga : (db.view t).saga = some .init) (status : SagaStatus) :
    (callService (SagaService.updateSagaStatus sagaId status) 0 .none
      db.sagas).1.status t = some status := by
  rcases Option.map_eq_some_iff.mp hsaga with ⟨row, hfind, hinit⟩
  have hexpected : (fun status : SagaStatus => status == .init)
      row.status = true := by
    simp [hinit]
  have hok : ∃ next, SagaService.updateSagaStatus sagaId status db.sagas =
      .ok (.committed 1, next) := by
    rw [hsagaId]
    exact updateStatus_ok hfind hexpected
  rcases hok with ⟨next, hbody⟩
  rcases updateStatus_eq_ok hbody with ⟨u, _, hu, _, _, _, hnext⟩
  have htu : t = u := by simpa [hsagaId] using hu
  rw [callService_none_eq 0 hbody, hnext, htu, Function.update_self]

/-- The compensation of the stock succeeds when its item can be read and
nothing is reserved. -/
theorem cancelDeductStock_none {db : ItemStockDb} {t i : ℕ}
    (hitem : ReadableItem db.items i)
    (hfresh : db.reserves.find t = none) :
    (callService (ItemStockService.cancelDeductStock (some (t : ℤ))
      (some (i : ℤ))) false .none db).2 = some true := by
  rcases hitem with ⟨row, hrow, hreadable⟩
  rcases @releaseStock_ok _ _ ReserveStatus.normal ReserveStatus.canceled t
    i db row hrow hreadable hfresh with ⟨next, hbody⟩
  have hcall : callService (ItemStockService.cancelDeductStock
      (some (t : ℤ)) (some (i : ℤ))) false .none db = (next, some true) :=
    callService_none_eq false hbody
  rw [hcall]

/-- The compensation of an order that is NORMAL or missing succeeds. -/
theorem cancelOrder_none {db : OrderDb OrderStatus} {t : ℕ}
    (horder : db.orderStatus t = none ∨ db.orderStatus t = some .normal) :
    (callService (OrderService.cancelOrder (some (t : ℤ))) false .none
      db).2 = some true := by
  rcases @cancelOpenOrder_ok _ _ OrderStatus.normal OrderStatus.canceled t
    db horder with ⟨next, hbody | hbody⟩
  · unfold OrderService.cancelOrder callService
    rw [hbody]
  · unfold OrderService.cancelOrder callService
    rw [hbody]

/-! ## One statement of the main token -/

theorem Event.processEvent_tracks {items : ℕ → Option ItemRow}
    {v : SagaView} {e : Event} (he : e.Tracks items v) :
    e.processEvent.Tracks items v := by
  rcases e with ⟨sagaId, name, itemId, itemCount, succeed⟩
  cases succeed with
  | true =>
      cases name with
      | init => exact he
      | createOrder => exact ⟨by simp, he⟩
      | deductStock => exact ⟨by simp, he⟩
  | false =>
      cases name with
      | init => exact he.elim
      | createOrder => exact .inl he
      | deductStock => exact .inr he

theorem phase_goes_on {β : Type} {items : ℕ → Option ItemRow}
    {v : SagaView} {db : Db} {result : Option β} {b : β}
    {next : β → Option Task} {task : Task} (hresult : result = some b)
    (hnext : next b = some task) (htask : task.Tracks items v) :
    Phase (progress items) v (Task.resume db result next).tokens := by
  subst hresult
  refine phase_resume (by simp [htask.saga]) (fun hnone => ?_)
    fun b' other hb' hother => ?_
  · rw [Option.bind_some, hnext] at hnone
    cases hnone
  · cases hb'
    rw [hnext] at hother
    cases hother
    exact htask

theorem LogsOpen.singleton {event : EventName} {logs : List SagaLog}
    (hlogs : LogsOpen [event] logs) :
    ∃ row, logs = [row] ∧ row.event = event ∧
      row.eventStatus ≠ .canceled := by
  have hevents := hlogs.events
  rcases List.map_eq_singleton_iff.mp hevents with ⟨row, hrow, hevent⟩
  exact ⟨row, hrow, hevent, hlogs.notCanceled row (by simp [hrow])⟩

theorem LogsOpen.pair {first second : EventName} {logs : List SagaLog}
    (hlogs : LogsOpen [first, second] logs) :
    ∃ row other, logs = [row, other] ∧
      (row.event = first ∧ row.eventStatus ≠ .canceled) ∧
      other.event = second ∧ other.eventStatus ≠ .canceled := by
  rcases List.map_eq_cons_iff.mp hlogs.events with
    ⟨row, rest, hsplit, hrow, hrest⟩
  have hopen : LogsOpen [second] rest :=
    ⟨hrest, fun other hother => hlogs.notCanceled other (by
      simp [hsplit, hother])⟩
  rcases hopen.singleton with ⟨other, hother, hevent⟩
  refine ⟨row, other, ?_, ⟨hrow, ?_⟩, hevent⟩
  · rw [hsplit, hother]
  · exact hlogs.notCanceled row (by simp [hsplit])

/-- The walk starts at the newest entry of the log. -/
theorem Task.cancelFrom_tracks {items : ℕ → Option ItemRow} {v : SagaView}
    {e : Event}
    (hv : (v.Fresh ∧ LogsOpen [.createOrder] v.logs) ∨
      (v.Ordered ∧ LogsOpen [.createOrder, .deductStock] v.logs ∧
        e.Payable items)) :
    (cancelFrom e v.logs.reverse).Tracks items v := by
  rcases hv with ⟨hfresh, hlogs⟩ | ⟨hordered, hlogs, hpayable⟩
  · rcases hlogs.singleton with ⟨row, hrow, hevent, hopen⟩
    have hcancel : cancelFrom e v.logs.reverse = cancelOrder e [] := by
      rw [hrow, List.reverse_singleton]
      simp only [cancelFrom, if_neg hopen, hevent]
    rw [hcancel]
    exact ⟨⟨hfresh.saga, by simp [hfresh.reserve]⟩, rfl, .inl hfresh.order⟩
  · rcases hlogs.pair with
      ⟨order, deduct, hrows, horder, hdeduct, hopen⟩
    have hcancel : cancelFrom e v.logs.reverse =
        cancelDeductStock e [order] := by
      rw [hrows]
      simp only [List.reverse_cons, List.reverse_nil, List.nil_append,
        List.cons_append, cancelFrom, if_neg hopen, hdeduct]
    rw [hcancel]
    exact ⟨hordered, hpayable, order, rfl, horder⟩

theorem SagaView.find_of_reserveStatus_none {db : Db} {t : ℕ}
    (hreserve : (db.view t).reserveStatus = none) :
    db.stock.reserves.find t = none :=
  Option.map_eq_none_iff.mp hreserve

/-- Without faults `createOrder` makes the order, or it refuses its
arguments and leaves the table as it is. -/
theorem createOrder_none {db : OrderDb OrderStatus} {t : ℕ}
    {itemId itemCount : JLong} (hfresh : db.orderStatus t = none) :
    (callService (OrderService.createOrder (some (t : ℤ)) itemId itemCount
        (some 100)) (some false) .none db = (db, some (some false))) ∨
    ∃ (i n : ℕ) (next : OrderDb OrderStatus),
      itemId = some (i : ℤ) ∧ itemCount = some (n : ℤ) ∧
      callService (OrderService.createOrder (some (t : ℤ)) itemId itemCount
        (some 100)) (some false) .none db = (next, some (some true)) ∧
      next.orderStatus t = some .normal := by
  cases hbody : OrderService.createOrder (some (t : ℤ)) itemId itemCount
      (some 100) db with
  | error message =>
      left
      simp [callService, hbody]
  | ok result =>
      rcases result with ⟨exit, next⟩
      rcases openOrder_eq_ok hbody with
        ⟨_, _, u, row, hu, hfind⟩ | ⟨u, i, n, p, hu, hi, hn, _, hexit, _,
          hrows⟩
      · have htu : t = u := by simpa using hu
        subst htu
        simp [UniqueTable.orderStatus, hfind] at hfresh
      · right
        have htu : t = u := by simpa using hu
        subst htu hexit
        refine ⟨i, n, next, hi, hn, callService_none_eq _ hbody, ?_⟩
        have hmove := UniqueTable.map_find_insert hrows
          OrderRow.orderStatus rfl
        exact (congrFun hmove t).trans (Function.update_self _ _ _)

/-- What a saga looks like after one statement without a fault. -/
abbrev Task.TracksAfter (task : Task) (items : ℕ → Option ItemRow) (db : Db)
    (t : ℕ) : Prop :=
  Phase (progress items) ((task.step .none db).db.view t)
    (task.step .none db).tokens

section Tracking

variable {items : ℕ → Option ItemRow} {db : Db} {t : ℕ} {e : Event}

theorem Task.tracks_updateSagaLogSucceed
    (htracks : (updateSagaLogSucceed e).Tracks items (db.view t)) :
    (updateSagaLogSucceed e).TracksAfter items db t := by
  rcases htracks with ⟨hname, he⟩
  rcases e with ⟨sagaId, name, itemId, itemCount, succeed⟩
  obtain ⟨b, hb⟩ := callService_none_returns
    (SagaLogService.updateSagaLogEventStatus sagaId name .succeed) false
    db.logs
  cases name with
  | init => exact absurd rfl hname
  | createOrder =>
      rcases he with ⟨hordered, hlogs, hpayable⟩
      refine phase_goes_on hb rfl ⟨⟨hordered.saga, hordered.order,
        hordered.reserve⟩, ?_, hpayable⟩
      exact hlogs.update (by decide) sagaId .createOrder .none
  | deductStock =>
      have hreserved : (db.view t).Reserved := he
      exact phase_goes_on hb rfl (show SagaView.Reserved _ from
        ⟨hreserved.saga, hreserved.order, hreserved.reserve⟩)

theorem Task.tracks_insertSagaLog {event : EventName}
    (htask : e.sagaId = some (t : ℤ))
    (htracks : (insertSagaLog e event).Tracks items (db.view t)) :
    (insertSagaLog e event).TracksAfter items db t := by
  obtain ⟨b, hb⟩ := callService_none_returns
    (SagaLogService.insertSagaLog e.sagaId event) none db.logs
  cases event with
  | init => exact htracks.elim
  | createOrder =>
      rcases htracks with ⟨hfresh, hlogs⟩
      have hinsert := hlogs.insert htask .createOrder .none
      refine phase_goes_on hb rfl ⟨⟨hfresh.saga, hfresh.order,
        hfresh.reserve⟩, ?_⟩
      rcases hinsert with ⟨hfault, _⟩ | hopen
      · exact absurd rfl hfault
      · exact hopen
  | deductStock =>
      rcases htracks with ⟨hordered, hlogs, hpayable⟩
      have hinsert := hlogs.insert htask .deductStock .none
      refine phase_goes_on hb rfl ⟨⟨hordered.saga, hordered.order,
        hordered.reserve⟩, ?_, hpayable⟩
      rcases hinsert with ⟨hfault, _⟩ | hopen
      · exact absurd rfl hfault
      · exact hopen

theorem Task.tracks_createOrder
    (htask : e.sagaId = some (t : ℤ))
    (htracks : (createOrder e).Tracks items (db.view t))
    (horderable : Orderable items e.itemId e.itemCount) :
    (createOrder e).TracksAfter items db t := by
  rcases htracks with ⟨hfresh, hlogs⟩
  rcases e with ⟨sagaId, name, itemId, itemCount, succeed⟩
  have hsagaId : sagaId = some (t : ℤ) := htask
  subst hsagaId
  rcases @createOrder_none db.orders t itemId itemCount hfresh.order
    with hrefused | ⟨i, n, next, hi, hn, hmade, hnormal⟩
  · simp only [TracksAfter, step, hrefused]
    exact phase_goes_on rfl rfl ⟨⟨hfresh.saga, hfresh.order,
      hfresh.reserve⟩, hlogs⟩
  · simp only [TracksAfter, step, hmade]
    exact phase_goes_on rfl rfl ⟨⟨hfresh.saga, hnormal,
      hfresh.reserve⟩, hlogs, i, n, hi, hn, horderable.readable hi hn⟩

theorem Task.tracks_deductStock
    (htask : e.sagaId = some (t : ℤ))
    (htracks : (deductStock e).Tracks items (db.view t)) :
    (deductStock e).TracksAfter items db t := by
  have hone : ∀ next : Task, next.Tracks items (db.view t) →
      Phase (progress items) (db.view t) (Task.Outcome.tokens
        { db := db, put := none, next := some next }) :=
    fun next hnext => .running next hnext
  cases hbody : ItemStockService.deductStock e.sagaId e.itemId
      e.itemCount db.stock with
  | error message =>
      simp only [TracksAfter, step, beginDeductStock, hbody]
      exact hone _ htracks
  | ok result =>
      rcases result with ⟨exit, stock⟩
      simp only [TracksAfter, step, beginDeductStock, hbody]
      cases exit with
      | committed b => exact hone _ htracks
      | returned b =>
          have hfresh := SagaView.find_of_reserveStatus_none
            htracks.1.reserve
          rcases reserveStock_eq_ok hbody with
            ⟨_, _, row, hrow⟩ | ⟨_, _, _, _, _, _, _, _, hexit, _⟩
          · rw [htask,
              UniqueTable.select_natCast, hfresh] at hrow
            cases hrow
          · cases hexit

theorem Task.tracks_putEventInDeduct
    (htracks : (putEventInDeduct e).Tracks items (db.view t)) :
    (putEventInDeduct e).TracksAfter items db t := by
  have htokens : ((putEventInDeduct e).step .none db).tokens =
      {commitDeductStock e,
        (e.outcome .deductStock true).processEvent} := by
    exact Multiset.pair_comm _ _
  unfold TracksAfter
  rw [htokens]
  exact .committing e _ htracks.1 rfl

theorem Task.tracks_updateSagaStatus {status : SagaStatus}
    (htask : e.sagaId = some (t : ℤ))
    (htracks : (updateSagaStatus e status).Tracks items (db.view t)) :
    (updateSagaStatus e status).TracksAfter items db t := by
  have hsaga : (db.view t).saga = some .init := htracks.saga
  have hmove := updateSagaStatus_none htask hsaga status
  have hends : ∀ next : Task, (none : Option Task) ≠ some next := by
    intro next hnext
    cases hnext
  refine phase_resume ?_ (fun _ => ?_) fun b next _ hnext =>
    absurd hnext (hends next)
  · intro hnone
    cases hmove.symm.trans hnone
  · cases status with
    | init => exact htracks.elim
    | finished =>
        have hreserved : (db.view t).Reserved := htracks
        exact .inl ⟨hmove, hreserved.order, hreserved.reserve⟩
    | canceled => exact .inr ⟨hmove, htracks.2, htracks.1.reserve⟩

theorem Task.tracks_cancelDeductStock {rest : List SagaLog}
    (htask : e.sagaId = some (t : ℤ))
    (htracks : (cancelDeductStock e rest).Tracks items (db.view t))
    (hitems : ∀ i, ReadableItem items i → ReadableItem db.stock.items i) :
    (cancelDeductStock e rest).TracksAfter items db t := by
  rcases htracks with ⟨hordered, ⟨i, n, hi, hn, hitem⟩, hrest⟩
  have hfresh := SagaView.find_of_reserveStatus_none hordered.reserve
  have hcall := releaseStock_call ReserveStatus.normal
    ReserveStatus.canceled e.sagaId e.itemId .none db.stock
  have htrue : (callService (ItemStockService.cancelDeductStock
      e.sagaId e.itemId) false .none db.stock).2 = some true := by
    rw [htask, hi]
    exact cancelDeductStock_none (hitems i hitem) hfresh
  have hdone := hcall.done_self htask ⟨true, htrue, rfl⟩
  refine phase_goes_on htrue rfl ⟨⟨hordered.saga, ?_⟩,
    .inl ⟨hordered.order, hrest⟩⟩
  intro hnormal
  cases hdone.symm.trans hnormal

theorem Task.tracks_cancelOrder {rest : List SagaLog}
    (htask : e.sagaId = some (t : ℤ))
    (htracks : (cancelOrder e rest).Tracks items (db.view t)) :
    (cancelOrder e rest).TracksAfter items db t := by
  rcases htracks with ⟨hundoing, hrest, horder⟩
  have hcall := cancelOpenOrder_call OrderStatus.normal
    OrderStatus.canceled e.sagaId .none db.orders
  have htrue : (callService (OrderService.cancelOrder e.sagaId) false
      .none db.orders).2 = some true := by
    rw [htask]
    exact cancelOrder_none horder
  have hdone := hcall.done_self htask ⟨true, htrue, rfl⟩
  refine phase_goes_on htrue rfl ⟨⟨hundoing.saga, hundoing.reserve⟩,
    .inr ⟨?_, hrest⟩⟩
  intro hnormal
  rcases hdone with hnone | hcanceled
  · cases hnone.symm.trans hnormal
  · cases hcanceled.symm.trans hnormal

theorem Task.tracks_updateSagaLogCanceled {event : EventName} {rest : List SagaLog}
    (htracks : (updateSagaLogCanceled e event rest).Tracks items (db.view t)) :
    (updateSagaLogCanceled e event rest).TracksAfter items db t := by
  rcases htracks with ⟨hundoing, hrest⟩
  obtain ⟨b, hb⟩ := callService_none_returns
    (SagaLogService.updateSagaLogEventStatus e.sagaId event .canceled) false
    db.logs
  refine phase_goes_on hb rfl ?_
  rcases hrest with ⟨horder, row, hrow, hevent, hopen⟩ | ⟨horder, hrow⟩
  · have hcancel : cancelFrom e rest = cancelOrder e [] := by
      rw [hrow]
      simp only [cancelFrom, if_neg hopen, hevent]
    rw [hcancel]
    exact ⟨⟨hundoing.saga, hundoing.reserve⟩, rfl, .inr horder⟩
  · rw [hrow]
    exact ⟨⟨hundoing.saga, hundoing.reserve⟩, horder⟩

end Tracking

/-- Without faults one statement of the main token carries its saga on, or
brings it to an end. -/
theorem Task.phase_tracks {items : ℕ → Option ItemRow} {db : Db} {t : ℕ}
    {task : Task} (htask : task.event.sagaId = some (t : ℤ))
    (htracks : task.Tracks items (db.view t))
    (hitems : ∀ i, ReadableItem items i → ReadableItem db.stock.items i)
    (horderable : Orderable items task.event.itemId
      task.event.itemCount) :
    Phase (progress items) ((task.step .none db).db.view t)
      (task.step .none db).tokens := by
  cases task with
  | updateSagaLogSucceed e => exact tracks_updateSagaLogSucceed htracks
  | insertSagaLog e event => exact tracks_insertSagaLog htask htracks
  | createOrder e => exact tracks_createOrder htask htracks horderable
  | deductStock e => exact tracks_deductStock htask htracks
  | putEvent e =>
      exact .running _ (Event.processEvent_tracks htracks)
  | putEventInDeduct e => exact tracks_putEventInDeduct htracks
  | commitDeductStock e => exact htracks.elim
  | updateSagaStatus e status => exact tracks_updateSagaStatus htask htracks
  | selectSagaLog e =>
      have hlogs : SagaLogDao.selectBySagaId e.sagaId db.logs =
          (db.view t).logs := by
        rw [show e.sagaId = some (t : ℤ) from htask]
        rfl
      simp only [step, hlogs]
      exact .running _ (cancelFrom_tracks htracks)
  | cancelDeductStock e rest =>
      exact tracks_cancelDeductStock htask htracks hitems
  | cancelOrder e rest => exact tracks_cancelOrder htask htracks
  | updateSagaLogCanceled e event rest =>
      exact tracks_updateSagaLogCanceled htracks

/-! ## Beside an open transaction -/

theorem Task.InFlight.tracks {items : ℕ → Option ItemRow} {v : SagaView}
    {task : Task} (htask : task.InFlight) (hv : v.Reserved) :
    task.Tracks items v := by
  cases task with
  | updateSagaLogSucceed e =>
      rcases e with ⟨sagaId, name, itemId, itemCount, succeed⟩
      have hname : name = .deductStock := htask
      subst hname
      exact ⟨by simp, hv⟩
  | updateSagaStatus e status =>
      have hstatus : status = .finished := htask
      subst hstatus
      exact hv
  | _ => exact htask.elim

/-- The event in flight finishes its saga before the stock is committed, or
it waits for its next statement. -/
theorem Task.phase_tracks_inFlight {items : ℕ → Option ItemRow} {db : Db}
    {t : ℕ} {e : Event} {task : Task}
    (htask : task.event.sagaId = some (t : ℤ))
    (hordered : (db.view t).Ordered) (hflight : task.InFlight) :
    Phase (progress items) ((task.step .none db).db.view t)
      ((task.step .none db).tokens + {commitDeductStock e}) := by
  cases task with
  | updateSagaLogSucceed e' =>
      rcases e' with ⟨sagaId, name, itemId, itemCount, succeed⟩
      have hname : name = .deductStock := hflight
      subst hname
      have hresult : ∃ b, (callService
          (SagaLogService.updateSagaLogEventStatus sagaId .deductStock
            .succeed) false .none db.logs).2 = some b := by
        unfold callService
        split <;> exact ⟨_, rfl⟩
      rcases hresult with ⟨b, hb⟩
      have htokens : ((updateSagaLogSucceed ⟨sagaId, .deductStock, itemId,
          itemCount, succeed⟩).step .none db).tokens =
            {updateSagaStatus ⟨sagaId, .deductStock, itemId, itemCount,
              succeed⟩ .finished} := by
        simp only [step, resume, Outcome.tokens, hb]
        rfl
      rw [htokens, add_comm]
      exact .committing e _
        ⟨hordered.saga, hordered.order, hordered.reserve⟩ rfl
  | updateSagaStatus e' status =>
      have hstatus : status = .finished := hflight
      subst hstatus
      have hmove := updateSagaStatus_none htask hordered.saga .finished
      have htokens : ((updateSagaStatus e' .finished).step .none
          db).tokens = 0 := by
        simp only [step, resume, Outcome.tokens, Option.bind_fun_none]
        rfl
      rw [htokens, zero_add]
      exact .alone e ⟨hmove, hordered.order, hordered.reserve⟩
  | _ => exact hflight.elim

/-! ## Stock transactions of the workers -/

/-- The stock tables change by a call for the saga and the item of the
event. -/
theorem Task.step_stock (fault : Fault) (db : Db) (task : Task) :
    (task.step fault db).db.stock = db.stock ∨
    ∃ call : StockCall,
      (call = .deductStock task.event.sagaId task.event.itemId
          task.event.itemCount ∨
        call = .cancelDeductStock task.event.sagaId task.event.itemId) ∧
      (task.step fault db).db.stock =
        (callService call.body false fault db.stock).1 := by
  cases task with
  | commitDeductStock e =>
      exact .inr ⟨.deductStock e.sagaId e.itemId e.itemCount, .inl rfl, rfl⟩
  | cancelDeductStock e rest =>
      exact .inr ⟨.cancelDeductStock e.sagaId e.itemId, .inr rfl, rfl⟩
  | _ => exact .inl rfl

/-- A stock transaction leaves every item readable. -/
theorem StockCall.readableItem {call : StockCall} {db next : ItemStockDb}
    {exit : Exit Bool} (hok : call.body db = .ok (exit, next)) {i : ℕ}
    (hitem : ReadableItem db.items i) : ReadableItem next.items i := by
  cases call with
  | deductStock sagaId itemId stock => exact reserveStock_readable hok hitem
  | cancelDeductStock sagaId itemId => exact releaseStock_readable hok hitem

/-- Every row after a stock transaction was there before, or it is the one
that the call asks for. -/
theorem StockCall.row_origin {call : StockCall} {db next : ItemStockDb}
    {exit : Exit Bool} (hok : call.body db = .ok (exit, next))
    {row : ReserveRow ReserveStatus} (hrow : row ∈ next.reserves.rows) :
    (∃ old ∈ db.reserves.rows, old.txId = row.txId ∧
      old.itemId = row.itemId ∧ (row.reserveStatus = .normal →
        old.reserveStatus = .normal ∧
          old.reserveStock = row.reserveStock)) ∨
    call = .deductStock (some (row.txId : ℤ)) (some (row.itemId : ℤ))
      (some (row.reserveStock : ℤ)) ∨
    (call = .cancelDeductStock (some (row.txId : ℤ))
      (some (row.itemId : ℤ)) ∧ row.reserveStatus = .canceled) := by
  cases call with
  | deductStock sagaId itemId stock =>
      rcases reserveStock_eq_ok hok with
        ⟨_, hsame, _⟩ | ⟨t, i, n, item, reserves, ht, hi, hn, _, _, _, _,
          hinsert, hnext⟩
      · rw [hsame] at hrow
        exact .inl ⟨row, hrow, rfl, rfl, fun hnormal => ⟨hnormal, rfl⟩⟩
      · rw [hnext] at hrow
        rcases UniqueTable.mem_insert hinsert hrow with hold | hnew
        · exact .inl ⟨row, hold, rfl, rfl, fun hnormal => ⟨hnormal, rfl⟩⟩
        · rw [hnew, ht, hi, hn]
          exact .inr (.inl rfl)
  | cancelDeductStock sagaId itemId =>
      rcases releaseStock_eq_ok hok with
        ⟨_, hsame, _⟩ | ⟨_, _, _, found, _, _, _, _, _, _, _, _, _,
          hnext⟩ | ⟨t, i, reserves, ht, hi, _, _, hinsert, hnext⟩
      · rw [hsame] at hrow
        exact .inl ⟨row, hrow, rfl, rfl, fun hnormal => ⟨hnormal, rfl⟩⟩
      · rw [hnext] at hrow
        rcases List.mem_map.mp hrow with ⟨old, hold, hsame⟩
        left
        refine ⟨old, hold, ?_⟩
        by_cases hkey : KeyedRow.primaryKey old = found.irsId
        · rw [if_pos hkey] at hsame
          rw [← hsame]
          refine ⟨rfl, rfl, ?_⟩
          intro hnormal
          cases hnormal
        · rw [if_neg hkey] at hsame
          rw [← hsame]
          exact ⟨rfl, rfl, fun hnormal => ⟨hnormal, rfl⟩⟩
      · rw [hnext] at hrow
        rcases UniqueTable.mem_insert hinsert hrow with hold | hnew
        · exact .inl ⟨row, hold, rfl, rfl, fun hnormal => ⟨hnormal, rfl⟩⟩
        · rw [hnew, ht, hi]
          exact .inr (.inr ⟨rfl, rfl⟩)

/-- No statement of a worker adds or removes a saga. -/
theorem Task.step_saga_none (fault : Fault) (db : Db) (task : Task)
    (t : ℕ) :
    (task.step fault db).db.sagas.status t = none ↔
      db.sagas.status t = none := by
  cases task with
  | updateSagaStatus e status =>
      refine callService_preserves (fun next : StatusDb SagaStatus =>
        next.status t = none ↔ db.sagas.status t = none)
        (fun n next hbody => ?_) 0 fault Iff.rfl
      rcases updateStatus_eq_ok hbody with ⟨u, old, _, _, hold, _, hnext⟩
      rw [hnext]
      by_cases htu : t = u
      · subst htu
        simp [hold]
      · rw [Function.update_of_ne htu]
  | _ => exact Iff.rfl

/-! ## The placed orders of a run -/

/-- The reservation was made, or refused, for the request. -/
structure Request.Books (r : Request) (row : ReserveRow ReserveStatus) :
    Prop where
  sagaId : r.sagaId = some (row.txId : ℤ)
  itemId : r.itemId = some (row.itemId : ℤ)
  itemCount : row.reserveStatus = .normal →
    r.itemCount = some (row.reserveStock : ℤ)

/-- Sagas, requests and reservations of a run belong together, and the
reserved stock is what is missing. -/
structure Ledger (start world : World) : Prop where
  keys : ∀ r ∈ world.requests, ∃ t : ℕ, r.sagaId = some (t : ℤ) ∧
    world.db.sagas.status t ≠ none
  served : ∀ t, world.db.sagas.status t ≠ none →
    ∃ r ∈ world.requests, r.sagaId = some (t : ℤ)
  unique : (world.requests.map Request.sagaId).Nodup
  orderable : ∀ r ∈ world.requests,
    Orderable start.db.stock.items r.itemId r.itemCount
  placed : ∀ task ∈ world.tokens, task.event.request ∈ world.requests
  rows : ∀ row ∈ world.db.stock.reserves.rows,
    ∃ r ∈ world.requests, r.Books row
  readable : ∀ i, ReadableItem start.db.stock.items i →
    ReadableItem world.db.stock.items i
  balance : ∀ i, world.db.stock.stock i + world.db.stock.liveStock live i =
    start.db.stock.stock i
  fits : ∀ i, world.db.stock.stock i = start.db.stock.stock i ∨
    start.db.stock.stock i < 2 ^ 63

/-- Requests of different sagas give every saga its item. -/
theorem exists_itemOf {requests : Multiset Request}
    (hunique : (requests.map Request.sagaId).Nodup) :
    ∃ itemOf : JLong → JLong,
      ∀ r ∈ requests, itemOf r.sagaId = r.itemId := by
  induction requests using Multiset.induction_on with
  | empty => exact ⟨id, fun r hr => absurd hr (Multiset.notMem_zero r)⟩
  | cons r requests ih =>
      rw [Multiset.map_cons, Multiset.nodup_cons] at hunique
      rcases ih hunique.2 with ⟨itemOf, hitemOf⟩
      refine ⟨Function.update itemOf r.sagaId r.itemId, fun other hother =>
        ?_⟩
      rcases Multiset.mem_cons.mp hother with hsame | hmem
      · rw [hsame, Function.update_self]
      · have hne : other.sagaId ≠ r.sagaId := by
          intro hsame
          exact hunique.1 (hsame ▸ Multiset.mem_map_of_mem _ hmem)
        rw [Function.update_of_ne hne]
        exact hitemOf other hmem

theorem ledger_of_initial {start : World} (hinit : start.Initial) :
    Ledger start start := by
  rcases hinit with ⟨hqueue, hworkers, hcallers, hreserves, hsagas, hlogs,
    horders⟩
  have hrequests : start.requests = 0 := by
    simp [World.requests, hcallers]
  have htokens : start.tokens = 0 := by
    simp [World.tokens, hqueue, hworkers, hcallers]
  refine ⟨?_, ?_, ?_, ?_, ?_, ?_, fun i hitem => hitem, fun i => ?_,
    fun i => .inl rfl⟩
  · simp [hrequests]
  · simp [hsagas, UniqueTable.status]
  · simp [hrequests]
  · simp [hrequests]
  · simp [htokens]
  · simp [hreserves]
  · simp [StockDb.liveStock, hreserves]

theorem Ledger.congr {start world next : World}
    (hledger : Ledger start world) (hdb : next.db = world.db)
    (hrequests : next.requests = world.requests)
    (htokens : next.tokens = world.tokens) : Ledger start next where
  keys := by
    rw [hrequests, hdb]
    exact hledger.keys
  served := by
    rw [hrequests, hdb]
    exact hledger.served
  unique := by
    rw [hrequests]
    exact hledger.unique
  orderable := by
    rw [hrequests]
    exact hledger.orderable
  placed := by
    rw [hrequests, htokens]
    exact hledger.placed
  rows := by
    rw [hrequests, hdb]
    exact hledger.rows
  readable := by
    rw [hdb]
    exact hledger.readable
  balance := by
    rw [hdb]
    exact hledger.balance
  fits := by
    rw [hdb]
    exact hledger.fits

/-- A call for a request books its rows for it, and keeps what is booked. -/
theorem StockCall.body_books {requests : Multiset Request} {mine : Request}
    {call : StockCall} {db next : ItemStockDb} {b : Bool}
    (hmine : mine ∈ requests)
    (hcall : call = .deductStock mine.sagaId mine.itemId mine.itemCount ∨
      call = .cancelDeductStock mine.sagaId mine.itemId)
    (hbody : call.body db = .ok (.committed b, next))
    (hrows : ∀ row ∈ db.reserves.rows, ∃ r ∈ requests, r.Books row) :
    ∀ row ∈ next.reserves.rows, ∃ r ∈ requests, r.Books row := by
  intro row hrow
  rcases StockCall.row_origin hbody hrow with
    ⟨old, hold, htx, hitem, hnormal⟩ | hdeduct | ⟨hcancel, hcanceled⟩
  · rcases hrows old hold with ⟨r, hr, hbooks⟩
    refine ⟨r, hr, htx ▸ hbooks.sagaId, hitem ▸ hbooks.itemId,
      fun hrowNormal => ?_⟩
    have hkeep := hnormal hrowNormal
    exact hkeep.2 ▸ hbooks.itemCount hkeep.1
  · have hargs := hdeduct.symm.trans (hcall.resolve_right (by
      rw [hdeduct]
      intro hcancel
      cases hcancel))
    rw [StockCall.deductStock.injEq] at hargs
    exact ⟨mine, hmine, hargs.1.symm, hargs.2.1.symm,
      fun _ => hargs.2.2.symm⟩
  · have hargs := hcancel.symm.trans (hcall.resolve_left (by
      rw [hcancel]
      intro hdeduct
      cases hdeduct))
    rw [StockCall.cancelDeductStock.injEq] at hargs
    refine ⟨mine, hmine, hargs.1.symm, hargs.2.symm, fun hrowNormal => ?_⟩
    rw [hcanceled] at hrowNormal
    cases hrowNormal

theorem Ledger.balanced {start world : World}
    (hledger : Ledger start world) {itemOf : JLong → JLong}
    (hitemOf : ∀ r ∈ world.requests, itemOf r.sagaId = r.itemId) :
    StockDb.Balanced live itemOf start.db.stock world.db.stock where
  balance := hledger.balance
  itemId row hrow := by
    rcases hledger.rows row hrow with ⟨r, hr, hbooks⟩
    rw [← hbooks.sagaId, hitemOf r hr, hbooks.itemId]
  fits := hledger.fits

/-- What a statement of a worker does to the item database. -/
theorem Ledger.work_stock {start world : World} {task : Task}
    (hledger : Ledger start world) (fault : Fault)
    (hmine : task.event.request ∈ world.requests) {itemOf : JLong → JLong}
    (hitemOf : ∀ r ∈ world.requests, itemOf r.sagaId = r.itemId) :
    StockDb.Balanced live itemOf start.db.stock
        (task.step fault world.db).db.stock ∧
      (∀ i, ReadableItem world.db.stock.items i →
        ReadableItem (task.step fault world.db).db.stock.items i) ∧
      ∀ row ∈ (task.step fault world.db).db.stock.reserves.rows,
        ∃ r ∈ world.requests, r.Books row := by
  have hbalanced := hledger.balanced hitemOf
  rcases Task.step_stock fault world.db task with
    hsame | ⟨call, hcall, hnext⟩
  · rw [hsame]
    exact ⟨hbalanced, fun i hitem => hitem, hledger.rows⟩
  have hnames : call.Names itemOf := by
    have hitem := hitemOf _ hmine
    rcases hcall with hdeduct | hcancel
    · subst hdeduct
      exact hitem
    · subst hcancel
      exact hitem
  rw [hnext]
  refine callService_preserves (fun stock : ItemStockDb =>
    StockDb.Balanced live itemOf start.db.stock stock ∧
      (∀ i, ReadableItem world.db.stock.items i →
        ReadableItem stock.items i) ∧
      ∀ row ∈ stock.reserves.rows, ∃ r ∈ world.requests, r.Books row)
    (fun b stock hbody => ?_) false fault
    ⟨hbalanced, fun i hitem => hitem, hledger.rows⟩
  exact ⟨StockCall.body_balanced hnames hbalanced hbody,
    fun i hitem => StockCall.readableItem hbody hitem,
    StockCall.body_books hmine hcall hbody hledger.rows⟩

/-- A statement of a worker leaves the requests, and moves stock for the
request of its event. -/
theorem Ledger.work {start world next : World} {fault : Fault} {task : Task}
    {rest : Multiset Task} (hledger : Ledger start world)
    (hold : world.tokens = task ::ₘ rest)
    (hdb : next.db = (task.step fault world.db).db)
    (hrequests : next.requests = world.requests)
    (htokens : next.tokens = (task.step fault world.db).tokens + rest) :
    Ledger start next := by
  have hmine : task.event.request ∈ world.requests :=
    hledger.placed task (by rw [hold]; exact Multiset.mem_cons_self _ _)
  have hnone : ∀ t, next.db.sagas.status t = none ↔
      world.db.sagas.status t = none := by
    intro t
    rw [hdb]
    exact Task.step_saga_none fault world.db task t
  have hplaced : ∀ other ∈ next.tokens,
      other.event.request ∈ world.requests := by
    intro other hother
    rw [htokens] at hother
    rcases Multiset.mem_add.mp hother with hnew | hrest
    · rw [Task.step_request fault world.db task other hnew]
      exact hmine
    · exact hledger.placed other (by
        rw [hold]
        exact Multiset.mem_cons_of_mem hrest)
  rcases exists_itemOf hledger.unique with ⟨itemOf, hitemOf⟩
  have hstock := hledger.work_stock fault hmine hitemOf
  rw [← hdb] at hstock
  refine ⟨fun r hr => ?_, fun t ht => ?_, ?_, ?_, ?_, ?_, fun i hitem => ?_,
    hstock.1.balance, hstock.1.fits⟩
  · rw [hrequests] at hr
    rcases hledger.keys r hr with ⟨t, ht, hsaga⟩
    exact ⟨t, ht, fun hgone => hsaga ((hnone t).mp hgone)⟩
  · rw [hrequests]
    exact hledger.served t fun hgone => ht ((hnone t).mpr hgone)
  · rw [hrequests]
    exact hledger.unique
  · rw [hrequests]
    exact hledger.orderable
  · rw [hrequests]
    exact hplaced
  · rw [hrequests]
    exact hstock.2.2
  · exact hstock.2.1 i (hledger.readable i hitem)

/-- The caller of a new saga learns its key, and its request is served. -/
theorem Ledger.insertSaga {start world next : World}
    {itemId itemCount : JLong} (hledger : Ledger start world)
    (hargs : Orderable start.db.stock.items itemId itemCount)
    (hdb : next.db = { world.db with
      sagas := (callService SagaService.insertSaga none .none
        world.db.sagas).1 })
    (hrequests : next.requests =
      Multiset.ofList ((callService SagaService.insertSaga none .none
        world.db.sagas).2.map fun sagaId => Request.mk sagaId itemId
          itemCount).toList + world.requests)
    (htokens : next.tokens =
      Multiset.ofList ((callService SagaService.insertSaga none .none
        world.db.sagas).2.map fun sagaId => Event.processEvent
          ⟨sagaId, .init, itemId, itemCount, true⟩).toList +
        world.tokens) :
    Ledger start next := by
  have hcall : ∃ u : ℕ, _ ∧ (callService SagaService.insertSaga none .none
      world.db.sagas).2 = _ ∧ (callService SagaService.insertSaga none
      .none world.db.sagas).1.status = _ :=
    insertStatus_none SagaStatus.init world.db.sagas
  rcases hcall with ⟨u, hfresh, hkey, hmove⟩
  rw [hkey] at hrequests htokens
  have hrequests : next.requests =
      ⟨some (u : ℤ), itemId, itemCount⟩ ::ₘ world.requests := hrequests
  have hsagas : next.db.sagas.status =
      Function.update world.db.sagas.status u (some .init) := by
    rw [hdb]
    exact hmove
  have hstock : next.db.stock = world.db.stock := by
    rw [hdb]
  have hmem : ∀ r ∈ world.requests, r ∈ next.requests := by
    intro r hr
    rw [hrequests]
    exact Multiset.mem_cons_of_mem hr
  have hnew : (⟨some (u : ℤ), itemId, itemCount⟩ : Request) ∈
      next.requests := by
    rw [hrequests]
    exact Multiset.mem_cons_self _ _
  have hother : ∀ r ∈ world.requests, r.sagaId ≠ some (u : ℤ) := by
    intro r hr hsame
    rcases hledger.keys r hr with ⟨t, ht, hsaga⟩
    have htu : t = u := by simpa [ht] using hsame
    exact hsaga (htu ▸ hfresh)
  refine ⟨fun r hr => ?_, fun t ht => ?_, ?_, fun r hr => ?_,
    fun task htask => ?_, fun row hrow => ?_, ?_, ?_, ?_⟩
  · rw [hrequests] at hr
    rcases Multiset.mem_cons.mp hr with hsame | hold
    · exact ⟨u, by rw [hsame], by simp [hsagas]⟩
    · rcases hledger.keys r hold with ⟨t, ht, hsaga⟩
      refine ⟨t, ht, ?_⟩
      rw [hsagas]
      by_cases htu : t = u
      · simp [htu]
      · rwa [Function.update_of_ne htu]
  · by_cases htu : t = u
    · exact ⟨_, hnew, by rw [htu]⟩
    · rw [hsagas, Function.update_of_ne htu] at ht
      rcases hledger.served t ht with ⟨r, hr, hsaga⟩
      exact ⟨r, hmem r hr, hsaga⟩
  · rw [hrequests, Multiset.map_cons, Multiset.nodup_cons]
    refine ⟨fun hin => ?_, hledger.unique⟩
    rcases Multiset.mem_map.mp hin with ⟨r, hr, hsame⟩
    exact hother r hr hsame
  · rw [hrequests] at hr
    rcases Multiset.mem_cons.mp hr with hsame | hold
    · rw [hsame]
      exact hargs
    · exact hledger.orderable r hold
  · rw [htokens] at htask
    rcases Multiset.mem_add.mp htask with hin | hold
    · have hsame : task = Event.processEvent
          ⟨some (u : ℤ), .init, itemId, itemCount, true⟩ := by
        simpa using hin
      rw [hsame, Event.processEvent_event]
      exact hnew
    · exact hmem _ (hledger.placed task hold)
  · rw [hstock] at hrow
    rcases hledger.rows row hrow with ⟨r, hr, hbooks⟩
    exact ⟨r, hmem r hr, hbooks⟩
  · rw [hstock]
    exact hledger.readable
  · rw [hstock]
    exact hledger.balance
  · rw [hstock]
    exact hledger.fits

/-! ## Every state of a run without faults -/

/-- Every SQL statement and every commit that is valid succeeds. -/
def Action.Faultless : Action → Prop
  | call _ fault | work _ fault => fault = .none
  | placeOrder _ _ | startEventLoop => True

instance : DecidablePred Action.Faultless
  | .call _ fault | .work _ fault =>
      inferInstanceAs (Decidable (fault = .none))
  | .placeOrder _ _ | .startEventLoop => inferInstanceAs (Decidable True)

/-- An order that can be made is one of an item that can be read. -/
def Action.NamesItem (items : ℕ → Option ItemRow) : Action → Prop
  | placeOrder itemId itemCount => Orderable items itemId itemCount
  | _ => True

instance (items : ℕ → Option ItemRow) :
    DecidablePred (Action.NamesItem items)
  | .placeOrder itemId itemCount =>
      inferInstanceAs (Decidable (Orderable items itemId itemCount))
  | .call _ _ | .work _ _ | .startEventLoop =>
      inferInstanceAs (Decidable True)

/-- Calls that have not begun are those that were placed. -/
theorem World.insertSaga_mem_step {action : Action} {world next : World}
    (hstep : world.step action = some next) {itemId itemCount : JLong}
    (hcaller : Caller.insertSaga itemId itemCount ∈ next.callers) :
    Caller.insertSaga itemId itemCount ∈ world.callers ∨
      action = .placeOrder itemId itemCount := by
  have hset : ∀ (k : ℕ) (new : Caller),
      new ≠ .insertSaga itemId itemCount →
      Caller.insertSaga itemId itemCount ∈ world.callers.set k new →
      Caller.insertSaga itemId itemCount ∈ world.callers := by
    intro k new hnew hmem
    rcases List.mem_or_eq_of_mem_set hmem with hold | hsame
    · exact hold
    · exact absurd hsame.symm hnew
  cases World.step_cases hstep with
  | placeOrder itemId' itemCount' =>
      rcases List.mem_append.mp hcaller with hold | hnew
      · exact .inl hold
      · right
        have hsame := List.mem_singleton.mp hnew
        cases hsame
        rfl
  | startEventLoop | takeEvent | work => exact .inl hcaller
  | insertSaga =>
      left
      apply hset _ _ _ hcaller
      unfold Caller.afterInsertSaga
      split
      · simp
      · simp
  | startLoop | putEvent =>
      left
      apply hset _ _ _ hcaller
      simp

structure QuietInv (start world : World) : Prop where
  locks : LockInv world
  callers : ∀ itemId itemCount : JLong,
    Caller.insertSaga itemId itemCount ∈ world.callers →
    Orderable start.db.stock.items itemId itemCount
  ledger : Ledger start world
  phase : ∀ t, Phase (progress start.db.stock.items) (world.db.view t)
    (world.tokensOf t)

theorem ledger_step {start world next : World} {action : Action}
    (hinv : QuietInv start world) (hfaultless : action.Faultless)
    (hstep : world.step action = some next) : Ledger start next := by
  cases World.step_moves hstep with
  | silent hdb hrequests htokens =>
      exact hinv.ledger.congr hdb hrequests htokens
  | @insertSaga k fault itemId itemCount hcaller hdb hrequests htokens =>
      have hfault : fault = .none := hfaultless
      subst hfault
      exact hinv.ledger.insertSaga (hinv.callers itemId itemCount
        (List.mem_of_getElem? hcaller)) hdb hrequests htokens
  | work hworker hwaits hold hdb hrequests htokens =>
      exact hinv.ledger.work hold hdb hrequests htokens

theorem phase_work_quiet {start world : World} {k : ℕ} {task : Task}
    {others : Multiset Task} {t : ℕ} (hinv : QuietInv start world)
    (hworker : world.workers[k]? = some (some task)) (htask : task.Of t)
    (htokens : world.tokensOf t = task ::ₘ others) :
    Phase (progress start.db.stock.items)
      ((task.step .none world.db).db.view t)
      ((task.step .none world.db).tokens + others) := by
  have hphase := hinv.phase t
  rw [htokens] at hphase
  rcases hphase.cons_cases with
    ⟨hothers, htracks⟩ | ⟨e, htaskEq, hothers, hv⟩ |
      ⟨e, main, htaskEq, hothers, hv, hflight⟩ | ⟨e, hothers, hv, hflight⟩
  · subst hothers
    rw [add_zero]
    have htoken : task ∈ world.tokens := by
      have hmem : task ∈ world.tokensOf t := by
        rw [htokens]
        exact Multiset.mem_cons_self _ _
      exact Multiset.mem_of_mem_filter hmem
    have horderable := hinv.ledger.orderable _
      (hinv.ledger.placed task htoken)
    exact Task.phase_tracks htask htracks hinv.ledger.readable horderable
  · subst htaskEq hothers
    have hreservable : e.Reservable world.db.stock :=
      hinv.locks.reservable k _ hworker rfl
    have hcommit := commitDeductStock_view
      (show e.sagaId = some (t : ℤ) from htask) hreservable (.inl rfl)
    have hdone := hcommit.2.1.trans hv.1
    rw [hcommit.1, add_zero]
    refine .idle (by simp [hdone]) (.inl ⟨hdone, ?_, hcommit.2.2.2⟩)
    exact hcommit.2.2.1.trans hv.2.1
  · subst htaskEq hothers
    have hreservable : e.Reservable world.db.stock :=
      hinv.locks.reservable k _ hworker rfl
    have hcommit := commitDeductStock_view
      (show e.sagaId = some (t : ℤ) from htask) hreservable (.inl rfl)
    rw [hcommit.1, zero_add]
    exact .running main (hflight.tracks
      ⟨hcommit.2.1.trans hv.saga, hcommit.2.2.1.trans hv.order,
        hcommit.2.2.2⟩)
  · subst hothers
    exact Task.phase_tracks_inFlight htask hv hflight

theorem quietInv_of_run {start world : World} (hstart : start.Initial)
    (hrun : shop.Run (fun action _ => action.Faultless ∧
      action.NamesItem start.db.stock.items) start world) :
    QuietInv start world := by
  have hinit : QuietInv start start := by
    refine ⟨lockInv_of_initial hstart, fun itemId itemCount hcaller => ?_,
      ledger_of_initial hstart, phase_of_initial hstart⟩
    rw [hstart.2.2.1] at hcaller
    cases hcaller
  refine hrun.invariant (QuietInv start)
    (fun action world next hguard hstep hinv => ?_) hinit
  refine ⟨lockInv_step hstep hinv.locks, fun itemId itemCount hcaller => ?_,
    ledger_step hinv hguard.1 hstep, phase_step hstep hinv.phase ?_ ?_ ?_⟩
  · rcases World.insertSaga_mem_step hstep hcaller with hold | hplaced
    · exact hinv.callers itemId itemCount hold
    · subst hplaced
      exact hguard.2
  · intro e hname hsucceed
    rcases e with ⟨sagaId, name, itemId, itemCount, succeed⟩
    subst hname hsucceed
    exact ⟨⟨rfl, rfl, rfl⟩, rfl, by simp [SagaView.new]⟩
  · intro k fault haction hfault
    subst haction
    exact absurd hguard.1 hfault
  · intro k fault task others t haction hworker htask htokens
    subst haction
    have hfault : fault = .none := hguard.1
    subst hfault
    exact phase_work_quiet hinv hworker htask htokens

/-! ## Quiescence -/

/-- The queue is empty, and neither a worker nor a `placeOrder` call that
has its saga is at work. -/
def World.Quiescent (world : World) : Prop :=
  world.queue = [] ∧ (∀ worker ∈ world.workers, worker = none) ∧
    ∀ caller ∈ world.callers, caller.pending = none

theorem World.Quiescent.tokensOf {world : World}
    (hquiet : world.Quiescent) (t : ℕ) : world.tokensOf t = 0 := by
  rcases hquiet with ⟨hqueue, hworkers, hcallers⟩
  have hpending : world.callers.filterMap Caller.pending = [] :=
    List.filterMap_eq_nil_iff.mpr hcallers
  have hidle : world.workers.filterMap id = [] :=
    List.filterMap_eq_nil_iff.mpr hworkers
  rw [World.tokensOf, World.tokens, hpending, hqueue, hidle]
  rfl

theorem Phase.idle_of_zero {K : Knowledge} {v : SagaView}
    (hphase : Phase K v 0) (hsaga : v.saga ≠ none) : K.Idle v := by
  generalize htokens : (0 : Multiset Task) = tokens at hphase
  cases hphase with
  | absent hv =>
      rw [hv] at hsaga
      exact absurd rfl hsaga
  | idle _ hv => exact hv
  | running task => exact absurd htokens.symm (Multiset.singleton_ne_zero _)
  | committing e task => exact absurd htokens Multiset.zero_ne_cons
  | alone e => exact absurd htokens.symm (Multiset.singleton_ne_zero _)

/-- The saga has come to an end: what its one request `r` asked for is
ordered and reserved, or nothing is. -/
def World.Ended (world : World) (t : ℕ) (r : Request) : Prop :=
  (world.db.sagas.status t = some .finished ∧
    world.db.orders.orderStatus t = some .normal ∧
    ∃ row, world.db.stock.reserves.find t = some row ∧
      row.reserveStatus = .normal ∧ r.itemId = some (row.itemId : ℤ) ∧
      r.itemCount = some (row.reserveStock : ℤ)) ∨
  (world.db.sagas.status t = some .canceled ∧
    world.db.orders.orderStatus t ≠ some .normal ∧
    world.db.stock.reserves.reserveStatus t ≠ some .normal)

/-- In a run without faults in which every order that can be made names an
item that can be read, a quiescent shop has ended every saga, and each item
misses just the stock of the sagas that are FINISHED. -/
theorem saga_quiescence {start world : World} (hstart : start.Initial)
    (hrun : shop.Run (fun action _ => action.Faultless ∧
      action.NamesItem start.db.stock.items) start world)
    (hquiet : world.Quiescent) :
    (∀ t, world.db.sagas.status t ≠ none →
      ∃ r ∈ world.requests, r.sagaId = some (t : ℤ) ∧
        (∀ other ∈ world.requests, other.sagaId = some (t : ℤ) →
          other = r) ∧
        world.Ended t r) ∧
    ∀ i, world.db.stock.stock i + world.db.stock.liveStock live i =
      start.db.stock.stock i := by
  have hinv := quietInv_of_run hstart hrun
  refine ⟨fun t hsaga => ?_, hinv.ledger.balance⟩
  have hphase := hinv.phase t
  rw [hquiet.tokensOf t] at hphase
  have hdone : (world.db.view t).Done := hphase.idle_of_zero hsaga
  rcases hinv.ledger.served t hsaga with ⟨r, hr, hown⟩
  have hunique : ∀ other ∈ world.requests,
      other.sagaId = some (t : ℤ) → other = r := fun other hother hsame =>
    Multiset.inj_on_of_nodup_map hinv.ledger.unique other hother r hr
      (hsame.trans hown.symm)
  refine ⟨r, hr, hown, hunique, ?_⟩
  rcases hdone with ⟨hfinished, horder, hreserve⟩ | hcanceled
  · rcases Option.map_eq_some_iff.mp hreserve with ⟨row, hfind, hnormal⟩
    have hmem := UniqueTable.find_eq_some_iff.mp hfind
    have hkey : row.txId = t := hmem.2
    rcases hinv.ledger.rows row hmem.1 with ⟨booked, hbooked, hbooks⟩
    have hsame : booked = r :=
      hunique booked hbooked (hkey ▸ hbooks.sagaId)
    subst hsame
    exact .inl ⟨hfinished, horder, row, hfind, hnormal, hbooks.itemId,
      hbooks.itemCount hnormal⟩
  · exact .inr hcanceled

theorem saga_quiescence_presentOrder :
    ∃ world, shop.exec (fun action _ => action.Faultless ∧
        action.NamesItem presentShop.db.stock.items)
        (presentOrder ++ List.replicate 4 (.work 0 .none)) presentShop =
          some world ∧
      ∃ r ∈ world.requests, world.Ended 1 r := by
  have hexec : ∃ world, shop.exec (fun action _ => action.Faultless ∧
        action.NamesItem presentShop.db.stock.items)
        (presentOrder ++ List.replicate 4 (.work 0 .none)) presentShop =
          some world ∧
      world.db.sagas.status 1 = some .finished ∧ world.queue = [] ∧
      world.workers = [none] ∧
      world.callers = [.returned (some 1) (some 1) (some 2)] :=
    ⟨_, rfl, rfl, rfl, rfl, rfl⟩
  rcases hexec with ⟨world, hworld, hfinished, hqueue, hworkers, hcallers⟩
  have hquiet : world.Quiescent := by
    refine ⟨hqueue, ?_, ?_⟩
    · simp [hworkers]
    · simp [hcallers, Caller.pending]
  have hended := (saga_quiescence
    (show presentShop.Initial from ⟨rfl, rfl, rfl, rfl, rfl, rfl, rfl⟩)
    (TransitionSystem.Run.of_exec (.refl _) hworld) hquiet).1 1
    (by simp [hfinished])
  rcases hended with ⟨r, hr, _, _, hends⟩
  exact ⟨world, hworld, r, hr, hends⟩

/-- An order of an item that is not in the table leaves its saga INIT beside
a NORMAL order, and nothing is left to be done. -/
theorem not_saga_quiescence :
    ¬ ∀ start world : World, start.Initial →
      shop.Run (fun action _ => action.Faultless) start world →
      world.Quiescent →
      ∀ t, world.db.sagas.status t ≠ none →
        (world.db.sagas.status t = some .finished ∧
          world.db.orders.orderStatus t = some .normal ∧
          world.db.stock.reserves.reserveStatus t = some .normal) ∨
        (world.db.sagas.status t = some .canceled ∧
          world.db.orders.orderStatus t ≠ some .normal ∧
          world.db.stock.reserves.reserveStatus t ≠ some .normal) := by
  intro hends
  have hexec : ∃ world, shop.exec (fun action _ => action.Faultless)
        (.placeOrder (some 2) (some 1) ::
          (List.replicate 3 (.call 0 .none) ++
            List.replicate 12 (.work 0 .none))) presentShop = some world ∧
      world.db.sagas.status 1 = some .init ∧ world.queue = [] ∧
      world.workers = [none] ∧
      world.callers = [.returned (some 1) (some 2) (some 1)] :=
    ⟨_, rfl, rfl, rfl, rfl, rfl⟩
  rcases hexec with ⟨world, hworld, hinit, hqueue, hworkers, hcallers⟩
  have hquiet : world.Quiescent := by
    refine ⟨hqueue, ?_, ?_⟩
    · simp [hworkers]
    · simp [hcallers, Caller.pending]
  have hend := hends presentShop world ⟨rfl, rfl, rfl, rfl, rfl, rfl, rfl⟩
    (TransitionSystem.Run.of_exec (.refl _) hworld) hquiet 1
    (by simp [hinit])
  rw [hinit] at hend
  simp at hend

end Saga

end ClpszDemos
