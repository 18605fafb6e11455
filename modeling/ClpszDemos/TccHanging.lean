import ClpszDemos.TccAgreement

/-!
# Tries that come after their cancellation

The two participants take calls in any order, from whichever coordinator they
come.  A cancellation that comes before its try is recorded by the stock
service; the order service leaves its transaction without a commit, so its
record is lost.  A try that finds a record takes it for its own earlier success.
-/

namespace ClpszDemos

namespace Tcc

/-! ## The participants -/

structure Participants where
  stock : ItemStockDb
  orders : OrderDb OrderStatus

inductive Call
  | tryReserveStock (tccId itemId stock : JLong)
  | confirmReserveStock (tccId : JLong)
  | cancelReserveStock (tccId itemId : JLong)
  | tryCreateOrder (tccId itemId itemCount payedAmount : JLong)
  | confirmCreateOrder (tccId : JLong)
  | cancelCreateOrder (tccId : JLong)
  deriving DecidableEq, Repr

def Participants.onStock (body : Statements ItemStockDb (Exit Bool))
    (fault : Fault) (db : Participants) : Participants × Option Bool :=
  let (stock, result) := callService body false fault db.stock
  ({ db with stock := stock }, result)

def Participants.onOrders (body : Statements (OrderDb OrderStatus) (Exit Bool))
    (fault : Fault) (db : Participants) : Participants × Option Bool :=
  let (orders, result) := callService body false fault db.orders
  ({ db with orders := orders }, result)

def Call.run (fault : Fault) (db : Participants) :
    Call → Participants × Option Bool
  | tryReserveStock tccId itemId stock =>
      db.onStock (ItemStockService.tryReserveStock tccId itemId stock) fault
  | confirmReserveStock tccId =>
      db.onStock (ItemStockService.confirmReserveStock tccId) fault
  | cancelReserveStock tccId itemId =>
      db.onStock (ItemStockService.cancelReserveStock tccId itemId) fault
  | tryCreateOrder tccId itemId itemCount payedAmount =>
      db.onOrders (OrderService.tryCreateOrder tccId itemId itemCount
        payedAmount) fault
  | confirmCreateOrder tccId =>
      db.onOrders (OrderService.confirmCreateOrder tccId) fault
  | cancelCreateOrder tccId =>
      db.onOrders (OrderService.cancelCreateOrder tccId) fault

/-- The databases, and the transactions for which a cancellation has returned
true. -/
structure History where
  db : Participants
  canceledStock : List JLong
  canceledOrders : List JLong

def Call.canceledStock (result : Option Bool) : Call → List JLong
  | cancelReserveStock tccId _ => if result = some true then [tccId] else []
  | _ => []

def Call.canceledOrders (result : Option Bool) : Call → List JLong
  | cancelCreateOrder tccId => if result = some true then [tccId] else []
  | _ => []

def History.step (call : Call) (fault : Fault) (h : History) : History where
  db := (call.run fault h.db).1
  canceledStock := h.canceledStock ++
    call.canceledStock (call.run fault h.db).2
  canceledOrders := h.canceledOrders ++
    call.canceledOrders (call.run fault h.db).2

/-- Any calls with any faults, on any databases. -/
def participants : TransitionSystem History (Call × Fault) where
  init h := h.canceledStock = [] ∧ h.canceledOrders = []
  step action h := some (h.step action.1 action.2)

/-- A try for a canceled transaction takes no stock, leaves nothing live behind
and does not return true. -/
def NotHanging (h : History) (fault : Fault) : Call → Prop
  | .tryReserveStock tccId itemId stock => tccId ∈ h.canceledStock →
      let after := (Call.tryReserveStock tccId itemId stock).run fault h.db
      after.1.stock.items = h.db.stock.items ∧
        (∀ t : ℕ, tccId = some (t : ℤ) →
          after.1.stock.reserves.reserveStatus t ≠ some .init) ∧
        after.2 ≠ some true
  | .tryCreateOrder tccId itemId itemCount payedAmount =>
      tccId ∈ h.canceledOrders →
      let after :=
        (Call.tryCreateOrder tccId itemId itemCount payedAmount).run fault h.db
      (∀ t : ℕ, tccId = some (t : ℤ) →
          after.1.orders.orderStatus t ≠ some .init) ∧
        after.2 ≠ some true
  | _ => True

/-! ## The branches that go wrong -/

end Tcc

/-- A `try` block without a commit ends normally under the fault. -/
def Fault.returns : Fault → Bool
  | none | commit _ => true
  | statement | escape _ => false

theorem callService_returns {δ : Type} {body : Statements δ (Exit Bool)}
    {fault : Fault} {db : δ}
    (htrue : (callService body false fault db).2 = some true) :
    fault.returns = true := by
  cases fault with
  | none => rfl
  | commit applied => rfl
  | statement =>
      have hfalse : (callService body false .statement db).2 = some false := by
        unfold callService
        rcases body db with message | ⟨b | b, next⟩ <;> rfl
      rw [hfalse] at htrue
      cases htrue
  | escape applied =>
      rw [callService_escape] at htrue
      cases htrue

theorem callService_of_returns {δ : Type} {body : Statements δ (Exit Bool)}
    {fault : Fault} {db next : δ} {b : Bool}
    (hbody : body db = .ok (.returned b, next))
    (hreturns : fault.returns = true) :
    (callService body false fault db).2 = some b := by
  unfold callService
  rw [hbody]
  cases fault with
  | none => rfl
  | commit applied => rfl
  | statement => cases hreturns
  | escape applied => cases hreturns

/-- A call that keeps its hands off a status keeps it. -/
theorem StatusCall.keeps {σ : Type} {txId : JLong} {Source Done : Option σ → Prop}
    {target s : σ} {success : Prop} {before after : ℕ → Option σ}
    (hcall : StatusCall txId Source target Done success before after)
    (hs : ¬ Source (some s)) {t : ℕ} (ht : before t = some s) :
    after t = some s := by
  rcases hcall.moves with hsame | ⟨u, hu, hsource, hmove⟩
  · rw [hsame]
    exact ht
  · by_cases htu : t = u
    · subst htu
      rw [ht] at hsource
      exact absurd hsource hs
    · rw [hmove, Function.update_of_ne htu]
      exact ht

namespace Tcc

/-- The item is there and has the quantity. -/
def HasStock (itemId stock : JLong) (db : ItemStockDb) : Prop :=
  ∃ item n, ItemDao.selectById itemId db = .ok (some item) ∧
    stock = some n ∧ n ≤ item.stock

/-- No try reaches the return for a row that is there when this row is
canceled, and no cancellation of an order with an id that the column can hold
reaches the return for a missing row. -/
def Meets : Call × Fault → History → Prop
  | (.tryReserveStock tccId itemId stock, fault), h => fault.returns = true →
      HasStock itemId stock h.db.stock →
        ∀ row, h.db.stock.reserves.select tccId = some row →
          row.reserveStatus ≠ .canceled
  | (.tryCreateOrder tccId _ _ _, fault), h => fault.returns = true →
      ∀ order, h.db.orders.select tccId = some order →
        order.orderStatus ≠ .canceled
  | (.cancelCreateOrder tccId, fault), h => fault.returns = true →
      ∀ t : ℕ, tccId = some (t : ℤ) → h.db.orders.find t ≠ none
  | _, _ => True

/-! ## Canceled rows stay -/

def StockRecorded (h : History) : Prop :=
  ∀ tccId ∈ h.canceledStock, ∃ t : ℕ, tccId = some (t : ℤ) ∧
    h.db.stock.reserves.reserveStatus t = some .canceled

def OrdersRecorded (h : History) : Prop :=
  ∀ tccId ∈ h.canceledOrders, ∃ t : ℕ, tccId = some (t : ℤ) ∧
    h.db.orders.orderStatus t = some .canceled

theorem run_keeps_reserve (call : Call) (fault : Fault) (db : Participants)
    {t : ℕ} (ht : db.stock.reserves.reserveStatus t = some .canceled) :
    (call.run fault db).1.stock.reserves.reserveStatus t = some .canceled := by
  cases call with
  | tryReserveStock tccId itemId stock =>
      exact (tryReserveStock_call tccId itemId stock fault db.stock).keeps
        (by simp) ht
  | confirmReserveStock tccId =>
      exact (confirmReserveStock_call tccId fault db.stock).keeps (by simp) ht
  | cancelReserveStock tccId itemId =>
      exact (cancelReserveStock_call tccId itemId fault db.stock).keeps
        (by simp) ht
  | tryCreateOrder | confirmCreateOrder | cancelCreateOrder => exact ht

theorem run_keeps_order (call : Call) (fault : Fault) (db : Participants)
    {t : ℕ} (ht : db.orders.orderStatus t = some .canceled) :
    (call.run fault db).1.orders.orderStatus t = some .canceled := by
  cases call with
  | tryReserveStock | confirmReserveStock | cancelReserveStock => exact ht
  | tryCreateOrder tccId itemId itemCount payedAmount =>
      exact (tryCreateOrder_call tccId itemId itemCount payedAmount fault
        db.orders).keeps (by simp) ht
  | confirmCreateOrder tccId =>
      exact (confirmCreateOrder_call tccId fault db.orders).keeps (by simp) ht
  | cancelCreateOrder tccId =>
      exact (cancelCreateOrder_call tccId fault db.orders).keeps (by simp) ht

theorem mem_canceledStock {call : Call} {result : Option Bool} {tccId : JLong}
    (hmem : tccId ∈ call.canceledStock result) :
    ∃ itemId, call = .cancelReserveStock tccId itemId ∧ result = some true := by
  cases call with
  | cancelReserveStock id itemId =>
      by_cases htrue : result = some true
      · have hone : tccId ∈ [id] := by simpa [Call.canceledStock, htrue] using hmem
        rw [List.mem_singleton.mp hone]
        exact ⟨itemId, rfl, htrue⟩
      · simp [Call.canceledStock, htrue] at hmem
  | tryReserveStock | confirmReserveStock | tryCreateOrder | confirmCreateOrder
  | cancelCreateOrder => cases hmem

theorem mem_canceledOrders {call : Call} {result : Option Bool} {tccId : JLong}
    (hmem : tccId ∈ call.canceledOrders result) :
    call = .cancelCreateOrder tccId ∧ result = some true := by
  cases call with
  | cancelCreateOrder id =>
      by_cases htrue : result = some true
      · have hone : tccId ∈ [id] := by
          simpa [Call.canceledOrders, htrue] using hmem
        rw [List.mem_singleton.mp hone]
        exact ⟨rfl, htrue⟩
      · simp [Call.canceledOrders, htrue] at hmem
  | tryReserveStock | confirmReserveStock | cancelReserveStock | tryCreateOrder
  | confirmCreateOrder => cases hmem

/-- The stock service records every cancellation that it reports. -/
theorem stockRecorded_step (call : Call) (fault : Fault) {h : History}
    (hrecorded : StockRecorded h) : StockRecorded (h.step call fault) := by
  intro tccId hmem
  rcases List.mem_append.mp hmem with hold | hnew
  · obtain ⟨t, ht, hstatus⟩ := hrecorded tccId hold
    exact ⟨t, ht, run_keeps_reserve call fault h.db hstatus⟩
  · obtain ⟨itemId, rfl, htrue⟩ := mem_canceledStock hnew
    exact (cancelReserveStock_call tccId itemId fault h.db.stock).done
      ⟨true, htrue, rfl⟩

/-- The order service records the cancellations that find an order. -/
theorem ordersRecorded_step {call : Call} {fault : Fault} {h : History}
    (hmeets : Meets (call, fault) h) (hrecorded : OrdersRecorded h) :
    OrdersRecorded (h.step call fault) := by
  intro tccId hmem
  rcases List.mem_append.mp hmem with hold | hnew
  · obtain ⟨t, ht, hstatus⟩ := hrecorded tccId hold
    exact ⟨t, ht, run_keeps_order call fault h.db hstatus⟩
  · obtain ⟨rfl, htrue⟩ := mem_canceledOrders hnew
    have hcall := cancelCreateOrder_call tccId fault h.db.orders
    obtain ⟨t, ht, hnone | hcanceled⟩ := hcall.done ⟨true, htrue, rfl⟩
    · have hbefore : h.db.orders.orderStatus t = none := by
        rcases hcall.moves_self ht with hsame | ⟨_, hsome⟩
        · rw [← hsame]
          exact hnone
        · rw [hnone] at hsome
          cases hsome
      have hmissing : h.db.orders.find t = none :=
        Option.map_eq_none_iff.mp hbefore
      have hreturned : (callService (OrderService.cancelCreateOrder tccId)
          false fault h.db.orders).2 = some true := htrue
      exact absurd hmissing (hmeets (callService_returns hreturned) t ht)
    · exact ⟨t, ht, hcanceled⟩

/-! ## Late tries -/

theorem reserveStock_returned {tccId itemId stock : JLong}
    {db next : ItemStockDb}
    (hok : ItemStockService.tryReserveStock tccId itemId stock db =
      .ok (.returned true, next)) : HasStock itemId stock db := by
  obtain ⟨item?, mid, hfirst, hrest⟩ := Statements.bind_eq_ok_iff.mp hok
  obtain ⟨hitem, rfl⟩ := ItemDao.selectByIdForUpdate_eq_ok hfirst
  cases item? with
  | none => cases hrest
  | some item =>
      obtain ⟨n, mid, hunbox, htail⟩ := Statements.bind_eq_ok_iff.mp hrest
      obtain ⟨hcount, rfl⟩ := Statements.read_eq_ok_iff.mp hunbox
      by_cases hshort : item.stock < n
      · rw [if_pos hshort] at htail
        cases htail
      · exact ⟨item, n, hitem, unbox_eq_ok_iff.mp hcount, not_lt.mp hshort⟩

/-- A try with a row and enough stock ends with a return. -/
theorem tryReserveStock_found {tccId itemId stock : JLong} {db : ItemStockDb}
    {row : ReserveRow ReserveStatus}
    (hselect : db.reserves.select tccId = some row)
    (hstock : HasStock itemId stock db) :
    ItemStockService.tryReserveStock tccId itemId stock db =
      .ok (.returned true, db) := by
  obtain ⟨item, n, hitem, rfl, hle⟩ := hstock
  obtain ⟨i, itemRow, rfl, hitemRow, hreadable, rfl⟩ :=
    ItemDao.selectById_eq_some hitem
  exact reserveStock_found hitemRow hreadable hle hselect

/-- A try that finds a row changes nothing, and returns true at most where it
finds enough stock. -/
theorem tryReserveStock_again {tccId itemId stock : JLong}
    {row : ReserveRow ReserveStatus} {db : ItemStockDb}
    (hselect : db.reserves.select tccId = some row) (fault : Fault) :
    (callService (ItemStockService.tryReserveStock tccId itemId stock) false
      fault db).1 = db ∧
    ((callService (ItemStockService.tryReserveStock tccId itemId stock) false
      fault db).2 = some true → HasStock itemId stock db) := by
  have hnot : ∀ b next, ItemStockService.tryReserveStock tccId itemId stock
      db ≠ .ok (.committed b, next) := by
    intro b next hbody
    rcases reserveStock_eq_ok hbody with
      ⟨hexit, _⟩ | ⟨t, _, _, _, _, ht, _, _, _, _, _, _, hinsert, _⟩
    · cases hexit
    · have hfresh := (UniqueTable.insert_eq_some hinsert).1
      change db.reserves.find t = none at hfresh
      rw [ht, UniqueTable.select_natCast, hfresh] at hselect
      cases hselect
  refine ⟨callService_of_not_committed hnot, ?_⟩
  intro htrue
  obtain ⟨next, hreturned | hcommitted⟩ := exists_body_of_true htrue
  · exact reserveStock_returned hreturned
  · exact absurd hcommitted (hnot true next)

/-- Whatever the run, a try for a canceled reservation takes no stock and
reserves nothing. -/
theorem canceledStock_stays {h : History} (hreach : participants.Reachable h)
    {tccId : JLong} (hmem : tccId ∈ h.canceledStock) (itemId stock : JLong)
    (fault : Fault) :
    ((Call.tryReserveStock tccId itemId stock).run fault h.db).1.stock =
      h.db.stock ∧
    ∀ t : ℕ, tccId = some (t : ℤ) →
      h.db.stock.reserves.reserveStatus t = some .canceled := by
  have hrecorded : StockRecorded h := by
    apply hreach.invariant StockRecorded
    · intro start hinit tccId hmem
      rw [hinit.1] at hmem
      cases hmem
    · intro action before after _ hstep hbefore
      cases hstep
      exact stockRecorded_step action.1 action.2 hbefore
  obtain ⟨t, ht, hstatus⟩ := hrecorded tccId hmem
  obtain ⟨row, hselect, _⟩ := UniqueTable.select_of_column ht hstatus
  refine ⟨(tryReserveStock_again hselect fault).1, ?_⟩
  intro u hu
  have htu : t = u := by simpa [ht] using hu
  rw [← htu]
  exact hstatus

theorem tryCreateOrder_canceled {tccId itemId itemCount payedAmount : JLong}
    {fault : Fault} {db : OrderDb OrderStatus} {t : ℕ}
    (ht : tccId = some (t : ℤ)) (hstatus : db.orderStatus t = some .canceled) :
    (callService (OrderService.tryCreateOrder tccId itemId itemCount
      payedAmount) false fault db).1.orderStatus t = some .canceled ∧
    ∃ order, db.select tccId = some order ∧ order.orderStatus = .canceled := by
  constructor
  · exact (tryCreateOrder_call tccId itemId itemCount payedAmount fault
      db).keeps (by simp) hstatus
  · exact UniqueTable.select_of_column ht hstatus

/-- In every run that takes neither of the two branches, no try for a canceled
transaction hangs. -/
theorem not_hanging {h : History} (hreach : participants.ReachableBy Meets h)
    {call : Call} {fault : Fault} (hmeets : Meets (call, fault) h) :
    NotHanging h fault call := by
  have hrecorded : StockRecorded h ∧ OrdersRecorded h := by
    apply hreach.invariant fun h => StockRecorded h ∧ OrdersRecorded h
    · intro start hinit
      constructor
      · intro tccId hmem
        rw [hinit.1] at hmem
        cases hmem
      · intro tccId hmem
        rw [hinit.2] at hmem
        cases hmem
    · intro action before after hguard hstep hbefore
      cases hstep
      exact ⟨stockRecorded_step action.1 action.2 hbefore.1,
        ordersRecorded_step hguard hbefore.2⟩
  cases call with
  | tryReserveStock tccId itemId stock =>
      intro hmem
      obtain ⟨t, ht, hstatus⟩ := hrecorded.1 tccId hmem
      obtain ⟨row, hselect, hrow⟩ := UniqueTable.select_of_column ht hstatus
      obtain ⟨hsame, hstock⟩ := @tryReserveStock_again tccId itemId stock row
        h.db.stock hselect fault
      refine ⟨congrArg StockDb.items hsame, ?_, ?_⟩
      · intro u hu
        have htu : t = u := by simpa [ht] using hu
        have hkept := run_keeps_reserve (.tryReserveStock tccId itemId stock)
          fault h.db hstatus
        rw [← htu]
        intro hinit
        cases hkept.symm.trans hinit
      · intro htrue
        have hreturned : (callService (ItemStockService.tryReserveStock tccId
            itemId stock) false fault h.db.stock).2 = some true := htrue
        exact hmeets (callService_returns hreturned) (hstock hreturned) row
          hselect hrow
  | tryCreateOrder tccId itemId itemCount payedAmount =>
      intro hmem
      obtain ⟨t, ht, hstatus⟩ := hrecorded.2 tccId hmem
      obtain ⟨hkept, order, hselect, horder⟩ :=
        @tryCreateOrder_canceled tccId itemId itemCount payedAmount fault
          h.db.orders t ht hstatus
      constructor
      · intro u hu
        have htu : t = u := by simpa [ht] using hu
        rw [← htu]
        intro hinit
        cases hkept.symm.trans hinit
      · intro htrue
        have hreturned : (callService (OrderService.tryCreateOrder tccId itemId
            itemCount payedAmount) false fault h.db.orders).2 = some true :=
          htrue
        exact hmeets (callService_returns hreturned) order hselect horder
  | confirmReserveStock | cancelReserveStock | confirmCreateOrder
  | cancelCreateOrder => trivial

/-- A late try that reaches the return for a canceled row returns true. -/
theorem hanging_of_not_meets {h : History} {call : Call} {fault : Fault}
    (hmeets : ¬ Meets (call, fault) h)
    (hcancel : ∀ tccId, call ≠ .cancelCreateOrder tccId) :
    (call.run fault h.db).2 = some true := by
  cases call with
  | tryReserveStock tccId itemId stock =>
      unfold Meets at hmeets
      push Not at hmeets
      obtain ⟨hreturns, hstock, row, hselect, _⟩ := hmeets
      exact callService_of_returns (tryReserveStock_found hselect hstock)
        hreturns
  | tryCreateOrder tccId itemId itemCount payedAmount =>
      unfold Meets at hmeets
      push Not at hmeets
      obtain ⟨hreturns, order, hselect, _⟩ := hmeets
      have hbody : OrderService.tryCreateOrder tccId itemId itemCount
          payedAmount h.db.orders = .ok (.returned true, h.db.orders) :=
        openOrder_found hselect itemId itemCount payedAmount
      exact callService_of_returns hbody hreturns
  | cancelCreateOrder tccId => exact absurd rfl (hcancel tccId)
  | confirmReserveStock | cancelReserveStock | confirmCreateOrder =>
      exact absurd trivial hmeets

/-! ## Two runs -/

/-- One item with ten pieces, and nothing else. -/
def tenPieces : History where
  db := {
    stock := {
      items := fun i => if i = 1 then some { price := 5, stock := 10 } else none
      reserves := .empty _ }
    orders := .empty _ }
  canceledStock := []
  canceledOrders := []

/-- A reservation is canceled before its try, which fails when it comes. -/
theorem not_hanging_tenPieces :
    NotHanging (tenPieces.step (.cancelReserveStock (some 7) (some 1)) .none)
      .statement (.tryReserveStock (some 7) (some 1) (some 3)) := by
  have hcancel : Meets (.cancelReserveStock (some 7) (some 1), .none)
      tenPieces := trivial
  have hreach : participants.ReachableBy Meets
      (tenPieces.step (.cancelReserveStock (some 7) (some 1)) .none) :=
    ⟨tenPieces, ⟨rfl, rfl⟩, .tail (.refl tenPieces) hcancel rfl⟩
  exact not_hanging hreach (fun hreturns => by cases hreturns)

/-- An order that is canceled before its try is created by the try. -/
theorem not_not_hanging :
    ¬ ∀ h : History, participants.Reachable h →
      ∀ (call : Call) (fault : Fault), NotHanging h fault call := by
  intro hhanging
  have hreach : participants.Reachable
      (tenPieces.step (.cancelCreateOrder (some 7)) .none) :=
    ⟨tenPieces, ⟨rfl, rfl⟩,
      .tail (a := (.cancelCreateOrder (some 7), .none)) (.refl tenPieces)
        trivial rfl⟩
  have hlate := hhanging _ hreach
    (.tryCreateOrder (some 7) (some 1) (some 3) (some 15)) .none
  have hmem : (some 7 : JLong) ∈ (tenPieces.step (.cancelCreateOrder (some 7))
      .none).canceledOrders := List.mem_cons_self
  exact (hlate hmem).2 rfl

end Tcc

end ClpszDemos
