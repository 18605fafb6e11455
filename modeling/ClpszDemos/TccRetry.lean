import ClpszDemos.TccHanging

/-!
# Calls that are repeated

A coordinator that has not seen the answer of a participant calls it again.
A call that has returned true leaves a row behind, calls for other transactions
leave that row alone, and the repeated call meets it again: the stock service
takes it for its own earlier success, the order service does so in a try only.
-/

namespace ClpszDemos

/-- A block that ends with a return and no commit changes nothing. -/
theorem callService_returned {δ : Type} {body : Statements δ (Exit Bool)}
    {b : Bool} {db next : δ} (hbody : body db = .ok (.returned b, next))
    (fault : Fault) :
    (callService body false fault db).1 = db ∧
      (callService body false fault db = (db, some true) ↔
        fault.returns = true ∧ b = true) := by
  unfold callService
  rw [hbody]
  cases fault with
  | none => simp [Fault.returns]
  | commit applied => simp [Fault.returns]
  | statement => simp [Fault.returns]
  | escape applied => simp [Fault.returns]

namespace Tcc

/-! ## Runs of calls -/

def Call.tccId : Call → JLong
  | tryReserveStock tccId _ _ => tccId
  | confirmReserveStock tccId => tccId
  | cancelReserveStock tccId _ => tccId
  | tryCreateOrder tccId _ _ _ => tccId
  | confirmCreateOrder tccId => tccId
  | cancelCreateOrder tccId => tccId

/-- The calls of the first phase. -/
def Call.tries : Call → Bool
  | tryReserveStock .. | tryCreateOrder .. => true
  | confirmReserveStock _ | cancelReserveStock .. | confirmCreateOrder _
  | cancelCreateOrder _ => false

def Participants.runs (db : Participants) :
    List (Call × Fault) → Participants
  | [] => db
  | (call, fault) :: rest => Participants.runs (call.run fault db).1 rest

/-- Calls for other transactions, and repetitions of the call itself. -/
def Call.Allows (call : Call) (between : List (Call × Fault)) : Prop :=
  ∀ other ∈ between, other.1.tccId ≠ call.tccId ∨ other.1 = call

/-- The call returns true and changes no table. -/
def Call.Repeats (fault : Fault) (db : Participants) (call : Call) : Prop :=
  call.run fault db = (db, some true)

/-- What a call that returned true leaves. -/
def Call.Recorded (db : Participants) : Call → Prop
  | tryReserveStock tccId _ _ => ∃ t : ℕ, tccId = some (t : ℤ) ∧
      db.stock.reserves.reserveStatus t ≠ none
  | confirmReserveStock tccId => ∃ t : ℕ, tccId = some (t : ℤ) ∧
      db.stock.reserves.reserveStatus t = some .confirmed
  | cancelReserveStock tccId itemId => (∃ t : ℕ, tccId = some (t : ℤ) ∧
      db.stock.reserves.reserveStatus t = some .canceled) ∧
      ∃ i : ℕ, itemId = some (i : ℤ) ∧ ∃ row ∈ db.stock.items i, row.Readable
  | tryCreateOrder tccId _ _ _ => ∃ t : ℕ, tccId = some (t : ℤ) ∧
      db.orders.orderStatus t ≠ none
  | confirmCreateOrder tccId => ∃ t : ℕ, tccId = some (t : ℤ) ∧
      db.orders.orderStatus t = some .normal
  | cancelCreateOrder tccId => ∃ t : ℕ, tccId = some (t : ℤ) ∧
      (db.orders.orderStatus t = none ∨
        db.orders.orderStatus t = some .canceled)

/-- When a repeated call is taken for a success: a reservation is tried again
while the item still has the quantity, and an order is canceled while there is
none; an order is never confirmed again. -/
def Call.Accepted (db : Participants) : Call → Prop
  | tryReserveStock _ itemId stock => HasStock itemId stock db.stock
  | cancelCreateOrder tccId => db.orders.select tccId = none
  | confirmCreateOrder _ => False
  | confirmReserveStock _ | cancelReserveStock .. | tryCreateOrder .. => True

/-! ## What other calls leave -/

theorem run_frame {call : Call} (fault : Fault) (db : Participants) {t : ℕ}
    (hother : call.tccId ≠ some (t : ℤ)) :
    (call.run fault db).1.stock.reserves.reserveStatus t =
        db.stock.reserves.reserveStatus t ∧
      (call.run fault db).1.orders.orderStatus t = db.orders.orderStatus t := by
  cases call with
  | tryReserveStock tccId itemId stock =>
      exact ⟨(tryReserveStock_call tccId itemId stock fault db.stock).frame
        hother, rfl⟩
  | confirmReserveStock tccId =>
      exact ⟨(confirmReserveStock_call tccId fault db.stock).frame hother, rfl⟩
  | cancelReserveStock tccId itemId =>
      exact ⟨(cancelReserveStock_call tccId itemId fault db.stock).frame
        hother, rfl⟩
  | tryCreateOrder tccId itemId itemCount payedAmount =>
      exact ⟨rfl, (tryCreateOrder_call tccId itemId itemCount payedAmount fault
        db.orders).frame hother⟩
  | confirmCreateOrder tccId =>
      exact ⟨rfl, (confirmCreateOrder_call tccId fault db.orders).frame hother⟩
  | cancelCreateOrder tccId =>
      exact ⟨rfl, (cancelCreateOrder_call tccId fault db.orders).frame hother⟩

theorem run_readable (call : Call) (fault : Fault) (db : Participants) {i : ℕ}
    (hitem : ∃ row ∈ db.stock.items i, row.Readable) :
    ∃ row ∈ (call.run fault db).1.stock.items i, row.Readable := by
  cases call with
  | tryReserveStock tccId itemId stock =>
      exact callService_preserves
        (fun next : ItemStockDb => ∃ row ∈ next.items i, row.Readable)
        (fun b next hbody => reserveStock_readable hbody hitem) false fault
        hitem
  | confirmReserveStock tccId =>
      refine callService_preserves
        (fun next : ItemStockDb => ∃ row ∈ next.items i, row.Readable)
        (fun b next hbody => ?_) false fault hitem
      obtain ⟨_, _, _, _, ⟨hexit, _⟩ | ⟨_, _, hnext⟩⟩ :=
        ItemStockService.confirmReserveStock_eq_ok hbody
      · cases hexit
      · rw [hnext]
        exact hitem
  | cancelReserveStock tccId itemId =>
      exact callService_preserves
        (fun next : ItemStockDb => ∃ row ∈ next.items i, row.Readable)
        (fun b next hbody => releaseStock_readable hbody hitem) false fault
        hitem
  | tryCreateOrder | confirmCreateOrder | cancelCreateOrder => exact hitem

/-! ## The call that finds its record -/

section Found

variable {t : ℕ}

/-- A try that finds a row has its stock check left. -/
theorem tryReserveStock_again_iff {tccId itemId stock : JLong}
    {row : ReserveRow ReserveStatus} {db : ItemStockDb}
    (hselect : db.reserves.select tccId = some row) (fault : Fault) :
    (callService (ItemStockService.tryReserveStock tccId itemId stock) false
        fault db).1 = db ∧
      (callService (ItemStockService.tryReserveStock tccId itemId stock) false
          fault db = (db, some true) ↔
        fault.returns = true ∧ HasStock itemId stock db) := by
  obtain ⟨hsame, hstock⟩ := @tryReserveStock_again tccId itemId stock row db
    hselect fault
  refine ⟨hsame, ?_⟩
  constructor
  · intro hcall
    have htrue := congrArg Prod.snd hcall
    exact ⟨callService_returns htrue, hstock htrue⟩
  · rintro ⟨hreturns, henough⟩
    have hbody := tryReserveStock_found hselect henough
    exact (callService_returned hbody fault).2.mpr ⟨hreturns, rfl⟩

theorem confirmReserveStock_confirmed {tccId : JLong}
    {row : ReserveRow ReserveStatus} {db : ItemStockDb}
    (hselect : db.reserves.select tccId = some row)
    (hstatus : row.reserveStatus = .confirmed) :
    ItemStockService.confirmReserveStock tccId db =
      .ok (.returned true, db) := by
  have hread : ItemReserveStockDao.selectByTxIdForUpdate tccId db =
      .ok (some row, db) :=
    Statements.read_eq_ok_iff.mpr ⟨by rw [hselect], rfl⟩
  unfold ItemStockService.confirmReserveStock
  rw [Statements.run_bind, hread]
  simp [hstatus]

theorem cancelReserveStock_canceled {tccId : JLong} {i : ℕ} {item : ItemRow}
    {row : ReserveRow ReserveStatus} {db : ItemStockDb}
    (hitem : db.items i = some item) (hreadable : item.Readable)
    (hselect : db.reserves.select tccId = some row)
    (hstatus : row.reserveStatus = .canceled) :
    ItemStockService.cancelReserveStock tccId (some (i : ℤ)) db =
      .ok (.returned true, db) := by
  have hlive : row.reserveStatus ≠ .init := by
    rw [hstatus]
    decide
  exact releaseStock_again hitem hreadable hselect hlive hstatus

theorem confirmCreateOrder_normal {tccId : JLong} {order : OrderRow OrderStatus}
    {db : OrderDb OrderStatus} (hselect : db.select tccId = some order)
    (hstatus : order.orderStatus = .normal) :
    OrderService.confirmCreateOrder tccId db = .ok (.returned false, db) := by
  have hread : OrderDao.selectByTxIdForUpdate tccId db = .ok (some order, db) :=
    Statements.read_eq_ok_iff.mpr ⟨by rw [hselect], rfl⟩
  unfold OrderService.confirmCreateOrder
  rw [Statements.run_bind, hread]
  simp [hstatus]

theorem cancelCreateOrder_canceled {tccId : JLong}
    {order : OrderRow OrderStatus} {db : OrderDb OrderStatus}
    (hselect : db.select tccId = some order)
    (hstatus : order.orderStatus = .canceled) :
    OrderService.cancelCreateOrder tccId db = .ok (.returned false, db) := by
  have hread : OrderDao.selectByTxIdForUpdate tccId db = .ok (some order, db) :=
    Statements.read_eq_ok_iff.mpr ⟨by rw [hselect], rfl⟩
  unfold OrderService.cancelCreateOrder cancelOpenOrder
  rw [Statements.run_bind, hread]
  simp [hstatus]

theorem cancelCreateOrder_missing {db : OrderDb OrderStatus}
    (hmissing : db.find t = none) :
    ∃ next, OrderService.cancelCreateOrder (some (t : ℤ)) db =
      .ok (.returned true, next) := by
  have hnone : db.orderStatus t = none := by
    unfold UniqueTable.orderStatus
    rw [hmissing]
    rfl
  obtain ⟨next, hreturned | hcommitted⟩ :=
    @cancelOpenOrder_ok _ _ OrderStatus.init .canceled t db (.inl hnone)
  · exact ⟨next, hreturned⟩
  · obtain ⟨u, hu, ⟨hexit, _⟩ | ⟨_, hexit, _⟩ | ⟨row, _, hfind, _⟩⟩ :=
      cancelOpenOrder_eq_ok hcommitted
    · cases hexit
    · cases hexit
    · have htu : t = u := by simpa using hu
      rw [← htu, hmissing] at hfind
      cases hfind

end Found

/-- A call of the stock service is a call on its table. -/
theorem onStock_again {body : Statements ItemStockDb (Exit Bool)}
    {fault : Fault} {db : Participants} {condition : Prop}
    (hcall : (callService body false fault db.stock).1 = db.stock ∧
      (callService body false fault db.stock = (db.stock, some true) ↔
        condition)) :
    (db.onStock body fault).1 = db ∧
      (db.onStock body fault = (db, some true) ↔ condition) := by
  have hsame : (db.onStock body fault).1 = db := by
    show { db with stock := (callService body false fault db.stock).1 } = db
    rw [hcall.1]
  refine ⟨hsame, ?_⟩
  rw [← hcall.2, Prod.ext_iff, Prod.ext_iff]
  simp only [hsame, hcall.1, true_and]
  rfl

theorem onOrders_again {body : Statements (OrderDb OrderStatus) (Exit Bool)}
    {fault : Fault} {db : Participants} {condition : Prop}
    (hcall : (callService body false fault db.orders).1 = db.orders ∧
      (callService body false fault db.orders = (db.orders, some true) ↔
        condition)) :
    (db.onOrders body fault).1 = db ∧
      (db.onOrders body fault = (db, some true) ↔ condition) := by
  have hsame : (db.onOrders body fault).1 = db := by
    show { db with orders := (callService body false fault db.orders).1 } = db
    rw [hcall.1]
  refine ⟨hsame, ?_⟩
  rw [← hcall.2, Prod.ext_iff, Prod.ext_iff]
  simp only [hsame, hcall.1, true_and]
  rfl

/-- A repeated call changes nothing, and what it returns is known. -/
theorem run_of_recorded {call : Call} {db : Participants}
    (hrecorded : call.Recorded db) (fault : Fault) :
    (call.run fault db).1 = db ∧
      (call.Repeats fault db ↔
        fault.returns = true ∧ call.Accepted db) := by
  cases call with
  | tryReserveStock tccId itemId stock =>
      obtain ⟨t, ht, hsome⟩ := hrecorded
      obtain ⟨status, hstatus⟩ := Option.ne_none_iff_exists'.mp hsome
      obtain ⟨row, hselect, _⟩ := UniqueTable.select_of_column ht hstatus
      exact onStock_again (tryReserveStock_again_iff hselect fault)
  | confirmReserveStock tccId =>
      obtain ⟨t, ht, hstatus⟩ := hrecorded
      obtain ⟨row, hselect, hrow⟩ := UniqueTable.select_of_column ht hstatus
      have hbody := confirmReserveStock_confirmed hselect hrow
      have hcall := onStock_again (callService_returned hbody fault)
      simpa [Call.Repeats, Call.run, Call.Accepted] using hcall
  | cancelReserveStock tccId itemId =>
      obtain ⟨⟨t, ht, hstatus⟩, i, rfl, item, hitem, hreadable⟩ := hrecorded
      obtain ⟨row, hselect, hrow⟩ := UniqueTable.select_of_column ht hstatus
      have hbody := cancelReserveStock_canceled hitem hreadable hselect hrow
      have hcall := onStock_again (callService_returned hbody fault)
      simpa [Call.Repeats, Call.run, Call.Accepted] using hcall
  | tryCreateOrder tccId itemId itemCount payedAmount =>
      obtain ⟨t, ht, hsome⟩ := hrecorded
      obtain ⟨status, hstatus⟩ := Option.ne_none_iff_exists'.mp hsome
      obtain ⟨order, hselect, _⟩ := UniqueTable.select_of_column ht hstatus
      have hbody : OrderService.tryCreateOrder tccId itemId itemCount
          payedAmount db.orders = .ok (.returned true, db.orders) :=
        openOrder_found hselect itemId itemCount payedAmount
      have hcall := onOrders_again (callService_returned hbody fault)
      simpa [Call.Repeats, Call.run, Call.Accepted] using hcall
  | confirmCreateOrder tccId =>
      obtain ⟨t, ht, hstatus⟩ := hrecorded
      obtain ⟨order, hselect, horder⟩ := UniqueTable.select_of_column ht hstatus
      have hbody := confirmCreateOrder_normal hselect horder
      have hcall := onOrders_again (callService_returned hbody fault)
      simpa [Call.Repeats, Call.run, Call.Accepted] using hcall
  | cancelCreateOrder tccId =>
      obtain ⟨t, rfl, hnone | hstatus⟩ := hrecorded
      · have hmissing : db.orders.find t = none :=
          Option.map_eq_none_iff.mp hnone
        obtain ⟨next, hbody⟩ := cancelCreateOrder_missing hmissing
        have hcall := onOrders_again (callService_returned hbody fault)
        simpa [Call.Repeats, Call.run, Call.Accepted, hmissing] using hcall
      · obtain ⟨order, hselect, horder⟩ := UniqueTable.select_of_column rfl hstatus
        have hbody := cancelCreateOrder_canceled hselect horder
        have hcall := onOrders_again (callService_returned hbody fault)
        simpa [Call.Repeats, Call.run, Call.Accepted, hselect] using hcall

/-! ## The record stays -/

/-- A call that returned true leaves its record. -/
theorem recorded_of_true {call : Call} {fault : Fault} {db : Participants}
    (htrue : (call.run fault db).2 = some true) :
    call.Recorded (call.run fault db).1 := by
  cases call with
  | tryReserveStock tccId itemId stock =>
      exact (tryReserveStock_call tccId itemId stock fault db.stock).done
        ⟨true, htrue, rfl⟩
  | confirmReserveStock tccId =>
      exact (confirmReserveStock_call tccId fault db.stock).done
        ⟨true, htrue, rfl⟩
  | cancelReserveStock tccId itemId =>
      have hstatus := (cancelReserveStock_call tccId itemId fault db.stock).done
        ⟨true, htrue, rfl⟩
      have hcall : (callService (ItemStockService.cancelReserveStock tccId
          itemId) false fault db.stock).2 = some true := htrue
      have hitem : ∃ (i : ℕ) (row : ItemRow), itemId = some (i : ℤ) ∧
          db.stock.items i = some row ∧ row.Readable := by
        obtain ⟨next, hbody | hbody⟩ := exists_body_of_true hcall
        · exact releaseStock_item hbody
        · exact releaseStock_item hbody
      obtain ⟨i, row, hi, hrow, hreadable⟩ := hitem
      refine ⟨hstatus, i, hi, ?_⟩
      exact run_readable (.cancelReserveStock tccId itemId) fault db
        ⟨row, hrow, hreadable⟩
  | tryCreateOrder tccId itemId itemCount payedAmount =>
      exact (tryCreateOrder_call tccId itemId itemCount payedAmount fault
        db.orders).done ⟨true, htrue, rfl⟩
  | confirmCreateOrder tccId =>
      exact (confirmCreateOrder_call tccId fault db.orders).done
        ⟨true, htrue, rfl⟩
  | cancelCreateOrder tccId =>
      exact (cancelCreateOrder_call tccId fault db.orders).done
        ⟨true, htrue, rfl⟩

/-- A record is left by calls for other transactions. -/
theorem recorded_other {call other : Call} {db : Participants}
    (hrecorded : call.Recorded db) (hother : other.tccId ≠ call.tccId)
    (fault : Fault) : call.Recorded (other.run fault db).1 := by
  cases call with
  | tryReserveStock tccId itemId stock =>
      obtain ⟨t, ht, hstatus⟩ := hrecorded
      refine ⟨t, ht, ?_⟩
      rw [(run_frame fault db (ht ▸ hother)).1]
      exact hstatus
  | confirmReserveStock tccId =>
      obtain ⟨t, ht, hstatus⟩ := hrecorded
      refine ⟨t, ht, ?_⟩
      rw [(run_frame fault db (ht ▸ hother)).1]
      exact hstatus
  | cancelReserveStock tccId itemId =>
      obtain ⟨⟨t, ht, hstatus⟩, i, hi, hitem⟩ := hrecorded
      refine ⟨⟨t, ht, ?_⟩, i, hi, run_readable other fault db hitem⟩
      rw [(run_frame fault db (ht ▸ hother)).1]
      exact hstatus
  | tryCreateOrder tccId itemId itemCount payedAmount =>
      obtain ⟨t, ht, hstatus⟩ := hrecorded
      refine ⟨t, ht, ?_⟩
      rw [(run_frame fault db (ht ▸ hother)).2]
      exact hstatus
  | confirmCreateOrder tccId =>
      obtain ⟨t, ht, hstatus⟩ := hrecorded
      refine ⟨t, ht, ?_⟩
      rw [(run_frame fault db (ht ▸ hother)).2]
      exact hstatus
  | cancelCreateOrder tccId =>
      obtain ⟨t, ht, hstatus⟩ := hrecorded
      refine ⟨t, ht, ?_⟩
      rw [(run_frame fault db (ht ▸ hother)).2]
      exact hstatus

theorem Call.allows_cons {call : Call} {other : Call × Fault}
    {rest : List (Call × Fault)} :
    call.Allows (other :: rest) ↔
      (other.1.tccId ≠ call.tccId ∨ other.1 = call) ∧ call.Allows rest :=
  List.forall_mem_cons

theorem recorded_runs {call : Call} {db : Participants}
    {between : List (Call × Fault)} (hrecorded : call.Recorded db)
    (hbetween : call.Allows between) : call.Recorded (db.runs between) := by
  induction between generalizing db with
  | nil => exact hrecorded
  | cons other rest ih =>
      obtain ⟨hfirst, hrest⟩ := Call.allows_cons.mp hbetween
      rcases hfirst with hother | hsame
      · exact ih (recorded_other hrecorded hother other.2) hrest
      · rw [Participants.runs, hsame, (run_of_recorded hrecorded other.2).1]
        exact ih hrecorded hrest

/-- The rows of a transaction whose call is repeated stay as they are. -/
theorem runs_frame {call : Call} {db : Participants}
    {between : List (Call × Fault)} (hrecorded : call.Recorded db)
    (hbetween : call.Allows between) {t : ℕ} (ht : call.tccId = some (t : ℤ)) :
    (db.runs between).stock.reserves.reserveStatus t =
        db.stock.reserves.reserveStatus t ∧
      (db.runs between).orders.orderStatus t = db.orders.orderStatus t := by
  induction between generalizing db with
  | nil => exact ⟨rfl, rfl⟩
  | cons other rest ih =>
      obtain ⟨hfirst, hrest⟩ := Call.allows_cons.mp hbetween
      rcases hfirst with hother | hsame
      · have hframe := run_frame other.2 db (ht ▸ hother)
        have hlater := ih (recorded_other hrecorded hother other.2) hrest
        exact ⟨hlater.1.trans hframe.1, hlater.2.trans hframe.2⟩
      · rw [Participants.runs, hsame, (run_of_recorded hrecorded other.2).1]
        exact ih hrecorded hrest

/-! ## The two phases -/

/-- After the first call, and calls that leave its transaction alone. -/
def Call.later (first : Fault) (between : List (Call × Fault))
    (db : Participants) (call : Call) : Participants :=
  (call.run first db).1.runs between

/-- The quantity of a reservation is in stock. -/
def Call.InStock (db : Participants) : Call → Prop
  | tryReserveStock _ itemId stock => HasStock itemId stock db.stock
  | confirmReserveStock _ | cancelReserveStock .. | tryCreateOrder ..
  | confirmCreateOrder _ | cancelCreateOrder _ => True

section Phases

variable {call : Call} {first fault : Fault} {db : Participants}
  {between : List (Call × Fault)}

theorem repeats_iff (htrue : (call.run first db).2 = some true)
    (hbetween : call.Allows between) :
    call.Repeats fault (call.later first between db) ↔
      fault.returns = true ∧ call.Accepted (call.later first between db) :=
  (run_of_recorded (recorded_runs (recorded_of_true htrue) hbetween) fault).2

/-- A try is repeated with the same answer exactly while the item still has the
quantity; an order always. -/
theorem try_repeats_iff (htries : call.tries = true)
    (htrue : (call.run first db).2 = some true)
    (hbetween : call.Allows between) :
    call.Repeats fault (call.later first between db) ↔
      fault.returns = true ∧ call.InStock (call.later first between db) := by
  rw [repeats_iff htrue hbetween]
  cases call with
  | tryReserveStock tccId itemId stock => exact Iff.rfl
  | tryCreateOrder tccId itemId itemCount payedAmount => exact Iff.rfl
  | confirmReserveStock | cancelReserveStock | confirmCreateOrder
  | cancelCreateOrder => cases htries

/-- Another transaction takes two of the ten pieces in between. -/
theorem try_repeats_tenPieces :
    Call.Repeats .none
      ((Call.tryReserveStock (some 7) (some 1) (some 3)).later .none
        [(.tryReserveStock (some 8) (some 1) (some 2), .none)] tenPieces.db)
      (.tryReserveStock (some 7) (some 1) (some 3)) := by
  have hbetween : (Call.tryReserveStock (some 7) (some 1) (some 3)).Allows
      [(.tryReserveStock (some 8) (some 1) (some 2), .none)] := by
    intro other hother
    rw [List.mem_singleton.mp hother]
    exact .inl (by decide)
  refine (try_repeats_iff rfl rfl hbetween).mpr ⟨rfl, ?_⟩
  exact ⟨{ itemId := 1, price := 5, stock := 5 }, 3, rfl, rfl, by decide⟩

/-- Six of ten pieces are reserved, and four are left for the retry. -/
theorem not_try_repeats :
    ¬ ∀ (call : Call) (first : Fault) (db : Participants)
      (between : List (Call × Fault)), call.tries = true →
      (call.run first db).2 = some true → call.Allows between →
      call.Repeats .none (call.later first between db) := by
  intro hrepeats
  have hretry := hrepeats (.tryReserveStock (some 7) (some 1) (some 6)) .none
    tenPieces.db [] rfl rfl (by intro other hother; cases hother)
  have hfalse : ((Call.tryReserveStock (some 7) (some 1) (some 6)).run .none
      ((Call.tryReserveStock (some 7) (some 1) (some 6)).later .none []
        tenPieces.db)).2 = some false := rfl
  have htrue := congrArg Prod.snd hretry
  rw [hfalse] at htrue
  cases htrue

/-- Whether there is an order is not changed by its cancellation. -/
theorem cancelCreateOrder_accepted {tccId : JLong}
    (htrue : ((Call.cancelCreateOrder tccId).run first db).2 = some true)
    (hbetween : (Call.cancelCreateOrder tccId).Allows between) :
    (Call.cancelCreateOrder tccId).Accepted
        ((Call.cancelCreateOrder tccId).later first between db) ↔
      (Call.cancelCreateOrder tccId).Accepted db := by
  have hrecorded := recorded_of_true htrue
  obtain ⟨t, ht, _⟩ := recorded_of_true htrue
  have hstays := (runs_frame hrecorded hbetween ht).2
  have hmoves := (cancelCreateOrder_call tccId first db.orders).moves_self ht
  have hnone : ∀ orders : OrderDb OrderStatus,
      orders.select tccId = none ↔ orders.orderStatus t = none := by
    intro orders
    rw [ht, UniqueTable.select_natCast]
    exact Option.map_eq_none_iff.symm
  unfold Call.Accepted
  dsimp only
  rw [hnone, hnone]
  unfold Call.later
  rw [hstays]
  rcases hmoves with hsame | ⟨hinit, hcanceled⟩
  · exact iff_of_eq (congrArg (· = none) hsame)
  · have hafter : ((Call.cancelCreateOrder tccId).run first
        db).1.orders.orderStatus t = some .canceled := hcanceled
    rw [hafter, hinit]
    simp

/-- The confirmation and the cancellation of a reservation can be repeated, that
of an order only where there was no order to cancel. -/
theorem second_phase_repeats_iff (hsecond : call.tries = false)
    (htrue : (call.run first db).2 = some true)
    (hbetween : call.Allows between) :
    call.Repeats fault (call.later first between db) ↔
      fault.returns = true ∧ call.Accepted db := by
  rw [repeats_iff htrue hbetween]
  cases call with
  | tryReserveStock | tryCreateOrder => cases hsecond
  | confirmReserveStock tccId => exact Iff.rfl
  | cancelReserveStock tccId itemId => exact Iff.rfl
  | confirmCreateOrder tccId => exact Iff.rfl
  | cancelCreateOrder tccId =>
      rw [cancelCreateOrder_accepted htrue hbetween]

/-- A cancellation that came before its try. -/
theorem second_phase_repeats_tenPieces :
    Call.Repeats .none
      ((Call.cancelReserveStock (some 7) (some 1)).later .none
        [(.tryReserveStock (some 8) (some 1) (some 2), .none)] tenPieces.db)
      (.cancelReserveStock (some 7) (some 1)) := by
  have hbetween : (Call.cancelReserveStock (some 7) (some 1)).Allows
      [(.tryReserveStock (some 8) (some 1) (some 2), .none)] := by
    intro other hother
    rw [List.mem_singleton.mp hother]
    exact .inl (by decide)
  exact (second_phase_repeats_iff rfl rfl hbetween).mpr ⟨rfl, trivial⟩

/-- An order is confirmed, and confirmed again. -/
theorem not_second_phase_repeats :
    ¬ ∀ (call : Call) (first : Fault) (db : Participants)
      (between : List (Call × Fault)), call.tries = false →
      (call.run first db).2 = some true → call.Allows between →
      call.Repeats .none (call.later first between db) := by
  intro hrepeats
  have hretry := hrepeats (.confirmCreateOrder (some 7)) .none
    ((Call.tryCreateOrder (some 7) (some 1) (some 3) (some 15)).run .none
      tenPieces.db).1 [] rfl rfl (by intro other hother; cases hother)
  have hfalse : ((Call.confirmCreateOrder (some 7)).run .none
      ((Call.confirmCreateOrder (some 7)).later .none []
        ((Call.tryCreateOrder (some 7) (some 1) (some 3) (some 15)).run .none
          tenPieces.db).1)).2 = some false := rfl
  have htrue := congrArg Prod.snd hretry
  rw [hfalse] at htrue
  cases htrue

end Phases

end Tcc

end ClpszDemos
