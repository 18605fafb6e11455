import ClpszDemos.SagaEventLoop
import ClpszDemos.SqlCalls

/-!
# The outcome events of the forward steps

`createOrder` and `deductStock` call by call, with the events that they put.
They refine the tasks of the system, and the conditions are given under which
one call announces its outcome by one event.
-/

namespace ClpszDemos

namespace Saga

/-! ## The two methods -/

/-- A forward step: its `catch` block puts the event of a failure. -/
def forwardStep {δ : Type} (e : Event) (block : Method δ Event Bool) :
    Method δ Event Bool :=
  .transaction block (do
    Method.putEvent { e with succeed := false }
    return false)

namespace OrderService

/-- The event of this step, with `succeed` set. -/
def createOrderEvent (sagaId itemId itemCount : JLong) : Event :=
  ⟨sagaId, .createOrder, itemId, itemCount, true⟩

/-- The `try` block of `createOrder`. -/
def createOrderBlock (sagaId itemId itemCount payedAmount : JLong) :
    Method (OrderDb OrderStatus) Event Bool := do
  match ← Method.sql .selectRow (OrderDao.selectByTxIdForUpdate sagaId) with
  | some _ => return true
  | none =>
      Method.sql .insertRow (OrderDao.insertOrder sagaId itemId itemCount
        payedAmount OrderStatus.normal)
      Method.commit
      Method.putEvent (createOrderEvent sagaId itemId itemCount)
      return true

def createOrderMethod (sagaId itemId itemCount payedAmount : JLong) :
    Method (OrderDb OrderStatus) Event Bool :=
  forwardStep (createOrderEvent sagaId itemId itemCount)
    (createOrderBlock sagaId itemId itemCount payedAmount)

end OrderService

namespace ItemStockService

def deductStockEvent (sagaId itemId stock : JLong) : Event :=
  ⟨sagaId, .deductStock, itemId, stock, true⟩

/-- The rest of the `try` block of `deductStock` when the stock is enough. -/
def deductStockRow (sagaId itemId : JLong) (item : Item) (stock : ℤ) :
    Method ItemStockDb Event Bool := do
  match ← Method.sql .selectRow
      (ItemReserveStockDao.selectByTxIdForUpdate sagaId) with
  | some _ =>
      Method.putEvent (deductStockEvent sagaId itemId (some stock))
      return true
  | none =>
      Method.sql .insertRow (ItemReserveStockDao.insertItemReserveStock sagaId
        itemId stock ReserveStatus.normal)
      Method.sql .updateItem
        (ItemDao.updateItemStock itemId (wrap64 (item.stock - stock)))
      Method.putEvent (deductStockEvent sagaId itemId (some stock))
      Method.commit
      return true

/-- The item is there and has the quantity. -/
def checkStock (item? : Option Item) (stock : JLong) :
    Except String (Item × ℤ) :=
  match item? with
  | none => .error "item not exist"
  | some item => do
      let stock ← unbox stock
      if item.stock < stock then .error (stockNotEnough item.stock stock)
      else .ok (item, stock)

/-- The `try` block of `deductStock`. -/
def deductStockBlock (sagaId itemId stock : JLong) :
    Method ItemStockDb Event Bool := do
  let item? ← Method.sql .selectItem (ItemDao.selectByIdForUpdate itemId)
  let checked ← Method.check (checkStock item? stock)
  deductStockRow sagaId itemId checked.1 checked.2

def deductStockMethod (sagaId itemId stock : JLong) :
    Method ItemStockDb Event Bool :=
  forwardStep (deductStockEvent sagaId itemId stock)
    (deductStockBlock sagaId itemId stock)

end ItemStockService

/-! ## One event -/

/-- The call put one event, for its own step, and the event says whether
the row of the step is committed now. -/
def Announces {δ : Type} (e : Event) (Done : δ → Prop)
    (state : CallState δ Event) : Prop :=
  ∃ succeed, state.events = [{ e with succeed := succeed }] ∧
    (succeed = true ↔ Done state.committed)

section Announces

variable {δ : Type} {e : Event} {Done : δ → Prop} {state : CallState δ Event}

theorem announces_iff_of_one {succeed : Bool}
    (hevents : state.events = [{ e with succeed := succeed }]) :
    Announces e Done state ↔ (succeed = true ↔ Done state.committed) := by
  unfold Announces
  rw [hevents]
  constructor
  · rintro ⟨succeed', heq, hdone⟩
    have hsame : succeed = succeed' :=
      congrArg Event.succeed (List.singleton_inj.mp heq)
    rw [hsame]
    exact hdone
  · intro hdone
    exact ⟨succeed, rfl, hdone⟩

theorem not_announces_of_length (hevents : state.events.length ≠ 1) :
    ¬ Announces e Done state := by
  rintro ⟨succeed, heq, _⟩
  rw [heq] at hevents
  exact hevents rfl

end Announces

section ForwardStep

variable {δ : Type} {outcomes : SqlOutcomes} {db : δ} {e : Event}
  {Done : δ → Prop} {block : Method δ Event Bool} {message : String}
  {next : CallState δ Event}

theorem forwardStep_not_connects (hnot : ¬ Method.Connects outcomes) :
    ¬ Announces e Done (forwardStep e block outcomes (.start db)).2 := by
  apply not_announces_of_length
  unfold forwardStep
  rw [Method.transaction_not_connects hnot]
  exact Nat.zero_ne_one

theorem forwardStep_returns {b : Bool} (hconnects : Method.Connects outcomes)
    (hblock : block outcomes (.start db) = (.ok b, next)) :
    (forwardStep e block outcomes (.start db)).2 = next :=
  Method.transaction_returns hconnects hblock

/-- The state after the `catch` block, which puts its event when the rollback
succeeds. -/
theorem forwardStep_catches (hconnects : Method.Connects outcomes)
    (hblock : block outcomes (.start db) = (.error message, next)) :
    (forwardStep e block outcomes (.start db)).2.committed = next.committed ∧
      (forwardStep e block outcomes (.start db)).2.events =
        next.events ++ if outcomes.throws .rollback then []
          else [{ e with succeed := false }] := by
  unfold forwardStep
  cases hrollback : outcomes.throws .rollback with
  | true =>
      rw [Method.transaction_escapes hconnects hblock hrollback]
      exact ⟨rfl, (List.append_nil _).symm⟩
  | false =>
      rw [Method.transaction_catches hconnects hblock hrollback]
      exact ⟨rfl, rfl⟩

/-- A `try` block that throws before its event announces a failure, if the
rollback succeeds. -/
theorem announces_caught_iff (hconnects : Method.Connects outcomes)
    (hblock : block outcomes (.start db) = (.error message, next))
    (hevents : next.events = []) :
    Announces e Done (forwardStep e block outcomes (.start db)).2 ↔
      outcomes.throws .rollback = false ∧ ¬ Done next.committed := by
  obtain ⟨hcommitted, hput⟩ := @forwardStep_catches _ _ _ e _ _ _ hconnects
    hblock
  rw [hevents, List.nil_append] at hput
  cases hrollback : outcomes.throws .rollback with
  | true =>
      rw [hrollback, if_pos rfl] at hput
      have hnot : (forwardStep e block outcomes
          (.start db)).2.events.length ≠ 1 := by
        rw [hput]
        exact Nat.zero_ne_one
      simp [not_announces_of_length hnot]
  | false =>
      rw [hrollback, if_neg Bool.false_ne_true] at hput
      rw [announces_iff_of_one hput, hcommitted]
      simp

/-- A `try` block that throws after the event of its success announces it only
if the `catch` block does not get to its own event. -/
theorem announces_caughtLate_iff (hconnects : Method.Connects outcomes)
    (hblock : block outcomes (.start db) = (.error message, next))
    (hevents : next.events = [{ e with succeed := true }]) :
    Announces e Done (forwardStep e block outcomes (.start db)).2 ↔
      outcomes.throws .rollback = true ∧ Done next.committed := by
  obtain ⟨hcommitted, hput⟩ := @forwardStep_catches _ _ _ e _ _ _ hconnects
    hblock
  rw [hevents] at hput
  cases hrollback : outcomes.throws .rollback with
  | true =>
      rw [hrollback, if_pos rfl, List.append_nil] at hput
      rw [announces_iff_of_one hput, hcommitted]
      simp
  | false =>
      rw [hrollback, if_neg Bool.false_ne_true] at hput
      have hnot : (forwardStep e block outcomes
          (.start db)).2.events.length ≠ 1 := by
        rw [hput]
        simp
      simp [not_announces_of_length hnot]

end ForwardStep

/-! ## `createOrder` -/

/-- The saga has an order that is NORMAL. -/
def NormalOrder (sagaId : JLong) (db : OrderDb OrderStatus) : Prop :=
  ∃ row, db.select sagaId = some row ∧ row.orderStatus = .normal

/-- The columns of an insertion take these values. -/
def Column (value : JLong) : Prop := ∃ n : ℕ, value = some (n : ℤ)

section CreateOrder

variable {outcomes : SqlOutcomes} {db next : OrderDb OrderStatus}
  {sagaId itemId itemCount payedAmount : JLong}

/-- Nothing of the `try` block gets in the way of its insertion. -/
def OrderInserts (outcomes : SqlOutcomes)
    (sagaId itemId itemCount payedAmount : JLong) : Prop :=
  outcomes.throws .insertRow = false ∧ Column sagaId ∧ Column itemId ∧
    Column itemCount ∧ Column payedAmount

/-- The insertion of `createOrder` for a saga without an order. -/
theorem insertOrder_iff (hnone : db.select sagaId = none)
    (hreturns : outcomes.throws .insertRow = false) :
    (∃ next, OrderDao.insertOrder sagaId itemId itemCount payedAmount
        OrderStatus.normal db = .ok ((), next)) ↔
      OrderInserts outcomes sagaId itemId itemCount payedAmount := by
  constructor
  · rintro ⟨next, hinsert⟩
    obtain ⟨t, i, n, p, rfl, rfl, rfl, rfl, _⟩ :=
      OrderDao.insertOrder_eq_ok hinsert
    exact ⟨hreturns, ⟨t, rfl⟩, ⟨i, rfl⟩, ⟨n, rfl⟩, ⟨p, rfl⟩⟩
  · rintro ⟨_, ⟨t, rfl⟩, ⟨i, rfl⟩, ⟨n, rfl⟩, ⟨p, rfl⟩⟩
    rw [UniqueTable.select_natCast] at hnone
    obtain ⟨next, hinsert, _⟩ := OrderDao.insertOrder_of_fresh hnone
    exact ⟨next, hinsert⟩

theorem normalOrder_of_insert
    (hinsert : OrderDao.insertOrder sagaId itemId itemCount payedAmount
      OrderStatus.normal db = .ok ((), next)) : NormalOrder sagaId next := by
  obtain ⟨t, i, n, p, rfl, rfl, rfl, rfl, hrows⟩ :=
    OrderDao.insertOrder_eq_ok hinsert
  refine ⟨⟨db.nextKey, t, i, n, p, .normal⟩, ?_, rfl⟩
  rw [UniqueTable.select_natCast]
  exact UniqueTable.find_insert_self hrows rfl

theorem not_normalOrder_of_none (hnone : db.select sagaId = none) :
    ¬ NormalOrder sagaId db := by
  rintro ⟨row, hrow, _⟩
  rw [hnone] at hrow
  cases hrow

end CreateOrder

namespace OrderService

section Block

variable {outcomes : SqlOutcomes} {db next : OrderDb OrderStatus}
  {sagaId itemId itemCount payedAmount : JLong}

theorem createOrderBlock_selectThrows
    (hthrows : outcomes.throws .selectRow = true) :
    createOrderBlock sagaId itemId itemCount payedAmount outcomes (.start db) =
      (.error Method.sqlException, .start db) := by
  unfold createOrderBlock
  rw [Method.bind_of_error (Method.sql_throws hthrows _)]

theorem createOrderBlock_found (hselect : outcomes.throws .selectRow = false)
    {row : OrderRow OrderStatus} (hfound : db.select sagaId = some row) :
    createOrderBlock sagaId itemId itemCount payedAmount outcomes (.start db) =
      (.ok true, .start db) := by
  have hread : OrderDao.selectByTxIdForUpdate sagaId db =
      .ok (some row, db) := by
    rw [← hfound]
    rfl
  unfold createOrderBlock
  rw [Method.bind_of_ok (Method.sql_ok hselect hread)]
  rfl

/-- The `try` block for a saga without an order. -/
theorem createOrderBlock_fresh (hselect : outcomes.throws .selectRow = false)
    (hnone : db.select sagaId = none) :
    createOrderBlock sagaId itemId itemCount payedAmount outcomes (.start db) =
      (do
        Method.sql .insertRow (OrderDao.insertOrder sagaId itemId itemCount
          payedAmount OrderStatus.normal)
        Method.commit
        Method.putEvent (createOrderEvent sagaId itemId itemCount)
        return true : Method _ _ _) outcomes (.start db) := by
  have hread : OrderDao.selectByTxIdForUpdate sagaId db = .ok (none, db) := by
    rw [← hnone]
    rfl
  unfold createOrderBlock
  rw [Method.bind_of_ok (Method.sql_ok hselect hread)]
  rfl

theorem createOrderBlock_insertFails
    (hselect : outcomes.throws .selectRow = false)
    (hnone : db.select sagaId = none)
    (hfails : ¬ OrderInserts outcomes sagaId itemId itemCount payedAmount) :
    ∃ message, createOrderBlock sagaId itemId itemCount payedAmount outcomes
      (.start db) = (.error message, .start db) := by
  rw [createOrderBlock_fresh hselect hnone]
  cases hinsert : outcomes.throws .insertRow with
  | true => exact ⟨_, Method.bind_of_error (Method.sql_throws hinsert _) _⟩
  | false =>
      rw [← insertOrder_iff hnone hinsert] at hfails
      cases hbody : OrderDao.insertOrder sagaId itemId itemCount payedAmount
          OrderStatus.normal db with
      | error message =>
          exact ⟨_, Method.bind_of_error (Method.sql_error hinsert hbody) _⟩
      | ok result => exact absurd ⟨result.2, hbody⟩ hfails

/-- The insertion succeeds, and the commit decides. -/
theorem createOrderBlock_inserts
    (hselect : outcomes.throws .selectRow = false)
    (hnone : db.select sagaId = none)
    (hinserts : OrderInserts outcomes sagaId itemId itemCount payedAmount) :
    ∃ next, OrderDao.insertOrder sagaId itemId itemCount payedAmount
        OrderStatus.normal db = .ok ((), next) ∧
      createOrderBlock sagaId itemId itemCount payedAmount outcomes
          (.start db) =
        if outcomes.throws .commit then
          (.error Method.sqlException,
            ⟨if outcomes.applied then next else db, next, []⟩)
        else
          (.ok true, ⟨next, next,
            [createOrderEvent sagaId itemId itemCount]⟩) := by
  obtain ⟨next, hbody⟩ := (insertOrder_iff hnone hinserts.1).mpr hinserts
  refine ⟨next, hbody, ?_⟩
  rw [createOrderBlock_fresh hselect hnone,
    Method.bind_of_ok (Method.sql_ok hinserts.1 hbody)]
  cases hcommit : outcomes.throws .commit with
  | true => exact Method.bind_of_error (Method.commit_throws hcommit) _
  | false => exact Method.bind_of_ok (Method.commit_returns hcommit) _

end Block

/-- The state that `createOrder` leaves, in a call of its own. -/
def createOrderState (outcomes : SqlOutcomes)
    (sagaId itemId itemCount payedAmount : JLong) (db : OrderDb OrderStatus) :
    CallState (OrderDb OrderStatus) Event :=
  (createOrderMethod sagaId itemId itemCount payedAmount outcomes
    (.start db)).2

/-- When a call of `createOrder` announces its outcome: the connection opens;
if the order cannot be read, the rollback succeeds and there is no NORMAL order;
if it can be read, there is none, and where the insertion fails or the commit
throws, the rollback succeeds and the commit was not applied. -/
def CreateOrderAnnounces (outcomes : SqlOutcomes)
    (sagaId itemId itemCount payedAmount : JLong)
    (db : OrderDb OrderStatus) : Prop :=
  Method.Connects outcomes ∧
    (outcomes.throws .selectRow = true →
      outcomes.throws .rollback = false ∧ ¬ NormalOrder sagaId db) ∧
    (outcomes.throws .selectRow = false →
      db.select sagaId = none ∧
      (¬ OrderInserts outcomes sagaId itemId itemCount payedAmount →
        outcomes.throws .rollback = false) ∧
      (OrderInserts outcomes sagaId itemId itemCount payedAmount →
        outcomes.throws .commit = true →
        outcomes.applied = false ∧ outcomes.throws .rollback = false))

section Announces

variable (outcomes : SqlOutcomes) (sagaId itemId itemCount payedAmount : JLong)
  (db : OrderDb OrderStatus)

/-- A call that inserts the order announces it, unless the commit throws. -/
theorem createOrder_inserts_iff (hconnects : Method.Connects outcomes)
    (hselect : outcomes.throws .selectRow = false)
    (hnone : db.select sagaId = none)
    (hinserts : OrderInserts outcomes sagaId itemId itemCount payedAmount) :
    Announces (createOrderEvent sagaId itemId itemCount) (NormalOrder sagaId)
        (createOrderState outcomes sagaId itemId itemCount payedAmount db) ↔
      CreateOrderAnnounces outcomes sagaId itemId itemCount payedAmount db := by
  have hno := not_normalOrder_of_none hnone
  obtain ⟨next, hbody, hblock⟩ :=
    createOrderBlock_inserts hselect hnone hinserts
  have hdone := normalOrder_of_insert hbody
  unfold createOrderState createOrderMethod CreateOrderAnnounces
  cases hcommit : outcomes.throws .commit with
  | true =>
      rw [hcommit, if_pos rfl] at hblock
      rw [announces_caught_iff hconnects hblock rfl]
      cases happlied : outcomes.applied with
      | true => simp [hdone, hselect, hinserts]
      | false => simp [hno, hselect, hinserts, hconnects, hnone]
  | false =>
      rw [hcommit, if_neg Bool.false_ne_true] at hblock
      rw [forwardStep_returns hconnects hblock,
        announces_iff_of_one (show _ = [_] from rfl)]
      simp [hdone, hselect, hinserts, hconnects, hnone]

theorem createOrder_announces_iff :
    Announces (createOrderEvent sagaId itemId itemCount) (NormalOrder sagaId)
        (createOrderState outcomes sagaId itemId itemCount payedAmount db) ↔
      CreateOrderAnnounces outcomes sagaId itemId itemCount payedAmount db := by
  by_cases hconnects : Method.Connects outcomes
  swap
  · have hnot := @forwardStep_not_connects _ _ db
      (createOrderEvent sagaId itemId itemCount) (NormalOrder sagaId)
      (createOrderBlock sagaId itemId itemCount payedAmount) hconnects
    simp [createOrderState, createOrderMethod, hnot, CreateOrderAnnounces,
      hconnects]
  by_cases hselect : outcomes.throws .selectRow = true
  · have hblock := @createOrderBlock_selectThrows outcomes db sagaId itemId
      itemCount payedAmount hselect
    unfold createOrderState createOrderMethod
    rw [announces_caught_iff hconnects hblock rfl]
    simp [CreateOrderAnnounces, hconnects, hselect, CallState.start]
  rw [Bool.not_eq_true] at hselect
  by_cases hnone : db.select sagaId = none
  swap
  · obtain ⟨row, hfound⟩ := Option.ne_none_iff_exists'.mp hnone
    have hblock := @createOrderBlock_found outcomes db sagaId itemId
      itemCount payedAmount hselect row hfound
    have hnot : ¬ Announces (createOrderEvent sagaId itemId itemCount)
        (NormalOrder sagaId) (createOrderState outcomes sagaId itemId itemCount
          payedAmount db) := by
      unfold createOrderState createOrderMethod
      rw [forwardStep_returns hconnects hblock]
      exact not_announces_of_length Nat.zero_ne_one
    simp [hnot, CreateOrderAnnounces, hselect, hnone]
  by_cases hinserts : OrderInserts outcomes sagaId itemId itemCount payedAmount
  · exact createOrder_inserts_iff outcomes sagaId itemId itemCount
      payedAmount db hconnects hselect hnone hinserts
  · obtain ⟨message, hblock⟩ :=
      createOrderBlock_insertFails hselect hnone hinserts
    have hno := not_normalOrder_of_none hnone
    unfold createOrderState createOrderMethod
    rw [announces_caught_iff hconnects hblock rfl]
    simp [CreateOrderAnnounces, hconnects, CallState.start, hselect, hnone,
      hinserts, hno]

end Announces

end OrderService

/-! ## `deductStock` -/

/-- The saga has a reservation that is NORMAL. -/
def NormalReserve (sagaId : JLong) (db : ItemStockDb) : Prop :=
  ∃ row, db.reserves.select sagaId = some row ∧ row.reserveStatus = .normal

theorem not_normalReserve_of_none {sagaId : JLong} {db : ItemStockDb}
    (hnone : db.reserves.select sagaId = none) :
    ¬ NormalReserve sagaId db := by
  rintro ⟨row, hrow, _⟩
  rw [hnone] at hrow
  cases hrow

namespace ItemStockService

/-- The item can be read and has the quantity. -/
def InStock (itemId stock : JLong) (db : ItemStockDb) : Prop :=
  ∃ (i : ℕ) (row : ItemRow) (quantity : ℤ), itemId = some (i : ℤ) ∧
    db.items i = some row ∧ row.Readable ∧ stock = some quantity ∧
    quantity ≤ row.stock

/-- The reservation of the saga is read. -/
def ReadsRow (outcomes : SqlOutcomes) (itemId stock : JLong)
    (db : ItemStockDb) : Prop :=
  outcomes.throws .selectItem = false ∧ InStock itemId stock db ∧
    outcomes.throws .selectRow = false

/-- Nothing gets in the way of a fresh reservation. -/
def Reserves (outcomes : SqlOutcomes) (sagaId stock : JLong) : Prop :=
  outcomes.throws .insertRow = false ∧ outcomes.throws .updateItem = false ∧
    Column sagaId ∧ Column stock

section Block

variable {outcomes : SqlOutcomes} {db : ItemStockDb}
  {sagaId itemId stock : JLong}

theorem checkStock_eq_ok_iff {item? : Option Item} {stock : JLong}
    {item : Item} {quantity : ℤ} :
    checkStock item? stock = .ok (item, quantity) ↔
      item? = some item ∧ stock = some quantity ∧ quantity ≤ item.stock := by
  cases item? with
  | none => simp [checkStock]
  | some found =>
      simp only [checkStock, except_bind_eq_ok_iff, unbox_eq_ok_iff]
      constructor
      · rintro ⟨need, rfl, hif⟩
        by_cases hshort : found.stock < need
        · rw [if_pos hshort] at hif
          cases hif
        · rw [if_neg hshort] at hif
          cases hif
          exact ⟨rfl, rfl, not_lt.mp hshort⟩
      · rintro ⟨hitem, rfl, hle⟩
        cases hitem
        exact ⟨quantity, rfl, if_neg (not_lt.mpr hle)⟩

/-- The `try` block up to the reservation, for an item that is in stock. -/
theorem deductStockBlock_inStock (hitem : outcomes.throws .selectItem = false)
    {i : ℕ} {row : ItemRow} {quantity : ℤ} (hrow : db.items i = some row)
    (hreadable : row.Readable) (hle : quantity ≤ row.stock) :
    deductStockBlock sagaId (some (i : ℤ)) (some quantity) outcomes
        (.start db) =
      deductStockRow sagaId (some (i : ℤ))
        { itemId := i, price := row.price, stock := row.stock } quantity
        outcomes (.start db) := by
  have hread : ItemDao.selectByIdForUpdate (some (i : ℤ)) db =
      .ok (some { itemId := i, price := row.price, stock := row.stock }, db) :=
    Statements.read_eq_ok_iff.mpr
      ⟨ItemDao.selectById_of_readable hrow hreadable, rfl⟩
  have hchecked : checkStock
      (some { itemId := (i : ℤ), price := row.price, stock := row.stock })
      (some quantity) = .ok (_, quantity) :=
    checkStock_eq_ok_iff.mpr ⟨rfl, rfl, hle⟩
  unfold deductStockBlock
  rw [Method.bind_of_ok (Method.sql_ok hitem hread),
    Method.bind_of_ok (show Method.check _ outcomes _ = (.ok _, _) from
      congrArg (·, _) hchecked)]
  rfl

/-- The `try` block ends with an exception before the reservation is read. -/
theorem deductStockBlock_not_reads
    (hnot : ¬ ReadsRow outcomes itemId stock db) :
    ∃ message, deductStockBlock sagaId itemId stock outcomes (.start db) =
      (.error message, .start db) := by
  cases hitem : outcomes.throws .selectItem with
  | true => exact ⟨_, Method.bind_of_error (Method.sql_throws hitem _) _⟩
  | false =>
      cases hread : ItemDao.selectByIdForUpdate itemId db with
      | error message =>
          exact ⟨_, Method.bind_of_error (Method.sql_error hitem hread) _⟩
      | ok result =>
          obtain ⟨item?, same⟩ := result
          obtain ⟨hselect, rfl⟩ := ItemDao.selectByIdForUpdate_eq_ok hread
          cases hchecked : checkStock item? stock with
          | error message =>
              unfold deductStockBlock
              rw [Method.bind_of_ok (Method.sql_ok hitem hread)]
              exact ⟨message, Method.bind_of_error
                (congrArg (·, _) hchecked) _⟩
          | ok checked =>
              obtain ⟨rfl, rfl, hle⟩ := checkStock_eq_ok_iff.mp hchecked
              obtain ⟨i, row, rfl, hrow, hreadable, hread⟩ :=
                ItemDao.selectById_eq_some hselect
              rw [hread] at hle
              rw [deductStockBlock_inStock hitem hrow hreadable hle]
              cases hselectRow : outcomes.throws .selectRow with
              | true =>
                  exact ⟨_, Method.bind_of_error
                    (Method.sql_throws hselectRow _) _⟩
              | false =>
                  exact absurd ⟨hitem, ⟨i, row, _, rfl, hrow, hreadable, rfl,
                    hle⟩, hselectRow⟩ hnot

/-- A saga that has a row already announces its success again. -/
theorem deductStockRow_found (hselect : outcomes.throws .selectRow = false)
    {reserve : ReserveRow ReserveStatus}
    (hfound : db.reserves.select sagaId = some reserve) (item : Item)
    (quantity : ℤ) :
    deductStockRow sagaId itemId item quantity outcomes (.start db) =
      (.ok true, ⟨db, db, [deductStockEvent sagaId itemId (some quantity)]⟩) := by
  have hread : ItemReserveStockDao.selectByTxIdForUpdate sagaId db =
      .ok (some reserve, db) := by
    rw [← hfound]
    rfl
  unfold deductStockRow
  rw [Method.bind_of_ok (Method.sql_ok hselect hread)]
  rfl

/-- The two writes and the event of a fresh reservation, before its commit. -/
theorem deductStockRow_fresh (hselect : outcomes.throws .selectRow = false)
    (hnone : db.reserves.select sagaId = none) (item : Item) (quantity : ℤ) :
    deductStockRow sagaId itemId item quantity outcomes (.start db) =
      (do
        Method.sql .insertRow (ItemReserveStockDao.insertItemReserveStock
          sagaId itemId quantity ReserveStatus.normal)
        Method.sql .updateItem
          (ItemDao.updateItemStock itemId (wrap64 (item.stock - quantity)))
        Method.putEvent (deductStockEvent sagaId itemId (some quantity))
        Method.commit
        return true : Method _ _ _) outcomes (.start db) := by
  have hread : ItemReserveStockDao.selectByTxIdForUpdate sagaId db =
      .ok (none, db) := by
    rw [← hnone]
    rfl
  unfold deductStockRow
  rw [Method.bind_of_ok (Method.sql_ok hselect hread)]
  rfl

theorem deductStockRow_writeFails
    (hselect : outcomes.throws .selectRow = false)
    (hnone : db.reserves.select sagaId = none) (item : Item) {quantity : ℤ}
    (hfails : ¬ Reserves outcomes sagaId (some quantity)) :
    ∃ message working,
      deductStockRow sagaId itemId item quantity outcomes (.start db) =
        (.error message, ⟨db, working, []⟩) := by
  rw [deductStockRow_fresh hselect hnone]
  cases hinsert : outcomes.throws .insertRow with
  | true =>
      exact ⟨_, _, Method.bind_of_error (Method.sql_throws hinsert _) _⟩
  | false =>
      cases hbody : ItemReserveStockDao.insertItemReserveStock sagaId itemId
          quantity ReserveStatus.normal db with
      | error message =>
          exact ⟨_, _, Method.bind_of_error (Method.sql_error hinsert hbody) _⟩
      | ok result =>
          obtain ⟨t, i, n, reserves, rfl, rfl, rfl, _, _⟩ :=
            ItemReserveStockDao.insertItemReserveStock_eq_ok hbody
          rw [Method.bind_of_ok (Method.sql_ok hinsert hbody)]
          cases hupdate : outcomes.throws .updateItem with
          | true =>
              exact ⟨_, _, Method.bind_of_error
                (Method.sql_throws hupdate _) _⟩
          | false =>
              exact absurd ⟨hinsert, hupdate, ⟨t, rfl⟩, ⟨n, rfl⟩⟩ hfails

/-- A fresh reservation of a quantity in stock; its event is put before the
commit decides. -/
theorem deductStockBlock_reserves (hitem : outcomes.throws .selectItem = false)
    (hselect : outcomes.throws .selectRow = false)
    (hinStock : InStock itemId stock db)
    (hnone : db.reserves.select sagaId = none)
    (hreserves : Reserves outcomes sagaId stock) :
    ∃ next, ItemStockService.deductStock sagaId itemId stock db =
        .ok (.committed true, next) ∧
      deductStockBlock sagaId itemId stock outcomes (.start db) =
        if outcomes.throws .commit then
          (.error Method.sqlException,
            ⟨if outcomes.applied then next else db, next,
              [deductStockEvent sagaId itemId stock]⟩)
        else
          (.ok true, ⟨next, next, [deductStockEvent sagaId itemId stock]⟩) := by
  obtain ⟨i, row, _, rfl, hrow, hreadable, rfl, hle⟩ := hinStock
  obtain ⟨hinsert, hupdate, ⟨t, rfl⟩, ⟨n, hn⟩⟩ := hreserves
  cases hn
  rw [UniqueTable.select_natCast] at hnone
  have hle' : n ≤ row.stock := by exact_mod_cast hle
  obtain ⟨reserves, next, hinserted, hupdated⟩ :=
    @reserveRow_ok _ ReserveStatus.normal t i n db row hrow hreadable hle' hnone
  refine ⟨next, reserveStock_of_writes hrow hreadable hle' hnone hinserted
    hupdated, ?_⟩
  rw [deductStockBlock_inStock hitem hrow hreadable hle,
    deductStockRow_fresh hselect (by rw [UniqueTable.select_natCast, hnone]),
    Method.bind_of_ok (Method.sql_ok hinsert hinserted),
    Method.bind_of_ok (Method.sql_ok hupdate hupdated),
    Method.bind_of_ok (show Method.putEvent _ outcomes _ = (.ok (), _) from rfl)]
  cases hcommit : outcomes.throws .commit with
  | true => exact Method.bind_of_error (Method.commit_throws hcommit) _
  | false => exact Method.bind_of_ok (Method.commit_returns hcommit) _

end Block

theorem normalReserve_of_deductStock {db next : ItemStockDb}
    {sagaId itemId stock : JLong}
    (hbody : deductStock sagaId itemId stock db =
      .ok (.committed true, next)) : NormalReserve sagaId next := by
  rcases reserveStock_eq_ok hbody with
    ⟨hexit, _⟩ | ⟨t, i, n, row, reserves, rfl, _, _, _, _, _, _, hinsert, rfl⟩
  · cases hexit
  · refine ⟨⟨db.reserves.nextKey, t, i, n, .normal⟩, ?_, rfl⟩
    rw [UniqueTable.select_natCast]
    exact UniqueTable.find_insert_self hinsert rfl

/-- The state that `deductStock` leaves, in a call of its own. -/
def deductStockState (outcomes : SqlOutcomes) (sagaId itemId stock : JLong)
    (db : ItemStockDb) : CallState ItemStockDb Event :=
  (deductStockMethod sagaId itemId stock outcomes (.start db)).2

/-- When a call of `deductStock` announces its outcome: the connection opens; if
the reservation is not read, the rollback succeeds and there is no NORMAL
reservation; if it is read and is there, it is NORMAL; if it is not there, the
rollback succeeds where a write fails, and a commit that throws was applied and
the rollback throws as well. -/
def DeductStockAnnounces (outcomes : SqlOutcomes)
    (sagaId itemId stock : JLong) (db : ItemStockDb) : Prop :=
  Method.Connects outcomes ∧
    (¬ ReadsRow outcomes itemId stock db →
      outcomes.throws .rollback = false ∧ ¬ NormalReserve sagaId db) ∧
    (ReadsRow outcomes itemId stock db →
      (db.reserves.select sagaId ≠ none → NormalReserve sagaId db) ∧
      (db.reserves.select sagaId = none →
        (¬ Reserves outcomes sagaId stock →
          outcomes.throws .rollback = false) ∧
        (Reserves outcomes sagaId stock → outcomes.throws .commit = true →
          outcomes.applied = true ∧ outcomes.throws .rollback = true)))

section Announces

variable (outcomes : SqlOutcomes) (sagaId itemId stock : JLong)
  (db : ItemStockDb)

/-- A call that finds no reservation announces what its writes and its commit
come to. -/
theorem deductStock_fresh_iff (hconnects : Method.Connects outcomes)
    (hreads : ReadsRow outcomes itemId stock db)
    (hnone : db.reserves.select sagaId = none) :
    Announces (deductStockEvent sagaId itemId stock) (NormalReserve sagaId)
        (deductStockState outcomes sagaId itemId stock db) ↔
      DeductStockAnnounces outcomes sagaId itemId stock db := by
  have hno := not_normalReserve_of_none hnone
  unfold deductStockState deductStockMethod DeductStockAnnounces
  by_cases hreserves : Reserves outcomes sagaId stock
  · obtain ⟨next, hbody, hblock⟩ := deductStockBlock_reserves hreads.1
      hreads.2.2 hreads.2.1 hnone hreserves
    have hdone := normalReserve_of_deductStock hbody
    cases hcommit : outcomes.throws .commit with
    | true =>
        rw [hcommit, if_pos rfl] at hblock
        rw [announces_caughtLate_iff hconnects hblock rfl]
        cases happlied : outcomes.applied with
        | true => simp [hdone, hreads, hreserves, hconnects, hnone]
        | false => simp [hno, hreads, hreserves, hnone]
    | false =>
        rw [hcommit, if_neg Bool.false_ne_true] at hblock
        rw [forwardStep_returns hconnects hblock,
          announces_iff_of_one (show _ = [_] from rfl)]
        simp [hdone, hreads, hreserves, hconnects, hnone]
  · obtain ⟨i, row, quantity, rfl, hrow, hreadable, rfl, hle⟩ := hreads.2.1
    obtain ⟨message, working, hrest⟩ := @deductStockRow_writeFails outcomes db
      sagaId (some (i : ℤ)) hreads.2.2 hnone
      { itemId := i, price := row.price, stock := row.stock } quantity hreserves
    have hblock := (@deductStockBlock_inStock outcomes db sagaId hreads.1 i row
      quantity hrow hreadable hle).trans hrest
    rw [announces_caught_iff hconnects hblock rfl]
    simp [hno, hreads, hreserves, hconnects, hnone]

theorem deductStock_announces_iff :
    Announces (deductStockEvent sagaId itemId stock) (NormalReserve sagaId)
        (deductStockState outcomes sagaId itemId stock db) ↔
      DeductStockAnnounces outcomes sagaId itemId stock db := by
  by_cases hconnects : Method.Connects outcomes
  swap
  · have hnot := @forwardStep_not_connects _ _ db
      (deductStockEvent sagaId itemId stock) (NormalReserve sagaId)
      (deductStockBlock sagaId itemId stock) hconnects
    simp [deductStockState, deductStockMethod, hnot, DeductStockAnnounces,
      hconnects]
  by_cases hreads : ReadsRow outcomes itemId stock db
  swap
  · obtain ⟨message, hblock⟩ := @deductStockBlock_not_reads outcomes db sagaId
      itemId stock hreads
    unfold deductStockState deductStockMethod
    rw [announces_caught_iff hconnects hblock rfl]
    simp [DeductStockAnnounces, hconnects, hreads, CallState.start]
  by_cases hnone : db.reserves.select sagaId = none
  · exact deductStock_fresh_iff outcomes sagaId itemId stock db hconnects
      hreads hnone
  · obtain ⟨reserve, hfound⟩ := Option.ne_none_iff_exists'.mp hnone
    obtain ⟨i, row, quantity, rfl, hrow, hreadable, rfl, hle⟩ := hreads.2.1
    have hrest := @deductStockRow_found outcomes db sagaId (some (i : ℤ))
      hreads.2.2 reserve hfound
      { itemId := i, price := row.price, stock := row.stock } quantity
    have hblock := (@deductStockBlock_inStock outcomes db sagaId hreads.1 i row
      quantity hrow hreadable hle).trans hrest
    unfold deductStockState deductStockMethod
    rw [forwardStep_returns hconnects hblock,
      announces_iff_of_one (show _ = [_] from rfl)]
    simp [DeductStockAnnounces, hconnects, hreads, hnone]

end Announces

end ItemStockService

/-- Each forward step announces its outcome by one event exactly under its
condition. -/
theorem forwardSteps_announce_iff (outcomes : SqlOutcomes)
    (sagaId itemId itemCount payedAmount : JLong)
    (orders : OrderDb OrderStatus) (stock : ItemStockDb) :
    (Announces (OrderService.createOrderEvent sagaId itemId itemCount)
        (NormalOrder sagaId) (OrderService.createOrderState outcomes sagaId
          itemId itemCount payedAmount orders) ↔
      OrderService.CreateOrderAnnounces outcomes sagaId itemId itemCount
        payedAmount orders) ∧
    (Announces (ItemStockService.deductStockEvent sagaId itemId itemCount)
        (NormalReserve sagaId) (ItemStockService.deductStockState outcomes
          sagaId itemId itemCount stock) ↔
      ItemStockService.DeductStockAnnounces outcomes sagaId itemId itemCount
        stock) := by
  constructor
  · exact OrderService.createOrder_announces_iff outcomes sagaId itemId
      itemCount payedAmount orders
  · exact ItemStockService.deductStock_announces_iff outcomes sagaId itemId
      itemCount stock

/-- A commit of `deductStock` that throws, and nothing else does. -/
def commitThrows : SqlOutcomes where
  throws call := call == .commit
  applied := false

/-- The commit throws after the event of the success was put. -/
theorem not_forwardSteps_announce :
    ¬ ∀ (outcomes : SqlOutcomes) (sagaId itemId itemCount payedAmount : JLong)
      (orders : OrderDb OrderStatus) (stock : ItemStockDb),
      Announces (OrderService.createOrderEvent sagaId itemId itemCount)
          (NormalOrder sagaId) (OrderService.createOrderState outcomes sagaId
            itemId itemCount payedAmount orders) ∧
        Announces (ItemStockService.deductStockEvent sagaId itemId itemCount)
          (NormalReserve sagaId) (ItemStockService.deductStockState outcomes
            sagaId itemId itemCount stock) := by
  intro hannounces
  have hdeduct := (hannounces commitThrows (some 1) (some 0) (some 1)
    (some 100) (.empty _) oneItem.db.stock).2
  have htwo : (ItemStockService.deductStockState commitThrows (some 1) (some 0)
      (some 1) oneItem.db.stock).events.length = 2 := rfl
  have hne : (ItemStockService.deductStockState commitThrows (some 1) (some 0)
      (some 1) oneItem.db.stock).events.length ≠ 1 := by
    rw [htwo]
    decide
  exact not_announces_of_length hne hdeduct

/-! ## The calls are runs of the tasks -/

section Refinement

variable {e : Event} {db : Db}

theorem Task.createOrder_runs {fault : Fault} {orders : OrderDb OrderStatus}
    {succeed : Bool}
    (hcall : callService (OrderService.createOrder e.sagaId e.itemId
      e.itemCount (some 100)) (some false) fault db.orders =
      (orders, some (some succeed))) :
    (Task.createOrder e).runs [fault, .none] db =
      ({ db with orders := orders }, [e.outcome .createOrder succeed],
        none) := by
  simp only [Task.runs, Task.step, Task.resume, hcall, Option.bind_some,
    Option.map_some, Option.toList_none, Option.toList_some, List.nil_append]

theorem Task.createOrder_runs_silent {fault : Fault}
    {orders : OrderDb OrderStatus} {result : Option (Option Bool)}
    (hcall : callService (OrderService.createOrder e.sagaId e.itemId
      e.itemCount (some 100)) (some false) fault db.orders = (orders, result))
    (hsilent : result = none ∨ result = some none) :
    (Task.createOrder e).runs [fault] db =
      ({ db with orders := orders }, [], none) := by
  rcases hsilent with rfl | rfl
  · simp only [Task.runs, Task.step, Task.resume, hcall, Option.bind_none,
      Option.toList_none]
  · simp only [Task.runs, Task.step, Task.resume, hcall, Option.bind_some,
      Option.map_none, Option.toList_none]

/-- A `try` block of `createOrder` that throws: the two ways to go on are two
faults of the task. -/
theorem OrderService.createOrder_refines_caught {outcomes : SqlOutcomes}
    {message : String} {committed working : OrderDb OrderStatus}
    {thrown escaped : Fault} (hconnects : Method.Connects outcomes)
    (hblock : createOrderBlock e.sagaId e.itemId e.itemCount (some 100) outcomes
      (.start db.orders) = (.error message, ⟨committed, working, []⟩))
    (hthrown : callService (createOrder e.sagaId e.itemId e.itemCount
      (some 100)) (some false) thrown db.orders = (committed, some (some false)))
    (hescaped : callService (createOrder e.sagaId e.itemId e.itemCount
      (some 100)) (some false) escaped db.orders = (committed, none)) :
    ∃ faults, (Task.createOrder e).runs faults db =
      ({ db with
          orders := (createOrderState outcomes e.sagaId e.itemId e.itemCount
            (some 100) db.orders).committed },
        (createOrderState outcomes e.sagaId e.itemId e.itemCount (some 100)
          db.orders).events, none) := by
  obtain ⟨hcommitted, hput⟩ := @forwardStep_catches _ _ _
    (createOrderEvent e.sagaId e.itemId e.itemCount) _ _ _ hconnects hblock
  unfold createOrderState createOrderMethod
  rw [hcommitted, hput]
  cases outcomes.throws .rollback with
  | true => exact ⟨[escaped], Task.createOrder_runs_silent hescaped (.inl rfl)⟩
  | false => exact ⟨[thrown, .none], Task.createOrder_runs hthrown⟩

/-- A call of `createOrder` is a run of its task. -/
theorem OrderService.createOrder_refines (outcomes : SqlOutcomes) (e : Event)
    (db : Db) :
    ∃ faults, (Task.createOrder e).runs faults db =
      ({ db with
          orders := (createOrderState outcomes e.sagaId e.itemId e.itemCount
            (some 100) db.orders).committed },
        (createOrderState outcomes e.sagaId e.itemId e.itemCount (some 100)
          db.orders).events, none) := by
  by_cases hconnects : Method.Connects outcomes
  swap
  · unfold createOrderState createOrderMethod forwardStep
    rw [Method.transaction_not_connects hconnects]
    exact ⟨[.escape false], Task.createOrder_runs_silent
      (callService_escape_false _ _ _) (.inl rfl)⟩
  by_cases hselect : outcomes.throws .selectRow = true
  · exact createOrder_refines_caught hconnects
      (createOrderBlock_selectThrows hselect) (callService_statement _ _ _)
      (callService_escape_false _ _ _)
  rw [Bool.not_eq_true] at hselect
  by_cases hnone : db.orders.select e.sagaId = none
  swap
  · obtain ⟨row, hfound⟩ := Option.ne_none_iff_exists'.mp hnone
    have hblock := @createOrderBlock_found outcomes db.orders e.sagaId e.itemId
      e.itemCount (some 100) hselect row hfound
    have hcall : callService (createOrder e.sagaId e.itemId e.itemCount
        (some 100)) (some false) .none db.orders =
        (db.orders, some none) := by
      have hbody : createOrder e.sagaId e.itemId e.itemCount (some 100)
          db.orders = .ok (.returned none, db.orders) :=
        openOrder_found hfound _ _ _
      simp [callService, hbody]
    unfold createOrderState createOrderMethod
    rw [forwardStep_returns hconnects hblock]
    exact ⟨[.none], Task.createOrder_runs_silent hcall (.inr rfl)⟩
  by_cases hinserts : OrderInserts outcomes e.sagaId e.itemId e.itemCount
    (some 100)
  swap
  · obtain ⟨message, hblock⟩ :=
      createOrderBlock_insertFails hselect hnone hinserts
    exact createOrder_refines_caught hconnects hblock
      (callService_statement _ _ _) (callService_escape_false _ _ _)
  obtain ⟨next, hinsert, hblock⟩ :=
    createOrderBlock_inserts hselect hnone hinserts
  have hbody : createOrder e.sagaId e.itemId e.itemCount (some 100)
      db.orders = .ok (.committed (some true), next) := by
    refine Statements.bind_eq_ok_iff.mpr ⟨none, db.orders,
      Statements.read_eq_ok_iff.mpr ⟨by rw [hnone], rfl⟩, ?_⟩
    exact Statements.bind_eq_ok_iff.mpr ⟨(), next, hinsert, rfl⟩
  cases hcommit : outcomes.throws .commit with
  | true =>
      rw [hcommit, if_pos rfl] at hblock
      exact createOrder_refines_caught hconnects hblock
        (callService_commit_eq _ hbody outcomes.applied)
        (callService_escape_eq _ hbody outcomes.applied)
  | false =>
      rw [hcommit, if_neg Bool.false_ne_true] at hblock
      unfold createOrderState createOrderMethod
      rw [forwardStep_returns hconnects hblock]
      exact ⟨[.none, .none], Task.createOrder_runs
        (callService_none_eq _ hbody)⟩

/-- A `try` block of `deductStock` that throws before its event. -/
theorem ItemStockService.deductStock_refines_caught {outcomes : SqlOutcomes}
    {message : String} {working : ItemStockDb}
    (hconnects : Method.Connects outcomes)
    (hblock : deductStockBlock e.sagaId e.itemId e.itemCount outcomes
      (.start db.stock) = (.error message, ⟨db.stock, working, []⟩)) :
    ∃ faults, (Task.deductStock e).runs faults db =
      ({ db with
          stock := (deductStockState outcomes e.sagaId e.itemId e.itemCount
            db.stock).committed },
        (deductStockState outcomes e.sagaId e.itemId e.itemCount
          db.stock).events, none) := by
  obtain ⟨hcommitted, hput⟩ := @forwardStep_catches _ _ _
    (deductStockEvent e.sagaId e.itemId e.itemCount) _ _ _ hconnects hblock
  unfold deductStockState deductStockMethod
  rw [hcommitted, hput]
  cases outcomes.throws .rollback with
  | true => exact ⟨[.escape false], rfl⟩
  | false => exact ⟨[.statement, .none], rfl⟩

/-- The task of `deductStock` up to its commit, which decides. -/
theorem Task.deductStock_runs {stock : ItemStockDb} {fault : Fault}
    {faults : List Fault}
    (hbody : ItemStockService.deductStock e.sagaId e.itemId e.itemCount
      db.stock = .ok (.committed true, stock)) :
    (Task.deductStock e).runs (.none :: .none :: fault :: faults) db =
      (((Task.commitDeductStock e).runs (fault :: faults) db).1,
        e.outcome .deductStock true ::
          ((Task.commitDeductStock e).runs (fault :: faults) db).2.1,
        ((Task.commitDeductStock e).runs (fault :: faults) db).2.2) := by
  have hfirst : (Task.deductStock e).step .none db =
      ⟨db, none, some (.putEventInDeduct e)⟩ := by
    simp only [Task.step, Task.beginDeductStock, hbody, Task.afterDeductStock]
  have hsecond : (Task.putEventInDeduct e).step .none db =
      ⟨db, some (e.outcome .deductStock true),
        some (.commitDeductStock e)⟩ := rfl
  rw [Task.runs_next hfirst, Task.runs_next hsecond]
  rfl

/-- A commit of `deductStock` that does not throw. -/
theorem Task.commitDeductStock_runs {stock : ItemStockDb}
    (hbody : ItemStockService.deductStock e.sagaId e.itemId e.itemCount
      db.stock = .ok (.committed true, stock)) :
    (Task.commitDeductStock e).runs [.none] db =
      ({ db with stock := stock }, [], none) := by
  have hcall := callService_none_eq false hbody
  simp only [Task.runs, Task.step, Task.resume, hcall, Option.bind_some,
    if_true, Option.toList_none]

/-- A commit of `deductStock` that throws. -/
theorem Task.commitDeductStock_runs_throws {stock : ItemStockDb}
    (hbody : ItemStockService.deductStock e.sagaId e.itemId e.itemCount
      db.stock = .ok (.committed true, stock)) (applied rollbackThrows : Bool) :
    ∃ faults fault, (Task.commitDeductStock e).runs (fault :: faults) db =
      ({ db with stock := if applied then stock else db.stock },
        if rollbackThrows then [] else [e.outcome .deductStock false],
        none) := by
  cases rollbackThrows with
  | true =>
      have hcall := callService_escape_eq false hbody applied
      refine ⟨[], .escape applied, ?_⟩
      simp only [Task.runs, Task.step, Task.resume, hcall, Option.bind_none,
        Option.toList_none, if_true]
  | false =>
      have hcall := callService_commit_eq false hbody applied
      refine ⟨[.none], .commit applied, ?_⟩
      simp only [Task.runs, Task.step, Task.resume, hcall, Option.bind_some,
        Option.toList_none, Option.toList_some, List.nil_append,
        Bool.false_eq_true, if_false]

/-- A call of `deductStock` is a run of its task. -/
theorem ItemStockService.deductStock_refines (outcomes : SqlOutcomes)
    (e : Event) (db : Db) :
    ∃ faults, (Task.deductStock e).runs faults db =
      ({ db with
          stock := (deductStockState outcomes e.sagaId e.itemId e.itemCount
            db.stock).committed },
        (deductStockState outcomes e.sagaId e.itemId e.itemCount
          db.stock).events, none) := by
  by_cases hconnects : Method.Connects outcomes
  swap
  · unfold deductStockState deductStockMethod forwardStep
    rw [Method.transaction_not_connects hconnects]
    exact ⟨[.escape false], rfl⟩
  by_cases hreads : ReadsRow outcomes e.itemId e.itemCount db.stock
  swap
  · obtain ⟨message, hblock⟩ := @deductStockBlock_not_reads outcomes db.stock
      e.sagaId e.itemId e.itemCount hreads
    exact deductStock_refines_caught hconnects hblock
  obtain ⟨i, row, quantity, hi, hrow, hreadable, hquantity, hle⟩ := hreads.2.1
  have hinStock := @deductStockBlock_inStock outcomes db.stock e.sagaId hreads.1
    i row quantity hrow hreadable hle
  rw [← hi, ← hquantity] at hinStock
  by_cases hnone : db.stock.reserves.select e.sagaId = none
  swap
  · obtain ⟨reserve, hfound⟩ := Option.ne_none_iff_exists'.mp hnone
    have hblock := hinStock.trans
      (deductStockRow_found hreads.2.2 hfound _ quantity)
    have hbody : deductStock e.sagaId e.itemId e.itemCount db.stock =
        .ok (.returned true, db.stock) := by
      rw [hi, hquantity]
      exact reserveStock_found hrow hreadable hle hfound
    unfold deductStockState deductStockMethod
    rw [forwardStep_returns hconnects hblock, ← hquantity]
    refine ⟨[.none, .none], ?_⟩
    simp only [Task.runs, Task.step, Task.beginDeductStock, hbody,
      Task.afterDeductStock, Option.toList_none, Option.toList_some,
      List.nil_append]
    rfl
  by_cases hreserves : Reserves outcomes e.sagaId e.itemCount
  swap
  · rw [hquantity] at hreserves
    obtain ⟨message, working, hrest⟩ := @deductStockRow_writeFails outcomes
      db.stock e.sagaId e.itemId hreads.2.2 hnone
      { itemId := i, price := row.price, stock := row.stock } quantity hreserves
    exact deductStock_refines_caught hconnects (hinStock.trans hrest)
  obtain ⟨next, hbody, hblock⟩ := deductStockBlock_reserves hreads.1 hreads.2.2
    hreads.2.1 hnone hreserves
  cases hcommit : outcomes.throws .commit with
  | true =>
      rw [hcommit, if_pos rfl] at hblock
      obtain ⟨hcommitted, hput⟩ := @forwardStep_catches _ _ _
        (deductStockEvent e.sagaId e.itemId e.itemCount) _ _ _ hconnects hblock
      obtain ⟨faults, fault, hruns⟩ := Task.commitDeductStock_runs_throws hbody
        outcomes.applied (outcomes.throws .rollback)
      refine ⟨.none :: .none :: fault :: faults, ?_⟩
      unfold deductStockState deductStockMethod
      rw [Task.deductStock_runs hbody, hruns, hcommitted, hput]
      rfl
  | false =>
      rw [hcommit, if_neg Bool.false_ne_true] at hblock
      refine ⟨[.none, .none, .none], ?_⟩
      unfold deductStockState deductStockMethod
      rw [Task.deductStock_runs hbody, Task.commitDeductStock_runs hbody,
        forwardStep_returns hconnects hblock]
      rfl

end Refinement

end Saga

end ClpszDemos
