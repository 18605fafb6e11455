import ClpszDemos.ItemStock

/-!
# Orders and global transactions

`order_table` has the same columns and the same `OrderDao` in both demos,
with `tcc_id` or `saga_id` as its unique key.  `tcc_table` and `saga_table`
have a generated key and a status.  The status types are parameters.
-/

namespace ClpszDemos

structure OrderRow (σ : Type) where
  orderId : ℕ
  txId : ℕ
  itemId : ℕ
  itemCount : ℕ
  payedAmount : ℕ
  orderStatus : σ
  deriving DecidableEq, Repr

instance (σ : Type) : KeyedRow (OrderRow σ) where
  primaryKey := OrderRow.orderId
  uniqueKey := OrderRow.txId

def OrderRow.setStatus {σ : Type} (status : σ) :
    KeyedRow.Update (OrderRow σ) where
  apply row := { row with orderStatus := status }
  primaryKey_apply _ := rfl
  uniqueKey_apply _ := rfl

abbrev OrderDb (σ : Type) : Type := UniqueTable (OrderRow σ)

variable {σ : Type}

namespace OrderDao

def selectByTxIdForUpdate (txId : JLong) :
    Statements (OrderDb σ) (Option (OrderRow σ)) :=
  .read fun db => .ok (db.select txId)

def insertOrder (txId itemId itemCount payedAmount : JLong) (status : σ) :
    Statements (OrderDb σ) Unit :=
  .write fun db => do
    let txId ← unbox txId
    let itemId ← unbox itemId
    let itemCount ← unbox itemCount
    let payedAmount ← unbox payedAmount
    let txId ← toUnsigned txId
    let itemId ← toUnsigned itemId
    let itemCount ← toUnsigned itemCount
    let payedAmount ← toUnsigned payedAmount
    match db.insert (fun orderId => ⟨orderId, txId, itemId, itemCount,
        payedAmount, status⟩) (fun _ => rfl) with
    | some next => .ok next
    | none => .error "Duplicate entry"

def updateOrderStatus (orderId : ℕ) (status : σ) :
    Statements (OrderDb σ) Unit :=
  .write fun db => .ok (db.modify orderId (OrderRow.setStatus status))

theorem selectByTxIdForUpdate_eq_ok {txId : JLong}
    {db next : OrderDb σ} {row? : Option (OrderRow σ)}
    (hselect : selectByTxIdForUpdate txId db = .ok (row?, next)) :
    row? = db.select txId ∧ next = db := by
  obtain ⟨hrow, hnext⟩ := Statements.read_eq_ok_iff.mp hselect
  exact ⟨(Except.ok.inj hrow).symm, hnext⟩

theorem insertOrder_eq_ok {txId itemId itemCount payedAmount : JLong}
    {status : σ} {db next : OrderDb σ} {u : Unit}
    (hinsert : insertOrder txId itemId itemCount payedAmount status db =
      .ok (u, next)) :
    ∃ t i n p : ℕ, txId = some (t : ℤ) ∧ itemId = some (i : ℤ) ∧
      itemCount = some (n : ℤ) ∧ payedAmount = some (p : ℤ) ∧
      db.insert (fun orderId => ⟨orderId, t, i, n, p, status⟩)
        (fun _ => rfl) = some next := by
  simp only [insertOrder, Statements.write_eq_ok_iff,
    except_bind_eq_ok_iff, unbox_eq_ok_iff, toUnsigned_eq_ok_iff]
    at hinsert
  obtain ⟨_, rfl, _, rfl, _, rfl, _, rfl, t, rfl, i, rfl, n, rfl, p, rfl,
    hrows⟩ := hinsert
  split at hrows
  · rename_i inserted hinserted
    cases hrows
    exact ⟨t, i, n, p, rfl, rfl, rfl, rfl, hinserted⟩
  · cases hrows

theorem insertOrder_of_fresh {db : OrderDb σ} {t i n p : ℕ} {status : σ}
    (hfresh : db.find t = none) :
    ∃ next, insertOrder (some (t : ℤ)) (some (i : ℤ)) (some (n : ℤ))
        (some (p : ℤ)) status db = .ok ((), next) ∧
      db.insert (fun orderId => ⟨orderId, t, i, n, p, status⟩)
        (fun _ => rfl) = some next := by
  rcases UniqueTable.insert_isSome
    (fun orderId => (⟨orderId, t, i, n, p, status⟩ : OrderRow σ))
    (fun _ => rfl) hfresh with ⟨next, hnext⟩
  refine ⟨next, ?_, hnext⟩
  simp only [insertOrder, Statements.write_eq_ok_iff,
    except_bind_eq_ok_iff, unbox_eq_ok_iff, toUnsigned_eq_ok_iff]
  refine ⟨_, rfl, _, rfl, _, rfl, _, rfl, t, rfl, i, rfl, n, rfl, p, rfl,
    ?_⟩
  rw [hnext]

end OrderDao

/-! ## Rows of `tcc_table` and of `saga_table` -/

structure StatusRow (σ : Type) where
  txId : ℕ
  status : σ
  deriving DecidableEq, Repr

instance (σ : Type) : KeyedRow (StatusRow σ) where
  primaryKey := StatusRow.txId
  uniqueKey := StatusRow.txId

def StatusRow.setStatus {σ : Type} (status : σ) :
    KeyedRow.Update (StatusRow σ) where
  apply row := { row with status := status }
  primaryKey_apply _ := rfl
  uniqueKey_apply _ := rfl

abbrev StatusDb (σ : Type) : Type := UniqueTable (StatusRow σ)

/-- The `try` block of `insertTcc` and of `insertSaga`. -/
def insertStatus (status : σ) : Statements (StatusDb σ) (Exit JLong) :=
  fun db =>
    match db.insert (fun txId => ⟨txId, status⟩) (fun _ => rfl) with
    | some next => .ok (.committed (some (db.nextKey : ℤ)), next)
    | none => .error "Duplicate entry"

/-- The `try` block of `updateTccFromInit`, `updateTccToFinished` and
`updateSagaStatus`: the status may change from the expected ones only.  The
result is the number of updated rows. -/
def updateStatus (expected : σ → Bool) (refuse : σ → String) (status : σ)
    (txId : JLong) : Statements (StatusDb σ) (Exit ℕ) := do
  match ← Statements.read fun db => .ok (db.select txId) with
  | none => throw "java.lang.NullPointerException"
  | some row =>
      if expected row.status then
        Statements.write fun db =>
          .ok (db.modify row.txId (StatusRow.setStatus status))
        return .committed 1
      else throw (refuse row.status)

/-! ## The status of a global transaction in a table -/

namespace UniqueTable

def reserveStatus (table : UniqueTable (ReserveRow σ)) (t : ℕ) :
    Option σ :=
  (table.find t).map ReserveRow.reserveStatus

def orderStatus (table : OrderDb σ) (t : ℕ) : Option σ :=
  (table.find t).map OrderRow.orderStatus

def status (table : StatusDb σ) (t : ℕ) : Option σ :=
  (table.find t).map StatusRow.status

/-- A row that is seen through one column is found. -/
theorem select_of_column {ρ τ : Type} [KeyedRow ρ] {table : UniqueTable ρ}
    {column : ρ → τ} {key : JLong} {t : ℕ} {value : τ}
    (ht : key = some (t : ℤ))
    (hvalue : (table.find t).map column = some value) :
    ∃ row, table.select key = some row ∧ column row = value := by
  obtain ⟨row, hfind, hrow⟩ := Option.map_eq_some_iff.mp hvalue
  refine ⟨row, ?_, hrow⟩
  rw [ht, select_natCast]
  exact hfind

/-- The view of a table through one column moves at the inserted key. -/
theorem map_find_insert {ρ τ : Type} [KeyedRow ρ] {table next : UniqueTable ρ}
    {make : ℕ → ρ} {hmake : ∀ key, KeyedRow.primaryKey (make key) = key}
    (hinsert : table.insert make hmake = some next) (column : ρ → τ)
    {t : ℕ} (ht : KeyedRow.uniqueKey (make table.nextKey) = t) :
    (fun other => (next.find other).map column) =
      Function.update (fun other => (table.find other).map column) t
        (some (column (make table.nextKey))) := by
  funext other
  rw [find_insert hinsert, ht]
  by_cases hother : other = t
  · subst hother
    simp
  · simp [hother, Ne.symm hother]

theorem map_find_modify {ρ τ : Type} [KeyedRow ρ] {table : UniqueTable ρ}
    {found : ρ} {t : ℕ} (hfound : table.find t = some found)
    (update : KeyedRow.Update ρ) (column : ρ → τ) :
    (fun other => ((table.modify (KeyedRow.primaryKey found) update).find
        other).map column) =
      Function.update (fun other => (table.find other).map column) t
        (some (column (update.apply found))) := by
  funext other
  rw [find_modify hfound]
  by_cases hother : other = t
  · subst hother
    simp
  · simp [hother]

end UniqueTable

theorem updateStatus_ok {expected : σ → Bool} {refuse : σ → String}
    {status : σ} {t : ℕ} {db : StatusDb σ} {row : StatusRow σ}
    (hfind : db.find t = some row)
    (hexpected : expected row.status = true) :
    ∃ next, updateStatus expected refuse status (some (t : ℤ)) db =
      .ok (.committed 1, next) := by
  refine ⟨db.modify row.txId (StatusRow.setStatus status),
    Statements.bind_eq_ok_iff.mpr ⟨some row, db,
      Statements.read_eq_ok_iff.mpr ⟨?_, rfl⟩, ?_⟩⟩
  · rw [UniqueTable.select_natCast, hfind]
  · dsimp only
    rw [if_pos hexpected]
    exact Statements.bind_eq_ok_iff.mpr ⟨(), _, rfl, rfl⟩

/-! ## Calls seen through one status column -/

/-- What one service call does to a status column: it leaves the column as
it is, or it moves the status of its own transaction from a source to the
target.  A call which reports success leaves a status that meets `Done`. -/
structure StatusCall (txId : JLong) (Source : Option σ → Prop) (target : σ)
    (Done : Option σ → Prop) (success : Prop)
    (before after : ℕ → Option σ) : Prop where
  moves : after = before ∨ ∃ t : ℕ, txId = some (t : ℤ) ∧
    Source (before t) ∧ after = Function.update before t (some target)
  done : success → ∃ t : ℕ, txId = some (t : ℤ) ∧ Done (after t)

namespace StatusCall

variable {txId : JLong} {Source Done : Option σ → Prop} {target : σ}
  {success : Prop} {before after : ℕ → Option σ}

theorem frame
    (hcall : StatusCall txId Source target Done success before after)
    {t : ℕ} (ht : txId ≠ some (t : ℤ)) : after t = before t := by
  rcases hcall.moves with hsame | ⟨u, hu, _, hmove⟩
  · rw [hsame]
  · have hne : t ≠ u := by
      intro htu
      exact ht (htu ▸ hu)
    rw [hmove, Function.update_of_ne hne]

theorem moves_self
    (hcall : StatusCall txId Source target Done success before after)
    {t : ℕ} (ht : txId = some (t : ℤ)) :
    after t = before t ∨ Source (before t) ∧ after t = some target := by
  rcases hcall.moves with hsame | ⟨u, hu, hsource, hmove⟩
  · exact .inl (by rw [hsame])
  · have htu : t = u := by simpa [ht] using hu
    subst htu
    exact .inr ⟨hsource, by rw [hmove, Function.update_self]⟩

/-- A status that is there is not lost. -/
theorem some_stays
    (hcall : StatusCall txId Source target Done success before after) {t : ℕ}
    (ht : before t ≠ none) : after t ≠ none := by
  rcases hcall.moves with hsame | ⟨u, _, _, hmove⟩
  · rw [hsame]
    exact ht
  · rw [hmove]
    by_cases htu : t = u
    · rw [htu, Function.update_self]
      exact Option.some_ne_none _
    · rw [Function.update_of_ne htu]
      exact ht

/-- What holds of the old status and of the target holds after the call. -/
theorem holds_self
    (hcall : StatusCall txId Source target Done success before after)
    {t : ℕ} (ht : txId = some (t : ℤ)) (Holds : Option σ → Prop)
    (hbefore : Holds (before t))
    (htarget : Source (before t) → Holds (some target)) :
    Holds (after t) := by
  rcases hcall.moves_self ht with hsame | ⟨hsource, hmove⟩
  · rw [hsame]
    exact hbefore
  · rw [hmove]
    exact htarget hsource

theorem done_self
    (hcall : StatusCall txId Source target Done success before after)
    {t : ℕ} (ht : txId = some (t : ℤ)) (hsuccess : success) :
    Done (after t) := by
  rcases hcall.done hsuccess with ⟨u, hu, hdone⟩
  have htu : t = u := by simpa [ht] using hu
  exact htu ▸ hdone

end StatusCall

/-- A service call moves a status column as its `try` block does. -/
theorem statusCall_of_body {δ β : Type} (column : δ → ℕ → Option σ)
    {txId : JLong} {Source Done : Option σ → Prop} {target : σ}
    {Success : β → Prop} {body : Statements δ (Exit β)} {onThrow : β}
    {db : δ} (hthrow : ¬ Success onThrow)
    (hreturned : ∀ b next, body db = .ok (.returned b, next) →
      Success b → ∃ t : ℕ, txId = some (t : ℤ) ∧ Done (column db t))
    (hcommitted : ∀ b next, body db = .ok (.committed b, next) →
      ∃ t : ℕ, txId = some (t : ℤ) ∧ Source (column db t) ∧
        column next = Function.update (column db) t (some target) ∧
        Done (some target))
    (fault : Fault) :
    StatusCall txId Source target Done
      (∃ b, (callService body onThrow fault db).2 = some b ∧ Success b)
      (column db) (column (callService body onThrow fault db).1) := by
  rcases callService_cases body onThrow fault db with
    ⟨hsame, hresult⟩ | ⟨b, next, hnext, hdone, _⟩
  · refine ⟨.inl (by rw [hsame]), ?_⟩
    rintro ⟨b, hb, hsuccess⟩
    rw [hsame]
    rcases hresult with hnone | hcatch | ⟨b', next, hbody, hb'⟩
    · rw [hnone] at hb
      cases hb
    · rw [hcatch] at hb
      cases hb
      exact absurd hsuccess hthrow
    · rw [hb'] at hb
      cases hb
      exact hreturned b next hbody hsuccess
  · obtain ⟨t, ht, hsource, hmove, htarget⟩ := hcommitted b next hnext
    rw [hdone]
    refine ⟨.inr ⟨t, ht, hsource, hmove⟩, fun _ => ⟨t, ht, ?_⟩⟩
    rw [hmove, Function.update_self]
    exact htarget

theorem insertStatus_eq_ok {status : σ} {db next : StatusDb σ}
    {exit : Exit JLong}
    (hok : insertStatus status db = .ok (exit, next)) :
    exit = .committed (some (db.nextKey : ℤ)) ∧
      db.status db.nextKey = none ∧
      next.status =
        Function.update db.status db.nextKey (some status) := by
  unfold insertStatus at hok
  split at hok
  · rename_i inserted hinserted
    cases hok
    refine ⟨rfl, ?_, UniqueTable.map_find_insert hinserted _ rfl⟩
    have hfresh := (UniqueTable.insert_eq_some hinserted).1
    change db.find db.nextKey = none at hfresh
    rw [UniqueTable.status, hfresh]
    rfl
  · cases hok

theorem updateStatus_eq_ok {expected : σ → Bool} {refuse : σ → String}
    {status : σ} {txId : JLong} {db next : StatusDb σ} {exit : Exit ℕ}
    (hok : updateStatus expected refuse status txId db =
      .ok (exit, next)) :
    ∃ (t : ℕ) (old : σ), txId = some (t : ℤ) ∧ exit = .committed 1 ∧
      db.status t = some old ∧ expected old = true ∧
      next.status = Function.update db.status t (some status) := by
  obtain ⟨row?, mid, hread, hrest⟩ := Statements.bind_eq_ok_iff.mp hok
  obtain ⟨hrow, rfl⟩ := Statements.read_eq_ok_iff.mp hread
  cases hrow
  cases hselect : mid.select txId with
  | none =>
      rw [hselect] at hrest
      cases hrest
  | some row =>
      rw [hselect] at hrest
      dsimp only at hrest
      obtain ⟨t, rfl, hfind⟩ := UniqueTable.select_eq_some hselect
      by_cases hexpected : expected row.status = true
      · rw [if_pos hexpected] at hrest
        obtain ⟨_, updated, hwrite, hdone⟩ :=
          Statements.bind_eq_ok_iff.mp hrest
        cases Statements.write_eq_ok_iff.mp hwrite
        cases hdone
        refine ⟨t, row.status, rfl, rfl, ?_, hexpected,
          UniqueTable.map_find_modify hfind _ _⟩
        rw [UniqueTable.status, hfind]
        rfl
      · rw [if_neg hexpected] at hrest
        cases hrest

/-! ## The order and stock transactions as moves of a status -/

/-- The `try` block of `tryCreateOrder` and of `createOrder`; `status` is
the status of a fresh order, `found` and `created` are the two results. -/
def openOrder {β : Type} (status : σ) (found created : β)
    (txId itemId itemCount payedAmount : JLong) :
    Statements (OrderDb σ) (Exit β) := do
  match ← OrderDao.selectByTxIdForUpdate txId with
  | some _ => return .returned found
  | none =>
      OrderDao.insertOrder txId itemId itemCount payedAmount status
      return .committed created

/-- The `try` block of `cancelCreateOrder` and of `cancelOrder`. -/
def cancelOpenOrder [DecidableEq σ] (opened canceled : σ) (txId : JLong) :
    Statements (OrderDb σ) (Exit Bool) := do
  match ← OrderDao.selectByTxIdForUpdate txId with
  | none =>
      OrderDao.insertOrder txId (some 0) (some 0) (some 0) canceled
      -- There is no commit here: closing the connection drops the row.
      return .returned true
  | some order =>
      if order.orderStatus = opened then
        OrderDao.updateOrderStatus order.orderId canceled
        return .committed true
      else return .returned false

theorem openOrder_eq_ok {β : Type} {status : σ} {found created : β}
    {txId itemId itemCount payedAmount : JLong} {db next : OrderDb σ}
    {exit : Exit β}
    (hok : openOrder status found created txId itemId itemCount payedAmount
      db = .ok (exit, next)) :
    (exit = .returned found ∧ next = db ∧
      ∃ (t : ℕ) (row : OrderRow σ),
        txId = some (t : ℤ) ∧ db.find t = some row) ∨
    ∃ t i n p : ℕ, txId = some (t : ℤ) ∧ itemId = some (i : ℤ) ∧
      itemCount = some (n : ℤ) ∧ payedAmount = some (p : ℤ) ∧
      exit = .committed created ∧ db.find t = none ∧
      db.insert (fun orderId => ⟨orderId, t, i, n, p, status⟩)
        (fun _ => rfl) = some next := by
  rcases Statements.bind_eq_ok_iff.mp hok with ⟨row?, mid, hread, hrest⟩
  clear hok
  rcases OrderDao.selectByTxIdForUpdate_eq_ok hread with ⟨rfl, rfl⟩
  cases hselect : mid.select txId with
  | some row =>
      rw [hselect] at hrest
      cases hrest
      rcases UniqueTable.select_eq_some hselect with ⟨t, ht, hfind⟩
      exact .inl ⟨rfl, rfl, t, row, ht, hfind⟩
  | none =>
      rw [hselect] at hrest
      rcases Statements.bind_eq_ok_iff.mp hrest with
        ⟨_, inserted, hinsert, hdone⟩
      rcases OrderDao.insertOrder_eq_ok hinsert with
        ⟨t, i, n, p, ht, hi, hn, hp, hrows⟩
      have hfresh := (UniqueTable.insert_eq_some hrows).1
      cases hdone
      exact .inr ⟨t, i, n, p, ht, hi, hn, hp, rfl, hfresh, hrows⟩

/-- A fresh transaction gets its order. -/
theorem openOrder_ok {β : Type} {status : σ} {found created : β}
    {t i n p : ℕ} {db : OrderDb σ} (hfresh : db.find t = none) :
    ∃ next, openOrder status found created (some (t : ℤ)) (some (i : ℤ))
        (some (n : ℤ)) (some (p : ℤ)) db = .ok (.committed created, next) ∧
      db.insert (fun orderId => ⟨orderId, t, i, n, p, status⟩)
        (fun _ => rfl) = some next := by
  rcases OrderDao.insertOrder_of_fresh hfresh with ⟨next, hinsert, hrows⟩
  refine ⟨next, Statements.bind_eq_ok_iff.mpr ⟨none, db,
    Statements.read_eq_ok_iff.mpr ⟨?_, rfl⟩, ?_⟩, hrows⟩
  · rw [UniqueTable.select_natCast, hfresh]
  · exact Statements.bind_eq_ok_iff.mpr ⟨(), next, hinsert, rfl⟩

/-- A transaction that has an order already. -/
theorem openOrder_found {β : Type} {status : σ} {found created : β}
    {txId : JLong} {row : OrderRow σ} {db : OrderDb σ}
    (hfound : db.select txId = some row)
    (itemId itemCount payedAmount : JLong) :
    openOrder status found created txId itemId itemCount payedAmount db =
      .ok (.returned found, db) := by
  refine Statements.bind_eq_ok_iff.mpr ⟨some row, db,
    Statements.read_eq_ok_iff.mpr ⟨?_, rfl⟩, rfl⟩
  rw [hfound]

theorem cancelOpenOrder_eq_ok [DecidableEq σ] {opened canceled : σ}
    {txId : JLong} {db next : OrderDb σ} {exit : Exit Bool}
    (hok : cancelOpenOrder opened canceled txId db = .ok (exit, next)) :
    ∃ t : ℕ, txId = some (t : ℤ) ∧
      ((exit = .returned true ∧ db.find t = none) ∨
        (∃ row, exit = .returned false ∧ db.find t = some row ∧
          row.orderStatus ≠ opened) ∨
        ∃ row, exit = .committed true ∧ db.find t = some row ∧
          row.orderStatus = opened ∧
          next = db.modify row.orderId (OrderRow.setStatus canceled)) := by
  rcases Statements.bind_eq_ok_iff.mp hok with ⟨row?, mid, hread, hrest⟩
  clear hok
  rcases OrderDao.selectByTxIdForUpdate_eq_ok hread with ⟨rfl, rfl⟩
  cases hselect : mid.select txId with
  | none =>
      rw [hselect] at hrest
      rcases Statements.bind_eq_ok_iff.mp hrest with
        ⟨_, inserted, hinsert, hdone⟩
      rcases OrderDao.insertOrder_eq_ok hinsert with
        ⟨t, _, _, _, ht, _, _, _, hrows⟩
      have hfresh := (UniqueTable.insert_eq_some hrows).1
      cases hdone
      exact ⟨t, ht, .inl ⟨rfl, hfresh⟩⟩
  | some row =>
      rw [hselect] at hrest
      dsimp only at hrest
      rcases UniqueTable.select_eq_some hselect with ⟨t, ht, hfind⟩
      by_cases hopened : row.orderStatus = opened
      · rw [if_pos hopened] at hrest
        rcases Statements.bind_eq_ok_iff.mp hrest with
          ⟨_, updated, hwrite, hdone⟩
        cases Statements.write_eq_ok_iff.mp hwrite
        cases hdone
        exact ⟨t, ht, .inr (.inr ⟨row, rfl, hfind, hopened, rfl⟩)⟩
      · rw [if_neg hopened] at hrest
        cases hrest
        exact ⟨t, ht, .inr (.inl ⟨row, rfl, hfind, hopened⟩)⟩

/-- An order that is open, or missing, can be canceled. -/
theorem cancelOpenOrder_ok [DecidableEq σ] {opened canceled : σ} {t : ℕ}
    {db : OrderDb σ}
    (horder : db.orderStatus t = none ∨ db.orderStatus t = some opened) :
    ∃ next, cancelOpenOrder opened canceled (some (t : ℤ)) db =
        .ok (.returned true, next) ∨
      cancelOpenOrder opened canceled (some (t : ℤ)) db =
        .ok (.committed true, next) := by
  cases hfind : db.find t with
  | none =>
      rcases @OrderDao.insertOrder_of_fresh _ db t 0 0 0 canceled hfind with
        ⟨next, hinsert, _⟩
      refine ⟨next, .inl (Statements.bind_eq_ok_iff.mpr ⟨none, db,
        Statements.read_eq_ok_iff.mpr ⟨?_, rfl⟩, ?_⟩)⟩
      · rw [UniqueTable.select_natCast, hfind]
      · exact Statements.bind_eq_ok_iff.mpr ⟨(), next, hinsert, rfl⟩
  | some row =>
      have hopened : row.orderStatus = opened := by
        simpa [UniqueTable.orderStatus, hfind] using horder
      refine ⟨db.modify row.orderId (OrderRow.setStatus canceled),
        .inr (Statements.bind_eq_ok_iff.mpr ⟨some row, db,
          Statements.read_eq_ok_iff.mpr ⟨?_, rfl⟩, ?_⟩)⟩
      · rw [UniqueTable.select_natCast, hfind]
      · dsimp only
        rw [if_pos hopened]
        exact Statements.bind_eq_ok_iff.mpr ⟨(), _, rfl, rfl⟩

/-- A call under a fault reported success. -/
abbrev Reports {δ : Type} (body : Statements δ (Exit Bool)) (fault : Fault)
    (db : δ) : Prop :=
  ∃ b, (callService body false fault db).2 = some b ∧ b = true

theorem openOrder_call {β : Type} (status : σ) (found created onThrow : β)
    (Success : β → Prop) (hthrow : ¬ Success onThrow)
    (txId itemId itemCount payedAmount : JLong) (fault : Fault)
    (db : OrderDb σ) :
    StatusCall txId (· = none) status (· ≠ none)
      (∃ b, (callService (openOrder status found created txId itemId
        itemCount payedAmount) onThrow fault db).2 = some b ∧ Success b)
      db.orderStatus
      (callService (openOrder status found created txId itemId itemCount
        payedAmount) onThrow fault db).1.orderStatus := by
  refine statusCall_of_body UniqueTable.orderStatus hthrow ?_ ?_ fault
  · intro b next hbody _
    rcases openOrder_eq_ok hbody with
      ⟨_, _, t, row, ht, hfind⟩ | ⟨_, _, _, _, _, _, _, _, hexit, _⟩
    · exact ⟨t, ht, by simp [UniqueTable.orderStatus, hfind]⟩
    · cases hexit
  · intro b next hbody
    rcases openOrder_eq_ok hbody with
      ⟨hexit, _⟩ | ⟨t, _, _, _, ht, _, _, _, _, hfresh, hrows⟩
    · cases hexit
    · exact ⟨t, ht, by simp [UniqueTable.orderStatus, hfresh],
        UniqueTable.map_find_insert hrows OrderRow.orderStatus rfl, by simp⟩

theorem cancelOpenOrder_call [DecidableEq σ] (opened canceled : σ)
    (txId : JLong) (fault : Fault) (db : OrderDb σ) :
    StatusCall txId (· = some opened) canceled
      (fun status => status = none ∨ status = some canceled)
      (Reports (cancelOpenOrder opened canceled txId) fault db)
      db.orderStatus
      (callService (cancelOpenOrder opened canceled txId)
        false fault db).1.orderStatus := by
  refine statusCall_of_body UniqueTable.orderStatus (by simp) ?_ ?_ fault
  · intro b next hbody hsuccess
    subst hsuccess
    rcases cancelOpenOrder_eq_ok hbody with
      ⟨t, ht, ⟨_, hnone⟩ | ⟨_, hexit, _⟩ | ⟨_, hexit, _⟩⟩
    · exact ⟨t, ht, .inl (by simp [UniqueTable.orderStatus, hnone])⟩
    · cases hexit
    · cases hexit
  · intro b next hbody
    rcases cancelOpenOrder_eq_ok hbody with
      ⟨t, ht, ⟨hexit, _⟩ | ⟨_, hexit, _⟩ | ⟨row, _, hfind, hopened, hnext⟩⟩
    · cases hexit
    · cases hexit
    · refine ⟨t, ht, by simp [UniqueTable.orderStatus, hfind, hopened], ?_,
        .inr rfl⟩
      rw [hnext]
      exact UniqueTable.map_find_modify hfind _ OrderRow.orderStatus

theorem reserveStock_call (status : σ) (txId itemId stock : JLong)
    (fault : Fault) (db : StockDb σ) :
    StatusCall txId (· = none) status (· ≠ none)
      (Reports (reserveStock status txId itemId stock) fault db)
      db.reserves.reserveStatus
      (callService (reserveStock status txId itemId stock)
        false fault db).1.reserves.reserveStatus := by
  refine statusCall_of_body
    (fun db : StockDb σ => db.reserves.reserveStatus) (by simp) ?_ ?_ fault
  · intro b next hbody _
    rcases reserveStock_eq_ok hbody with
      ⟨_, _, row, hselect⟩ | ⟨_, _, _, _, _, _, _, _, hexit, _⟩
    · rcases UniqueTable.select_eq_some hselect with ⟨t, ht, hfind⟩
      exact ⟨t, ht, by simp [UniqueTable.reserveStatus, hfind]⟩
    · cases hexit
  · intro b next hbody
    rcases reserveStock_eq_ok hbody with
      ⟨hexit, _⟩ | ⟨t, i, n, row, reserves, ht, _, _, _, _, _, _, hinsert,
        hnext⟩
    · cases hexit
    · have hfresh := (UniqueTable.insert_eq_some hinsert).1
      change db.reserves.find t = none at hfresh
      refine ⟨t, ht, by simp [UniqueTable.reserveStatus, hfresh], ?_,
        by simp⟩
      rw [hnext]
      exact UniqueTable.map_find_insert hinsert ReserveRow.reserveStatus rfl

/-- A reservation that is committed has its row. -/
theorem reserveStock_committed {status : σ} {t : ℕ} {itemId stock : JLong}
    {db next : StockDb σ} {b : Bool}
    (hok : reserveStock status (some (t : ℤ)) itemId stock db =
      .ok (.committed b, next)) :
    next.reserves.reserveStatus t = some status := by
  rcases reserveStock_eq_ok hok with
    ⟨hexit, _⟩ | ⟨u, _, _, _, _, hu, _, _, _, _, _, _, hinsert, hnext⟩
  · cases hexit
  · have hut : u = t := by exact_mod_cast (Option.some.inj hu).symm
    rw [hnext, UniqueTable.reserveStatus,
      UniqueTable.find_insert_self hinsert hut]
    rfl

theorem releaseStock_call [DecidableEq σ] (live canceled : σ)
    (txId itemId : JLong) (fault : Fault) (db : StockDb σ) :
    StatusCall txId (fun old => old = none ∨ old = some live)
      canceled (· = some canceled)
      (Reports (releaseStock live canceled txId itemId) fault db)
      db.reserves.reserveStatus
      (callService (releaseStock live canceled txId itemId)
        false fault db).1.reserves.reserveStatus := by
  refine statusCall_of_body
    (fun db : StockDb σ => db.reserves.reserveStatus) (by simp) ?_ ?_ fault
  · intro b next hbody _
    rcases releaseStock_eq_ok hbody with
      ⟨_, _, row, hselect, hstatus⟩ | ⟨_, _, _, _, _, _, _, hexit, _⟩ |
        ⟨_, _, _, _, _, hexit, _⟩
    · rcases UniqueTable.select_eq_some hselect with ⟨t, ht, hfind⟩
      exact ⟨t, ht, by simp [UniqueTable.reserveStatus, hfind, hstatus]⟩
    · cases hexit
    · cases hexit
  · intro b next hbody
    rcases releaseStock_eq_ok hbody with
      ⟨hexit, _⟩ | ⟨t, i, m, row, item, ht, _, _, _, _, hfind, hstatus, _,
        hnext⟩ | ⟨t, i, reserves, ht, _, _, hfind, hinsert, hnext⟩
    · cases hexit
    · refine ⟨t, ht, .inr (by
        simp [UniqueTable.reserveStatus, hfind, hstatus]), ?_, rfl⟩
      rw [hnext]
      exact UniqueTable.map_find_modify hfind _ ReserveRow.reserveStatus
    · refine ⟨t, ht, .inl (by simp [UniqueTable.reserveStatus, hfind]), ?_,
        rfl⟩
      rw [hnext]
      exact UniqueTable.map_find_insert hinsert ReserveRow.reserveStatus rfl

/-- The key of a new row was not in the table.  The
key may be lost to the caller. -/
theorem insertStatus_call (status : σ) (fault : Fault) (db : StatusDb σ) :
    ((callService (insertStatus status) none fault db).1 = db ∧
      ∀ txId, (callService (insertStatus status) none fault db).2 =
        some txId → txId = none) ∨
    ∃ t : ℕ, db.status t = none ∧
      (callService (insertStatus status) none fault db).1.status =
        Function.update db.status t (some status) ∧
      ∀ txId, (callService (insertStatus status) none fault db).2 =
        some txId → txId = none ∨ txId = some (t : ℤ) := by
  rcases callService_cases (insertStatus status) none fault db with
    ⟨hsame, hresult⟩ | ⟨b, next, hbody, hdone, hresult⟩
  · left
    refine ⟨hsame, fun txId htxId => ?_⟩
    rcases hresult with hnone | hcatch | ⟨b, next, hbody, _⟩
    · rw [hnone] at htxId
      cases htxId
    · rw [hcatch] at htxId
      cases htxId
      rfl
    · rcases insertStatus_eq_ok hbody with ⟨hexit, _⟩
      cases hexit
  · right
    rcases insertStatus_eq_ok hbody with ⟨hexit, hfresh, hnext⟩
    cases hexit
    rw [hdone]
    refine ⟨db.nextKey, hfresh, hnext, fun txId htxId => ?_⟩
    rcases hresult with hnone | hcatch | hkey
    · rw [hnone] at htxId
      cases htxId
    · rw [hcatch] at htxId
      cases htxId
      exact .inl rfl
    · rw [hkey] at htxId
      cases htxId
      exact .inr rfl

/-- Without a fault the caller learns the key of its row. -/
theorem insertStatus_none (status : σ) (db : StatusDb σ) :
    ∃ t : ℕ, db.status t = none ∧
      (callService (insertStatus status) none .none db).2 =
        some (some (t : ℤ)) ∧
      (callService (insertStatus status) none .none db).1.status =
        Function.update db.status t (some status) := by
  have hfresh : db.find db.nextKey = none := by
    apply UniqueTable.find_eq_none_iff.mpr
    intro row hrow
    exact (db.primaryKey_lt row hrow).ne
  rcases UniqueTable.insert_isSome
    (fun txId => (⟨txId, status⟩ : StatusRow σ)) (fun _ => rfl) hfresh with
    ⟨next, hnext⟩
  have hbody : insertStatus status db =
      .ok (.committed (some (db.nextKey : ℤ)), next) := by
    unfold insertStatus
    rw [hnext]
  rcases insertStatus_eq_ok hbody with ⟨_, hnone, hmove⟩
  rw [callService_none_eq none hbody]
  exact ⟨db.nextKey, hnone, rfl, hmove⟩

/-! ## What a call leaves of other transactions and items -/

theorem updateStatus_frame {expected : σ → Bool} {refuse : σ → String}
    {status : σ} {txId : JLong} {fault : Fault} {db : StatusDb σ} {u : ℕ}
    (hu : txId ≠ some (u : ℤ)) :
    (callService (updateStatus expected refuse status txId) 0 fault
      db).1.status u = db.status u := by
  refine callService_preserves
    (fun next : StatusDb σ => next.status u = db.status u) (fun n next hbody => ?_) 0 fault rfl
  rcases updateStatus_eq_ok hbody with ⟨t, _, ht, _, _, _, hnext⟩
  have hut : u ≠ t := fun hut => hu (hut ▸ ht)
  rw [hnext, Function.update_of_ne hut]

theorem openOrder_frame {β : Type} {status : σ} {found created onThrow : β}
    {txId itemId itemCount payedAmount : JLong} {fault : Fault}
    {db : OrderDb σ} {u : ℕ} (hu : txId ≠ some (u : ℤ)) :
    (callService (openOrder status found created txId itemId itemCount
      payedAmount) onThrow fault db).1.find u = db.find u := by
  refine callService_preserves
    (fun next : OrderDb σ => next.find u = db.find u) (fun b next hbody => ?_) onThrow fault rfl
  rcases openOrder_eq_ok hbody with
    ⟨hexit, _⟩ | ⟨t, _, _, _, ht, _, _, _, _, _, hrows⟩
  · cases hexit
  · have htu : t ≠ u := fun htu => hu (htu ▸ ht)
    exact UniqueTable.find_insert_of_ne hrows htu

theorem cancelOpenOrder_frame [DecidableEq σ] {opened canceled : σ}
    {txId : JLong} {fault : Fault} {db : OrderDb σ} {u : ℕ}
    (hu : txId ≠ some (u : ℤ)) :
    (callService (cancelOpenOrder opened canceled txId) false fault
      db).1.find u = db.find u := by
  refine callService_preserves
    (fun next : OrderDb σ => next.find u = db.find u) (fun b next hbody => ?_) false fault rfl
  rcases cancelOpenOrder_eq_ok hbody with
    ⟨t, ht, ⟨hexit, _⟩ | ⟨_, hexit, _⟩ | ⟨row, _, hfind, _, hnext⟩⟩
  · cases hexit
  · cases hexit
  · have hut : u ≠ t := fun hut => hu (hut ▸ ht)
    rw [hnext]
    exact UniqueTable.find_modify_of_ne hfind _ hut

theorem reserveStock_frame {status : σ} {txId itemId stock : JLong}
    {fault : Fault} {db : StockDb σ} :
    (∀ u : ℕ, txId ≠ some (u : ℤ) →
      (callService (reserveStock status txId itemId stock) false fault
        db).1.reserves.find u = db.reserves.find u) ∧
    ∀ j : ℕ, itemId ≠ some (j : ℤ) →
      (callService (reserveStock status txId itemId stock) false fault
        db).1.items j = db.items j := by
  refine callService_preserves (fun next : StockDb σ =>
    (∀ u : ℕ, txId ≠ some (u : ℤ) →
      next.reserves.find u = db.reserves.find u) ∧
    ∀ j : ℕ, itemId ≠ some (j : ℤ) → next.items j = db.items j)
    (fun b next hbody => ?_) false fault
    ⟨fun _ _ => rfl, fun _ _ => rfl⟩
  rcases reserveStock_eq_ok hbody with
    ⟨hexit, _⟩ | ⟨t, i, n, row, reserves, ht, hi, _, _, _, _, _, hinsert,
      hnext⟩
  · cases hexit
  · refine ⟨fun u hu => ?_, fun j hj => ?_⟩
    · have htu : t ≠ u := fun htu => hu (htu ▸ ht)
      rw [hnext]
      exact UniqueTable.find_insert_of_ne hinsert htu
    · have hji : j ≠ i := fun hji => hj (hji ▸ hi)
      rw [hnext]
      exact Function.update_of_ne hji _ _

theorem releaseStock_frame [DecidableEq σ] {live canceled : σ}
    {txId itemId : JLong} {fault : Fault} {db : StockDb σ} :
    (∀ u : ℕ, txId ≠ some (u : ℤ) →
      (callService (releaseStock live canceled txId itemId) false fault
        db).1.reserves.find u = db.reserves.find u) ∧
    ∀ j : ℕ, itemId ≠ some (j : ℤ) →
      (callService (releaseStock live canceled txId itemId) false fault
        db).1.items j = db.items j := by
  refine callService_preserves (fun next : StockDb σ =>
    (∀ u : ℕ, txId ≠ some (u : ℤ) →
      next.reserves.find u = db.reserves.find u) ∧
    ∀ j : ℕ, itemId ≠ some (j : ℤ) → next.items j = db.items j)
    (fun b next hbody => ?_) false fault
    ⟨fun _ _ => rfl, fun _ _ => rfl⟩
  rcases releaseStock_eq_ok hbody with
    ⟨hexit, _⟩ | ⟨t, i, m, row, item, ht, hi, _, _, _, hfind, _, _,
      hnext⟩ | ⟨t, i, reserves, ht, _, _, _, hinsert, hnext⟩
  · cases hexit
  · refine ⟨fun u hu => ?_, fun j hj => ?_⟩
    · have hut : u ≠ t := fun hut => hu (hut ▸ ht)
      rw [hnext]
      exact UniqueTable.find_modify_of_ne hfind _ hut
    · have hji : j ≠ i := fun hji => hj (hji ▸ hi)
      rw [hnext]
      exact Function.update_of_ne hji _ _
  · refine ⟨fun u hu => ?_, fun j _ => ?_⟩
    · have htu : t ≠ u := fun htu => hu (htu ▸ ht)
      rw [hnext]
      exact UniqueTable.find_insert_of_ne hinsert htu
    · rw [hnext]

end ClpszDemos
