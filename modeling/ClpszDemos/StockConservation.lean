import ClpszDemos.TransitionSystem
import ClpszDemos.TccModel
import ClpszDemos.SagaServices

/-!
# Stock conservation

The stock of an item and the quantities of its live reservations add up to
the stock the item started with.  The statuses that count as live are a
parameter, and so is the item that belongs to a transaction.  The two shared
`try` blocks preserve the balance, hence so does every sequence of calls of
either implementation, whatever fails.
-/

namespace ClpszDemos

/-! ## The balance of an item -/

section Balance

variable {σ : Type} (live : σ → Bool)

/-- What a reservation takes from item `i`. -/
def ReserveRow.taken (i : ℕ) (row : ReserveRow σ) : ℕ :=
  if row.itemId = i ∧ live row.reserveStatus = true then row.reserveStock
  else 0

namespace StockDb

def stock (db : StockDb σ) (i : ℕ) : ℕ :=
  match db.items i with
  | some row => row.stock
  | none => 0

/-- The sum of `reserve_stock` over the live reservations of item `i`. -/
def liveStock (db : StockDb σ) (i : ℕ) : ℕ :=
  db.reserves.total (ReserveRow.taken live i)

/-- The balance of every item against the initial database, with what is
needed to carry it on: reservations name the item of their transaction, and
an item whose stock has moved fits a Java `long`. -/
structure Balanced (itemOf : JLong → JLong) (start db : StockDb σ) :
    Prop where
  balance : ∀ i, db.stock i + db.liveStock live i = start.stock i
  itemId : ∀ row ∈ db.reserves.rows,
    itemOf (some (row.txId : ℤ)) = some (row.itemId : ℤ)
  fits : ∀ i, db.stock i = start.stock i ∨ start.stock i < 2 ^ 63

theorem stock_update {db next : StockDb σ} {i n : ℕ} {row : ItemRow}
    (hnext : next.items =
      Function.update db.items i (some { row with stock := n }))
    (j : ℕ) : next.stock j = if j = i then n else db.stock j := by
  unfold stock
  rw [hnext]
  by_cases hji : j = i
  · subst hji
    simp
  · simp [hji]

theorem stock_eq {db : StockDb σ} {i : ℕ} {row : ItemRow}
    (hrow : db.items i = some row) : db.stock i = row.stock := by
  simp [stock, hrow]

namespace Balanced

variable {live : σ → Bool} {itemOf : JLong → JLong}
  {start db : StockDb σ}

theorem initial (hempty : start.reserves = .empty _) :
    Balanced live itemOf start start := by
  refine ⟨fun i => ?_, fun row hrow => ?_, fun i => .inl rfl⟩
  · simp [liveStock, hempty]
  · rw [hempty] at hrow
    cases hrow

theorem liveStock_le (hdb : Balanced live itemOf start db) (i : ℕ) :
    db.liveStock live i ≤ start.stock i := by
  have hbalance := hdb.balance i
  omega

/-- A new reservation takes its quantity from the item it names. -/
theorem reserve (hdb : Balanced live itemOf start db) (status : σ)
    (hstatus : live status = true) {txId itemId stock : JLong}
    (hitem : itemOf txId = itemId) {next : StockDb σ} {exit : Exit Bool}
    (hok : reserveStock status txId itemId stock db = .ok (exit, next)) :
    Balanced live itemOf start next := by
  rcases reserveStock_eq_ok hok with
    ⟨_, hsame, _⟩ | ⟨t, i, n, row, reserves, ht, hi, _, _, hrow, hreadable,
      hle, hinsert, hnext⟩
  · rw [hsame]
    exact hdb
  have hstock := stock_eq hrow
  have hlt : row.stock < 2 ^ 63 := hreadable.2
  have hitems : next.items = Function.update db.items i
      (some { row with stock := row.stock - n }) := by
    rw [hnext]
  have hnextStock := stock_update hitems
  have hlive : ∀ j, next.liveStock live j =
      db.liveStock live j + if j = i then n else 0 := by
    intro j
    have htotal := UniqueTable.total_insert hinsert
      (ReserveRow.taken live j)
    rw [hnext]
    simpa [liveStock, ReserveRow.taken, hstatus, eq_comm] using htotal
  refine ⟨fun j => ?_, fun other hother => ?_, fun j => ?_⟩
  · have hbalance := hdb.balance j
    rw [hnextStock, hlive]
    by_cases hji : j = i
    · subst hji
      simp only [if_true]
      omega
    · simpa [hji] using hbalance
  · rw [hnext] at hother
    rcases UniqueTable.mem_insert hinsert hother with hold | hnew
    · exact hdb.itemId other hold
    · rw [hnew, ← ht, hitem, hi]
  · have hfits := hdb.fits j
    have hbalance := hdb.balance j
    rw [hnextStock]
    by_cases hji : j = i
    · subst hji
      right
      rcases hfits with hsame | hsmall
      · omega
      · exact hsmall
    · simpa [hji] using hfits

/-- Changing the status of a reservation moves its quantity in or out of
the live sum. -/
theorem liveStock_modify (live : σ → Bool) {t : ℕ} {row : ReserveRow σ}
    (hfind : db.reserves.find t = some row) (status : σ) (j : ℕ) :
    (db.reserves.modify row.irsId (ReserveRow.setStatus status)).total
        (ReserveRow.taken live j) +
        row.taken live j =
      db.liveStock live j +
        { row with reserveStatus := status }.taken live j :=
  UniqueTable.total_modify hfind _ _

theorem itemId_modify (hdb : Balanced live itemOf start db) (irsId : ℕ)
    (status : σ) :
    ∀ row ∈ (db.reserves.modify irsId
        (ReserveRow.setStatus status)).rows,
      itemOf (some (row.txId : ℤ)) = some (row.itemId : ℤ) := by
  intro row hrow
  rcases List.mem_map.mp hrow with ⟨old, hold, hsame⟩
  have hitem := hdb.itemId old hold
  rw [← hsame]
  split
  · exact hitem
  · exact hitem

/-- A status change between live statuses keeps the balance. -/
theorem setStatus (hdb : Balanced live itemOf start db) {t : ℕ}
    {row : ReserveRow σ} (hfind : db.reserves.find t = some row)
    {status : σ} (hlive : live status = live row.reserveStatus) :
    Balanced live itemOf start { db with
      reserves := db.reserves.modify row.irsId
        (ReserveRow.setStatus status) } := by
  refine ⟨fun j => ?_, hdb.itemId_modify row.irsId status, hdb.fits⟩
  have hbalance := hdb.balance j
  have hmodify := liveStock_modify live hfind status j
  have hsame : { row with reserveStatus := status }.taken live j =
      row.taken live j := by
    simp [ReserveRow.taken, hlive]
  have hkeep : (db.reserves.modify row.irsId
      (ReserveRow.setStatus status)).total (ReserveRow.taken live j) =
        db.liveStock live j := by
    omega
  simpa [liveStock, stock, hkeep] using hbalance

/-- A live reservation takes its quantity from the item of its
transaction, and no more than the live sum. -/
theorem taken_of_live (hdb : Balanced live itemOf start db) {t i : ℕ}
    {row : ReserveRow σ} (hfind : db.reserves.find t = some row)
    (hstatus : live row.reserveStatus = true)
    (hitem : itemOf (some (t : ℤ)) = some (i : ℤ)) :
    (∀ j, row.taken live j = if j = i then row.reserveStock else 0) ∧
      row.reserveStock ≤ db.liveStock live i := by
  obtain ⟨hmem, hkey⟩ := UniqueTable.find_eq_some_iff.mp hfind
  have htx : row.txId = t := hkey
  have hown : row.itemId = i := by
    have hrowItem := hdb.itemId row hmem
    rw [htx, hitem] at hrowItem
    exact_mod_cast (Option.some.inj hrowItem).symm
  have htaken : ∀ j, row.taken live j =
      if j = i then row.reserveStock else 0 := by
    intro j
    simp [ReserveRow.taken, hown, hstatus, eq_comm]
  have hle := UniqueTable.weight_le_total hmem (ReserveRow.taken live i)
  rw [htaken, if_pos rfl] at hle
  exact ⟨htaken, hle⟩

/-- A live quantity comes back to its item, and its row is not live any
more. -/
theorem giveBack (hdb : Balanced live itemOf start db) {canceled : σ}
    (hcanceled : live canceled = false) {t i m : ℕ} {row : ReserveRow σ}
    {item : ItemRow} (hfind : db.reserves.find t = some row)
    (hstatus : live row.reserveStatus = true)
    (hitem : itemOf (some (t : ℤ)) = some (i : ℤ))
    (hrow : db.items i = some item) (hreadable : item.Readable)
    (hwrap : wrap64 ((item.stock : ℤ) + row.reserveStock) = (m : ℤ)) :
    Balanced live itemOf start { db with
      items := Function.update db.items i (some { item with stock := m })
      reserves := db.reserves.modify row.irsId
        (ReserveRow.setStatus canceled) } := by
  obtain ⟨htaken, hle⟩ := hdb.taken_of_live hfind hstatus hitem
  have hstock := stock_eq hrow
  have hlt : item.stock < 2 ^ 63 := hreadable.2
  -- The quantity comes back to at most the initial stock: no overflow.
  have hm : m = item.stock + row.reserveStock := by
    have hbalance := hdb.balance i
    have hsum : item.stock + row.reserveStock < 2 ^ 63 := by
      rcases hdb.fits i with hsame | hsmall
      · omega
      · omega
    rw [wrap64_of_nonneg (by omega) (by omega)] at hwrap
    omega
  have hnextStock := @stock_update _ db { db with
    items := Function.update db.items i (some { item with stock := m })
    reserves := db.reserves.modify row.irsId
      (ReserveRow.setStatus canceled) } i m item rfl
  have hlive : ∀ j, (db.reserves.modify row.irsId
      (ReserveRow.setStatus canceled)).total (ReserveRow.taken live j) +
        (if j = i then row.reserveStock else 0) =
      db.liveStock live j := by
    intro j
    have hmodify := liveStock_modify live hfind canceled j
    have hnone : { row with reserveStatus := canceled }.taken live j =
        0 := by
      simp [ReserveRow.taken, hcanceled]
    rwa [hnone, htaken] at hmodify
  refine ⟨fun j => ?_, hdb.itemId_modify row.irsId canceled, fun j => ?_⟩
  · have hbalance := hdb.balance j
    have hliveStock := hlive j
    rw [hnextStock]
    unfold liveStock
    by_cases hji : j = i
    · subst hji
      simp only [if_true] at hliveStock ⊢
      omega
    · simp only [hji, if_false] at hliveStock ⊢
      omega
  · have hfits := hdb.fits j
    have hbalance := hdb.balance j
    rw [hnextStock]
    by_cases hji : j = i
    · subst hji
      simp only [if_true]
      rcases hfits with hsame | hsmall
      · left
        omega
      · exact .inr hsmall
    · simpa [hji] using hfits

/-- A row that reserves nothing leaves the balance as it is. -/
theorem insertEmpty (hdb : Balanced live itemOf start db) {t i : ℕ}
    {status : σ} {reserves : UniqueTable (ReserveRow σ)}
    (hitem : itemOf (some (t : ℤ)) = some (i : ℤ))
    (hinsert : db.reserves.insert (fun irsId => ⟨irsId, t, i, 0, status⟩)
      (fun _ => rfl) = some reserves) :
    Balanced live itemOf start { db with reserves := reserves } := by
  refine ⟨fun j => ?_, fun other hother => ?_, hdb.fits⟩
  · have htotal := UniqueTable.total_insert hinsert
      (ReserveRow.taken live j)
    have hlive : reserves.total (ReserveRow.taken live j) =
        db.liveStock live j := by
      simpa [liveStock, ReserveRow.taken] using htotal
    have hbalance := hdb.balance j
    simpa [liveStock, stock, hlive] using hbalance
  · rcases UniqueTable.mem_insert hinsert hother with hold | hnew
    · exact hdb.itemId other hold
    · rw [hnew, hitem]

/-- A cancellation gives a live quantity back, or records an empty row. -/
theorem release [DecidableEq σ] (hdb : Balanced live itemOf start db)
    (opened canceled : σ) (hopened : live opened = true)
    (hcanceled : live canceled = false) {txId itemId : JLong}
    (hitem : itemOf txId = itemId) {next : StockDb σ} {exit : Exit Bool}
    (hok : releaseStock opened canceled txId itemId db =
      .ok (exit, next)) :
    Balanced live itemOf start next := by
  rcases releaseStock_eq_ok hok with
    ⟨_, hsame, _⟩ | ⟨t, i, m, row, item, ht, hi, _, hrow, hreadable, hfind,
      hstatus, hwrap, hnext⟩ | ⟨t, i, reserves, ht, hi, _, _, hinsert,
      hnext⟩
  · rw [hsame]
    exact hdb
  · rw [ht, hi] at hitem
    rw [hnext]
    exact hdb.giveBack hcanceled hfind (hstatus ▸ hopened) hitem hrow
      hreadable hwrap
  · rw [ht, hi] at hitem
    rw [hnext]
    exact hdb.insertEmpty hitem hinsert

end Balanced

end StockDb

end Balance

/-! ## Sequences of calls -/

/-- The item database under calls of a stock service, each with its fault;
`body` gives the `try` block of a call. -/
def stockSystem {σ κ : Type}
    (body : κ → Statements (StockDb σ) (Exit Bool)) :
    TransitionSystem (StockDb σ) (κ × Fault) where
  init db := db.reserves = .empty _
  step call db := some (callService (body call.1) false call.2 db).1

theorem balanced_of_run {σ κ : Type} (live : σ → Bool)
    {itemOf : JLong → JLong}
    {body : κ → Statements (StockDb σ) (Exit Bool)} {Names : κ → Prop}
    (hbody : ∀ call start db exit next, Names call →
      StockDb.Balanced live itemOf start db →
      body call db = .ok (exit, next) →
      StockDb.Balanced live itemOf start next)
    {start db : StockDb σ} (hinit : (stockSystem body).init start)
    (hrun : (stockSystem body).Run (fun call _ => Names call.1) start db) :
    StockDb.Balanced live itemOf start db := by
  have hstep : ∀ (call : κ × Fault) (s next : StockDb σ), Names call.1 →
      (stockSystem body).step call s = some next →
      StockDb.Balanced live itemOf start s →
      StockDb.Balanced live itemOf start next := by
    intro call s next hnames hnext hs
    cases hnext
    exact callService_preserves (StockDb.Balanced live itemOf start)
      (fun b mid hcommit => hbody _ _ _ _ _ hnames hs hcommit) false call.2 hs
  exact hrun.invariant _ hstep (StockDb.Balanced.initial hinit)

namespace Tcc

inductive StockCall
  | tryReserveStock (tccId itemId stock : JLong)
  | confirmReserveStock (tccId : JLong)
  | cancelReserveStock (tccId itemId : JLong)
  deriving DecidableEq, Repr

def StockCall.body : StockCall → Statements ItemStockDb (Exit Bool)
  | tryReserveStock tccId itemId stock =>
      ItemStockService.tryReserveStock tccId itemId stock
  | confirmReserveStock tccId => ItemStockService.confirmReserveStock tccId
  | cancelReserveStock tccId itemId =>
      ItemStockService.cancelReserveStock tccId itemId

/-- The call names the item of its transaction. -/
def StockCall.Names (itemOf : JLong → JLong) : StockCall → Prop
  | tryReserveStock tccId itemId _ => itemOf tccId = itemId
  | confirmReserveStock _ => True
  | cancelReserveStock tccId itemId => itemOf tccId = itemId

instance (itemOf : JLong → JLong) : DecidablePred (StockCall.Names itemOf) :=
  fun call => by
    cases call <;> simp only [StockCall.Names] <;> infer_instance

def live : ReserveStatus → Bool
  | .init | .confirmed => true
  | .canceled => false

theorem StockCall.body_balanced {itemOf : JLong → JLong}
    {start db next : ItemStockDb} {call : StockCall} {exit : Exit Bool}
    (hnames : call.Names itemOf)
    (hdb : StockDb.Balanced live itemOf start db)
    (hok : call.body db = .ok (exit, next)) :
    StockDb.Balanced live itemOf start next := by
  cases call with
  | tryReserveStock tccId itemId stock =>
      exact hdb.reserve .init rfl hnames hok
  | confirmReserveStock tccId =>
      rcases ItemStockService.confirmReserveStock_eq_ok hok with
        ⟨t, row, _, hfind, ⟨_, hsame, _⟩ | ⟨_, hstatus, hnext⟩⟩
      · rw [hsame]
        exact hdb
      · rw [hnext]
        exact hdb.setStatus hfind (by simp [hstatus, live])
  | cancelReserveStock tccId itemId =>
      exact hdb.release .init .canceled rfl rfl hnames hok

end Tcc

namespace Saga

inductive StockCall
  | deductStock (sagaId itemId stock : JLong)
  | cancelDeductStock (sagaId itemId : JLong)
  deriving DecidableEq, Repr

def StockCall.body : StockCall → Statements ItemStockDb (Exit Bool)
  | deductStock sagaId itemId stock =>
      ItemStockService.deductStock sagaId itemId stock
  | cancelDeductStock sagaId itemId =>
      ItemStockService.cancelDeductStock sagaId itemId

def StockCall.Names (itemOf : JLong → JLong) : StockCall → Prop
  | deductStock sagaId itemId _ => itemOf sagaId = itemId
  | cancelDeductStock sagaId itemId => itemOf sagaId = itemId

instance (itemOf : JLong → JLong) : DecidablePred (StockCall.Names itemOf) :=
  fun call => by
    cases call <;> simp only [StockCall.Names] <;> infer_instance

def live : ReserveStatus → Bool
  | .normal => true
  | .canceled => false

theorem StockCall.body_balanced {itemOf : JLong → JLong}
    {start db next : ItemStockDb} {call : StockCall} {exit : Exit Bool}
    (hnames : call.Names itemOf)
    (hdb : StockDb.Balanced live itemOf start db)
    (hok : call.body db = .ok (exit, next)) :
    StockDb.Balanced live itemOf start next := by
  cases call with
  | deductStock sagaId itemId stock =>
      exact hdb.reserve .normal rfl hnames hok
  | cancelDeductStock sagaId itemId =>
      exact hdb.release .normal .canceled rfl rfl hnames hok

end Saga

/-- The stock left is what the live reservations have not taken, it is never
negative, and a transaction has at most one reservation. -/
def StockDb.Conserves {σ : Type} (live : σ → Bool)
    (start db : StockDb σ) : Prop :=
  (∀ i, db.stock i + db.liveStock live i = start.stock i) ∧
    (∀ i, (0 : ℤ) ≤ db.stock i) ∧
    (db.reserves.rows.map ReserveRow.txId).Nodup

/-- Whatever sequence of calls is made, under whatever faults, both
implementations conserve the stock of every item, as long as the calls for
one transaction name one item. -/
theorem stock_conservation (itemOf : JLong → JLong) :
    (∀ start db : Tcc.ItemStockDb,
      (stockSystem Tcc.StockCall.body).init start →
      (stockSystem Tcc.StockCall.body).Run
        (fun call _ => call.1.Names itemOf) start db →
      StockDb.Conserves Tcc.live start db) ∧
    (∀ start db : Saga.ItemStockDb,
      (stockSystem Saga.StockCall.body).init start →
      (stockSystem Saga.StockCall.body).Run
        (fun call _ => call.1.Names itemOf) start db →
      StockDb.Conserves Saga.live start db) := by
  constructor
  · intro start db hinit hrun
    have hbalanced := balanced_of_run Tcc.live
      (fun _ _ _ _ _ => Tcc.StockCall.body_balanced) hinit hrun
    exact ⟨hbalanced.balance, fun i => Int.natCast_nonneg _,
      db.reserves.uniqueKey_nodup⟩
  · intro start db hinit hrun
    have hbalanced := balanced_of_run Saga.live
      (fun _ _ _ _ _ => Saga.StockCall.body_balanced) hinit hrun
    exact ⟨hbalanced.balance, fun i => Int.natCast_nonneg _,
      db.reserves.uniqueKey_nodup⟩

/-- Item 1 with 100 in stock and no reservation. -/
def hundredInStock (σ : Type) : StockDb σ where
  items := Function.update (fun _ => none) 1 (some ⟨99, 100⟩)
  reserves := .empty _

/-- Two reservations, one of them tried twice and given back after a commit
that was applied and reported as failed. -/
def Tcc.hundredCalls : List (StockCall × Fault) :=
  [(.tryReserveStock (some 1) (some 1) (some 2), .none),
    (.tryReserveStock (some 2) (some 1) (some 30), .commit true),
    (.tryReserveStock (some 2) (some 1) (some 30), .none),
    (.confirmReserveStock (some 1), .none),
    (.cancelReserveStock (some 2) (some 1), .none)]

def Saga.hundredCalls : List (StockCall × Fault) :=
  [(.deductStock (some 1) (some 1) (some 2), .none),
    (.cancelDeductStock (some 2) (some 1), .none)]

theorem stock_conservation_hundred :
    (∃ db, (stockSystem Tcc.StockCall.body).exec
        (fun call _ => call.1.Names fun _ => some 1) Tcc.hundredCalls
        (hundredInStock _) = some db ∧
      StockDb.Conserves Tcc.live (hundredInStock _) db) ∧
    (∃ db, (stockSystem Saga.StockCall.body).exec
        (fun call _ => call.1.Names fun _ => some 1) Saga.hundredCalls
        (hundredInStock _) = some db ∧
      StockDb.Conserves Saga.live (hundredInStock _) db) := by
  have hconserves := stock_conservation fun _ => some 1
  constructor
  · have hexec : ∃ db, (stockSystem Tcc.StockCall.body).exec
        (fun call _ => call.1.Names fun _ => some 1) Tcc.hundredCalls
        (hundredInStock _) = some db := ⟨_, rfl⟩
    rcases hexec with ⟨db, hdb⟩
    exact ⟨db, hdb, hconserves.1 _ _ rfl
      (TransitionSystem.Run.of_exec (.refl _) hdb)⟩
  · have hexec : ∃ db, (stockSystem Saga.StockCall.body).exec
        (fun call _ => call.1.Names fun _ => some 1) Saga.hundredCalls
        (hundredInStock _) = some db := ⟨_, rfl⟩
    rcases hexec with ⟨db, hdb⟩
    exact ⟨db, hdb, hconserves.2 _ _ rfl
      (TransitionSystem.Run.of_exec (.refl _) hdb)⟩

end ClpszDemos
