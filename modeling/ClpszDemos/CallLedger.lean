import ClpszDemos.StockConservation
import ClpszDemos.TccAgreement

/-!
# What the calls of the TCC demo were made with

The arguments of a `placeOrder` call are kept beside the run, for every
transaction.  Its coordinator, its order and its reservation carry them, under
every fault and in every interleaving, and the stock stays balanced against
the reservations.
-/

namespace ClpszDemos

namespace Tcc

/-! ## The arguments of a call -/

structure Arguments where
  itemId : JLong
  itemCount : JLong

/-- The amount is what `placeOrder` computes from the price of the item. -/
def Arguments.Charges (args : Arguments) (items : ℕ → Option ItemRow)
    (payedAmount : JLong) : Prop :=
  ∃ (i : ℕ) (row : ItemRow) (count : ℤ), args.itemId = some (i : ℤ) ∧
    items i = some row ∧ args.itemCount = some count ∧
    payedAmount = some (wrap64 (count * row.price))

/-- The local variables of a coordinator come from the arguments. -/
def Coordinator.Carries (args : Arguments) (items : ℕ → Option ItemRow) :
    Coordinator → Prop
  | getItemById _ itemId itemCount | tryReserveStock _ itemId itemCount _ =>
      itemId = args.itemId ∧ itemCount = args.itemCount
  | tryCreateOrder _ itemId itemCount payedAmount =>
      itemId = args.itemId ∧ itemCount = args.itemCount ∧
        args.Charges items payedAmount
  | updateTccFromInit _ itemId _ _ | cancelReserveStock _ itemId =>
      itemId = args.itemId
  | insertTcc _ _ | confirmReserveStock _ | confirmCreateOrder _ _
  | cancelCreateOrder _ _ | updateTccToFinished _ | stopped => True

/-- The item of a transaction -/
def itemOf (args : ℕ → Arguments) : JLong → JLong
  | some key => (args key.toNat).itemId
  | none => none

theorem itemOf_natCast (args : ℕ → Arguments) (t : ℕ) :
    itemOf args (some (t : ℤ)) = (args t).itemId := rfl

/-! ## The stock database -/

/-- Prices stay, the stock is balanced against the reservations, and live
reservations have the count of their call. -/
structure StockLedger (args : ℕ → Arguments) (start db : ItemStockDb) :
    Prop where
  price : ∀ i, (db.items i).map ItemRow.price =
    (start.items i).map ItemRow.price
  balanced : StockDb.Balanced live (itemOf args) start db
  reserve : ∀ t row, db.reserves.find t = some row →
    live row.reserveStatus = true →
    (args t).itemCount = some (row.reserveStock : ℤ)

section Stock

variable {args : ℕ → Arguments} {start db next : ItemStockDb}
  {exit : Exit Bool}

theorem map_price_update {items : ℕ → Option ItemRow} {i : ℕ} {row : ItemRow}
    (hrow : items i = some row) (n j : ℕ) :
    (Function.update items i (some { row with stock := n }) j).map
      ItemRow.price = (items j).map ItemRow.price := by
  by_cases hji : j = i
  · rw [hji, Function.update_self, hrow]
    rfl
  · rw [Function.update_of_ne hji]

theorem StockLedger.tryReserveStock {tccId itemId stock : JLong}
    (hdb : StockLedger args start db)
    (hargs : ∀ t : ℕ, tccId = some (t : ℤ) →
      itemId = (args t).itemId ∧ stock = (args t).itemCount)
    (hok : ItemStockService.tryReserveStock tccId itemId stock db =
      .ok (exit, next)) : StockLedger args start next := by
  rcases reserveStock_eq_ok hok with
    ⟨_, hsame, _⟩ | ⟨t, i, n, row, reserves, ht, hi, hn, _, hrow, _, _,
      hinsert, hnext⟩
  · rw [hsame]
    exact hdb
  · obtain ⟨hitemId, hcount⟩ := hargs t ht
    have hnames : (StockCall.tryReserveStock tccId itemId stock).Names
        (itemOf args) := by
      show itemOf args tccId = itemId
      rw [ht, itemOf_natCast, hitemId]
    refine ⟨fun j => ?_, StockCall.body_balanced hnames hdb.balanced hok, ?_⟩
    · rw [hnext]
      exact (map_price_update hrow _ j).trans (hdb.price j)
    · intro u reserve hfind hlive
      rw [hnext] at hfind
      rcases UniqueTable.find_insert_cases hinsert hfind with
        hold | ⟨htu, hnew⟩
      · exact hdb.reserve u reserve hold hlive
      · have hown : t = u := htu
        rw [hnew, ← hown, ← hcount, hn]

theorem StockLedger.confirmReserveStock {tccId : JLong}
    (hdb : StockLedger args start db)
    (hok : ItemStockService.confirmReserveStock tccId db =
      .ok (exit, next)) : StockLedger args start next := by
  have hnames : (StockCall.confirmReserveStock tccId).Names (itemOf args) :=
    trivial
  have hbalanced := StockCall.body_balanced hnames hdb.balanced hok
  rcases ItemStockService.confirmReserveStock_eq_ok hok with
    ⟨t, row, _, hfound, ⟨_, hsame, _⟩ | ⟨_, hstatus, hnext⟩⟩
  · rw [hsame]
    exact hdb
  · refine ⟨fun j => ?_, hbalanced, ?_⟩
    · rw [hnext]
      exact hdb.price j
    · intro u reserve hfind hlive
      rw [hnext] at hfind
      rcases UniqueTable.find_modify_cases hfound hfind with
        hold | ⟨hut, hnew⟩
      · exact hdb.reserve u reserve hold hlive
      · rw [hut, hnew]
        exact hdb.reserve t row hfound (by rw [hstatus]; rfl)

theorem StockLedger.cancelReserveStock {tccId itemId : JLong}
    (hdb : StockLedger args start db)
    (hargs : ∀ t : ℕ, tccId = some (t : ℤ) → itemId = (args t).itemId)
    (hok : ItemStockService.cancelReserveStock tccId itemId db =
      .ok (exit, next)) : StockLedger args start next := by
  have hbalanced : ∀ t : ℕ, tccId = some (t : ℤ) →
      StockDb.Balanced live (itemOf args) start next := by
    intro t ht
    have hnames : (StockCall.cancelReserveStock tccId itemId).Names
        (itemOf args) := by
      show itemOf args tccId = itemId
      rw [ht, itemOf_natCast, hargs t ht]
    exact StockCall.body_balanced hnames hdb.balanced hok
  rcases releaseStock_eq_ok hok with
    ⟨_, hsame, _⟩ | ⟨t, i, m, row, item, ht, _, _, hitem, _, hfound, _, _,
      hnext⟩ | ⟨t, i, reserves, ht, _, _, _, hinsert, hnext⟩
  · rw [hsame]
    exact hdb
  · refine ⟨fun j => ?_, hbalanced t ht, ?_⟩
    · rw [hnext]
      exact (map_price_update hitem _ j).trans (hdb.price j)
    · intro u reserve hfind hlive
      rw [hnext] at hfind
      rcases UniqueTable.find_modify_cases hfound hfind with
        hold | ⟨_, hnew⟩
      · exact hdb.reserve u reserve hold hlive
      · rw [hnew] at hlive
        cases hlive
  · refine ⟨fun j => ?_, hbalanced t ht, ?_⟩
    · rw [hnext]
      exact hdb.price j
    · intro u reserve hfind hlive
      rw [hnext] at hfind
      rcases UniqueTable.find_insert_cases hinsert hfind with
        hold | ⟨_, hnew⟩
      · exact hdb.reserve u reserve hold hlive
      · rw [hnew] at hlive
        cases hlive

end Stock

/-! ## The order database -/

/-- Every order has the amount of its call. -/
def OrderLedger (args : ℕ → Arguments) (items : ℕ → Option ItemRow)
    (db : OrderDb OrderStatus) : Prop :=
  ∀ t order, db.find t = some order →
    (args t).Charges items (some (order.payedAmount : ℤ))

section Orders

variable {args : ℕ → Arguments} {items : ℕ → Option ItemRow}
  {db next : OrderDb OrderStatus} {exit : Exit Bool}

theorem OrderLedger.modify {t : ℕ} {order : OrderRow OrderStatus}
    (hdb : OrderLedger args items db) (hfound : db.find t = some order)
    (status : OrderStatus) :
    OrderLedger args items
      (db.modify order.orderId (OrderRow.setStatus status)) := by
  intro u row hfind
  rcases UniqueTable.find_modify_cases hfound hfind with hold | ⟨hut, hnew⟩
  · exact hdb u row hold
  · rw [hut, hnew]
    exact hdb t order hfound

theorem OrderLedger.tryCreateOrder
    {tccId itemId itemCount payedAmount : JLong}
    (hdb : OrderLedger args items db)
    (hargs : ∀ t : ℕ, tccId = some (t : ℤ) →
      (args t).Charges items payedAmount)
    (hok : OrderService.tryCreateOrder tccId itemId itemCount payedAmount
      db = .ok (exit, next)) : OrderLedger args items next := by
  rcases openOrder_eq_ok hok with
    ⟨_, hsame, _⟩ | ⟨t, i, n, p, ht, _, _, hp, _, _, hinsert⟩
  · rw [hsame]
    exact hdb
  · intro u row hfind
    rcases UniqueTable.find_insert_cases hinsert hfind with
      hold | ⟨htu, hnew⟩
    · exact hdb u row hold
    · have hown : t = u := htu
      rw [hnew, ← hown, ← hp]
      exact hargs t ht

theorem OrderLedger.confirmCreateOrder {tccId : JLong}
    (hdb : OrderLedger args items db)
    (hok : OrderService.confirmCreateOrder tccId db = .ok (exit, next)) :
    OrderLedger args items next := by
  rcases OrderService.confirmCreateOrder_eq_ok hok with
    ⟨t, order, _, hfound, ⟨_, hsame⟩ | ⟨_, _, hnext⟩⟩
  · rw [hsame]
    exact hdb
  · rw [hnext]
    exact hdb.modify hfound _

theorem OrderLedger.cancelCreateOrder {tccId : JLong} {b : Bool}
    (hdb : OrderLedger args items db)
    (hok : OrderService.cancelCreateOrder tccId db =
      .ok (.committed b, next)) : OrderLedger args items next := by
  rcases cancelOpenOrder_eq_ok hok with
    ⟨t, _, ⟨hexit, _⟩ | ⟨_, hexit, _⟩ | ⟨order, _, hfound, _, hnext⟩⟩
  · cases hexit
  · cases hexit
  · rw [hnext]
    exact hdb.modify hfound _

end Orders

/-! ## One call of one coordinator -/

structure Ledger (args : ℕ → Arguments) (start : ItemStockDb) (db : Db) :
    Prop where
  stock : StockLedger args start db.stock
  orders : OrderLedger args start.items db.orders

/-- A coordinator that works on a transaction has the variables of its
call. -/
def Coordinator.Carrying (args : ℕ → Arguments)
    (items : ℕ → Option ItemRow) (c : Coordinator) : Prop :=
  ∀ t : ℕ, c.tccId = some (t : ℤ) → c.Carries (args t) items

section Calls

variable {args : ℕ → Arguments} {start : ItemStockDb} {db : Db}

theorem carrying_of_none {c : Coordinator} {items : ℕ → Option ItemRow}
    (hnone : c.tccId = none) : c.Carrying args items := by
  intro t ht
  rw [hnone] at ht
  cases ht

theorem carrying_afterSecond (tccId : JLong) (first second : Bool)
    {items : ℕ → Option ItemRow} :
    (Coordinator.afterSecond tccId first second).Carrying args items := by
  unfold Coordinator.afterSecond
  by_cases hboth : (first && second) = true
  · rw [if_pos hboth]
    exact fun t _ => trivial
  · rw [if_neg hboth]
    exact carrying_of_none rfl

theorem carrying_resume {β : Type} {result : Option β}
    {next : β → Coordinator} {items : ℕ → Option ItemRow}
    (hnext : ∀ b, (next b).Carrying args items) :
    (Coordinator.resume result next).Carrying args items := by
  cases result with
  | none => exact carrying_of_none rfl
  | some b => exact hnext b

/-- The item that `placeOrder` reads has the price that it started with. -/
theorem StockLedger.getItemById {itemId : JLong} {fault : Fault}
    {item : Item} {stock : ItemStockDb}
    (hledger : StockLedger args start stock)
    (hitem : ItemService.getItemById itemId fault stock = some item) :
    ∃ (i : ℕ) (row : ItemRow), itemId = some (i : ℤ) ∧
      start.items i = some row ∧ item.price = row.price := by
  have hselect : ItemDao.selectById itemId stock = .ok (some item) := by
    unfold ItemService.getItemById at hitem
    cases hread : ItemDao.selectById itemId stock with
    | error message =>
        rw [hread] at hitem
        cases fault <;> cases hitem
    | ok item? =>
        rw [hread] at hitem
        cases fault with
        | statement => cases hitem
        | escape applied => cases hitem
        | none => exact congrArg Except.ok hitem
        | commit applied => exact congrArg Except.ok hitem
  obtain ⟨i, row, hi, hrow, _, rfl⟩ := ItemDao.selectById_eq_some hselect
  have hprice := hledger.price i
  rw [hrow] at hprice
  obtain ⟨first, hfirst, hsame⟩ := Option.map_eq_some_iff.mp hprice.symm
  exact ⟨i, first, hi, hfirst, by rw [hsame]⟩

theorem carrying_afterGetItem {tccId itemId itemCount : JLong}
    {fault : Fault} (hdb : Ledger args start db)
    (hcarries : (Coordinator.getItemById tccId itemId itemCount).Carrying
      args start.items) :
    (Coordinator.afterGetItem tccId itemId itemCount
      (ItemService.getItemById itemId fault db.stock)).Carrying args
        start.items := by
  cases hitem : ItemService.getItemById itemId fault db.stock with
  | none => exact carrying_of_none rfl
  | some item =>
      cases hcount : itemCount with
      | none => exact carrying_of_none rfl
      | some count =>
          obtain ⟨i, row, hi, hrow, hprice⟩ := hdb.stock.getItemById hitem
          intro t ht
          obtain ⟨hitemId, hitemCount⟩ := hcarries t ht
          rw [hcount] at hitemCount
          refine ⟨hitemId, hitemCount, i, row, count, ?_, hrow,
            hitemCount.symm, ?_⟩
          · rw [← hitemId, hi]
          · rw [hprice]

/-- After `insertTcc` a call of a coordinator keeps the books as they are. -/
theorem ledger_step {c : Coordinator} (hdb : Ledger args start db)
    (hcarries : c.Carrying args start.items)
    (hold : ∀ itemId itemCount, c ≠ .insertTcc itemId itemCount)
    (fault : Fault) :
    Ledger args start (c.step fault db).1 ∧
      (c.step fault db).2.Carrying args start.items := by
  cases c with
  | insertTcc itemId itemCount => exact absurd rfl (hold itemId itemCount)
  | getItemById tccId itemId itemCount =>
      exact ⟨hdb, carrying_afterGetItem hdb hcarries⟩
  | tryCreateOrder tccId itemId itemCount payedAmount =>
      refine ⟨⟨hdb.stock, ?_⟩, carrying_resume fun created t ht => ?_⟩
      · exact callService_preserves (OrderLedger args start.items)
          (fun _ _ hok => hdb.orders.tryCreateOrder
            (fun t ht => (hcarries t ht).2.2) hok) false fault hdb.orders
      · have hargs := hcarries t ht
        exact ⟨hargs.1, hargs.2.1⟩
  | tryReserveStock tccId itemId itemCount created =>
      refine ⟨⟨?_, hdb.orders⟩, carrying_resume fun reserved t ht => ?_⟩
      · exact callService_preserves (StockLedger args start)
          (fun _ _ hok => hdb.stock.tryReserveStock hcarries hok) false
          fault hdb.stock
      · exact (hcarries t ht).1
  | updateTccFromInit tccId itemId created reserved =>
      refine ⟨⟨hdb.stock, hdb.orders⟩, carrying_resume fun updated => ?_⟩
      unfold Coordinator.afterUpdateFromInit
      by_cases hupdated : updated > 0
      · rw [if_pos hupdated]
        by_cases hconfirm : (reserved && created) = true
        · rw [if_pos hconfirm]
          exact fun t _ => trivial
        · rw [if_neg hconfirm]
          exact hcarries
      · rw [if_neg hupdated]
        exact carrying_of_none rfl
  | confirmReserveStock tccId =>
      refine ⟨⟨?_, hdb.orders⟩, carrying_resume fun _ t _ => trivial⟩
      exact callService_preserves (StockLedger args start)
        (fun _ _ hok => hdb.stock.confirmReserveStock hok) false fault
        hdb.stock
  | confirmCreateOrder tccId confirmed =>
      refine ⟨⟨hdb.stock, ?_⟩, carrying_resume fun success => ?_⟩
      · exact callService_preserves (OrderLedger args start.items)
          (fun _ _ hok => hdb.orders.confirmCreateOrder hok) false fault
          hdb.orders
      · exact carrying_afterSecond tccId confirmed success
  | cancelReserveStock tccId itemId =>
      refine ⟨⟨?_, hdb.orders⟩, carrying_resume fun _ t _ => trivial⟩
      exact callService_preserves (StockLedger args start)
        (fun _ _ hok => hdb.stock.cancelReserveStock hcarries hok) false
        fault hdb.stock
  | cancelCreateOrder tccId canceled =>
      refine ⟨⟨hdb.stock, ?_⟩, carrying_resume fun success => ?_⟩
      · exact callService_preserves (OrderLedger args start.items)
          (fun _ _ hok => hdb.orders.cancelCreateOrder hok) false fault
          hdb.orders
      · exact carrying_afterSecond tccId canceled success
  | updateTccToFinished tccId =>
      exact ⟨⟨hdb.stock, hdb.orders⟩, carrying_of_none rfl⟩
  | stopped => exact ⟨hdb, carrying_of_none rfl⟩

end Calls

/-! ## Whole runs -/

/-- The books of a world: its databases and its coordinators have what the
calls were made with. -/
structure Booked (args : ℕ → Arguments) (start : ItemStockDb)
    (world : World) : Prop where
  ledger : Ledger args start world.db
  carries : ∀ (k : ℕ) (c : Coordinator), world.calls[k]? = some c →
    c.Carrying args start.items

section Runs

variable {args : ℕ → Arguments} {start : World}

theorem booked_of_initial (args : ℕ → Arguments) (hinit : start.Initial) :
    Booked args start.db.stock start := by
  obtain ⟨hcalls, hreserves, _, horders⟩ := hinit
  refine ⟨⟨⟨fun i => rfl, StockDb.Balanced.initial hreserves, ?_⟩, ?_⟩, ?_⟩
  · intro t row hfind
    rw [hreserves] at hfind
    cases hfind
  · intro t order hfind
    rw [horders] at hfind
    cases hfind
  · intro k c hc
    rw [hcalls] at hc
    cases hc

/-- New arguments for a transaction without rows change no book. -/
theorem Ledger.update {items : ItemStockDb} {db : Db} {t : ℕ}
    (hdb : Ledger args items db) (hreserve : db.stock.reserves.find t = none)
    (horder : db.orders.find t = none) (new : Arguments) :
    Ledger (Function.update args t new) items db := by
  have hother : ∀ u, u ≠ t → Function.update args t new u = args u :=
    fun u hut => Function.update_of_ne hut _ _
  refine ⟨⟨hdb.stock.price, ⟨hdb.stock.balanced.balance, ?_,
    hdb.stock.balanced.fits⟩, ?_⟩, ?_⟩
  · intro row hrow
    have hfind : db.stock.reserves.find row.txId = some row :=
      UniqueTable.find_eq_some_iff.mpr ⟨hrow, rfl⟩
    have hne : row.txId ≠ t := by
      intro hsame
      rw [hsame, hreserve] at hfind
      cases hfind
    rw [itemOf_natCast, hother _ hne]
    exact hdb.stock.balanced.itemId row hrow
  · intro u row hfind hlive
    have hne : u ≠ t := by
      intro hsame
      rw [hsame, hreserve] at hfind
      cases hfind
    rw [hother u hne]
    exact hdb.stock.reserve u row hfind hlive
  · intro u order hfind
    have hne : u ≠ t := by
      intro hsame
      rw [hsame, horder] at hfind
      cases hfind
    rw [hother u hne]
    exact hdb.orders u order hfind

theorem find_none_of_agree {db : Db} (hagree : db.statuses.Agree) {t : ℕ}
    (hfresh : db.tccs.status t = none) :
    db.stock.reserves.find t = none ∧ db.orders.find t = none := by
  have hnone := hagree t
  simp only [Db.statuses, hfresh, Agrees] at hnone
  exact ⟨Option.map_eq_none_iff.mp hnone.1, Option.map_eq_none_iff.mp hnone.2⟩

theorem status_stays {c : Coordinator} {db : Db} (fault : Fault) {t : ℕ}
    (ht : db.tccs.status t ≠ none) :
    (c.step fault db).1.tccs.status t ≠ none := by
  cases c with
  | insertTcc itemId itemCount =>
      rcases insertTcc_call fault db.tccs with
        ⟨hsame, _⟩ | ⟨u, hfresh, hnext, _⟩
      · show UniqueTable.status (callService TccService.insertTcc none fault
          db.tccs).1 t ≠ none
        rw [hsame]
        exact ht
      · have htu : t ≠ u := by
          intro htu
          exact ht (htu ▸ hfresh)
        show UniqueTable.status (callService TccService.insertTcc none fault
          db.tccs).1 t ≠ none
        rw [hnext, Function.update_of_ne htu]
        exact ht
  | updateTccFromInit tccId itemId created reserved =>
      exact (updateTccFromInit_call tccId _ fault db.tccs).some_stays ht
  | updateTccToFinished tccId =>
      exact (updateTccToFinished_call tccId fault db.tccs).some_stays ht
  | getItemById => exact ht
  | tryCreateOrder => exact ht
  | tryReserveStock => exact ht
  | confirmReserveStock => exact ht
  | confirmCreateOrder => exact ht
  | cancelReserveStock => exact ht
  | cancelCreateOrder => exact ht
  | stopped => exact ht

/-- A coordinator that begins opens a book for its transaction. -/
theorem booked_insertTcc {items : ItemStockDb} {db : Db}
    (hagree : db.statuses.Agree) (hdb : Ledger args items db)
    (itemId itemCount : JLong) (fault : Fault) :
    ∃ args', (∀ t, db.tccs.status t ≠ none → args' t = args t) ∧
      Ledger args' items
        ((Coordinator.insertTcc itemId itemCount).step fault db).1 ∧
      ((Coordinator.insertTcc itemId itemCount).step fault db).2.Carrying
        args' items.items := by
  rcases insertTcc_call fault db.tccs with
    ⟨_, hkey⟩ | ⟨u, hfresh, _, hkey⟩
  · refine ⟨args, fun t _ => rfl, ⟨hdb.stock, hdb.orders⟩, ?_⟩
    show (Coordinator.resume (callService _ _ _ _).2 _).Carrying _ _
    cases hresult : (callService TccService.insertTcc none fault
        db.tccs).2 with
    | none => exact carrying_of_none rfl
    | some key =>
        rw [hkey key hresult]
        exact carrying_of_none rfl
  · obtain ⟨hreserve, horder⟩ := find_none_of_agree hagree hfresh
    have hupdate := hdb.update hreserve horder ⟨itemId, itemCount⟩
    refine ⟨Function.update args u ⟨itemId, itemCount⟩, ?_,
      ⟨hupdate.stock, hupdate.orders⟩, ?_⟩
    · intro t ht
      have htu : t ≠ u := by
        intro htu
        exact ht (htu ▸ hfresh)
      exact Function.update_of_ne htu _ _
    · show (Coordinator.resume (callService _ _ _ _).2 _).Carrying _ _
      cases hresult : (callService TccService.insertTcc none fault
          db.tccs).2 with
      | none => exact carrying_of_none rfl
      | some key =>
          rcases hkey key hresult with hnone | hown
          · rw [hnone]
            exact carrying_of_none rfl
          · intro t ht
            have hsame : key = some (t : ℤ) := ht
            have htu : t = u := by
              rw [hown] at hsame
              exact_mod_cast (Option.some.inj hsame).symm
            rw [htu, Function.update_self]
            exact ⟨rfl, rfl⟩

/-- Replacing a coordinator by its successor after one call. -/
theorem booked_of_set {args args' : ℕ → Arguments} {items : ItemStockDb}
    {world : World} {k : ℕ} {db : Db} {next : Coordinator}
    (hinv : Inv world) (hbooked : Booked args items world)
    (hsame : ∀ t, world.db.tccs.status t ≠ none → args' t = args t)
    (hledger : Ledger args' items db)
    (hnext : next.Carrying args' items.items) :
    Booked args' items { db := db, calls := world.calls.set k next } := by
  refine ⟨hledger, fun j d hd => ?_⟩
  rcases TransitionSystem.process_cases hd with ⟨_, hdnext⟩ | ⟨_, hold⟩
  · rw [hdnext]
    exact hnext
  · intro t ht
    have hstatus := (hinv.right j d hold).tcc_ne_none ht
    rw [hsame t hstatus]
    exact hbooked.carries j d hold t ht

theorem booked_step {items : ItemStockDb} {world next : World}
    {action : Action} (hinv : Inv world) (hbooked : Booked args items world)
    (hstep : world.step action = some next) :
    ∃ args', Booked args' items next ∧
      ∀ t, world.db.tccs.status t ≠ none →
        args' t = args t ∧ next.db.tccs.status t ≠ none := by
  cases action with
  | placeOrder itemId itemCount =>
      cases hstep
      refine ⟨args, ⟨hbooked.ledger, fun k c hc => ?_⟩,
        fun t ht => ⟨rfl, ht⟩⟩
      rcases List.mem_append.mp (List.mem_of_getElem? hc) with hold | hnew
      · obtain ⟨j, hj⟩ := List.getElem?_of_mem hold
        exact hbooked.carries j c hj
      · rw [List.mem_singleton.mp hnew]
        exact carrying_of_none rfl
  | stop k =>
      cases hstep
      exact ⟨args, booked_of_set hinv hbooked (fun t _ => rfl)
        hbooked.ledger (carrying_of_none rfl), fun t ht => ⟨rfl, ht⟩⟩
  | call k fault =>
      simp only [World.step] at hstep
      cases hc : world.calls[k]? with
      | none =>
          rw [hc] at hstep
          cases hstep
      | some c =>
          rw [hc] at hstep
          cases hstep
          have hcarries := hbooked.carries k c hc
          by_cases hbegins : ∃ itemId itemCount,
              c = .insertTcc itemId itemCount
          · obtain ⟨itemId, itemCount, rfl⟩ := hbegins
            obtain ⟨args', hsame, hledger, hnext⟩ := booked_insertTcc
              hinv.agree hbooked.ledger itemId itemCount fault
            exact ⟨args', booked_of_set hinv hbooked hsame hledger hnext,
              fun t ht => ⟨hsame t ht, status_stays fault ht⟩⟩
          · obtain ⟨hledger, hnext⟩ := ledger_step hbooked.ledger hcarries
              (fun itemId itemCount hbegin =>
                hbegins ⟨itemId, itemCount, hbegin⟩) fault
            exact ⟨args, booked_of_set hinv hbooked (fun t _ => rfl) hledger
              hnext, fun t ht => ⟨rfl, status_stays fault ht⟩⟩

/-- Every run keeps books, and what a transaction was made with stays. -/
theorem booked_run {items : ItemStockDb} {world next : World}
    (hinv : Inv world) (hbooked : Booked args items world)
    (hrun : shop.Run (fun _ _ => True) world next) :
    Inv next ∧ ∃ args', Booked args' items next ∧
      ∀ t, world.db.tccs.status t ≠ none → args' t = args t := by
  have hkept := hrun.invariant (fun world' => Inv world' ∧
    ∃ args', Booked args' items world' ∧
      ∀ t, world.db.tccs.status t ≠ none →
        args' t = args t ∧ world'.db.tccs.status t ≠ none)
    (by
      rintro action s s' _ hstep ⟨hs, args', hbook, hsame⟩
      obtain ⟨args'', hbook', hsame'⟩ := booked_step hs hbook hstep
      refine ⟨inv_step hstep hs, args'', hbook', fun t ht => ?_⟩
      obtain ⟨hargs, hstatus⟩ := hsame t ht
      obtain ⟨hargs', hstatus'⟩ := hsame' t hstatus
      exact ⟨hargs'.trans hargs, hstatus'⟩)
    ⟨hinv, args, hbooked, fun t ht => ⟨rfl, ht⟩⟩
  obtain ⟨hnext, args', hbook, hsame⟩ := hkept
  exact ⟨hnext, args', hbook, fun t ht => (hsame t ht).1⟩

end Runs

end Tcc

end ClpszDemos
