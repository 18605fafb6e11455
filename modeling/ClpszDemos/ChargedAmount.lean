import ClpszDemos.CallLedger

/-!
# The charged amount of the TCC demo

`placeOrder` multiplies the count by the price in wrapping `long` arithmetic.
A normal order has a live reservation, so its count was in stock, and the
order table takes no negative amount; a product that wraps to a small number
gets past both.
-/

namespace ClpszDemos

namespace Tcc

/-! ## The amount of a normal order -/

/-- The order of every call for this item and count has the exact amount when
it is normal: a call is followed from where it has its transaction. -/
def ChargesExactly (start : World) (i price : ℕ) (itemCount : JLong) : Prop :=
  ∀ (called world : World) (k t : ℕ) (order : OrderRow OrderStatus),
    shop.Run (fun _ _ => True) start called →
    called.calls[k]? = some (.getItemById (some t) (some i) itemCount) →
    shop.Run (fun _ _ => True) called world →
    world.db.orders.find t = some order → order.orderStatus = .normal →
    ∃ count : ℤ, itemCount = some count ∧
      (order.payedAmount : ℤ) = count * price ∧ count * price < 2 ^ 63

/-- The count is in stock, and its product with the price is too large for a
`long` but wraps to a number that is not negative. -/
def WrapsUnnoticed (row : ItemRow) (itemCount : JLong) : Prop :=
  ∃ n : ℕ, itemCount = some (n : ℤ) ∧ n ≤ row.stock ∧
    2 ^ 63 ≤ n * row.price ∧ n * row.price % 2 ^ 64 < 2 ^ 63

theorem wrap64_nonneg_iff (n : ℕ) :
    0 ≤ wrap64 n ↔ n % 2 ^ 64 < 2 ^ 63 := by
  unfold wrap64 Int.bmod
  dsimp only
  split <;> omega

/-- Beside a normal order there is a live reservation. -/
theorem live_of_normal {tcc : Option TccStatus}
    {reserve : Option ReserveStatus}
    (hagree : Agrees tcc reserve (some .normal)) :
    ∃ status, reserve = some status ∧ live status = true := by
  cases tcc with
  | none => cases hagree.2
  | some status =>
      cases status with
      | init => rcases hagree.2 with hnone | hinit <;> contradiction
      | toConfirm =>
          rcases hagree.1 with hinit | hconfirmed
          · exact ⟨_, hinit, rfl⟩
          · exact ⟨_, hconfirmed, rfl⟩
      | toCancel =>
          rcases hagree.2 with hnone | hinit | hcanceled <;> contradiction
      | finished =>
          rcases hagree with ⟨hconfirmed, _⟩ | ⟨_, hnone | hcanceled⟩
          · exact ⟨_, hconfirmed, rfl⟩
          · cases hnone
          · cases hcanceled

/-- A normal order has the wrapped product of a count that was in stock. -/
theorem normal_order {args : ℕ → Arguments} {items : ItemStockDb}
    {world : World} (hinv : Inv world) (hbooked : Booked args items world)
    {i t : ℕ} {row : ItemRow} {order : OrderRow OrderStatus}
    (hrow : items.items i = some row)
    (hitemId : (args t).itemId = some (i : ℤ))
    (hfind : world.db.orders.find t = some order)
    (hnormal : order.orderStatus = .normal) :
    ∃ n : ℕ, (args t).itemCount = some (n : ℤ) ∧ n ≤ row.stock ∧
      (order.payedAmount : ℤ) = wrap64 ((n * row.price : ℕ) : ℤ) := by
  have hagree := hinv.agree t
  have horder : world.db.statuses.order t = some .normal := by
    show (world.db.orders.find t).map OrderRow.orderStatus = _
    rw [hfind, ← hnormal]
    rfl
  rw [horder] at hagree
  obtain ⟨status, hreserve, hlive⟩ := live_of_normal hagree
  obtain ⟨reserve, hfound, hstatus⟩ := Option.map_eq_some_iff.mp
    (show (world.db.stock.reserves.find t).map ReserveRow.reserveStatus =
      some status from hreserve)
  have hliveRow : live reserve.reserveStatus = true := by
    rw [hstatus]
    exact hlive
  have hcount := hbooked.ledger.stock.reserve t reserve hfound hliveRow
  have htaken := (hbooked.ledger.stock.balanced.taken_of_live hfound hliveRow
    ((itemOf_natCast args t).trans hitemId)).2
  have hstart := hbooked.ledger.stock.balanced.liveStock_le i
  rw [StockDb.stock_eq hrow] at hstart
  obtain ⟨j, first, count, hj, hfirst, hargs, hamount⟩ :=
    hbooked.ledger.orders t order hfind
  have hij : j = i := by
    rw [hitemId] at hj
    exact_mod_cast (Option.some.inj hj).symm
  have hsame : first = row := by
    rw [hij, hrow] at hfirst
    exact (Option.some.inj hfirst).symm
  have hn : count = reserve.reserveStock := by
    rw [hcount] at hargs
    exact (Option.some.inj hargs).symm
  refine ⟨reserve.reserveStock, hcount, htaken.trans hstart, ?_⟩
  rw [Option.some.inj hamount, hn, hsame, Nat.cast_mul]

/-- Where no product wraps unnoticed, no run charges another amount. -/
theorem charges_exactly {start : World} (hinit : start.Initial) {i : ℕ}
    {row : ItemRow} (hrow : start.db.stock.items i = some row)
    {itemCount : JLong} (hwraps : ¬ WrapsUnnoticed row itemCount) :
    ChargesExactly start i row.price itemCount := by
  intro called world k t order hrunCalled hcall hrun hfind hnormal
  obtain ⟨hinv, args, hbooked, _⟩ := booked_run (inv_of_initial hinit)
    (booked_of_initial (fun _ => ⟨none, none⟩) hinit) hrunCalled
  obtain ⟨hitemId, hitemCount⟩ := hbooked.carries k _ hcall t rfl
  have hstatus := (hinv.right k _ hcall).tcc_ne_none
    (show (Coordinator.getItemById _ _ _).tccId = some (t : ℤ) from rfl)
  obtain ⟨hinv', args', hbooked', hsame⟩ := booked_run hinv hbooked hrun
  have hargs := hsame t hstatus
  obtain ⟨n, hn, hstock, hamount⟩ := normal_order hinv' hbooked' hrow
    (by rw [hargs, ← hitemId]) hfind hnormal
  rw [hargs, ← hitemCount] at hn
  have hnonneg := (wrap64_nonneg_iff (n * row.price)).mp (by omega)
  have hfits : n * row.price < 2 ^ 63 := by
    by_contra hlarge
    exact hwraps ⟨n, hn, hstock, not_lt.mp hlarge, hnonneg⟩
  refine ⟨n, hn, ?_, by exact_mod_cast hfits⟩
  rw [hamount, wrap64_of_nonneg (Int.natCast_nonneg _)
    (by exact_mod_cast hfits), Nat.cast_mul]

/-! ## An undisturbed call -/

theorem OrderService.tryCreateOrder_ok {t : ℕ} {db : OrderDb OrderStatus}
    (hfresh : db.find t = none) (i n p : ℕ) :
    ∃ next, tryCreateOrder (some (t : ℤ)) (some (i : ℤ)) (some (n : ℤ))
        (some (p : ℤ)) db = .ok (.committed true, next) ∧
      next.orderStatus t = some .init := by
  obtain ⟨next, hok, hinsert⟩ : ∃ next, tryCreateOrder (some (t : ℤ))
      (some (i : ℤ)) (some (n : ℤ)) (some (p : ℤ)) db =
        .ok (.committed true, next) ∧
      db.insert (fun orderId => ⟨orderId, t, i, n, p, .init⟩)
        (fun _ => rfl) = some next := openOrder_ok hfresh
  refine ⟨next, hok, ?_⟩
  have hrow := UniqueTable.find_insert_self hinsert (Eq.refl t)
  exact congrArg (Option.map OrderRow.orderStatus) hrow

theorem ItemStockService.tryReserveStock_ok {t i n : ℕ} {db : ItemStockDb}
    {row : ItemRow} (hrow : db.items i = some row)
    (hreadable : row.Readable) (hle : n ≤ row.stock)
    (hfresh : db.reserves.find t = none) :
    ∃ next, tryReserveStock (some (t : ℤ)) (some (i : ℤ)) (some (n : ℤ)) db =
        .ok (.committed true, next) ∧
      next.reserves.reserveStatus t = some .init := by
  obtain ⟨next, hok⟩ : ∃ next, tryReserveStock (some (t : ℤ)) (some (i : ℤ))
      (some (n : ℤ)) db = .ok (.committed true, next) :=
    reserveStock_ok hrow hreadable hle hfresh
  exact ⟨next, hok, reserveStock_committed hok⟩

theorem ItemStockService.confirmReserveStock_ok {t : ℕ} {db : ItemStockDb}
    (hstatus : db.reserves.reserveStatus t = some .init) :
    ∃ next, confirmReserveStock (some (t : ℤ)) db =
      .ok (.committed true, next) := by
  obtain ⟨row, hfind, hinit⟩ := Option.map_eq_some_iff.mp hstatus
  refine ⟨{ db with
      reserves := db.reserves.modify row.irsId
        (ReserveRow.setStatus .confirmed) },
    Statements.bind_eq_ok_iff.mpr ⟨some row, db,
      Statements.read_eq_ok_iff.mpr ⟨?_, rfl⟩, ?_⟩⟩
  · rw [UniqueTable.select_natCast, hfind]
  · dsimp only
    rw [if_pos hinit]
    exact Statements.bind_eq_ok_iff.mpr ⟨(), _, rfl, rfl⟩

theorem OrderService.confirmCreateOrder_ok {t : ℕ}
    {db : OrderDb OrderStatus} (hstatus : db.orderStatus t = some .init) :
    ∃ next, confirmCreateOrder (some (t : ℤ)) db =
        .ok (.committed true, next) ∧
      next.orderStatus t = some .normal := by
  obtain ⟨order, hfind, hinit⟩ := Option.map_eq_some_iff.mp hstatus
  refine ⟨db.modify order.orderId (OrderRow.setStatus .normal),
    Statements.bind_eq_ok_iff.mpr ⟨some order, db,
      Statements.read_eq_ok_iff.mpr ⟨?_, rfl⟩, ?_⟩, ?_⟩
  · rw [UniqueTable.select_natCast, hfind]
  · dsimp only
    rw [if_pos hinit]
    exact Statements.bind_eq_ok_iff.mpr ⟨(), _, rfl, rfl⟩
  · have hrow := UniqueTable.find_modify_self hfind
      (OrderRow.setStatus OrderStatus.normal)
    exact congrArg (Option.map OrderRow.orderStatus) hrow

theorem TccService.updateTccFromInit_ok {t : ℕ} {db : StatusDb TccStatus}
    (hstatus : db.status t = some .init) (target : TccStatus) :
    ∃ next, updateTccFromInit (some (t : ℤ)) target db =
      .ok (.committed 1, next) := by
  obtain ⟨row, hfind, hinit⟩ := Option.map_eq_some_iff.mp hstatus
  exact updateStatus_ok hfind (by rw [hinit]; rfl)

section Undisturbed

variable {start : World} {db next : Db} {c d : Coordinator}

/-- One more call of the only coordinator. -/
theorem run_call
    (hrun : shop.Run (fun _ _ => True) start ⟨db, [c]⟩)
    (hstep : c.step .none db = (next, d)) :
    shop.Run (fun _ _ => True) start ⟨next, [d]⟩ := by
  refine hrun.tail (a := .call 0 .none) trivial ?_
  show some (World.mk (c.step .none db).1 [(c.step .none db).2]) = _
  rw [hstep]

/-- A call that nothing disturbs gets a transaction. -/
theorem run_insertTcc (hcalls : start.calls = []) (itemId itemCount : JLong) :
    ∃ (t : ℕ) (tccs : StatusDb TccStatus),
      tccs.status t = some .init ∧
      shop.Run (fun _ _ => True) start ⟨{ start.db with tccs := tccs },
        [.getItemById (some (t : ℤ)) itemId itemCount]⟩ := by
  obtain ⟨t, _, hkey, hnext⟩ := insertStatus_none TccStatus.init start.db.tccs
  have hplaced : shop.Run (fun _ _ => True) start
      ⟨start.db, [.insertTcc itemId itemCount]⟩ := by
    refine (TransitionSystem.Run.refl start).tail
      (a := .placeOrder itemId itemCount) trivial ?_
    show some (World.mk start.db (start.calls ++ _)) = _
    rw [hcalls]
    rfl
  refine ⟨t, (callService TccService.insertTcc none .none start.db.tccs).1,
    ?_, run_call hplaced ?_⟩
  · show UniqueTable.status (callService (insertStatus _) _ _ _).1 t = _
    rw [hnext, Function.update_self]
  · have hresult : (callService TccService.insertTcc none .none
        start.db.tccs).2 = some (some (t : ℤ)) := hkey
    simp only [Coordinator.step, hresult, Coordinator.resume]

/-- With the item in stock it goes on to a normal order. -/
theorem run_normal {t i n p : ℕ} {row : ItemRow}
    (htcc : db.tccs.status t = some .init)
    (hreserve : db.stock.reserves.find t = none)
    (horder : db.orders.find t = none)
    (hrow : db.stock.items i = some row) (hreadable : row.Readable)
    (hstock : n ≤ row.stock)
    (hamount : wrap64 ((n : ℤ) * row.price) = (p : ℤ)) :
    ∃ world : World, shop.Run (fun _ _ => True) ⟨db, [.getItemById
        (some (t : ℤ)) (some (i : ℤ)) (some (n : ℤ))]⟩ world ∧
      world.db.orders.orderStatus t = some .normal := by
  have hitem : ItemService.getItemById (some (i : ℤ)) .none db.stock =
      some ⟨i, row.price, row.stock⟩ := by
    unfold ItemService.getItemById
    rw [ItemDao.selectById_of_readable hrow hreadable]
  obtain ⟨orders, hcreate, hopened⟩ :=
    OrderService.tryCreateOrder_ok horder i n p
  obtain ⟨stock, htry, hreserved⟩ :=
    ItemStockService.tryReserveStock_ok hrow hreadable hstock hreserve
  obtain ⟨tccs, hupdate⟩ :=
    TccService.updateTccFromInit_ok htcc TccStatus.toConfirm
  obtain ⟨confirmed, hconfirm⟩ :=
    ItemStockService.confirmReserveStock_ok hreserved
  obtain ⟨normal, hlast, hnormal⟩ :=
    OrderService.confirmCreateOrder_ok hopened
  have hstart : shop.Run (fun _ _ => True) ⟨db, [.getItemById (some (t : ℤ))
      (some (i : ℤ)) (some (n : ℤ))]⟩ ⟨db, [.getItemById (some (t : ℤ))
        (some (i : ℤ)) (some (n : ℤ))]⟩ := .refl _
  have hread := run_call hstart
    (d := .tryCreateOrder (some (t : ℤ)) (some (i : ℤ)) (some (n : ℤ))
      (some (p : ℤ))) (by
    simp only [Coordinator.step, hitem, Coordinator.afterGetItem, hamount]
    rfl)
  have hcreated := run_call hread
    (d := .tryReserveStock (some (t : ℤ)) (some (i : ℤ)) (some (n : ℤ)) true)
    (by
      simp only [Coordinator.step, callService_none_eq false hcreate,
        Coordinator.resume]
      rfl)
  have htried := run_call hcreated
    (d := .updateTccFromInit (some (t : ℤ)) (some (i : ℤ)) true true) (by
      simp only [Coordinator.step, callService_none_eq false htry,
        Coordinator.resume]
      rfl)
  have hupdated := run_call htried (d := .confirmReserveStock (some (t : ℤ)))
    (by
      simp only [Coordinator.step, Bool.and_self, if_true,
        callService_none_eq 0 hupdate, Coordinator.resume,
        Coordinator.afterUpdateFromInit]
      rfl)
  have hconfirmed := run_call hupdated
    (d := .confirmCreateOrder (some (t : ℤ)) true) (by
      simp only [Coordinator.step, callService_none_eq false hconfirm,
        Coordinator.resume]
      rfl)
  have hdone := run_call hconfirmed
    (d := .updateTccToFinished (some (t : ℤ))) (by
      simp only [Coordinator.step, callService_none_eq false hlast,
        Coordinator.resume, Coordinator.afterSecond, Bool.and_self, if_true]
      rfl)
  exact ⟨_, hdone, hnormal⟩

end Undisturbed

/-! ## When the amount is exact -/

section Amount

variable {start : World} {i : ℕ} {row : ItemRow}

/-- A product that wraps unnoticed is charged when nothing disturbs the
call. -/
theorem not_charges_exactly (hinit : start.Initial)
    (hrow : start.db.stock.items i = some row) (hreadable : row.Readable)
    {itemCount : JLong} (hwraps : WrapsUnnoticed row itemCount) :
    ¬ ChargesExactly start i row.price itemCount := by
  intro hcharges
  obtain ⟨n, rfl, hstock, hlarge, hsmall⟩ := hwraps
  obtain ⟨hcalls, hreserves, _, horders⟩ := hinit
  obtain ⟨p, hp⟩ := Int.eq_ofNat_of_zero_le
    ((wrap64_nonneg_iff (n * row.price)).mpr hsmall)
  rw [Nat.cast_mul] at hp
  obtain ⟨t, tccs, htcc, hcalled⟩ :=
    run_insertTcc hcalls (some (i : ℤ)) (some (n : ℤ))
  obtain ⟨world, hrun, hnormal⟩ : ∃ world : World,
      shop.Run (fun _ _ => True) ⟨{ start.db with tccs := tccs },
        [.getItemById (some (t : ℤ)) (some (i : ℤ)) (some (n : ℤ))]⟩ world ∧
      world.db.orders.orderStatus t = some .normal :=
    run_normal htcc (by rw [hreserves]; rfl) (by rw [horders]; rfl) hrow
      hreadable hstock hp
  obtain ⟨order, hfind, hstatus⟩ := Option.map_eq_some_iff.mp hnormal
  obtain ⟨count, hcount, _, hfits⟩ :=
    hcharges _ world 0 t order hcalled rfl hrun hfind hstatus
  rw [← Option.some.inj hcount] at hfits
  have hfitsNat : n * row.price < 2 ^ 63 := by exact_mod_cast hfits
  omega

/-- Every normal order of a call is charged exactly, in every run, if and
only if the product does not wrap unnoticed. -/
theorem charges_exactly_iff (hinit : start.Initial)
    (hrow : start.db.stock.items i = some row) (hreadable : row.Readable)
    (itemCount : JLong) :
    ChargesExactly start i row.price itemCount ↔
      ¬ WrapsUnnoticed row itemCount := by
  constructor
  · intro hcharges hwraps
    exact not_charges_exactly hinit hrow hreadable hwraps hcharges
  · intro hwraps
    exact charges_exactly hinit hrow hwraps

theorem charges_exactly_iff_presentShop :
    ChargesExactly presentShop 1 99 (some 2) := by
  have hinit : presentShop.Initial := ⟨rfl, rfl, rfl, rfl⟩
  have hiff := charges_exactly_iff hinit
    (show presentShop.db.stock.items 1 = some ⟨99, 100⟩ from rfl) (by decide)
    (some 2)
  apply hiff.mpr
  rintro ⟨n, hn, _, hlarge, _⟩
  have htwo : n = 2 := by exact_mod_cast (Option.some.inj hn).symm
  rw [htwo] at hlarge
  exact absurd hlarge (by decide)

/-- An item whose price is `2 ^ 32`, as often in stock -/
def dearShop : World where
  db := {
    stock := {
      items := Function.update (fun _ => none) 1 (some ⟨2 ^ 32, 2 ^ 32⟩)
      reserves := .empty _ }
    tccs := .empty _
    orders := .empty _ }
  calls := []

/-- All of them cost nothing. -/
theorem not_always_charges_exactly :
    ¬ ∀ (start : World) (i : ℕ) (row : ItemRow) (itemCount : JLong),
      start.Initial → start.db.stock.items i = some row → row.Readable →
      ChargesExactly start i row.price itemCount := by
  intro hall
  have hrow : dearShop.db.stock.items 1 = some ⟨2 ^ 32, 2 ^ 32⟩ := rfl
  have hinit : dearShop.Initial := ⟨rfl, rfl, rfl, rfl⟩
  have hwraps : WrapsUnnoticed ⟨2 ^ 32, 2 ^ 32⟩ (some (2 ^ 32)) :=
    ⟨2 ^ 32, rfl, le_rfl, by decide, by decide⟩
  exact not_charges_exactly hinit hrow (by decide) hwraps
    (hall dearShop 1 ⟨2 ^ 32, 2 ^ 32⟩ (some (2 ^ 32)) hinit hrow (by decide))

end Amount

end Tcc

end ClpszDemos
