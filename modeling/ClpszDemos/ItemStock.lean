import ClpszDemos.LocalTransaction
import ClpszDemos.UniqueTable

/-!
# Item stock and its reservations

Both demos keep `item_table` and `item_reserve_stock_table` in the item
database, read them with the same `ItemDao` and `ItemReserveStockDao`, and
move stock with the same two `try` blocks; they differ in the name of the
transaction column and in the status of a reservation.  The status type is
a parameter here.

Columns declared `BIGINT UNSIGNED` hold natural numbers.  `ResultSet.getLong`
throws on a value from `2^63` on, and a statement that writes a negative
number is rejected.  A Java `Long` may be `null`, `long` arithmetic wraps
modulo `2^64`, and unboxing `null` throws.
-/

namespace ClpszDemos

abbrev JLong : Type := Option ℤ

def wrap64 (value : ℤ) : ℤ := value.bmod (2 ^ 64)

theorem wrap64_lt (value : ℤ) : wrap64 value < 2 ^ 63 := by
  have hlt := @Int.bmod_lt value (2 ^ 64) (by norm_num)
  unfold wrap64
  omega

theorem wrap64_of_nonneg {value : ℤ} (hnonneg : 0 ≤ value)
    (hlt : value < 2 ^ 63) : wrap64 value = value := by
  unfold wrap64
  rw [Int.bmod_eq_of_le] <;> omega

/-- A sum of two `long` values that is not negative did not overflow. -/
theorem wrap64_add_eq_natCast {m n k : ℕ} (hm : m < 2 ^ 63)
    (hn : n < 2 ^ 63) (hwrap : wrap64 (m + n) = k) :
    m + n < 2 ^ 63 ∧ k = m + n := by
  have hlt := wrap64_lt (m + n)
  have hmod : wrap64 (m + n) % 2 ^ 64 =
      ((m : ℤ) + n) % 2 ^ 64 := by
    exact_mod_cast @Int.bmod_emod ((m : ℤ) + n) (2 ^ 64)
  rw [hwrap] at hlt hmod
  omega

def unbox : JLong → Except String ℤ
  | some value => .ok value
  | none => .error "java.lang.NullPointerException"

def getLong (column : ℕ) : Except String ℤ :=
  if column < 2 ^ 63 then .ok column
  else .error "java.sql.SQLDataException: out of range"

def toUnsigned (value : ℤ) : Except String ℕ :=
  if 0 ≤ value then .ok value.toNat
  else .error "java.sql.SQLException: Out of range value for column"

theorem unbox_eq_ok_iff {value : JLong} {n : ℤ} :
    unbox value = .ok n ↔ value = some n := by
  cases value <;> simp [unbox]

theorem getLong_eq_ok_iff {column : ℕ} {n : ℤ} :
    getLong column = .ok n ↔ column < 2 ^ 63 ∧ n = column := by
  unfold getLong
  split <;> simp_all [eq_comm]

theorem toUnsigned_eq_ok_iff {value : ℤ} {n : ℕ} :
    toUnsigned value = .ok n ↔ value = n := by
  unfold toUnsigned
  split
  · simp only [Except.ok.injEq]
    omega
  · simp only [reduceCtorEq, false_iff]
    omega

structure ItemRow where
  price : ℕ
  stock : ℕ
  deriving DecidableEq, Repr

/-- `ItemDao` can build an `Item` from the row. -/
def ItemRow.Readable (row : ItemRow) : Prop :=
  row.price < 2 ^ 63 ∧ row.stock < 2 ^ 63

instance (row : ItemRow) : Decidable row.Readable :=
  inferInstanceAs (Decidable (_ ∧ _))

structure Item where
  itemId : ℤ
  price : ℤ
  stock : ℤ
  deriving DecidableEq, Repr

/-- A row of `item_reserve_stock_table`; `txId` is `tcc_id` or `saga_id`.
Its columns are written from `long` values and auto-increment keys, so
`getLong` reads them back. -/
structure ReserveRow (σ : Type) where
  irsId : ℕ
  txId : ℕ
  itemId : ℕ
  reserveStock : ℕ
  reserveStatus : σ
  deriving DecidableEq, Repr

instance (σ : Type) : KeyedRow (ReserveRow σ) where
  primaryKey := ReserveRow.irsId
  uniqueKey := ReserveRow.txId

def ReserveRow.setStatus {σ : Type} (status : σ) :
    KeyedRow.Update (ReserveRow σ) where
  apply row := { row with reserveStatus := status }
  primaryKey_apply _ := rfl
  uniqueKey_apply _ := rfl

structure StockDb (σ : Type) where
  items : ℕ → Option ItemRow
  reserves : UniqueTable (ReserveRow σ)

/-- The rows of a unique key; a `null` or negative key matches no row. -/
def UniqueTable.select {ρ : Type} [KeyedRow ρ] (table : UniqueTable ρ)
    (key : JLong) : Option ρ :=
  match key with
  | some value => if 0 ≤ value then table.find value.toNat else none
  | none => none

@[simp] theorem UniqueTable.select_natCast {ρ : Type} [KeyedRow ρ]
    (table : UniqueTable ρ) (key : ℕ) :
    table.select (some (key : ℤ)) = table.find key := by
  simp [UniqueTable.select]

theorem UniqueTable.select_eq_some {ρ : Type} [KeyedRow ρ]
    {table : UniqueTable ρ} {key : JLong} {row : ρ}
    (hselect : table.select key = some row) :
    ∃ n : ℕ, key = some (n : ℤ) ∧ table.find n = some row := by
  unfold UniqueTable.select at hselect
  split at hselect
  · split at hselect
    · rename_i value hvalue
      exact ⟨value.toNat, by simp [hvalue], hselect⟩
    · cases hselect
  · cases hselect

variable {σ : Type}

namespace ItemDao

def selectById (itemId : JLong) (db : StockDb σ) :
    Except String (Option Item) :=
  match itemId with
  | none => .ok none
  | some id =>
      if 0 ≤ id then
        match db.items id.toNat with
        | none => .ok none
        | some row => do
            let price ← getLong row.price
            let stock ← getLong row.stock
            return some { itemId := id, price := price, stock := stock }
      else .ok none

def selectByIdForUpdate (itemId : JLong) :
    Statements (StockDb σ) (Option Item) :=
  .read (selectById itemId)

def updateItemStock (itemId : JLong) (stock : ℤ) :
    Statements (StockDb σ) Unit :=
  .write fun db => do
    let stock ← toUnsigned stock
    match itemId with
    | none => .ok db
    | some id =>
        if 0 ≤ id then
          match db.items id.toNat with
          | none => .ok db
          | some row => .ok { db with
              items := Function.update db.items id.toNat
                (some { row with stock := stock }) }
        else .ok db

theorem selectByIdForUpdate_eq_ok {itemId : JLong} {db next : StockDb σ}
    {item? : Option Item}
    (hselect : selectByIdForUpdate itemId db = .ok (item?, next)) :
    selectById itemId db = .ok item? ∧ next = db :=
  Statements.read_eq_ok_iff.mp hselect

theorem selectById_eq_some {itemId : JLong} {db : StockDb σ}
    {item : Item} (hselect : selectById itemId db = .ok (some item)) :
    ∃ (i : ℕ) (row : ItemRow), itemId = some (i : ℤ) ∧
      db.items i = some row ∧ row.Readable ∧
      item = { itemId := i, price := row.price, stock := row.stock } := by
  unfold selectById at hselect
  split at hselect
  · cases hselect
  · rename_i id
    split at hselect
    · rename_i hid
      obtain ⟨i, rfl⟩ := Int.eq_ofNat_of_zero_le hid
      rw [Int.toNat_natCast] at hselect
      split at hselect
      · cases hselect
      · rename_i row hrow
        simp only [except_bind_eq_ok_iff, getLong_eq_ok_iff] at hselect
        obtain ⟨_, ⟨hprice, rfl⟩, _, ⟨hstock, rfl⟩, hitem⟩ := hselect
        cases hitem
        exact ⟨i, row, rfl, hrow, ⟨hprice, hstock⟩, rfl⟩
    · cases hselect

theorem selectById_of_readable {db : StockDb σ} {i : ℕ} {row : ItemRow}
    (hrow : db.items i = some row) (hreadable : row.Readable) :
    selectById (some (i : ℤ)) db =
      .ok (some { itemId := i, price := row.price, stock := row.stock }) := by
  simp only [selectById, Int.natCast_nonneg, if_true, Int.toNat_natCast,
    hrow, getLong, if_pos hreadable.1, if_pos hreadable.2]
  rfl

theorem selectByIdForUpdate_of_readable {db : StockDb σ} {i : ℕ}
    {row : ItemRow} (hrow : db.items i = some row)
    (hreadable : row.Readable) :
    selectByIdForUpdate (some (i : ℤ)) db =
      .ok (some { itemId := i, price := row.price, stock := row.stock }, db) :=
  Statements.read_eq_ok_iff.mpr ⟨selectById_of_readable hrow hreadable, rfl⟩

theorem updateItemStock_eq_ok {db next : StockDb σ} {i : ℕ} {stock : ℤ}
    {row : ItemRow} {u : Unit} (hrow : db.items i = some row)
    (hupdate : updateItemStock (some (i : ℤ)) stock db = .ok (u, next)) :
    ∃ n : ℕ, stock = n ∧
      next = { db with
        items := Function.update db.items i
          (some { row with stock := n }) } := by
  simp only [updateItemStock, Statements.write_eq_ok_iff,
    except_bind_eq_ok_iff, toUnsigned_eq_ok_iff, Int.natCast_nonneg,
    if_true, Int.toNat_natCast, hrow] at hupdate
  obtain ⟨n, rfl, hnext⟩ := hupdate
  cases hnext
  exact ⟨n, rfl, rfl⟩

end ItemDao

namespace ItemReserveStockDao

def selectByTxIdForUpdate (txId : JLong) :
    Statements (StockDb σ) (Option (ReserveRow σ)) :=
  .read fun db => .ok (db.reserves.select txId)

/-- `insert into item_reserve_stock_table ...`; the setters unbox their
arguments, and the statement checks the columns and the unique key. -/
def insertItemReserveStock (txId itemId : JLong) (reserveStock : ℤ)
    (status : σ) : Statements (StockDb σ) Unit :=
  .write fun db => do
    let txId ← unbox txId
    let itemId ← unbox itemId
    let txId ← toUnsigned txId
    let itemId ← toUnsigned itemId
    let reserveStock ← toUnsigned reserveStock
    match db.reserves.insert (fun irsId => ⟨irsId, txId, itemId,
        reserveStock, status⟩) (fun _ => rfl) with
    | some reserves => .ok { db with reserves := reserves }
    | none => .error "Duplicate entry"

def updateReserveStatus (irsId : ℕ) (status : σ) :
    Statements (StockDb σ) Unit :=
  .write fun db => .ok { db with
    reserves := db.reserves.modify irsId (ReserveRow.setStatus status) }

theorem selectByTxIdForUpdate_eq_ok {txId : JLong}
    {db next : StockDb σ} {row? : Option (ReserveRow σ)}
    (hselect : selectByTxIdForUpdate txId db = .ok (row?, next)) :
    row? = db.reserves.select txId ∧ next = db := by
  obtain ⟨hrow, hnext⟩ := Statements.read_eq_ok_iff.mp hselect
  exact ⟨(Except.ok.inj hrow).symm, hnext⟩

theorem insertItemReserveStock_eq_ok {db next : StockDb σ}
    {txId itemId : JLong} {reserveStock : ℤ} {status : σ} {u : Unit}
    (hinsert : insertItemReserveStock txId itemId reserveStock status db =
      .ok (u, next)) :
    ∃ (t i n : ℕ) (reserves : UniqueTable (ReserveRow σ)),
      txId = some (t : ℤ) ∧ itemId = some (i : ℤ) ∧ reserveStock = n ∧
      db.reserves.insert (fun irsId => ⟨irsId, t, i, n, status⟩)
        (fun _ => rfl) = some reserves ∧
      next = { db with reserves := reserves } := by
  simp only [insertItemReserveStock, Statements.write_eq_ok_iff,
    except_bind_eq_ok_iff, unbox_eq_ok_iff, toUnsigned_eq_ok_iff]
    at hinsert
  obtain ⟨_, rfl, _, rfl, t, rfl, i, rfl, n, rfl, hrows⟩ := hinsert
  split at hrows
  · rename_i reserves hreserves
    cases hrows
    exact ⟨t, i, n, reserves, rfl, rfl, rfl, hreserves, rfl⟩
  · cases hrows

theorem insertItemReserveStock_ok {db : StockDb σ} {t : ℕ} (i n : ℕ)
    (status : σ) (hfresh : db.reserves.find t = none) :
    ∃ reserves, insertItemReserveStock (some (t : ℤ)) (some (i : ℤ))
      (n : ℤ) status db = .ok ((), { db with reserves := reserves }) := by
  rcases UniqueTable.insert_isSome
    (fun irsId => (⟨irsId, t, i, n, status⟩ : ReserveRow σ))
    (fun _ => rfl) hfresh with ⟨reserves, hreserves⟩
  refine ⟨reserves, ?_⟩
  simp only [insertItemReserveStock, Statements.write_eq_ok_iff,
    except_bind_eq_ok_iff, unbox_eq_ok_iff, toUnsigned_eq_ok_iff]
  exact ⟨_, rfl, _, rfl, t, rfl, i, rfl, n, rfl, by rw [hreserves]⟩

end ItemReserveStockDao

/-! ## The two stock transactions -/

def stockNotEnough (need remain : ℤ) : String :=
  s!"stock not enough, need={need}, remain={remain}"

/-- The `try` block of `tryReserveStock` and of `deductStock`; `status` is
the status of a fresh reservation. -/
def reserveStock (status : σ) (txId itemId stock : JLong) :
    Statements (StockDb σ) (Exit Bool) := do
  match ← ItemDao.selectByIdForUpdate itemId with
  | none => throw "item not exist"
  | some item =>
      let stock ← .read fun _ => unbox stock
      if item.stock < stock then
        throw (stockNotEnough item.stock stock)
      else
        match ← ItemReserveStockDao.selectByTxIdForUpdate txId with
        | some _ => return .returned true
        | none =>
            ItemReserveStockDao.insertItemReserveStock txId itemId stock
              status
            ItemDao.updateItemStock itemId (wrap64 (item.stock - stock))
            return .committed true

/-- The `try` block of `cancelReserveStock` and of `cancelDeductStock`. -/
def releaseStock [DecidableEq σ] (live canceled : σ)
    (txId itemId : JLong) : Statements (StockDb σ) (Exit Bool) := do
  match ← ItemDao.selectByIdForUpdate itemId with
  | none => throw "item not exist"
  | some item =>
      match ← ItemReserveStockDao.selectByTxIdForUpdate txId with
      | some row =>
          if row.reserveStatus = live then
            ItemReserveStockDao.updateReserveStatus row.irsId canceled
            ItemDao.updateItemStock itemId
              (wrap64 (item.stock + row.reserveStock))
            return .committed true
          else if row.reserveStatus = canceled then
            return .returned true
          else throw "confirmed, can not cancel"
      | none =>
          ItemReserveStockDao.insertItemReserveStock txId itemId 0 canceled
          return .committed true

/-- A block of `reserveStock` that ends normally either finds the
transaction's row, or reserves: the quantity is in stock, the row is new and
the item loses the quantity. -/
theorem reserveStock_eq_ok {status : σ} {txId itemId stock : JLong}
    {db next : StockDb σ} {exit : Exit Bool}
    (hok : reserveStock status txId itemId stock db = .ok (exit, next)) :
    (exit = .returned true ∧ next = db ∧
      ∃ row, db.reserves.select txId = some row) ∨
    ∃ (t i n : ℕ) (row : ItemRow)
      (reserves : UniqueTable (ReserveRow σ)),
      txId = some (t : ℤ) ∧ itemId = some (i : ℤ) ∧
      stock = some (n : ℤ) ∧ exit = .committed true ∧
      db.items i = some row ∧ row.Readable ∧ n ≤ row.stock ∧
      db.reserves.insert (fun irsId => ⟨irsId, t, i, n, status⟩)
        (fun _ => rfl) = some reserves ∧
      next = {
        items := Function.update db.items i
          (some { row with stock := row.stock - n })
        reserves := reserves } := by
  obtain ⟨item?, mid, hfirst, hrest⟩ := Statements.bind_eq_ok_iff.mp hok
  clear hok
  obtain ⟨hitem, rfl⟩ := ItemDao.selectByIdForUpdate_eq_ok hfirst
  cases item? with
  | none => cases hrest
  | some item =>
      obtain ⟨i, row, rfl, hrow, hreadable, rfl⟩ :=
        ItemDao.selectById_eq_some hitem
      obtain ⟨count, mid, hunbox, htail⟩ :=
        Statements.bind_eq_ok_iff.mp hrest
      obtain ⟨hcount, rfl⟩ := Statements.read_eq_ok_iff.mp hunbox
      obtain rfl := unbox_eq_ok_iff.mp hcount
      by_cases hshort : (row.stock : ℤ) < count
      · rw [if_pos hshort] at htail
        cases htail
      · rw [if_neg hshort] at htail
        obtain ⟨found, mid, hread, hlast⟩ :=
          Statements.bind_eq_ok_iff.mp htail
        obtain ⟨rfl, rfl⟩ :=
          ItemReserveStockDao.selectByTxIdForUpdate_eq_ok hread
        cases hselect : mid.reserves.select txId with
        | some reserve =>
            rw [hselect] at hlast
            cases hlast
            exact .inl ⟨rfl, rfl, reserve, rfl⟩
        | none =>
            right
            rw [hselect] at hlast
            obtain ⟨_, inserted, hinsert, hupdated⟩ :=
              Statements.bind_eq_ok_iff.mp hlast
            obtain ⟨t, i', n, reserves, rfl, hi, rfl, hreserves, rfl⟩ :=
              ItemReserveStockDao.insertItemReserveStock_eq_ok hinsert
            obtain ⟨_, updated, hupdate, hdone⟩ :=
              Statements.bind_eq_ok_iff.mp hupdated
            obtain rfl : i = i' := by simpa using hi
            obtain ⟨m, hm, rfl⟩ :=
              ItemDao.updateItemStock_eq_ok (by exact hrow) hupdate
            have hle : n ≤ row.stock := by omega
            have hlt := hreadable.2
            have hm' : m = row.stock - n := by
              dsimp only at hm
              rw [wrap64_of_nonneg (by omega) (by omega)] at hm
              omega
            cases hdone
            exact ⟨t, i, n, row, reserves, rfl, rfl, rfl, rfl, hrow,
              hreadable, hle, hreserves, by rw [hm']⟩

/-- The two writes of a fresh reservation. -/
theorem reserveRow_ok {status : σ} {t i n : ℕ} {db : StockDb σ}
    {row : ItemRow} (hrow : db.items i = some row)
    (hreadable : row.Readable) (hle : n ≤ row.stock)
    (hfresh : db.reserves.find t = none) :
    ∃ reserves next,
      ItemReserveStockDao.insertItemReserveStock (some (t : ℤ))
        (some (i : ℤ)) (n : ℤ) status db =
          .ok ((), { db with reserves := reserves }) ∧
      ItemDao.updateItemStock (some (i : ℤ)) (wrap64 ((row.stock : ℤ) - n))
        { db with reserves := reserves } = .ok ((), next) := by
  have hlt : row.stock < 2 ^ 63 := hreadable.2
  rcases ItemReserveStockDao.insertItemReserveStock_ok i n status hfresh
    with ⟨reserves, hinsert⟩
  have hwrap : wrap64 ((row.stock : ℤ) - n) = ((row.stock - n : ℕ) : ℤ) := by
    rw [wrap64_of_nonneg (by omega) (by omega)]
    omega
  have hupdate : ∃ next, ItemDao.updateItemStock (some (i : ℤ))
      (wrap64 ((row.stock : ℤ) - n)) { db with reserves := reserves } =
        .ok ((), next) := by
    simp only [ItemDao.updateItemStock, Statements.write_eq_ok_iff,
      except_bind_eq_ok_iff, toUnsigned_eq_ok_iff, hwrap,
      Int.natCast_nonneg, if_true, Int.toNat_natCast, hrow]
    exact ⟨_, _, rfl, rfl⟩
  rcases hupdate with ⟨next, hnext⟩
  exact ⟨reserves, next, hinsert, hnext⟩

/-- The block up to the reservation, for an item that is in stock. -/
theorem reserveStock_inStock {status : σ} {txId : JLong} {i : ℕ}
    {quantity : ℤ} {db : StockDb σ} {row : ItemRow}
    (hrow : db.items i = some row) (hreadable : row.Readable)
    (hle : quantity ≤ row.stock) :
    reserveStock status txId (some (i : ℤ)) (some quantity) db =
      (do
        match ← ItemReserveStockDao.selectByTxIdForUpdate txId with
        | some _ => return .returned true
        | none =>
            ItemReserveStockDao.insertItemReserveStock txId (some (i : ℤ))
              quantity status
            ItemDao.updateItemStock (some (i : ℤ))
              (wrap64 ((row.stock : ℤ) - quantity))
            return .committed true : Statements (StockDb σ) (Exit Bool))
        db := by
  have hitem := ItemDao.selectByIdForUpdate_of_readable hrow hreadable
  unfold reserveStock
  rw [Statements.run_bind, hitem]
  dsimp only
  rw [Statements.run_bind]
  simp only [Statements.read, unbox]
  rw [if_neg (not_lt.mpr hle)]

theorem reserveStock_of_writes {status : σ} {t i n : ℕ}
    {db written next : StockDb σ} {row : ItemRow}
    (hrow : db.items i = some row) (hreadable : row.Readable)
    (hle : n ≤ row.stock) (hfresh : db.reserves.find t = none)
    (hinsert : ItemReserveStockDao.insertItemReserveStock (some (t : ℤ))
      (some (i : ℤ)) (n : ℤ) status db = .ok ((), written))
    (hupdate : ItemDao.updateItemStock (some (i : ℤ))
      (wrap64 ((row.stock : ℤ) - n)) written = .ok ((), next)) :
    reserveStock status (some (t : ℤ)) (some (i : ℤ)) (some (n : ℤ)) db =
      .ok (.committed true, next) := by
  rw [reserveStock_inStock hrow hreadable (by exact_mod_cast hle)]
  refine Statements.bind_eq_ok_iff.mpr ⟨none, db,
    Statements.read_eq_ok_iff.mpr ⟨?_, rfl⟩, ?_⟩
  · rw [UniqueTable.select_natCast, hfresh]
  · refine Statements.bind_eq_ok_iff.mpr ⟨(), written, hinsert, ?_⟩
    exact Statements.bind_eq_ok_iff.mpr ⟨(), next, hupdate, rfl⟩

/-- A quantity in stock is reserved for a transaction that has no row. -/
theorem reserveStock_ok {status : σ} {t i n : ℕ} {db : StockDb σ}
    {row : ItemRow} (hrow : db.items i = some row)
    (hreadable : row.Readable) (hle : n ≤ row.stock)
    (hfresh : db.reserves.find t = none) :
    ∃ next, reserveStock status (some (t : ℤ)) (some (i : ℤ))
      (some (n : ℤ)) db = .ok (.committed true, next) := by
  obtain ⟨reserves, next, hinsert, hupdate⟩ :=
    @reserveRow_ok σ status t i n db row hrow hreadable hle hfresh
  exact ⟨next, reserveStock_of_writes hrow hreadable hle hfresh hinsert hupdate⟩

/-- A transaction that has a row already gets its success again. -/
theorem reserveStock_found {status : σ} {txId : JLong} {i : ℕ}
    {quantity : ℤ} {db : StockDb σ} {row : ItemRow} {reserve : ReserveRow σ}
    (hrow : db.items i = some row) (hreadable : row.Readable)
    (hle : quantity ≤ row.stock)
    (hfound : db.reserves.select txId = some reserve) :
    reserveStock status txId (some (i : ℤ)) (some quantity) db =
      .ok (.returned true, db) := by
  rw [reserveStock_inStock hrow hreadable hle]
  refine Statements.bind_eq_ok_iff.mpr ⟨some reserve, db,
    Statements.read_eq_ok_iff.mpr ⟨?_, rfl⟩, rfl⟩
  rw [hfound]

/-- A block of `releaseStock` that ends normally finds the row canceled, or
gives the quantity of a live row back and cancels it, or records the
cancellation in an empty row. -/
theorem releaseStock_eq_ok [DecidableEq σ] {live canceled : σ}
    {txId itemId : JLong} {db next : StockDb σ} {exit : Exit Bool}
    (hok : releaseStock live canceled txId itemId db = .ok (exit, next)) :
    (exit = .returned true ∧ next = db ∧
      ∃ row, db.reserves.select txId = some row ∧
        row.reserveStatus = canceled) ∨
    (∃ (t i m : ℕ) (row : ReserveRow σ) (item : ItemRow),
      txId = some (t : ℤ) ∧ itemId = some (i : ℤ) ∧
      exit = .committed true ∧ db.items i = some item ∧
      item.Readable ∧ db.reserves.find t = some row ∧
      row.reserveStatus = live ∧
      wrap64 (item.stock + row.reserveStock) = m ∧
      next = {
        items := Function.update db.items i
          (some { item with stock := m })
        reserves := db.reserves.modify row.irsId
          (ReserveRow.setStatus canceled) }) ∨
    ∃ (t i : ℕ) (reserves : UniqueTable (ReserveRow σ)),
      txId = some (t : ℤ) ∧ itemId = some (i : ℤ) ∧
      exit = .committed true ∧ db.reserves.find t = none ∧
      db.reserves.insert (fun irsId => ⟨irsId, t, i, 0, canceled⟩)
        (fun _ => rfl) = some reserves ∧
      next = { db with reserves := reserves } := by
  obtain ⟨item?, mid, hfirst, hrest⟩ := Statements.bind_eq_ok_iff.mp hok
  clear hok
  obtain ⟨hitem, rfl⟩ := ItemDao.selectByIdForUpdate_eq_ok hfirst
  cases item? with
  | none => cases hrest
  | some item =>
      obtain ⟨i, itemRow, rfl, hitemRow, hreadable, rfl⟩ :=
        ItemDao.selectById_eq_some hitem
      obtain ⟨found, mid, hread, hlast⟩ :=
        Statements.bind_eq_ok_iff.mp hrest
      obtain ⟨rfl, rfl⟩ :=
        ItemReserveStockDao.selectByTxIdForUpdate_eq_ok hread
      cases hselect : mid.reserves.select txId with
      | some row =>
          rw [hselect] at hlast
          dsimp only at hlast
          obtain ⟨t, rfl, hfind⟩ := UniqueTable.select_eq_some hselect
          by_cases hlive : row.reserveStatus = live
          · right; left
            rw [if_pos hlive] at hlast
            obtain ⟨_, canceledDb, hcancel, hupdated⟩ :=
              Statements.bind_eq_ok_iff.mp hlast
            obtain ⟨_, updated, hupdate, hdone⟩ :=
              Statements.bind_eq_ok_iff.mp hupdated
            have hcanceledDb := Statements.write_eq_ok_iff.mp hcancel
            cases hcanceledDb
            obtain ⟨m, hm, rfl⟩ :=
              ItemDao.updateItemStock_eq_ok (by exact hitemRow) hupdate
            cases hdone
            exact ⟨t, i, m, row, itemRow, rfl, rfl, rfl, hitemRow,
              hreadable, hfind, hlive, hm, rfl⟩
          · rw [if_neg hlive] at hlast
            by_cases hcanceled : row.reserveStatus = canceled
            · rw [if_pos hcanceled] at hlast
              cases hlast
              exact .inl ⟨rfl, rfl, row, rfl, hcanceled⟩
            · rw [if_neg hcanceled] at hlast
              cases hlast
      | none =>
          right; right
          rw [hselect] at hlast
          obtain ⟨_, inserted, hinsert, hdone⟩ :=
            Statements.bind_eq_ok_iff.mp hlast
          obtain ⟨t, i', n, reserves, rfl, hi, hn, hreserves, rfl⟩ :=
            ItemReserveStockDao.insertItemReserveStock_eq_ok hinsert
          obtain rfl : i = i' := by simpa using hi
          obtain rfl : n = 0 := by omega
          cases hdone
          refine ⟨t, i, reserves, rfl, rfl, rfl, ?_, hreserves, rfl⟩
          rw [← UniqueTable.select_natCast, hselect]

/-- A release reads its item first. -/
theorem releaseStock_item [DecidableEq σ] {live canceled : σ}
    {txId itemId : JLong} {db next : StockDb σ} {exit : Exit Bool}
    (hok : releaseStock live canceled txId itemId db = .ok (exit, next)) :
    ∃ (i : ℕ) (row : ItemRow), itemId = some (i : ℤ) ∧
      db.items i = some row ∧ row.Readable := by
  obtain ⟨item?, mid, hfirst, hrest⟩ := Statements.bind_eq_ok_iff.mp hok
  obtain ⟨hitem, _⟩ := ItemDao.selectByIdForUpdate_eq_ok hfirst
  cases item? with
  | none => cases hrest
  | some item =>
      obtain ⟨i, row, hi, hrow, hreadable, _⟩ := ItemDao.selectById_eq_some hitem
      exact ⟨i, row, hi, hrow, hreadable⟩

/-- A cancellation that comes before its reservation is recorded. -/
theorem releaseStock_ok [DecidableEq σ] {live canceled : σ} {t i : ℕ}
    {db : StockDb σ} {row : ItemRow} (hrow : db.items i = some row)
    (hreadable : row.Readable) (hfresh : db.reserves.find t = none) :
    ∃ next, releaseStock live canceled (some (t : ℤ)) (some (i : ℤ)) db =
      .ok (.committed true, next) := by
  have hitem := ItemDao.selectByIdForUpdate_of_readable hrow hreadable
  rcases ItemReserveStockDao.insertItemReserveStock_ok i 0 canceled hfresh
    with ⟨reserves, hinsert⟩
  refine ⟨{ db with reserves := reserves }, Statements.bind_eq_ok_iff.mpr
    ⟨_, db, hitem, ?_⟩⟩
  refine Statements.bind_eq_ok_iff.mpr ⟨none, db,
    Statements.read_eq_ok_iff.mpr ⟨?_, rfl⟩, ?_⟩
  · rw [UniqueTable.select_natCast, hfresh]
  · exact Statements.bind_eq_ok_iff.mpr ⟨(), _, hinsert, rfl⟩

/-- A transaction that was canceled already gets its success again. -/
theorem releaseStock_again [DecidableEq σ] {live canceled : σ} {txId : JLong}
    {i : ℕ} {item : ItemRow} {row : ReserveRow σ} {db : StockDb σ}
    (hitem : db.items i = some item) (hreadable : item.Readable)
    (hselect : db.reserves.select txId = some row)
    (hlive : row.reserveStatus ≠ live)
    (hcanceled : row.reserveStatus = canceled) :
    releaseStock live canceled txId (some (i : ℤ)) db =
      .ok (.returned true, db) := by
  have hread := ItemDao.selectByIdForUpdate_of_readable hitem hreadable
  unfold releaseStock
  rw [Statements.run_bind, hread]
  simp only [Statements.run_bind, ItemReserveStockDao.selectByTxIdForUpdate,
    Statements.read, hselect, if_neg hlive, if_pos hcanceled,
    Statements.run_pure]

/-- A reservation that fits into the stock is given back. -/
theorem releaseStock_givenBack [DecidableEq σ] {live canceled : σ} {t i : ℕ}
    {item : ItemRow} {row : ReserveRow σ} {db : StockDb σ}
    (hitem : db.items i = some item) (hreadable : item.Readable)
    (hrow : db.reserves.find t = some row) (hlive : row.reserveStatus = live)
    (hfits : item.stock + row.reserveStock < 2 ^ 63) :
    releaseStock live canceled (some (t : ℤ)) (some (i : ℤ)) db =
      .ok (.committed true, {
        items := Function.update db.items i
          (some { item with stock := item.stock + row.reserveStock })
        reserves := db.reserves.modify row.irsId
          (ReserveRow.setStatus canceled) }) := by
  have hread := ItemDao.selectByIdForUpdate_of_readable hitem hreadable
  have hwrap : wrap64 ((item.stock : ℤ) + row.reserveStock) =
      ((item.stock + row.reserveStock : ℕ) : ℤ) := by
    rw [wrap64_of_nonneg (by omega) (by omega), Nat.cast_add]
  have hcolumn : toUnsigned ((item.stock + row.reserveStock : ℕ) : ℤ) =
      .ok (item.stock + row.reserveStock) :=
    toUnsigned_eq_ok_iff.mpr rfl
  unfold releaseStock
  rw [Statements.run_bind, hread]
  simp only [Statements.run_bind, ItemReserveStockDao.selectByTxIdForUpdate,
    Statements.read, UniqueTable.select_natCast, hrow, if_pos hlive,
    ItemReserveStockDao.updateReserveStatus, ItemDao.updateItemStock,
    Statements.write, hwrap, hcolumn, Int.natCast_nonneg, if_true,
    Int.toNat_natCast, hitem, Statements.run_pure]
  rfl

/-! ## Items stay readable -/

theorem readable_update {items : ℕ → Option ItemRow} {i j n : ℕ}
    {row : ItemRow} (hitem : ∃ old ∈ items i, old.Readable)
    (hrow : row.Readable) (hn : n < 2 ^ 63) :
    ∃ next ∈ Function.update items j (some { row with stock := n }) i,
      next.Readable := by
  by_cases hij : i = j
  · subst hij
    refine ⟨{ row with stock := n }, ?_, hrow.1, hn⟩
    exact Function.update_self _ _ _
  · rcases hitem with ⟨old, hold, holdReadable⟩
    refine ⟨old, ?_, holdReadable⟩
    exact (Function.update_of_ne hij _ _).trans hold

theorem reserveStock_readable {status : σ} {txId itemId stock : JLong}
    {db next : StockDb σ} {exit : Exit Bool}
    (hok : reserveStock status txId itemId stock db = .ok (exit, next)) {i : ℕ}
    (hitem : ∃ row ∈ db.items i, row.Readable) :
    ∃ row ∈ next.items i, row.Readable := by
  rcases reserveStock_eq_ok hok with
    ⟨_, hsame, _⟩ | ⟨_, j, n, row, _, _, _, _, _, _, hreadable, _, _, hnext⟩
  · rw [hsame]
    exact hitem
  · have hlt : row.stock < 2 ^ 63 := hreadable.2
    rw [hnext]
    exact readable_update hitem hreadable (by omega)

/-- A release does not write a number that overflows. -/
theorem releaseStock_readable [DecidableEq σ] {live canceled : σ}
    {txId itemId : JLong} {db next : StockDb σ} {exit : Exit Bool}
    (hok : releaseStock live canceled txId itemId db = .ok (exit, next)) {i : ℕ}
    (hitem : ∃ row ∈ db.items i, row.Readable) :
    ∃ row ∈ next.items i, row.Readable := by
  rcases releaseStock_eq_ok hok with
    ⟨_, hsame, _⟩ | ⟨_, j, m, row, item, _, _, _, _, hreadable, _, _, hwrap,
      hnext⟩ | ⟨_, _, _, _, _, _, _, _, hnext⟩
  · rw [hsame]
    exact hitem
  · have hlt := wrap64_lt (item.stock + row.reserveStock)
    rw [hnext]
    exact readable_update hitem hreadable (by omega)
  · rw [hnext]
    exact hitem

end ClpszDemos
