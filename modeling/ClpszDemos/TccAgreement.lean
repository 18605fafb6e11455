import ClpszDemos.TccModel

/-!
# Agreement of the TCC demo

The three status columns say how far a transaction is.  What a coordinator
knows about the columns at its program point, and which combinations of the
three statuses occur at all, are preserved by every call under every fault.
-/

namespace ClpszDemos

namespace Tcc

/-! ## The services as moves of one status column -/

theorem tryReserveStock_call (tccId itemId stock : JLong) (fault : Fault)
    (db : ItemStockDb) :
    StatusCall tccId (· = none) ReserveStatus.init (· ≠ none)
      (Reports (ItemStockService.tryReserveStock tccId itemId stock) fault
        db)
      db.reserves.reserveStatus
      (callService (ItemStockService.tryReserveStock tccId itemId stock)
        false fault db).1.reserves.reserveStatus :=
  reserveStock_call ReserveStatus.init tccId itemId stock fault db

theorem cancelReserveStock_call (tccId itemId : JLong) (fault : Fault)
    (db : ItemStockDb) :
    StatusCall tccId (fun old => old = none ∨ old = some .init)
      ReserveStatus.canceled (· = some .canceled)
      (Reports (ItemStockService.cancelReserveStock tccId itemId) fault db)
      db.reserves.reserveStatus
      (callService (ItemStockService.cancelReserveStock tccId itemId)
        false fault db).1.reserves.reserveStatus :=
  releaseStock_call ReserveStatus.init ReserveStatus.canceled tccId itemId
    fault db

theorem tryCreateOrder_call (tccId itemId itemCount payedAmount : JLong)
    (fault : Fault) (db : OrderDb OrderStatus) :
    StatusCall tccId (· = none) OrderStatus.init (· ≠ none)
      (Reports (OrderService.tryCreateOrder tccId itemId itemCount
        payedAmount) fault db)
      db.orderStatus
      (callService (OrderService.tryCreateOrder tccId itemId itemCount
        payedAmount) false fault db).1.orderStatus :=
  openOrder_call OrderStatus.init true true false (· = true) (by simp)
    tccId itemId itemCount payedAmount fault db

theorem cancelCreateOrder_call (tccId : JLong) (fault : Fault)
    (db : OrderDb OrderStatus) :
    StatusCall tccId (· = some .init) OrderStatus.canceled
      (fun status => status = none ∨ status = some .canceled)
      (Reports (OrderService.cancelCreateOrder tccId) fault db)
      db.orderStatus
      (callService (OrderService.cancelCreateOrder tccId)
        false fault db).1.orderStatus :=
  cancelOpenOrder_call OrderStatus.init OrderStatus.canceled tccId fault db

theorem confirmReserveStock_call (tccId : JLong) (fault : Fault)
    (db : ItemStockDb) :
    StatusCall tccId (· = some .init) ReserveStatus.confirmed
      (· = some .confirmed)
      (Reports (ItemStockService.confirmReserveStock tccId) fault db)
      db.reserves.reserveStatus
      (callService (ItemStockService.confirmReserveStock tccId)
        false fault db).1.reserves.reserveStatus := by
  refine statusCall_of_body
    (fun db : ItemStockDb => db.reserves.reserveStatus)
    (by simp) ?_ ?_ fault
  · intro b next hbody _
    obtain ⟨t, row, ht, hfind, hcase⟩ :=
      ItemStockService.confirmReserveStock_eq_ok hbody
    rcases hcase with ⟨_, _, hstatus⟩ | ⟨hexit, _⟩
    · exact ⟨t, ht, by simp [UniqueTable.reserveStatus, hfind, hstatus]⟩
    · cases hexit
  · intro b next hbody
    obtain ⟨t, row, ht, hfind, hcase⟩ :=
      ItemStockService.confirmReserveStock_eq_ok hbody
    rcases hcase with ⟨hexit, _⟩ | ⟨_, hstatus, hnext⟩
    · cases hexit
    · refine ⟨t, ht, by simp [UniqueTable.reserveStatus, hfind, hstatus],
        ?_, rfl⟩
      rw [hnext]
      exact UniqueTable.map_find_modify hfind _ ReserveRow.reserveStatus

theorem confirmCreateOrder_call (tccId : JLong) (fault : Fault)
    (db : OrderDb OrderStatus) :
    StatusCall tccId (· = some .init) OrderStatus.normal
      (· = some .normal)
      (Reports (OrderService.confirmCreateOrder tccId) fault db)
      db.orderStatus
      (callService (OrderService.confirmCreateOrder tccId)
        false fault db).1.orderStatus := by
  refine statusCall_of_body UniqueTable.orderStatus (by simp) ?_ ?_ fault
  · intro b next hbody hsuccess
    obtain ⟨t, order, ht, hfind, hcase⟩ :=
      OrderService.confirmCreateOrder_eq_ok hbody
    rcases hcase with ⟨hexit, _⟩ | ⟨hexit, _⟩
    · cases hexit
      cases hsuccess
    · cases hexit
  · intro b next hbody
    obtain ⟨t, order, ht, hfind, hcase⟩ :=
      OrderService.confirmCreateOrder_eq_ok hbody
    rcases hcase with ⟨hexit, _⟩ | ⟨_, hstatus, hnext⟩
    · cases hexit
    · refine ⟨t, ht, by simp [UniqueTable.orderStatus, hfind, hstatus],
        ?_, rfl⟩
      rw [hnext]
      exact UniqueTable.map_find_modify hfind _ OrderRow.orderStatus

/-- A status update under a fault reported an updated row. -/
abbrev Updates (body : Statements (StatusDb TccStatus) (Exit ℕ))
    (fault : Fault) (db : StatusDb TccStatus) : Prop :=
  ∃ n, (callService body 0 fault db).2 = some n ∧ n > 0

theorem updateTccFromInit_call (tccId : JLong) (target : TccStatus)
    (fault : Fault) (db : StatusDb TccStatus) :
    StatusCall tccId (· = some .init) target (· = some target)
      (Updates (TccService.updateTccFromInit tccId target) fault db)
      db.status
      (callService (TccService.updateTccFromInit tccId target)
        0 fault db).1.status := by
  refine statusCall_of_body UniqueTable.status (by simp) ?_ ?_ fault
  · intro b next hbody _
    rcases updateStatus_eq_ok hbody with ⟨_, _, _, hexit, _⟩
    cases hexit
  · intro b next hbody
    rcases updateStatus_eq_ok hbody with
      ⟨t, old, ht, _, hold, hexpected, hnext⟩
    have hinit : old = .init := by simpa using hexpected
    subst hinit
    exact ⟨t, ht, hold, hnext, rfl⟩

theorem updateTccToFinished_call (tccId : JLong) (fault : Fault)
    (db : StatusDb TccStatus) :
    StatusCall tccId
      (fun old => old = some .toConfirm ∨ old = some .toCancel)
      TccStatus.finished (· = some .finished)
      (Updates (TccService.updateTccToFinished tccId) fault db)
      db.status
      (callService (TccService.updateTccToFinished tccId)
        0 fault db).1.status := by
  refine statusCall_of_body UniqueTable.status (by simp) ?_ ?_ fault
  · intro b next hbody _
    rcases updateStatus_eq_ok hbody with ⟨_, _, _, hexit, _⟩
    cases hexit
  · intro b next hbody
    rcases updateStatus_eq_ok hbody with
      ⟨t, old, ht, _, hold, hexpected, hnext⟩
    have hcase : old = .toConfirm ∨ old = .toCancel := by
      simpa using hexpected
    exact ⟨t, ht, by simpa [hold] using hcase, hnext, rfl⟩

theorem insertTcc_call (fault : Fault) (db : StatusDb TccStatus) :
    ((callService TccService.insertTcc none fault db).1 = db ∧
      ∀ tccId, (callService TccService.insertTcc none fault db).2 =
        some tccId → tccId = none) ∨
    ∃ t : ℕ, db.status t = none ∧
      (callService TccService.insertTcc none fault db).1.status =
        Function.update db.status t (some .init) ∧
      ∀ tccId, (callService TccService.insertTcc none fault db).2 =
        some tccId → tccId = none ∨ tccId = some (t : ℤ) :=
  insertStatus_call TccStatus.init fault db

/-! ## The three statuses of one transaction -/

/-- The status columns of the three tables. -/
structure Statuses where
  tcc : ℕ → Option TccStatus
  reserve : ℕ → Option ReserveStatus
  order : ℕ → Option OrderStatus

def Db.statuses (db : Db) : Statuses where
  tcc := db.tccs.status
  reserve := db.stock.reserves.reserveStatus
  order := db.orders.orderStatus

/-- Which reservation and order statuses go with a status of the tcc row. -/
def Agrees : Option TccStatus → Option ReserveStatus →
    Option OrderStatus → Prop
  | none, reserve, order => reserve = none ∧ order = none
  | some .init, reserve, order =>
      (reserve = none ∨ reserve = some .init) ∧
        (order = none ∨ order = some .init)
  | some .toConfirm, reserve, order =>
      (reserve = some .init ∨ reserve = some .confirmed) ∧
        (order = some .init ∨ order = some .normal)
  | some .toCancel, reserve, order =>
      (reserve = none ∨ reserve = some .init ∨ reserve = some .canceled) ∧
        (order = none ∨ order = some .init ∨ order = some .canceled)
  | some .finished, reserve, order =>
      (reserve = some .confirmed ∧ order = some .normal) ∨
        (reserve = some .canceled ∧
          (order = none ∨ order = some .canceled))

def Statuses.Agree (s : Statuses) : Prop :=
  ∀ t, Agrees (s.tcc t) (s.reserve t) (s.order t)

namespace Coordinator

/-- The transaction a coordinator still works on. -/
def tccId : Coordinator → JLong
  | insertTcc _ _ | stopped => none
  | getItemById tccId _ _ | tryCreateOrder tccId _ _ _
  | tryReserveStock tccId _ _ _ | updateTccFromInit tccId _ _ _
  | confirmReserveStock tccId | confirmCreateOrder tccId _
  | cancelReserveStock tccId _ | cancelCreateOrder tccId _
  | updateTccToFinished tccId => tccId

/-- What the program point of a coordinator says about its transaction. -/
def Knows (tcc : Option TccStatus) (reserve : Option ReserveStatus)
    (order : Option OrderStatus) : Coordinator → Prop
  | insertTcc _ _ | stopped => True
  | getItemById _ _ _ | tryCreateOrder _ _ _ _ => tcc = some .init
  | tryReserveStock _ _ _ created =>
      tcc = some .init ∧ (created = true → order ≠ none)
  | updateTccFromInit _ _ created reserved =>
      tcc = some .init ∧ (created = true → order ≠ none) ∧
        (reserved = true → reserve ≠ none)
  | confirmReserveStock _ => tcc = some .toConfirm
  | confirmCreateOrder _ confirmed =>
      tcc = some .toConfirm ∧
        (confirmed = true → reserve = some .confirmed)
  | cancelReserveStock _ _ => tcc = some .toCancel
  | cancelCreateOrder _ canceled =>
      tcc = some .toCancel ∧ (canceled = true → reserve = some .canceled)
  | updateTccToFinished _ =>
      (tcc = some .toConfirm ∧ reserve = some .confirmed ∧
          order = some .normal) ∨
        (tcc = some .toCancel ∧ reserve = some .canceled ∧
          (order = none ∨ order = some .canceled))

/-- The program point is right about the transaction it works on. -/
def Right (c : Coordinator) (s : Statuses) : Prop :=
  ∀ t : ℕ, c.tccId = some (t : ℤ) →
    c.Knows (s.tcc t) (s.reserve t) (s.order t)

end Coordinator

/-! ## One call of one coordinator -/

/-- What one call of a coordinator does for every transaction. -/
structure Advance (c next : Coordinator) (s s' : Statuses) : Prop where
  agree : s'.Agree
  right : next.Right s'
  frame : ∀ t : ℕ, c.tccId ≠ some (t : ℤ) → s.tcc t ≠ none →
    s'.tcc t = s.tcc t ∧ s'.reserve t = s.reserve t ∧
      s'.order t = s.order t
  tccId : next.tccId = none ∨ next.tccId = c.tccId ∨
    ∃ t : ℕ, next.tccId = some (t : ℤ) ∧ s.tcc t = none

/-- A call that touches no other transaction is judged on its own. -/
theorem advance_of_local {c next : Coordinator} {s s' : Statuses}
    (hagree : s.Agree)
    (htccId : next.tccId = none ∨ next.tccId = c.tccId)
    (hframe : ∀ t : ℕ, c.tccId ≠ some (t : ℤ) →
      s'.tcc t = s.tcc t ∧ s'.reserve t = s.reserve t ∧
        s'.order t = s.order t)
    (hlocal : ∀ t : ℕ, c.tccId = some (t : ℤ) →
      Agrees (s.tcc t) (s.reserve t) (s.order t) →
      Agrees (s'.tcc t) (s'.reserve t) (s'.order t) ∧
        next.Knows (s'.tcc t) (s'.reserve t) (s'.order t)) :
    Advance c next s s' where
  agree t := by
    by_cases ht : c.tccId = some (t : ℤ)
    · exact (hlocal t ht (hagree t)).1
    · rcases hframe t ht with ⟨htcc, hreserve, horder⟩
      rw [htcc, hreserve, horder]
      exact hagree t
  right t ht := by
    have hown : c.tccId = some (t : ℤ) := by
      rcases htccId with hnone | hsame
      · rw [hnone] at ht
        cases ht
      · rw [← hsame, ht]
    exact (hlocal t hown (hagree t)).2
  frame t ht _ := hframe t ht
  tccId := htccId.imp_right .inl

theorem tccId_resume {β : Type} {result : Option β}
    {next : β → Coordinator} {tccId : JLong}
    (hnext : ∀ b, (next b).tccId = none ∨ (next b).tccId = tccId) :
    (Coordinator.resume result next).tccId = none ∨
      (Coordinator.resume result next).tccId = tccId := by
  cases result with
  | none => exact .inl rfl
  | some b => exact hnext b

/-- Knowing what every result leads to is knowing where the call resumes. -/
theorem knows_resume {β : Type} {result : Option β}
    {next : β → Coordinator} {tcc : Option TccStatus}
    {reserve : Option ReserveStatus} {order : Option OrderStatus}
    (hnext : ∀ b, result = some b → (next b).Knows tcc reserve order) :
    (Coordinator.resume result next).Knows tcc reserve order := by
  cases result with
  | none => trivial
  | some b => exact hnext b rfl

section Calls

variable {db : Db} (hagree : db.statuses.Agree) (fault : Fault)

include hagree

theorem advance_insertTcc (itemId itemCount : JLong) :
    Advance (.insertTcc itemId itemCount)
      ((Coordinator.insertTcc itemId itemCount).step fault db).2
      db.statuses
      ((Coordinator.insertTcc itemId itemCount).step fault db).1.statuses := by
  rcases insertTcc_call fault db.tccs with
    ⟨hsame, hkey⟩ | ⟨t, hfresh, hnext, hkey⟩
  · have hstatuses : ((Coordinator.insertTcc itemId itemCount).step fault
        db).1.statuses = db.statuses := by
      simp only [Coordinator.step, Db.statuses, hsame]
    have htccId : ((Coordinator.insertTcc itemId itemCount).step fault
        db).2.tccId = none := by
      cases hresult : (callService TccService.insertTcc none fault
          db.tccs).2 with
      | none => simp [Coordinator.step, hresult, Coordinator.resume,
          Coordinator.tccId]
      | some tccId => simp [Coordinator.step, hresult, Coordinator.resume,
          Coordinator.tccId, hkey tccId hresult]
    rw [hstatuses]
    refine ⟨hagree, fun u hu => ?_, fun u _ _ => ⟨rfl, rfl, rfl⟩,
      .inl htccId⟩
    rw [htccId] at hu
    cases hu
  · have hcolumn : ((Coordinator.insertTcc itemId itemCount).step fault
        db).1.tccs.status = Function.update db.tccs.status t (some .init) :=
      hnext
    have htccId : ∀ key, ((Coordinator.insertTcc itemId itemCount).step
        fault db).2.tccId = some key → key = (t : ℤ) := by
      intro key hown
      cases hresult : (callService TccService.insertTcc none fault
          db.tccs).2 with
      | none => simp [Coordinator.step, hresult, Coordinator.resume,
          Coordinator.tccId] at hown
      | some tccId =>
          have hsame : tccId = some key := by
            simpa [Coordinator.step, hresult, Coordinator.resume,
              Coordinator.tccId] using hown
          have hcase := hkey tccId hresult
          simpa [hsame] using hcase
    have hnone := hagree t
    simp only [Db.statuses, hfresh, Agrees] at hnone
    refine ⟨fun u => ?_, fun u hu => ?_, fun u _ hu => ⟨?_, rfl, rfl⟩, ?_⟩
    · simp only [Db.statuses, hcolumn]
      by_cases hut : u = t
      · subst hut
        rw [Function.update_self]
        exact ⟨.inl hnone.1, .inl hnone.2⟩
      · rw [Function.update_of_ne hut]
        exact hagree u
    · have hut : u = t := by exact_mod_cast htccId u hu
      subst hut
      cases hresult : (callService TccService.insertTcc none fault
          db.tccs).2 with
      | none => simp [Coordinator.step, hresult, Coordinator.resume,
          Coordinator.Knows]
      | some tccId =>
          simp only [Coordinator.step, hresult, Coordinator.resume,
            Coordinator.Knows, Db.statuses, hnext, Function.update_self]
    · have hut : u ≠ t := fun hut => hu (hut ▸ hfresh)
      simp only [Db.statuses, hcolumn, Function.update_of_ne hut]
    · cases hown : ((Coordinator.insertTcc itemId itemCount).step fault
          db).2.tccId with
      | none => exact .inl rfl
      | some key =>
          exact .inr (.inr ⟨t, by rw [htccId key hown], hfresh⟩)

theorem advance_getItemById {tccId itemId itemCount : JLong}
    (hright : (Coordinator.getItemById tccId itemId itemCount).Right
      db.statuses) :
    Advance (.getItemById tccId itemId itemCount)
      ((Coordinator.getItemById tccId itemId itemCount).step fault db).2
      db.statuses
      ((Coordinator.getItemById tccId itemId itemCount).step fault
        db).1.statuses := by
  have hnext : ((Coordinator.getItemById tccId itemId itemCount).step fault
      db).2 = .stopped ∨ ∃ payedAmount,
        ((Coordinator.getItemById tccId itemId itemCount).step fault db).2 =
          .tryCreateOrder tccId itemId itemCount payedAmount := by
    simp only [Coordinator.step]
    rcases ItemService.getItemById itemId fault db.stock with _ | item
    · exact .inl rfl
    · cases itemCount with
      | none => exact .inl rfl
      | some count => exact .inr ⟨_, rfl⟩
  refine advance_of_local hagree ?_ (fun t _ => ⟨rfl, rfl, rfl⟩)
    (fun t ht hown => ⟨hown, ?_⟩)
  · rcases hnext with hstopped | ⟨payedAmount, hcreate⟩
    · rw [hstopped]
      exact .inl rfl
    · rw [hcreate]
      exact .inr rfl
  · rcases hnext with hstopped | ⟨payedAmount, hcreate⟩
    · rw [hstopped]
      trivial
    · rw [hcreate]
      exact hright t ht

theorem advance_tryCreateOrder
    {tccId itemId itemCount payedAmount : JLong}
    (hright : (Coordinator.tryCreateOrder tccId itemId itemCount
      payedAmount).Right db.statuses) :
    Advance (.tryCreateOrder tccId itemId itemCount payedAmount)
      ((Coordinator.tryCreateOrder tccId itemId itemCount
        payedAmount).step fault db).2
      db.statuses
      ((Coordinator.tryCreateOrder tccId itemId itemCount
        payedAmount).step fault db).1.statuses := by
  have hcall := tryCreateOrder_call tccId itemId itemCount payedAmount
    fault db.orders
  refine advance_of_local hagree (tccId_resume fun _ => .inr rfl)
    (fun t ht => ⟨rfl, rfl, hcall.frame ht⟩) (fun t ht hown => ?_)
  have htcc : db.tccs.status t = some .init := hright t ht
  simp only [Db.statuses, htcc, Agrees] at hown
  constructor
  · simp only [Coordinator.step, Db.statuses, htcc]
    apply hcall.holds_self ht
      (fun order => Agrees (some .init) _ order) hown
    intro _
    exact ⟨hown.1, .inr rfl⟩
  · refine knows_resume fun success hresult => ⟨htcc, fun hsuccess => ?_⟩
    exact hcall.done_self ht ⟨success, hresult, hsuccess⟩

theorem advance_tryReserveStock {tccId itemId itemCount : JLong}
    {created : Bool}
    (hright : (Coordinator.tryReserveStock tccId itemId itemCount
      created).Right db.statuses) :
    Advance (.tryReserveStock tccId itemId itemCount created)
      ((Coordinator.tryReserveStock tccId itemId itemCount
        created).step fault db).2
      db.statuses
      ((Coordinator.tryReserveStock tccId itemId itemCount
        created).step fault db).1.statuses := by
  have hcall := tryReserveStock_call tccId itemId itemCount fault db.stock
  refine advance_of_local hagree (tccId_resume fun _ => .inr rfl)
    (fun t ht => ⟨rfl, hcall.frame ht, rfl⟩) (fun t ht hown => ?_)
  rcases hright t ht with ⟨htcc, hcreated⟩
  simp only [Db.statuses] at htcc
  simp only [Db.statuses, htcc, Agrees] at hown
  constructor
  · simp only [Coordinator.step, Db.statuses, htcc]
    apply hcall.holds_self ht
      (fun reserve => Agrees (some .init) reserve _) hown
    intro _
    exact ⟨.inr rfl, hown.2⟩
  · refine knows_resume fun success hresult =>
      ⟨htcc, hcreated, fun hsuccess => ?_⟩
    exact hcall.done_self ht ⟨success, hresult, hsuccess⟩

theorem advance_updateTccFromInit {tccId itemId : JLong}
    {created reserved : Bool}
    (hright : (Coordinator.updateTccFromInit tccId itemId created
      reserved).Right db.statuses) :
    Advance (.updateTccFromInit tccId itemId created reserved)
      ((Coordinator.updateTccFromInit tccId itemId created
        reserved).step fault db).2
      db.statuses
      ((Coordinator.updateTccFromInit tccId itemId created
        reserved).step fault db).1.statuses := by
  have hcall := updateTccFromInit_call tccId
    (if reserved && created then .toConfirm else .toCancel) fault db.tccs
  refine advance_of_local hagree (tccId_resume fun updated => ?_)
    (fun t ht => ⟨hcall.frame ht, rfl, rfl⟩) (fun t ht hown => ?_)
  · simp only [Coordinator.afterUpdateFromInit]
    split_ifs <;> simp [Coordinator.tccId]
  rcases hright t ht with ⟨htcc, hcreated, hreserved⟩
  simp only [Db.statuses] at htcc hcreated hreserved
  simp only [Db.statuses, htcc, Agrees] at hown
  constructor
  · simp only [Coordinator.step, Db.statuses]
    apply hcall.holds_self ht (fun tcc => Agrees tcc _ _)
    · rw [htcc]
      exact hown
    · intro _
      by_cases hconfirm : (reserved && created) = true
      · rw [if_pos hconfirm]
        have hboth := Bool.and_eq_true_iff.mp hconfirm
        exact ⟨.inl (hown.1.resolve_left (hreserved hboth.1)),
          .inl (hown.2.resolve_left (hcreated hboth.2))⟩
      · rw [if_neg hconfirm]
        exact ⟨hown.1.imp_right .inl, hown.2.imp_right .inl⟩
  · refine knows_resume fun updated hresult => ?_
    simp only [Coordinator.afterUpdateFromInit]
    by_cases hupdated : updated > 0
    · have hdone := hcall.done_self ht ⟨updated, hresult, hupdated⟩
      rw [if_pos hupdated]
      by_cases hconfirm : (reserved && created) = true
      · rw [if_pos hconfirm]
        exact hdone.trans (by rw [if_pos hconfirm])
      · rw [if_neg hconfirm]
        exact hdone.trans (by rw [if_neg hconfirm])
    · rw [if_neg hupdated]
      trivial

theorem advance_confirmReserveStock {tccId : JLong}
    (hright : (Coordinator.confirmReserveStock tccId).Right db.statuses) :
    Advance (.confirmReserveStock tccId)
      ((Coordinator.confirmReserveStock tccId).step fault db).2
      db.statuses
      ((Coordinator.confirmReserveStock tccId).step fault
        db).1.statuses := by
  have hcall := confirmReserveStock_call tccId fault db.stock
  refine advance_of_local hagree (tccId_resume fun _ => .inr rfl)
    (fun t ht => ⟨rfl, hcall.frame ht, rfl⟩) (fun t ht hown => ?_)
  have htcc : db.tccs.status t = some .toConfirm := hright t ht
  simp only [Db.statuses, htcc, Agrees] at hown
  constructor
  · simp only [Coordinator.step, Db.statuses, htcc]
    apply hcall.holds_self ht
      (fun reserve => Agrees (some .toConfirm) reserve _) hown
    intro _
    exact ⟨.inr rfl, hown.2⟩
  · refine knows_resume fun success hresult => ⟨htcc, fun hsuccess => ?_⟩
    exact hcall.done_self ht ⟨success, hresult, hsuccess⟩

theorem advance_confirmCreateOrder {tccId : JLong} {confirmed : Bool}
    (hright : (Coordinator.confirmCreateOrder tccId confirmed).Right
      db.statuses) :
    Advance (.confirmCreateOrder tccId confirmed)
      ((Coordinator.confirmCreateOrder tccId confirmed).step fault db).2
      db.statuses
      ((Coordinator.confirmCreateOrder tccId confirmed).step fault
        db).1.statuses := by
  have hcall := confirmCreateOrder_call tccId fault db.orders
  refine advance_of_local hagree (tccId_resume fun success => ?_)
    (fun t ht => ⟨rfl, rfl, hcall.frame ht⟩) (fun t ht hown => ?_)
  · simp only [Coordinator.afterSecond]
    split_ifs <;> simp [Coordinator.tccId]
  rcases hright t ht with ⟨htcc, hconfirmed⟩
  simp only [Db.statuses] at htcc hconfirmed
  simp only [Db.statuses, htcc, Agrees] at hown
  constructor
  · simp only [Coordinator.step, Db.statuses, htcc]
    apply hcall.holds_self ht
      (fun order => Agrees (some .toConfirm) _ order) hown
    intro _
    exact ⟨hown.1, .inr rfl⟩
  · refine knows_resume fun success hresult => ?_
    simp only [Coordinator.afterSecond]
    by_cases hboth : (confirmed && success) = true
    · have hpair := Bool.and_eq_true_iff.mp hboth
      have hdone := hcall.done_self ht ⟨success, hresult, hpair.2⟩
      rw [if_pos hboth]
      exact .inl ⟨htcc, hconfirmed hpair.1, hdone⟩
    · rw [if_neg hboth]
      trivial

theorem advance_cancelReserveStock {tccId itemId : JLong}
    (hright : (Coordinator.cancelReserveStock tccId itemId).Right
      db.statuses) :
    Advance (.cancelReserveStock tccId itemId)
      ((Coordinator.cancelReserveStock tccId itemId).step fault db).2
      db.statuses
      ((Coordinator.cancelReserveStock tccId itemId).step fault
        db).1.statuses := by
  have hcall := cancelReserveStock_call tccId itemId fault db.stock
  refine advance_of_local hagree (tccId_resume fun _ => .inr rfl)
    (fun t ht => ⟨rfl, hcall.frame ht, rfl⟩) (fun t ht hown => ?_)
  have htcc : db.tccs.status t = some .toCancel := hright t ht
  simp only [Db.statuses, htcc, Agrees] at hown
  constructor
  · simp only [Coordinator.step, Db.statuses, htcc]
    apply hcall.holds_self ht
      (fun reserve => Agrees (some .toCancel) reserve _) hown
    intro _
    exact ⟨.inr (.inr rfl), hown.2⟩
  · refine knows_resume fun success hresult => ⟨htcc, fun hsuccess => ?_⟩
    exact hcall.done_self ht ⟨success, hresult, hsuccess⟩

theorem advance_cancelCreateOrder {tccId : JLong} {canceled : Bool}
    (hright : (Coordinator.cancelCreateOrder tccId canceled).Right
      db.statuses) :
    Advance (.cancelCreateOrder tccId canceled)
      ((Coordinator.cancelCreateOrder tccId canceled).step fault db).2
      db.statuses
      ((Coordinator.cancelCreateOrder tccId canceled).step fault
        db).1.statuses := by
  have hcall := cancelCreateOrder_call tccId fault db.orders
  refine advance_of_local hagree (tccId_resume fun success => ?_)
    (fun t ht => ⟨rfl, rfl, hcall.frame ht⟩) (fun t ht hown => ?_)
  · simp only [Coordinator.afterSecond]
    split_ifs <;> simp [Coordinator.tccId]
  rcases hright t ht with ⟨htcc, hcanceled⟩
  simp only [Db.statuses] at htcc hcanceled
  simp only [Db.statuses, htcc, Agrees] at hown
  constructor
  · simp only [Coordinator.step, Db.statuses, htcc]
    apply hcall.holds_self ht
      (fun order => Agrees (some .toCancel) _ order) hown
    intro _
    exact ⟨hown.1, .inr (.inr rfl)⟩
  · refine knows_resume fun success hresult => ?_
    simp only [Coordinator.afterSecond]
    by_cases hboth : (canceled && success) = true
    · have hpair := Bool.and_eq_true_iff.mp hboth
      have hdone := hcall.done_self ht ⟨success, hresult, hpair.2⟩
      rw [if_pos hboth]
      exact .inr ⟨htcc, hcanceled hpair.1, hdone⟩
    · rw [if_neg hboth]
      trivial

theorem advance_updateTccToFinished {tccId : JLong}
    (hright : (Coordinator.updateTccToFinished tccId).Right
      db.statuses) :
    Advance (.updateTccToFinished tccId)
      ((Coordinator.updateTccToFinished tccId).step fault db).2
      db.statuses
      ((Coordinator.updateTccToFinished tccId).step fault
        db).1.statuses := by
  have hcall := updateTccToFinished_call tccId fault db.tccs
  refine advance_of_local hagree (.inl rfl)
    (fun t ht => ⟨hcall.frame ht, rfl, rfl⟩) (fun t ht hown => ⟨?_, trivial⟩)
  have hknows := hright t ht
  simp only [Coordinator.Knows, Db.statuses] at hknows
  simp only [Coordinator.step, Db.statuses]
  apply hcall.holds_self ht (fun tcc => Agrees tcc _ _) hown
  intro _
  exact hknows.imp (fun hconfirm => hconfirm.2) (fun hcancel => hcancel.2)

theorem advance_step {c : Coordinator} (hright : c.Right db.statuses) :
    Advance c (c.step fault db).2 db.statuses
      (c.step fault db).1.statuses := by
  cases c with
  | insertTcc => exact advance_insertTcc hagree fault _ _
  | getItemById => exact advance_getItemById hagree fault hright
  | tryCreateOrder => exact advance_tryCreateOrder hagree fault hright
  | tryReserveStock => exact advance_tryReserveStock hagree fault hright
  | updateTccFromInit => exact advance_updateTccFromInit hagree fault hright
  | confirmReserveStock =>
      exact advance_confirmReserveStock hagree fault hright
  | confirmCreateOrder =>
      exact advance_confirmCreateOrder hagree fault hright
  | cancelReserveStock =>
      exact advance_cancelReserveStock hagree fault hright
  | cancelCreateOrder =>
      exact advance_cancelCreateOrder hagree fault hright
  | updateTccToFinished =>
      exact advance_updateTccToFinished hagree fault hright
  | stopped =>
      exact ⟨hagree, hright, fun _ _ _ => ⟨rfl, rfl, rfl⟩, .inl rfl⟩

end Calls

/-! ## Every reachable state -/

structure Inv (world : World) : Prop where
  agree : world.db.statuses.Agree
  right : ∀ (k : ℕ) (c : Coordinator), world.calls[k]? = some c →
    c.Right world.db.statuses
  distinct : ∀ (j k : ℕ) (c d : Coordinator), j ≠ k →
    world.calls[j]? = some c → world.calls[k]? = some d →
    ∀ t : ℕ, c.tccId = some (t : ℤ) → d.tccId ≠ some (t : ℤ)

theorem Coordinator.Right.tcc_ne_none {c : Coordinator} {s : Statuses}
    (hright : c.Right s) {t : ℕ} (ht : c.tccId = some (t : ℤ)) :
    s.tcc t ≠ none := by
  have hknows := hright t ht
  cases c with
  | insertTcc => cases ht
  | stopped => cases ht
  | updateTccToFinished =>
      rcases hknows with hconfirm | hcancel
      · simp [hconfirm.1]
      · simp [hcancel.1]
  | getItemById | tryCreateOrder | confirmReserveStock
  | cancelReserveStock =>
      simp only [Coordinator.Knows] at hknows
      simp [hknows]
  | tryReserveStock | updateTccFromInit | confirmCreateOrder
  | cancelCreateOrder =>
      simp only [Coordinator.Knows] at hknows
      simp [hknows.1]

theorem inv_of_initial {world : World} (hinit : world.Initial) :
    Inv world := by
  rcases hinit with ⟨hcalls, hreserves, htccs, horders⟩
  refine ⟨fun t => ?_, fun k c hc => ?_, fun j k c d _ hc => ?_⟩
  · rw [Db.statuses, hreserves, htccs, horders]
    exact ⟨rfl, rfl⟩
  · rw [hcalls] at hc
    cases hc
  · rw [hcalls] at hc
    cases hc

/-- Replacing a coordinator by its successor after one call. -/
theorem inv_of_advance {world : World} {k : ℕ} {c next : Coordinator}
    {db : Db} (hinv : Inv world) (hc : world.calls[k]? = some c)
    (hadvance : Advance c next world.db.statuses db.statuses) :
    Inv { db := db, calls := world.calls.set k next } := by
  have hlookup : ∀ j d, (world.calls.set k next)[j]? = some d →
      j = k ∧ d = next ∨ j ≠ k ∧ world.calls[j]? = some d :=
    fun j d hd => TransitionSystem.process_cases hd
  -- No other coordinator works on the transaction of the new program point.
  have hother : ∀ j d, j ≠ k → world.calls[j]? = some d →
      ∀ t : ℕ, d.tccId = some (t : ℤ) → next.tccId ≠ some (t : ℤ) := by
    intro j d hjk hd t ht hnext
    rcases hadvance.tccId with hnone | hsame | ⟨u, hu, hfresh⟩
    · rw [hnone] at hnext
      cases hnext
    · rw [hsame] at hnext
      exact hinv.distinct j k d c hjk hd hc t ht hnext
    · have htu : t = u := by simpa [hnext] using hu
      subst htu
      exact (hinv.right j d hd).tcc_ne_none ht hfresh
  refine ⟨hadvance.agree, fun j d hd => ?_, fun i j d e hij hd he => ?_⟩
  · rcases hlookup j d hd with ⟨_, hdnext⟩ | ⟨hjk, hold⟩
    · rw [hdnext]
      exact hadvance.right
    · intro t ht
      have hright := hinv.right j d hold
      have hne : c.tccId ≠ some (t : ℤ) :=
        hinv.distinct j k d c hjk hold hc t ht
      rcases hadvance.frame t hne (hright.tcc_ne_none ht) with
        ⟨htcc, hreserve, horder⟩
      rw [htcc, hreserve, horder]
      exact hright t ht
  · rcases hlookup i d hd with ⟨hik, hdnext⟩ | ⟨hik, hdold⟩
    · rcases hlookup j e he with ⟨hjk, _⟩ | ⟨hjk, heold⟩
      · exact absurd (hik.trans hjk.symm) hij
      · intro t ht heown
        rw [hdnext] at ht
        exact hother j e hjk heold t heown ht
    · rcases hlookup j e he with ⟨_, henext⟩ | ⟨_, heold⟩
      · rw [henext]
        exact hother i d hik hdold
      · exact hinv.distinct i j d e hij hdold heold

theorem inv_step {action : Action} {world next : World}
    (hstep : world.step action = some next) (hinv : Inv world) :
    Inv next := by
  cases action with
  | placeOrder itemId itemCount =>
      cases hstep
      have hlookup : ∀ (k : ℕ) (c : Coordinator), (world.calls ++
          [Coordinator.insertTcc itemId itemCount])[k]? = some c →
          world.calls[k]? = some c ∨
            c = Coordinator.insertTcc itemId itemCount := by
        intro k c hc
        rw [List.getElem?_append] at hc
        split at hc
        · exact .inl hc
        · exact .inr (by
            simpa using (List.mem_of_getElem? hc))
      refine ⟨hinv.agree, fun k c hc => ?_, fun j k c d hjk hc hd => ?_⟩
      · rcases hlookup k c hc with hold | hnew
        · exact hinv.right k c hold
        · subst hnew
          intro t ht
          cases ht
      · intro t hct hdt
        rcases hlookup j c hc with hcold | hcnew
        · rcases hlookup k d hd with hdold | hdnew
          · exact hinv.distinct j k c d hjk hcold hdold t hct hdt
          · subst hdnew
            cases hdt
        · subst hcnew
          cases hct
  | call k fault =>
      simp only [World.step] at hstep
      cases hc : world.calls[k]? with
      | none =>
          rw [hc] at hstep
          cases hstep
      | some c =>
          rw [hc] at hstep
          cases hstep
          exact inv_of_advance hinv hc
            (advance_step hinv.agree fault (hinv.right k c hc))
  | stop k =>
      cases hstep
      cases hc : world.calls[k]? with
      | none =>
          have hsame : world.calls.set k .stopped = world.calls :=
            List.set_eq_of_length_le (by simpa using hc)
          rw [hsame]
          exact hinv
      | some c =>
          have hstopped : Advance c .stopped world.db.statuses
              world.db.statuses :=
            ⟨hinv.agree, (by
              intro t ht
              cases ht), (fun _ _ _ => ⟨rfl, rfl, rfl⟩), .inl rfl⟩
          exact inv_of_advance hinv hc hstopped

theorem inv_of_reachable {world : World} (hreach : shop.Reachable world) :
    Inv world :=
  hreach.invariant Inv (fun _ => inv_of_initial)
    (fun _ _ _ _ hstep => inv_step hstep)

/-- The tcc row decides the outcome: a confirmed reservation never stands
beside a canceled order, a normal order never stands beside a canceled
reservation, and a finished transaction was carried out as a whole or
undone as a whole. -/
theorem tcc_agreement {world : World} (hreach : shop.Reachable world)
    (t : ℕ) :
    ¬ (world.db.stock.reserves.reserveStatus t = some .confirmed ∧
        world.db.orders.orderStatus t = some .canceled) ∧
    ¬ (world.db.orders.orderStatus t = some .normal ∧
        world.db.stock.reserves.reserveStatus t = some .canceled) ∧
    (world.db.tccs.status t = some .finished →
      (world.db.stock.reserves.reserveStatus t = some .confirmed ∧
        world.db.orders.orderStatus t = some .normal) ∨
      (world.db.stock.reserves.reserveStatus t = some .canceled ∧
        world.db.orders.orderStatus t ≠ some .init ∧
        world.db.orders.orderStatus t ≠ some .normal)) := by
  have hagree : Agrees (world.db.tccs.status t)
      (world.db.stock.reserves.reserveStatus t)
      (world.db.orders.orderStatus t) :=
    (inv_of_reachable hreach).agree t
  cases htcc : world.db.tccs.status t with
  | none =>
      rw [htcc] at hagree
      simp [hagree.1, hagree.2]
  | some status =>
      rw [htcc] at hagree
      cases status with
      | init =>
          rcases hagree with ⟨hreserve | hreserve, horder | horder⟩ <;>
            simp [hreserve, horder]
      | toConfirm =>
          rcases hagree with ⟨hreserve | hreserve, horder | horder⟩ <;>
            simp [hreserve, horder]
      | toCancel =>
          rcases hagree with ⟨hreserve | hreserve | hreserve,
            horder | horder | horder⟩ <;> simp [hreserve, horder]
      | finished =>
          rcases hagree with ⟨hreserve, horder⟩ |
            ⟨hreserve, horder | horder⟩ <;> simp [hreserve, horder]

/-- One item of price 99 with 100 in stock, before any order. -/
def presentShop : World where
  db := {
    stock := {
      items := Function.update (fun _ => none) 1 (some ⟨99, 100⟩)
      reserves := .empty _ }
    tccs := .empty _
    orders := .empty _ }
  calls := []

/-- An order of two items that nothing disturbs. -/
def presentOrder : List Action :=
  .placeOrder (some 1) (some 2) :: List.replicate 8 (.call 0 .none)

theorem tcc_agreement_presentOrder :
    ∃ world, shop.exec (fun _ _ => True) presentOrder presentShop =
        some world ∧
      world.db.stock.reserves.reserveStatus 1 = some .confirmed ∧
      world.db.orders.orderStatus 1 = some .normal := by
  have hexec : ∃ world, shop.exec (fun _ _ => True) presentOrder
        presentShop = some world ∧
      world.db.tccs.status 1 = some .finished ∧
      world.db.stock.reserves.reserveStatus 1 ≠ some .canceled :=
    ⟨_, rfl, rfl, by decide⟩
  rcases hexec with ⟨world, hworld, hfinished, hreserve⟩
  have hreach : shop.Reachable world :=
    TransitionSystem.reachableBy_of_exec ⟨rfl, rfl, rfl, rfl⟩ hworld
  rcases (tcc_agreement hreach 1).2.2 hfinished with hdone | hundone
  · exact ⟨world, hworld, hdone⟩
  · exact absurd hundone.1 hreserve

end Tcc

end ClpszDemos
