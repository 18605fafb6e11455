import ClpszDemos.Compensation
import ClpszDemos.SagaEventLoop
import ClpszDemos.SagaQuiescence

/-!
# Running `processCancel` again

The statements of `processCancel` do to the databases what the compensation of
a saga says.  A run may stop at any statement, and runs again from the start;
in between other work may move the stock.  A clean run at the end undoes the
saga if and only if the saga is recoverable there.
-/

namespace ClpszDemos

namespace Saga

/-! ## The rows of a saga in the databases -/

theorem Db.logsOf_keyed (db : Db) (t : ℕ) :
    ((db.logsOf t).map SagaLog.sagaLogId).Nodup := by
  have hrows : (db.logs.rows.map SagaLog.sagaLogId).Nodup :=
    db.logs.primaryKey_nodup
  exact hrows.sublist (List.filter_sublist.map _)

def Db.comp (db : Db) (t i : ℕ) : Comp where
  saga := db.sagas.status t
  order := db.orders.orderStatus t
  reserve := (db.stock.reserves.find t).map fun row =>
    (row.reserveStatus, row.reserveStock)
  item := db.stock.items i
  logs := db.logsOf t
  keyed := db.logsOf_keyed t

variable {e : Event} {t i : ℕ} {db : Db}

theorem Db.comp_givenBack {row : ReserveRow ReserveStatus}
    (hrow : db.stock.reserves.find t = some row) (item : ItemRow) :
    Db.comp { db with
      stock := {
        items := Function.update db.stock.items i (some item)
        reserves := db.stock.reserves.modify row.irsId
          (ReserveRow.setStatus ReserveStatus.canceled) } } t i =
      { db.comp t i with
        item := some item
        reserve := some (.canceled, row.reserveStock) } := by
  have hfind : (db.stock.reserves.modify row.irsId
      (ReserveRow.setStatus ReserveStatus.canceled)).find t =
        some ((ReserveRow.setStatus ReserveStatus.canceled).apply row) :=
    UniqueTable.find_modify_self hrow _
  apply Comp.ext
  · rfl
  · rfl
  · simp only [Db.comp, hfind]
    rfl
  · simp [Db.comp]
  · rfl

theorem Db.comp_recorded {reserves : UniqueTable (ReserveRow ReserveStatus)}
    (hinsert : db.stock.reserves.insert
      (fun irsId => ⟨irsId, t, i, 0, ReserveStatus.canceled⟩) (fun _ => rfl) =
        some reserves) :
    Db.comp { db with stock := { db.stock with reserves := reserves } } t i =
      { db.comp t i with reserve := some (.canceled, 0) } := by
  have hfind := UniqueTable.find_insert_self hinsert (Eq.refl t)
  apply Comp.ext
  · rfl
  · rfl
  · simp [Db.comp, hfind]
  · rfl
  · rfl

theorem Db.comp_orderCanceled {row : OrderRow OrderStatus}
    (hrow : db.orders.find t = some row) :
    Db.comp { db with
      orders := db.orders.modify row.orderId
        (OrderRow.setStatus OrderStatus.canceled) } t i =
      { db.comp t i with order := some .canceled } := by
  have hfind : (db.orders.modify row.orderId
      (OrderRow.setStatus OrderStatus.canceled)).find t =
        some ((OrderRow.setStatus OrderStatus.canceled).apply row) :=
    UniqueTable.find_modify_self hrow _
  apply Comp.ext
  · rfl
  · simp only [Db.comp, UniqueTable.orderStatus, hfind]
    rfl
  · rfl
  · rfl
  · rfl

theorem Db.comp_logCanceled {row : SagaLog} {event : EventName}
    (hrow : (db.comp t i).entry event = some row) :
    Db.comp { db with
      logs := db.logs.modify row.sagaLogId
        (SagaLog.setStatus .canceled) } t i = (db.comp t i).cancel row := by
  have hmem := List.mem_filter.mp (Comp.entry_eq_some hrow).1
  have hsaga : t = row.sagaId := by
    have hkey : (t : ℤ) = row.sagaId := by simpa using hmem.2
    exact_mod_cast hkey
  apply Comp.ext
  · rfl
  · rfl
  · rfl
  · rfl
  · exact (SagaLogDao.selectBySagaId_modify hmem.1 .canceled t).trans
      (if_pos hsaga)

theorem Db.comp_sagas {sagas : StatusDb SagaStatus}
    {status : Option SagaStatus} (hstatus : sagas.status t = status) :
    Db.comp { db with sagas := sagas } t i =
      { db.comp t i with saga := status } := by
  apply Comp.ext
  · exact hstatus
  · rfl
  · rfl
  · rfl
  · rfl

/-! ## The calls without a fault -/

/-- What a compensating call does when nothing fails: a step that it accepts is
undone, another one is refused. -/
inductive CleanCall {δ : Type} (comp : δ → Comp) (db : δ) (event : EventName) :
    δ × Option Bool → Prop
  | accepted (next : δ) (haccepts : (comp db).Accepts event)
      (hundoes : Undoes (comp db) event (comp next)) :
      CleanCall comp db event (next, some true)
  | refused (hrefuses : ¬ (comp db).Accepts event) :
      CleanCall comp db event (db, some false)

theorem cleanCall_of_body {δ : Type} {comp : δ → Comp} {table : δ}
    {event : EventName} {body : Statements δ (Exit Bool)}
    (herror : ∀ message, body table = .error message →
      ¬ (comp table).Accepts event)
    (hok : ∀ exit next, body table = .ok (exit, next) →
      exit = .returned false ∧ ¬ (comp table).Accepts event ∨
        (comp table).Accepts event ∧
          (exit = .returned true ∧ Undoes (comp table) event (comp table) ∨
            exit = .committed true ∧
              Undoes (comp table) event (comp next))) :
    CleanCall comp table event (callService body false .none table) := by
  unfold callService
  cases hbody : body table with
  | error message => exact .refused (herror message hbody)
  | ok result =>
      obtain ⟨exit, next⟩ := result
      rcases hok exit next hbody with
        ⟨hexit, hrefuses⟩ | ⟨haccepts, ⟨hexit, hundoes⟩ | ⟨hexit, hundoes⟩⟩
      · subst hexit
        exact .refused hrefuses
      · subst hexit
        exact .accepted table haccepts hundoes
      · subst hexit
        exact .accepted next haccepts hundoes

theorem cancelDeductStock_ok (hlong : (db.comp t i).Long) {exit : Exit Bool}
    {next : ItemStockDb}
    (hok : ItemStockService.cancelDeductStock (some (t : ℤ)) (some (i : ℤ))
      db.stock = .ok (exit, next)) :
    (db.comp t i).Accepts .deductStock ∧
      (exit = .returned true ∧
          Undoes (db.comp t i) .deductStock (db.comp t i) ∨
        exit = .committed true ∧ Undoes (db.comp t i) .deductStock
          (Db.comp { db with stock := next } t i)) := by
  obtain ⟨i', item, hi, hitem, hreadable⟩ := releaseStock_item hok
  obtain rfl : i = i' := by simpa using hi
  have hstock : item.stock < 2 ^ 63 := hreadable.2
  have hitem' : (db.comp t i).item = some item := hitem
  rcases releaseStock_eq_ok hok with
    ⟨hexit, _, row, hselect, hstatus⟩ |
      ⟨t', i', m, row, item', ht, hi', hexit, hold, _, hfind, hstatus, hwrap,
        hnext⟩ |
      ⟨t', i', reserves, ht, hi', hexit, hfind, hinsert, hnext⟩
  · rw [UniqueTable.select_natCast] at hselect
    have hreserve : (db.comp t i).reserve =
        some (.canceled, row.reserveStock) := by
      simp [Db.comp, hselect, hstatus]
    refine ⟨⟨⟨item, hitem, hreadable⟩, ?_⟩,
      .inl ⟨hexit, .again row.reserveStock hreserve⟩⟩
    simp only [Comp.stock, Comp.reserved, hitem', hreserve]
    omega
  · obtain rfl : t = t' := by simpa using ht
    obtain rfl : i = i' := by simpa using hi'
    obtain rfl : item = item' := Option.some.inj (hitem.symm.trans hold)
    have hreserve : (db.comp t i).reserve =
        some (.normal, row.reserveStock) := by
      simp [Db.comp, hfind, hstatus]
    have hfits := wrap64_add_eq_natCast hstock (hlong _ hreserve) hwrap
    refine ⟨⟨⟨item, hitem, hreadable⟩, ?_⟩, .inr ⟨hexit, ?_⟩⟩
    · simp only [Comp.stock, Comp.reserved, hitem', hreserve]
      omega
    · rw [hnext, hfits.2, Db.comp_givenBack hfind]
      exact .givenBack item row.reserveStock hitem hreserve
  · obtain rfl : t = t' := by simpa using ht
    obtain rfl : i = i' := by simpa using hi'
    have hreserve : (db.comp t i).reserve = none := by
      simp [Db.comp, hfind]
    refine ⟨⟨⟨item, hitem, hreadable⟩, ?_⟩, .inr ⟨hexit, ?_⟩⟩
    · simp only [Comp.stock, Comp.reserved, hitem', hreserve]
      omega
    · rw [hnext, Db.comp_recorded hinsert]
      exact .recorded hreserve

theorem cancelDeductStock_accepted
    (haccepts : (db.comp t i).Accepts .deductStock) :
    ∃ exit next, ItemStockService.cancelDeductStock (some (t : ℤ))
      (some (i : ℤ)) db.stock = .ok (exit, next) := by
  obtain ⟨⟨item, hitem, hreadable⟩, hfits⟩ := haccepts
  have hitem' : db.stock.items i = some item := hitem
  cases hfind : db.stock.reserves.find t with
  | none =>
      obtain ⟨next, hbody⟩ := @releaseStock_ok _ _ ReserveStatus.normal
        ReserveStatus.canceled t i db.stock item hitem hreadable hfind
      exact ⟨_, next, hbody⟩
  | some row =>
      cases hstatus : row.reserveStatus with
      | normal =>
          have hstock : item.stock + row.reserveStock < 2 ^ 63 := by
            simp only [Comp.stock, Comp.reserved, Db.comp, hitem', hfind,
              Option.map_some, hstatus] at hfits
            exact_mod_cast hfits
          exact ⟨_, _, releaseStock_givenBack hitem hreadable hfind hstatus
            hstock⟩
      | canceled =>
          have hselect : db.stock.reserves.select (some (t : ℤ)) =
              some row := by
            rw [UniqueTable.select_natCast, hfind]
          have hlive : row.reserveStatus ≠ .normal := by
            rw [hstatus]
            decide
          exact ⟨_, _, releaseStock_again hitem hreadable hselect hlive
            hstatus⟩

theorem cancelDeductStock_clean (hlong : (db.comp t i).Long) :
    CleanCall (fun stock => Db.comp { db with stock := stock } t i) db.stock
      .deductStock
      (callService (ItemStockService.cancelDeductStock (some (t : ℤ))
        (some (i : ℤ))) false .none db.stock) := by
  apply cleanCall_of_body
  · intro message hbody haccepts
    obtain ⟨exit, next, hok⟩ := cancelDeductStock_accepted haccepts
    rw [hbody] at hok
    cases hok
  · intro exit next hok
    exact .inr (cancelDeductStock_ok hlong hok)

theorem cancelOrder_clean :
    CleanCall (fun orders => Db.comp { db with orders := orders } t i)
      db.orders .createOrder
      (callService (OrderService.cancelOrder (some (t : ℤ))) false .none
        db.orders) := by
  apply cleanCall_of_body
  · intro message hbody haccepts
    obtain ⟨next, hok | hok⟩ := @cancelOpenOrder_ok _ _ OrderStatus.normal
      OrderStatus.canceled t db.orders haccepts
    · cases hok.symm.trans hbody
    · cases hok.symm.trans hbody
  · intro exit next hok
    obtain ⟨t', ht, hcases⟩ := cancelOpenOrder_eq_ok hok
    obtain rfl : t = t' := by simpa using ht
    rcases hcases with ⟨hexit, hfind⟩ | ⟨row, hexit, hfind, hopened⟩ |
      ⟨row, hexit, hfind, hopened, hnext⟩
    · have horder : (db.comp t i).order = none := by
        simp [Db.comp, UniqueTable.orderStatus, hfind]
      exact .inr ⟨.inl horder, .inl ⟨hexit, .missing horder⟩⟩
    · have horder : (db.comp t i).order = some row.orderStatus := by
        simp [Db.comp, UniqueTable.orderStatus, hfind]
      refine .inl ⟨hexit, ?_⟩
      rintro (hnone | hnormal)
      · cases horder.symm.trans hnone
      · exact hopened (Option.some.inj (horder.symm.trans hnormal))
    · have horder : (db.comp t i).order = some .normal := by
        simp [Db.comp, UniqueTable.orderStatus, hfind, hopened]
      refine .inr ⟨.inr horder, .inr ⟨hexit, ?_⟩⟩
      rw [hnext, Db.comp_orderCanceled hfind]
      exact .canceled horder

theorem updateSagaLogCanceled_clean (event : EventName) :
    ((db.comp t i).entry event = none ∧
        callService (SagaLogService.updateSagaLogEventStatus (some (t : ℤ))
          event .canceled) false .none db.logs = (db.logs, some false)) ∨
      ∃ row, (db.comp t i).entry event = some row ∧
        callService (SagaLogService.updateSagaLogEventStatus (some (t : ℤ))
          event .canceled) false .none db.logs =
          (db.logs.modify row.sagaLogId (SagaLog.setStatus .canceled),
            some true) := by
  cases hentry : (db.comp t i).entry event with
  | none =>
      have hselect : SagaLogDao.selectBySagaIdAndEventForUpdate
          (some (t : ℤ)) event db.logs = none := hentry
      refine .inl ⟨rfl, ?_⟩
      simp [callService, SagaLogService.updateSagaLogEventStatus,
        Statements.read, hselect]
  | some row =>
      have hselect : SagaLogDao.selectBySagaIdAndEventForUpdate
          (some (t : ℤ)) event db.logs = some row := hentry
      refine .inr ⟨row, rfl, callService_none_eq false ?_⟩
      refine Statements.bind_eq_ok_iff.mpr ⟨some row, db.logs,
        Statements.read_eq_ok_iff.mpr ⟨?_, rfl⟩, ?_⟩
      · rw [hselect]
      · exact Statements.bind_eq_ok_iff.mpr ⟨(), _, rfl, rfl⟩

theorem updateSagaStatus_clean :
    ((db.comp t i).saga ≠ some .init ∧
        (callService (SagaService.updateSagaStatus (some (t : ℤ)) .canceled) 0
          .none db.sagas).1 = db.sagas) ∨
      (db.comp t i).saga = some .init ∧
        (callService (SagaService.updateSagaStatus (some (t : ℤ)) .canceled) 0
          .none db.sagas).1.status t = some .canceled := by
  by_cases hinit : (db.comp t i).saga = some .init
  · exact .inr ⟨hinit, updateSagaStatus_none rfl hinit .canceled⟩
  · refine .inl ⟨hinit, ?_⟩
    apply callService_of_not_committed
    intro b next hbody
    obtain ⟨u, old, hu, _, hold, hexpected, _⟩ := updateStatus_eq_ok hbody
    obtain rfl : t = u := by simpa using hu
    have hold' : old = .init := by simpa using hexpected
    rw [hold'] at hold
    exact hinit hold

/-! ## The statements -/

/-- A compensating call under a fault. -/
theorem compensation_step {δ : Type} {event : EventName}
    {body : Statements δ (Exit Bool)} {put : δ → Db} {table : δ}
    (hevent : event ≠ .init)
    (hclean : CleanCall (fun next => (put next).comp t i) table event
      (callService body false .none table))
    (fault : Fault) (rest : List SagaLog) :
    CancelStep (fault = .none) e (.compensation e rest event)
      ((put table).comp t i)
      ((put (callService body false fault table).1).comp t i)
      ((callService body false fault table).2.bind fun success =>
        if success then some (.updateSagaLogCanceled e event rest)
        else none) := by
  have hfault := callService_none_or_fails body false fault table
  generalize callService body false .none table = clean at hclean hfault
  rcases hfault with hsame | ⟨hfault, hdb, hresult⟩
  · rw [hsame]
    cases hclean with
    | accepted next haccepts hundoes =>
        exact .called _ _ event rest haccepts hundoes (.inl rfl)
    | refused hrefuses => exact .failed _ event rest hevent fun _ => hrefuses
  · have hnext : ((callService body false fault table).2.bind fun success =>
        if success then some (Task.updateSagaLogCanceled e event rest)
        else none) = none := by
      rcases hresult with hnone | hfalse
      · rw [hnone]
        rfl
      · rw [hfalse]
        rfl
    have hfails : CancelStep (fault = .none) e (.compensation e rest event)
        ((put table).comp t i) ((put table).comp t i) none :=
      .failed _ event rest hevent fun hclean => absurd hclean hfault
    rw [hnext]
    rcases hdb with hdb | hdb
    · rw [hdb]
      exact hfails
    · rw [hdb]
      cases hclean with
      | accepted next haccepts hundoes =>
          exact .called _ _ event rest haccepts hundoes (.inr ⟨hfault, rfl⟩)
      | refused hrefuses => exact hfails

theorem updateSagaLogCanceled_step (event : EventName) (fault : Fault)
    (rest : List SagaLog) :
    CancelStep (fault = .none) e (.updateSagaLogCanceled e event rest)
      (db.comp t i)
      (Db.comp { db with logs := (callService
        (SagaLogService.updateSagaLogEventStatus (some (t : ℤ)) event
          .canceled) false fault db.logs).1 } t i)
      ((callService (SagaLogService.updateSagaLogEventStatus (some (t : ℤ))
        event .canceled) false fault db.logs).2.bind fun _ =>
          some (.cancelFrom e rest)) := by
  have hlogs := callService_fst (SagaLogService.updateSagaLogEventStatus
    (some (t : ℤ)) event .canceled) false fault db.logs
  have hgoes : Goes (fault = .none) (.cancelFrom e rest)
      ((callService (SagaLogService.updateSagaLogEventStatus (some (t : ℤ))
        event .canceled) false fault db.logs).2.bind fun _ =>
          some (.cancelFrom e rest)) := by
    cases hresult : (callService (SagaLogService.updateSagaLogEventStatus
        (some (t : ℤ)) event .canceled) false fault db.logs).2 with
    | none =>
        refine .inr ⟨?_, rfl⟩
        rintro rfl
        obtain ⟨b, hb⟩ := callService_none_returns
          (SagaLogService.updateSagaLogEventStatus (some (t : ℤ)) event
            .canceled) false db.logs
        cases hresult.symm.trans hb
    | some b => exact .inl rfl
  rcases hlogs with hlogs | ⟨hfault, hlogs⟩
  · rw [hlogs]
    rcases updateSagaLogCanceled_clean event with
      ⟨hnone, hcall⟩ | ⟨row, hrow, hcall⟩
    · rw [hcall]
      exact .logKept _ event rest (fun _ => hnone) hgoes
    · rw [hcall, Db.comp_logCanceled hrow]
      exact .logCanceled _ event rest row hrow hgoes
  · rw [hlogs]
    exact .logKept _ event rest (fun hclean => absurd hclean hfault) hgoes

theorem updateSagaStatus_step (fault : Fault) :
    CancelStep (fault = .none) e (.updateSagaStatus e .canceled) (db.comp t i)
      (Db.comp { db with sagas := (callService (SagaService.updateSagaStatus
        (some (t : ℤ)) .canceled) 0 fault db.sagas).1 } t i) none := by
  rcases callService_fst (SagaService.updateSagaStatus (some (t : ℤ))
    .canceled) 0 fault db.sagas with hsagas | ⟨hfault, hsagas⟩
  · rw [hsagas]
    rcases @updateSagaStatus_clean t i db with
      ⟨hinit, hcall⟩ | ⟨hinit, hcall⟩
    · rw [hcall]
      exact .sagaKept _ fun _ => hinit
    · rw [Db.comp_sagas hcall]
      exact .sagaCanceled _ hinit
  · rw [hsagas]
    exact .sagaKept _ fun hclean => absurd hclean hfault

/-- Every statement of `processCancel` does what the compensation says. -/
theorem Task.step_cancelStep (he : e.sagaId = some (t : ℤ))
    (hi : e.itemId = some (i : ℤ)) {task : Task} (htask : task.Cancels e)
    (hlong : (db.comp t i).Long) (fault : Fault) :
    CancelStep (fault = .none) e task (db.comp t i)
      ((task.step fault db).db.comp t i) (task.step fault db).next := by
  cases task with
  | selectSagaLog e' =>
      obtain rfl : e' = e := htask
      apply CancelStep.selected
      simp only [step, he]
      cases fault with
      | none | commit => exact .inl rfl
      | statement | escape => exact .inr ⟨by simp, rfl⟩
  | cancelDeductStock e' rest =>
      obtain rfl : e' = e := htask
      have hstep := @compensation_step e' t i _ .deductStock _
        (fun stock => { db with stock := stock }) db.stock (by decide)
        (cancelDeductStock_clean hlong) fault rest
      simp only [step, resume, he, hi]
      exact hstep
  | cancelOrder e' rest =>
      obtain rfl : e' = e := htask
      have hstep := @compensation_step e' t i _ .createOrder _
        (fun orders => { db with orders := orders }) db.orders (by decide)
        cancelOrder_clean fault rest
      simp only [step, resume, he]
      exact hstep
  | updateSagaLogCanceled e' event rest =>
      obtain rfl : e' = e := htask
      simp only [step, resume, he]
      exact updateSagaLogCanceled_step event fault rest
  | updateSagaStatus e' status =>
      obtain ⟨rfl, rfl⟩ := htask
      simp only [step, resume, he, Option.bind_fun_none]
      exact updateSagaStatus_step fault
  | _ => exact htask.elim

/-! ## Runs without a fault -/

theorem Task.cancelSteps_pos (c : Comp) (task : Task) :
    0 < task.cancelSteps c := by
  cases task <;> exact Nat.succ_pos _

/-- What every statement without a fault keeps holds at the end of a run, and
there is an end. -/
theorem cancel_run (he : e.sagaId = some (t : ℤ))
    (hi : e.itemId = some (i : ℤ)) (Inv : Comp → Option Task → Prop)
    (hkeep : ∀ task c c' next, Inv c (some task) →
      CancelStep True e task c c' next → Inv c' next) {n : ℕ} {task : Task}
    (htask : task.Cancels e) (hlong : (db.comp t i).Long)
    (hn : task.cancelSteps (db.comp t i) ≤ n)
    (hinv : Inv (db.comp t i) (some task)) :
    (task.runs (List.replicate n .none) db).2.2 = none ∧
      Inv ((task.runs (List.replicate n .none) db).1.comp t i) none := by
  induction n generalizing db task with
  | zero =>
      have hpos := task.cancelSteps_pos (db.comp t i)
      omega
  | succ n ih =>
      have hstep := Task.step_cancelStep he hi htask hlong .none
      rw [eq_self] at hstep
      have hinv' := hkeep task _ _ _ hinv hstep
      have hlong' := hstep.long hlong
      rw [List.replicate_succ, Task.runs]
      cases hnext : (task.step .none db).next with
      | none =>
          rw [hnext] at hinv'
          exact ⟨rfl, hinv'⟩
      | some next =>
          rw [hnext] at hinv' hstep
          obtain ⟨hcancels, hshorter⟩ := hstep.shorter
          exact ih hcancels hlong' (by omega) hinv'

/-! ## Attempts -/

/-- Databases after runs of `processCancel` for the event, each of which may
stop anywhere; the statement at which the last one is; and the stock that they
gave back.  Other work, in between, leaves the rows of the saga as they are. -/
inductive Attempts (e : Event) (t i : ℕ) (start : Db) :
    Db → Option Task → ℤ → Prop
  | start : Attempts e t i start start none 0
  | again {db : Db} {task : Option Task} {given : ℤ}
      (hattempts : Attempts e t i start db task given) :
      Attempts e t i start db (some (.selectSagaLog e)) given
  | step {db : Db} {task : Task} {given : ℤ}
      (hattempts : Attempts e t i start db (some task) given)
      (fault : Fault) :
      Attempts e t i start (task.step fault db).db (task.step fault db).next
        (given + (((task.step fault db).db.comp t i).stock -
          (db.comp t i).stock))
  | other {db next : Db} {task : Option Task} {given : ℤ}
      (hattempts : Attempts e t i start db task given)
      (hview : next.view t = db.view t) :
      Attempts e t i start next task given

theorem Db.comp_of_view {next : Db} (hview : next.view t = db.view t) :
    next.comp t i = { db.comp t i with item := next.stock.items i } := by
  have hsaga : (next.view t).saga = (db.view t).saga :=
    congrArg SagaView.saga hview
  have horder : (next.view t).order = (db.view t).order :=
    congrArg SagaView.order hview
  have hreserve : (next.view t).reserve = (db.view t).reserve :=
    congrArg SagaView.reserve hview
  have hlogs : (next.view t).logs = (db.view t).logs :=
    congrArg SagaView.logs hview
  apply Comp.ext
  · exact hsaga
  · exact congrArg (Option.map OrderRow.orderStatus) horder
  · exact congrArg (Option.map fun row => (row.reserveStatus,
      row.reserveStock)) hreserve
  · rfl
  · exact hlogs

section Attempts

variable {start : Db} {task : Option Task} {given : ℤ}

theorem Attempts.long (he : e.sagaId = some (t : ℤ))
    (hi : e.itemId = some (i : ℤ)) (hlong : (start.comp t i).Long)
    (hattempts : Attempts e t i start db task given) :
    (db.comp t i).Long ∧ ∀ task' ∈ task, task'.Cancels e := by
  induction hattempts with
  | start => exact ⟨hlong, by simp⟩
  | again _ ih =>
      refine ⟨ih.1, ?_⟩
      intro task' htask
      cases htask
      rfl
  | @step db task given _ fault ih =>
      have hstep := Task.step_cancelStep he hi (ih.2 task rfl) ih.1 fault
      refine ⟨hstep.long ih.1, ?_⟩
      intro next hnext
      rw [Option.mem_def.mp hnext] at hstep
      exact hstep.shorter.1
  | other _ hview ih =>
      rw [Db.comp_of_view hview]
      exact ih

/-- What was given back is not reserved any more. -/
theorem Attempts.conserved (he : e.sagaId = some (t : ℤ))
    (hi : e.itemId = some (i : ℤ)) (hlong : (start.comp t i).Long)
    (hattempts : Attempts e t i start db task given) :
    given + (db.comp t i).reserved = (start.comp t i).reserved := by
  induction hattempts with
  | start => exact zero_add _
  | again _ ih => exact ih
  | @step db task given hattempts fault ih =>
      obtain ⟨hlong', hcancels⟩ := hattempts.long he hi hlong
      have hstock := (Task.step_cancelStep he hi (hcancels task rfl) hlong'
        fault).stock
      omega
  | other _ hview ih =>
      rw [Db.comp_of_view hview]
      exact ih

theorem Comp.Interrupted.withItem {c : Comp} {logging : Option EventName}
    (hc : c.Interrupted logging) (item : Option ItemRow) :
    Comp.Interrupted { c with item := item } logging := by
  refine ⟨hc.saga, hc.entries, hc.order, ?_⟩
  intro event
  cases event with
  | init => exact hc.live .init
  | createOrder => exact hc.live .createOrder
  | deductStock => exact hc.live .deductStock

theorem Attempts.interrupted (he : e.sagaId = some (t : ℤ))
    (hi : e.itemId = some (i : ℤ)) (hlong : (start.comp t i).Long)
    (hstart : (start.comp t i).Recoverable)
    (hattempts : Attempts e t i start db task given) :
    (db.comp t i).Interrupted (task.bind Task.logging) := by
  induction hattempts with
  | start => exact Comp.interrupted_of_recoverable hstart
  | again _ ih => exact ih.stop
  | @step db task given hattempts fault ih =>
      obtain ⟨hlong', hcancels⟩ := hattempts.long he hi hlong
      exact interrupted_step ih
        (Task.step_cancelStep he hi (hcancels task rfl) hlong' fault)
  | @other db next task given _ hview ih =>
      rw [Db.comp_of_view hview]
      exact ih.withItem _

/-- A run under any faults is an attempt. -/
theorem Attempts.runs {task : Task}
    (hattempts : Attempts e t i start db (some task) given)
    (faults : List Fault) :
    Attempts e t i start (task.runs faults db).1 (task.runs faults db).2.2
      (given + (((task.runs faults db).1.comp t i).stock -
        (db.comp t i).stock)) := by
  induction faults generalizing db task given with
  | nil =>
      simp only [Task.runs, sub_self, add_zero]
      exact hattempts
  | cons fault faults ih =>
      have hstep := hattempts.step fault
      cases hnext : (task.step fault db).next with
      | none =>
          rw [hnext] at hstep
          simp only [Task.runs, hnext]
          exact hstep
      | some next =>
          rw [hnext] at hstep
          have hrest := ih hstep
          simp only [add_assoc, sub_add_sub_cancel'] at hrest
          simp only [Task.runs, hnext]
          exact hrest

/-- `processCancel` from the start, without a fault. -/
def Db.rerun (db : Db) (e : Event) (n : ℕ) : Db × List Event × Option Task :=
  (Task.selectSagaLog e).runs (List.replicate n .none) db

theorem undone_rerun (he : e.sagaId = some (t : ℤ))
    (hi : e.itemId = some (i : ℤ)) (hlong : (db.comp t i).Long) {n : ℕ}
    (hn : 2 * (db.logsOf t).length + 2 ≤ n) :
    (db.rerun e n).2.2 = none ∧
      ((((db.rerun e n).1).comp t i).Undone ↔ (db.comp t i).Recoverable) := by
  have htask : (Task.selectSagaLog e).Cancels e := rfl
  by_cases hrecoverable : (db.comp t i).Recoverable
  · obtain ⟨hend, hundone⟩ := cancel_run he hi Comp.Ends
      (fun _ _ _ _ hc hstep => onTrack_step hc hstep) htask hlong hn
      (Comp.onTrack_of_recoverable hrecoverable)
    exact ⟨hend, fun _ => hrecoverable, fun _ => hundone⟩
  · obtain ⟨hend, hbehind⟩ := cancel_run he hi Comp.StaysBehind
      (fun _ _ _ _ hc hstep => stuck_step hc hstep) htask hlong hn
      (Comp.stuck_of_not_recoverable hrecoverable)
    exact ⟨hend, fun hundone => absurd hundone hbehind.not_undone,
      fun hrecoverable' => absurd hrecoverable' hrecoverable⟩

theorem stock_rerun (he : e.sagaId = some (t : ℤ))
    (hi : e.itemId = some (i : ℤ)) (hlong : (db.comp t i).Long) {n : ℕ}
    (hn : 2 * (db.logsOf t).length + 2 ≤ n) :
    ((db.rerun e n).1.comp t i).stock + ((db.rerun e n).1.comp t i).reserved =
      (db.comp t i).stock + (db.comp t i).reserved := by
  have htask : (Task.selectSagaLog e).Cancels e := rfl
  exact (cancel_run he hi (fun c _ => c.stock + c.reserved =
      (db.comp t i).stock + (db.comp t i).reserved)
    (fun _ _ _ _ hc hstep => hstep.stock.trans hc) htask hlong hn rfl).2

theorem Comp.Undone.reserved {c : Comp} (hc : c.Undone) : c.reserved = 0 := by
  unfold Comp.reserved
  split
  · rename_i quantity hreserve
    exact absurd ⟨quantity, hreserve⟩ (hc.live .deductStock)
  · rfl

/-- Running `processCancel` again after any attempts: the clean run comes to its
end, and there the saga is undone, with its stock given back once in all the
runs together, if and only if the saga was recoverable. -/
theorem cancel_again_iff (he : e.sagaId = some (t : ℤ))
    (hi : e.itemId = some (i : ℤ)) (hlong : (start.comp t i).Long)
    (hattempts : Attempts e t i start db task given) {n : ℕ}
    (hn : 2 * (db.logsOf t).length + 2 ≤ n) :
    (db.rerun e n).2.2 = none ∧
      (((db.rerun e n).1.comp t i).Undone ∧
          given + (((db.rerun e n).1.comp t i).stock - (db.comp t i).stock) =
            (start.comp t i).reserved ↔
        (db.comp t i).Recoverable) ∧
      ((start.comp t i).Recoverable →
        ((db.comp t i).Recoverable ↔ ¬ (db.comp t i).Gap ∧
          ((∃ l ∈ db.logsOf t, l.IsOpen ∧ l.event = .deductStock) →
            (db.comp t i).Accepts .deductStock))) := by
  obtain ⟨hlong', _⟩ := hattempts.long he hi hlong
  obtain ⟨hend, hundone⟩ := undone_rerun he hi hlong' hn
  refine ⟨hend, ?_, ?_⟩
  · rw [← hundone]
    refine ⟨fun hboth => hboth.1, fun hdone => ⟨hdone, ?_⟩⟩
    have hgiven := hattempts.conserved he hi hlong
    have hstock := stock_rerun he hi hlong' hn
    have hnone := hdone.reserved
    omega
  · intro hstart
    exact Comp.recoverable_iff (hattempts.interrupted he hi hlong hstart)

end Attempts

/-- An order of one piece whose commit of the stock is applied and throws. -/
def reservedOrder : List Action :=
  [.placeOrder (some 0) (some 1), .call 0 .none, .call 0 .none, .call 0 .none,
    .work 0 .none, .work 0 .none, .work 0 .none, .work 0 .none,
    .work 0 .none, .work 0 .none, .work 0 .none, .work 0 .none,
    .work 0 .none, .work 0 (.commit true)]

def reservedEvent : Event where
  sagaId := some 1
  name := .deductStock
  itemId := some 0
  itemCount := some 1
  succeed := false

/-- The piece was given back, and the process stopped before it wrote the
log. -/
def givenBack (world : World) : Db :=
  ((Task.selectSagaLog reservedEvent).runs [.none, .escape true] world.db).1

theorem givenBack_reservedOrder :
    ∃ world, shop.exec (fun _ _ => True) reservedOrder oneItem = some world ∧
      (world.db.comp 1 0).reserve = some (.normal, 1) ∧
      (givenBack world).comp 1 0 =
        { saga := some .init
          order := some .normal
          reserve := some (.canceled, 1)
          item := some ⟨1, 1⟩
          logs := [⟨1, 1, .createOrder, .succeed⟩,
            ⟨2, 1, .deductStock, .init⟩]
          keyed := by decide } :=
  ⟨_, rfl, rfl, rfl⟩

theorem cancel_again_reservedOrder :
    ∃ (world : World) (given : ℤ),
      shop.exec (fun _ _ => True) reservedOrder oneItem = some world ∧
      ((givenBack world).rerun reservedEvent 6).2.2 = none ∧
      (((givenBack world).rerun reservedEvent 6).1.comp 1 0).Undone ∧
      given + ((((givenBack world).rerun reservedEvent 6).1.comp 1 0).stock -
        ((givenBack world).comp 1 0).stock) = 1 := by
  obtain ⟨world, hexec, hreserve, hcomp⟩ := givenBack_reservedOrder
  have hlong : (world.db.comp 1 0).Long := by
    intro reservation hreservation
    cases hreserve.symm.trans hreservation
    decide
  have hlogs : ((givenBack world).logsOf 1).length = 2 :=
    congrArg (fun c : Comp => c.logs.length) hcomp
  have hattempts := (@Attempts.start reservedEvent 1 0 world.db).again.runs
    [.none, .escape true]
  have hrecoverable : ((givenBack world).comp 1 0).Recoverable := by
    rw [hcomp]
    refine ⟨.inl rfl, ?_, ?_⟩
    · simp [Comp.entry, Comp.Accepts, Comp.stock, Comp.reserved,
        ItemRow.Readable]
    · intro event hlive
      cases event with
      | init => exact hlive.elim
      | createOrder => simp [SagaLog.IsOpen]
      | deductStock =>
          obtain ⟨quantity, hquantity⟩ := hlive
          cases hquantity
  obtain ⟨hend, hiff, _⟩ := @cancel_again_iff reservedEvent 1 0
    (givenBack world) world.db _ _ rfl rfl hlong hattempts 6 (by rw [hlogs])
  obtain ⟨hundone, hgiven⟩ := hiff.mpr hrecoverable
  refine ⟨world, _, hexec, hend, hundone, hgiven.trans ?_⟩
  simp only [Comp.reserved, hreserve]
  rfl

/-! ## Where attempts start -/

theorem StockCall.reserve_long {call : StockCall} {db next : ItemStockDb}
    {exit : Exit Bool} (hok : call.body db = .ok (exit, next))
    (hdb : ∀ row ∈ db.reserves.rows, row.reserveStock < 2 ^ 63) :
    ∀ row ∈ next.reserves.rows, row.reserveStock < 2 ^ 63 := by
  intro row hrow
  cases call with
  | deductStock sagaId itemId stock =>
      rcases reserveStock_eq_ok hok with
        ⟨_, hsame, _⟩ | ⟨_, _, n, item, _, _, _, _, _, _, hreadable, hle,
          hinsert, hnext⟩
      · rw [hsame] at hrow
        exact hdb row hrow
      · have hstock : item.stock < 2 ^ 63 := hreadable.2
        rw [hnext] at hrow
        rcases UniqueTable.mem_insert hinsert hrow with hold | hnew
        · exact hdb row hold
        · rw [hnew]
          exact lt_of_le_of_lt hle hstock
  | cancelDeductStock sagaId itemId =>
      rcases releaseStock_eq_ok hok with
        ⟨_, hsame, _⟩ | ⟨_, _, _, found, _, _, _, _, _, _, _, _, _, hnext⟩ |
          ⟨_, _, _, _, _, _, _, hinsert, hnext⟩
      · rw [hsame] at hrow
        exact hdb row hrow
      · rw [hnext] at hrow
        obtain ⟨old, hold, rfl⟩ := List.mem_map.mp hrow
        have hlong := hdb old hold
        split
        · exact hlong
        · exact hlong
      · rw [hnext] at hrow
        rcases UniqueTable.mem_insert hinsert hrow with hold | hnew
        · exact hdb row hold
        · rw [hnew]
          exact Nat.two_pow_pos 63

/-- No run reserves more than a `long`. -/
theorem reachable_long {world : World} (hreachable : shop.Reachable world)
    (t i : ℕ) : (world.db.comp t i).Long := by
  have hinv : ∀ row ∈ world.db.stock.reserves.rows,
      row.reserveStock < 2 ^ 63 := by
    refine hreachable.invariant (fun world : World =>
      ∀ row ∈ world.db.stock.reserves.rows, row.reserveStock < 2 ^ 63) ?_ ?_
    · intro world hinit row hrow
      rw [hinit.2.2.2.1] at hrow
      cases hrow
    · intro action world next _ hstep hworld
      cases World.step_cases hstep with
      | @work k fault task hworker hwaits =>
          rcases Task.step_stock fault world.db task with
            hsame | ⟨call, _, hcall⟩
          · simp only [hsame]
            exact hworld
          · simp only [hcall]
            exact callService_preserves (fun stock : ItemStockDb =>
              ∀ row ∈ stock.reserves.rows, row.reserveStock < 2 ^ 63)
              (fun b stock hbody => StockCall.reserve_long hbody hworld) false
              fault hworld
      | _ => exact hworld
  rintro reservation hreservation
  obtain ⟨row, hfind, rfl⟩ := Option.map_eq_some_iff.mp hreservation
  exact hinv row (UniqueTable.find_eq_some_iff.mp hfind).1

/-- Every entry is open, and there is one for each of the events. -/
theorem recoverable_of_logsOpen {events : List EventName}
    (hsaga : (db.comp t i).saga = some .init)
    (hlogs : LogsOpen events (db.logsOf t)) (hnodup : events.Nodup)
    (haccepts : ∀ event ∈ events, (db.comp t i).Accepts event)
    (hlive : ∀ event, (db.comp t i).Live event → event ∈ events) :
    (db.comp t i).Recoverable := by
  rw [← hlogs.events] at hnodup haccepts hlive
  refine ⟨.inl hsaga, ?_, ?_⟩
  · intro l hl _
    refine ⟨?_, haccepts l.event (List.mem_map_of_mem hl)⟩
    cases hentry : (db.comp t i).entry l.event with
    | none =>
        have hnone := List.find?_eq_none.mp hentry l hl
        simp at hnone
    | some row =>
        obtain ⟨hrow, hevent⟩ := Comp.entry_eq_some hentry
        rw [List.inj_on_of_nodup_map hnodup hrow hl hevent]
  · intro event hevent
    obtain ⟨l, hl, rfl⟩ := List.mem_map.mp (hlive event hevent)
    exact ⟨l, hl, hlogs.notCanceled l hl, rfl⟩

/-- What is known without faults of a saga whose `processCancel` begins. -/
theorem recoverable_of_tracks {items : ℕ → Option ItemRow}
    (hi : e.itemId = some (i : ℤ))
    (htask : (Task.selectSagaLog e).Tracks items (db.view t))
    (hitems : ReadableItem items i → ReadableItem db.stock.items i) :
    (db.comp t i).Recoverable := by
  rcases htask with ⟨hfresh, hlogs⟩ | ⟨hordered, hlogs, hpayable⟩
  · have horder : (db.comp t i).order = none := hfresh.order
    have hreserve := SagaView.find_of_reserveStatus_none hfresh.reserve
    refine recoverable_of_logsOpen hfresh.saga hlogs (by decide) ?_ ?_
    · intro event hevent
      rw [List.mem_singleton.mp hevent]
      exact .inl horder
    · intro event hlive
      cases event with
      | init => exact hlive.elim
      | createOrder => cases horder.symm.trans hlive
      | deductStock => simp [Comp.Live, Db.comp, hreserve] at hlive
  · obtain ⟨i', _, hi', _, hitem⟩ := hpayable
    obtain rfl : i = i' := by simpa [hi] using hi'
    obtain ⟨item, hrow, hreadable⟩ := hitems hitem
    have hstock : item.stock < 2 ^ 63 := hreadable.2
    have hreserve := SagaView.find_of_reserveStatus_none hordered.reserve
    have hrow' : db.stock.items i = some item := hrow
    refine recoverable_of_logsOpen hordered.saga hlogs (by decide) ?_ ?_
    · intro event hevent
      rcases List.mem_pair.mp hevent with rfl | rfl
      · exact .inr hordered.order
      · refine ⟨⟨item, hrow, hreadable⟩, ?_⟩
        simp only [Comp.stock, Comp.reserved, Db.comp, hrow', hreserve,
          Option.map_none]
        omega
    · intro event hlive
      cases event with
      | init => exact hlive.elim
      | createOrder => exact List.mem_cons_self
      | deductStock => simp [Comp.Live, Db.comp, hreserve] at hlive

/-- Without faults every `processCancel` begins where it can be run again. -/
theorem recoverable_of_faultless {start world : World} (hstart : start.Initial)
    (hrun : shop.Run (fun action _ => action.Faultless ∧
      action.NamesItem start.db.stock.items) start world)
    (hworker : some (.selectSagaLog e) ∈ world.workers)
    (he : e.sagaId = some (t : ℤ)) (hi : e.itemId = some (i : ℤ)) :
    (world.db.comp t i).Recoverable := by
  have hinv := quietInv_of_run hstart hrun
  have htoken : Task.selectSagaLog e ∈ world.tokensOf t := by
    refine Multiset.mem_filter.mpr ⟨Multiset.mem_add.mpr (.inr ?_), he⟩
    exact List.mem_filterMap.mpr ⟨_, hworker, rfl⟩
  obtain ⟨others, htokens⟩ := Multiset.exists_cons_of_mem htoken
  have hphase := hinv.phase t
  rw [htokens] at hphase
  rcases hphase.cons_cases with ⟨_, htask⟩ | ⟨_, hcommit, _⟩ |
    ⟨_, _, hcommit, _⟩ | ⟨_, _, _, hflight⟩
  · exact recoverable_of_tracks hi htask (hinv.ledger.readable i)
  · cases hcommit
  · cases hcommit
  · exact hflight.elim

/-! ## An order that cannot be canceled again -/

/-- An order of two pieces of an item that has one, up to the first statement
of its `processCancel`. -/
def shortOrder : List Action :=
  [.placeOrder (some 0) (some 2), .call 0 .none, .call 0 .none, .call 0 .none,
    .work 0 .none, .work 0 .none, .work 0 .none, .work 0 .none,
    .work 0 .none, .work 0 .none, .work 0 .none, .work 0 .none,
    .work 0 .none, .work 0 .none]

def shortEvent : Event where
  sagaId := some 1
  name := .deductStock
  itemId := some 0
  itemCount := some 2
  succeed := false

/-- The process stops after the commit of `cancelOrder`. -/
def stopped (world : World) : Db :=
  ((Task.selectSagaLog shortEvent).runs [.none, .none, .none, .escape true]
    world.db).1

theorem stopped_shortOrder :
    ∃ world, shop.exec (fun _ _ => True) shortOrder oneItem = some world ∧
      some (.selectSagaLog shortEvent) ∈ world.workers ∧
      (stopped world).stock.items 0 = some ⟨1, 1⟩ ∧
      ((stopped world).logsOf 1).length = 2 ∧
      (((stopped world).rerun shortEvent 6).1.comp 1 0).saga = some .init :=
  ⟨_, rfl, List.mem_singleton.mpr rfl, rfl, rfl, rfl⟩

/-- The order that was canceled in the first run keeps the second one from
canceling the saga. -/
theorem not_cancel_again :
    ¬ ∀ (world : World) (e : Event) (t i : ℕ) (db : Db) (task : Option Task)
      (given : ℤ) (n : ℕ), shop.Reachable world →
      some (.selectSagaLog e) ∈ world.workers →
      e.sagaId = some (t : ℤ) → e.itemId = some (i : ℤ) →
      Attempts e t i world.db db task given →
      (∃ item, db.stock.items i = some item ∧ item.Readable) →
      2 * (db.logsOf t).length + 2 ≤ n →
      ((db.rerun e n).1.comp t i).Undone ∧
        given + (((db.rerun e n).1.comp t i).stock - (db.comp t i).stock) =
          (world.db.comp t i).reserved := by
  intro hagain
  obtain ⟨world, hexec, hworker, hitem, hlogs, hsaga⟩ := stopped_shortOrder
  have hreachable : shop.Reachable world :=
    TransitionSystem.reachableBy_of_exec ⟨rfl, rfl, rfl, rfl, rfl, rfl, rfl⟩
      hexec
  have hattempts := (@Attempts.start shortEvent 1 0 world.db).again.runs
    [.none, .none, .none, .escape true]
  obtain ⟨hundone, _⟩ := hagain world shortEvent 1 0 (stopped world) _ _ 6
    hreachable hworker rfl rfl hattempts ⟨⟨1, 1⟩, hitem, by decide⟩
    (by rw [hlogs])
  cases hsaga.symm.trans hundone.saga

end Saga

end ClpszDemos
