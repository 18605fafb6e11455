import ClpszDemos.SagaPhase

/-!
# Outcome safety of the Saga demo

What the main token of a saga knows of its rows is right in every run in
which a commit of `deductStock` takes effect once its event is put, no log
entry of the order is lost and no saga is finished before its stock is.
Without these conditions a saga can end FINISHED with no reservation.
-/

namespace ClpszDemos

namespace Saga

/-! ## What a token knows about its saga -/

namespace SagaView

/-- What the status of a saga promises. -/
def Settled (v : SagaView) : Prop :=
  (v.saga = some .finished →
    v.orderStatus = some .normal ∧ v.reserveStatus = some .normal) ∧
  (v.saga = some .canceled →
    v.orderStatus ≠ some .normal ∧ v.reserveStatus ≠ some .normal)

theorem settled_of_init {v : SagaView} (hsaga : v.saga = some .init) :
    v.Settled := by
  constructor
  · intro hfinished
    rw [hsaga] at hfinished
    cases hfinished
  · intro hcanceled
    rw [hsaga] at hcanceled
    cases hcanceled

/-- The log names the order, and no entry is canceled. -/
def Logged (v : SagaView) : Prop :=
  ∃ events, EventName.createOrder ∈ events ∧ LogsOpen events v.logs

end SagaView

/-- The rest of the log has an entry of the order that is not canceled. -/
def OpenOrder (logs : List SagaLog) : Prop :=
  ∃ row ∈ logs, row.event = .createOrder ∧ row.eventStatus ≠ .canceled

/-- The compensation works on a saga without a reservation, and still has to
come to its order. -/
structure SagaView.Canceling (v : SagaView) (rest : List SagaLog) :
    Prop where
  saga : v.saga = some .init
  reserve : v.reserveStatus ≠ some .normal
  order : v.orderStatus = some .normal → OpenOrder rest

def Event.Knows (v : SagaView) (e : Event) : Prop :=
  match e.name, e.succeed with
  | .init, true => v.Fresh ∧ LogsOpen [] v.logs
  | .init, false => False
  | .createOrder, true => v.Ordered ∧ v.Logged
  | .createOrder, false =>
      v.saga = some .init ∧ v.reserveStatus = none ∧ v.Logged
  | .deductStock, true => v.Reserved
  | .deductStock, false => v.Ordered ∧ v.Logged

/-- What a task knows while no open transaction of its saga commits. -/
def Task.Knows (v : SagaView) : Task → Prop
  | updateSagaLogSucceed e =>
      e.name ≠ .init ∧ { e with succeed := true }.Knows v
  | insertSagaLog _ .createOrder => v.Fresh ∧ LogsOpen [] v.logs
  | insertSagaLog _ .deductStock => v.Ordered ∧ v.Logged
  | insertSagaLog _ .init => False
  | createOrder _ => v.Fresh ∧ v.Logged
  | deductStock _ | putEventInDeduct _ => v.Ordered ∧ v.Logged
  | putEvent e => e.Knows v
  | commitDeductStock _ => False
  | updateSagaStatus _ .finished => v.Reserved
  | updateSagaStatus _ .canceled => v.Canceling []
  | updateSagaStatus _ .init => False
  | selectSagaLog _ =>
      v.saga = some .init ∧ v.reserveStatus = none ∧ v.Logged
  | cancelDeductStock _ rest | updateSagaLogCanceled _ _ rest =>
      v.Canceling rest
  | cancelOrder _ _ =>
      v.saga = some .init ∧ v.reserveStatus ≠ some .normal

theorem Event.Knows.saga {v : SagaView} {e : Event} (he : e.Knows v) :
    v.saga = some .init := by
  rcases e with ⟨sagaId, name, itemId, itemCount, succeed⟩
  cases name with
  | init =>
      cases succeed with
      | false => exact he.elim
      | true => exact he.1.saga
  | createOrder =>
      cases succeed with
      | false => exact he.1
      | true => exact he.1.saga
  | deductStock =>
      cases succeed with
      | false => exact he.1.saga
      | true => exact SagaView.Reserved.saga he

theorem Task.Knows.saga {v : SagaView} {task : Task}
    (htask : task.Knows v) : v.saga = some .init := by
  cases task with
  | updateSagaLogSucceed e => exact htask.2.saga
  | insertSagaLog e event =>
      cases event with
      | init => exact htask.elim
      | createOrder => exact htask.1.saga
      | deductStock => exact htask.1.saga
  | putEvent e => exact Event.Knows.saga htask
  | commitDeductStock e => exact htask.elim
  | updateSagaStatus e status =>
      cases status with
      | init => exact htask.elim
      | finished => exact SagaView.Reserved.saga htask
      | canceled => exact SagaView.Canceling.saga htask
  | cancelDeductStock | updateSagaLogCanceled =>
      exact SagaView.Canceling.saga htask
  | selectSagaLog | cancelOrder => exact htask.1
  | createOrder | deductStock | putEventInDeduct => exact htask.1.saga

def safety : Knowledge where
  Idle := SagaView.Settled
  At v task := task.Knows v
  Alone := SagaView.Ordered
  saga_of_at _ _ htask := htask.saga
  saga_of_alone _ hv := by simp [hv.saga]

/-! ## The steps that the safety of outcomes depends on -/

/-- The worker is at the commit of `deductStock` for this saga. -/
def Task.CommitsFor (sagaId : JLong) : Task → Prop
  | commitDeductStock e => e.sagaId = sagaId
  | _ => False

instance (sagaId : JLong) : DecidablePred (Task.CommitsFor sagaId) :=
  fun task => by
    cases task <;> simp only [Task.CommitsFor] <;> infer_instance

/-- The commit of `deductStock` takes effect and does not throw; the log
entry of the order is not lost without an exception; a saga is not marked
FINISHED while the commit of its stock is still to come. -/
def Task.Sound (world : World) (fault : Fault) : Task → Prop
  | insertSagaLog e .createOrder =>
      e.sagaId ≠ none → fault ≠ .statement ∧ fault ≠ .commit false
  | commitDeductStock _ => fault = .none ∨ fault = .escape true
  | updateSagaStatus e .finished => fault.applies = true →
      ∀ other ∈ world.workers.filterMap id, ¬ other.CommitsFor e.sagaId
  | _ => True

instance (world : World) (fault : Fault) :
    DecidablePred (Task.Sound world fault) := fun task => by
  unfold Task.Sound
  split <;> infer_instance

def Sound (action : Action) (world : World) : Prop :=
  match action with
  | .work k fault =>
      match world.workers[k]? with
      | some (some task) => task.Sound world fault
      | _ => True
  | _ => True

instance (action : Action) (world : World) :
    Decidable (Sound action world) := by
  unfold Sound
  split
  · split <;> infer_instance
  · infer_instance

theorem Sound.task {world : World} {k : ℕ} {fault : Fault} {task : Task}
    (hsound : Sound (.work k fault) world)
    (hworker : world.workers[k]? = some (some task)) :
    task.Sound world fault := by
  simpa only [Sound, hworker] using hsound

/-! ## One statement of the main token -/

theorem Event.processEvent_knows {v : SagaView} {e : Event}
    (he : e.Knows v) : e.processEvent.Knows v := by
  rcases e with ⟨sagaId, name, itemId, itemCount, succeed⟩
  cases succeed with
  | true =>
      cases name with
      | init => exact he
      | createOrder => exact ⟨by simp, he⟩
      | deductStock => exact ⟨by simp, he⟩
  | false =>
      cases name with
      | init => exact he.elim
      | createOrder => exact he
      | deductStock => exact ⟨he.1.saga, he.1.reserve, he.2⟩

theorem Task.cancelFrom_knows {v : SagaView} (e : Event)
    {logs : List SagaLog} (hv : v.Canceling logs) :
    (cancelFrom e logs).Knows v := by
  induction logs with
  | nil => exact hv
  | cons sagaLog rest ih =>
      -- An entry that is skipped is not the open entry of the order.
      have hskip : (sagaLog.event = .createOrder →
          sagaLog.eventStatus = .canceled) → v.Canceling rest := by
        intro hentry
        refine ⟨hv.saga, hv.reserve, fun horder => ?_⟩
        rcases hv.order horder with ⟨row, hrow, hevent, hopen⟩
        rcases List.mem_cons.mp hrow with hhead | hmem
        · rw [hhead] at hevent hopen
          exact absurd (hentry hevent) hopen
        · exact ⟨row, hmem, hevent, hopen⟩
      unfold cancelFrom
      by_cases hcanceled : sagaLog.eventStatus = .canceled
      · rw [if_pos hcanceled]
        exact ih (hskip fun _ => hcanceled)
      · rw [if_neg hcanceled]
        cases hevent : sagaLog.event with
        | init => exact ih (hskip fun hsame => by simp [hevent] at hsame)
        | createOrder => exact ⟨hv.saga, hv.reserve⟩
        | deductStock => exact hskip fun hsame => by simp [hevent] at hsame

theorem phase_idle_of_init {v : SagaView} (hsaga : v.saga = some .init) :
    Phase safety v 0 :=
  .idle (by simp [hsaga]) (SagaView.settled_of_init hsaga)

theorem phase_resume_of_init {β : Type} {v : SagaView} {db : Db}
    {result : Option β} {next : β → Option Task}
    (hinit : v.saga = some .init)
    (hnext : ∀ b task, result = some b → next b = some task →
      task.Knows v) :
    Phase safety v (Task.resume db result next).tokens :=
  phase_resume (by simp [hinit])
    (fun _ => SagaView.settled_of_init hinit) hnext

/-- The event of a token that knows its saga knows it as well. -/
theorem Event.knows_congr {v : SagaView} {e : Event} (name : EventName)
    (succeed : Bool)
    (he : Event.Knows v ⟨e.sagaId, name, e.itemId, e.itemCount, succeed⟩) :
    (e.outcome name succeed).Knows v :=
  he

/-- The status of a saga stays, or it becomes the one it is updated to. -/
theorem updateSagaStatus_moves (db : Db) {t : ℕ} {sagaId : JLong}
    (hsagaId : sagaId = some (t : ℤ))
    (status : SagaStatus) (fault : Fault) :
    (callService (SagaService.updateSagaStatus sagaId status) 0 fault
        db.sagas).1.status t = (db.view t).saga ∨
      (callService (SagaService.updateSagaStatus sagaId status) 0 fault
        db.sagas).1.status t = some status := by
  refine callService_preserves (fun next : StatusDb SagaStatus =>
    next.status t = (db.view t).saga ∨ next.status t = some status)
    (fun n next hbody => ?_) 0 fault (.inl rfl)
  rcases updateStatus_eq_ok hbody with ⟨u, _, hu, _, _, _, hnext⟩
  have htu : t = u := by simpa [hsagaId] using hu
  rw [hnext, htu, Function.update_self]
  exact .inr rfl

/-- What a saga looks like after one statement of its main token. -/
abbrev Task.PhaseAfter (task : Task) (fault : Fault) (db : Db) (t : ℕ) :
    Prop :=
  Phase safety ((task.step fault db).db.view t) (task.step fault db).tokens

section Running

variable {db : Db} {t : ℕ} {fault : Fault} {e : Event}

theorem Task.phase_updateSagaLogSucceed
    (hknows : (updateSagaLogSucceed e).Knows (db.view t)) :
    (updateSagaLogSucceed e).PhaseAfter fault db t := by
  rcases hknows with ⟨hname, he⟩
  rcases e with ⟨sagaId, name, itemId, itemCount, succeed⟩
  have hopen : ∀ events, LogsOpen events (db.logsOf t) →
      LogsOpen events (SagaLogDao.selectBySagaId (some (t : ℤ))
        (callService (SagaLogService.updateSagaLogEventStatus sagaId
          name .succeed) false fault db.logs).1) := by
    intro events hlogs
    exact hlogs.update (by decide) sagaId name fault
  cases name with
  | init => exact absurd rfl hname
  | createOrder =>
      rcases he with ⟨hordered, events, hevents, hlogs⟩
      refine phase_resume_of_init hordered.saga
        fun b next _ hnext => ?_
      cases hnext
      exact ⟨⟨hordered.saga, hordered.order, hordered.reserve⟩, events,
        hevents, hopen events hlogs⟩
  | deductStock =>
      refine phase_resume_of_init he.saga fun b next _ hnext => ?_
      cases hnext
      exact ⟨he.saga, he.order, he.reserve⟩

theorem Task.phase_insertSagaLog {event : EventName}
    (htask : e.sagaId = some (t : ℤ))
    (hknows : (insertSagaLog e event).Knows (db.view t))
    (hlog : event = .createOrder →
      fault ≠ .statement ∧ fault ≠ .commit false) :
    (insertSagaLog e event).PhaseAfter fault db t := by
  cases event with
  | init => exact hknows.elim
  | createOrder =>
      rcases hknows with ⟨hfresh, hlogs⟩
      have hfault := hlog rfl
      refine phase_resume_of_init hfresh.saga
        fun b next hb hnext => ?_
      cases hnext
      refine ⟨⟨hfresh.saga, hfresh.order, hfresh.reserve⟩,
        [.createOrder], by simp, ?_⟩
      rcases hlogs.insert htask .createOrder fault with
        ⟨hnone, happlied, _⟩ | hopen
      · -- Only an exception that leaves the service loses the entry.
        cases fault with
        | none => exact absurd rfl hnone
        | statement => exact absurd rfl hfault.1
        | commit applied =>
            cases applied
            · exact absurd rfl hfault.2
            · exact absurd rfl happlied
        | escape applied =>
            have hescape := callService_escape
              (SagaLogService.insertSagaLog e.sagaId .createOrder) none
              applied db.logs
            cases hescape.symm.trans hb
      · exact hopen
  | deductStock =>
      rcases hknows with ⟨hordered, events, hevents, hlogs⟩
      refine phase_resume_of_init hordered.saga
        fun b next hb hnext => ?_
      cases hnext
      refine ⟨⟨hordered.saga, hordered.order, hordered.reserve⟩, ?_⟩
      rcases hlogs.insert htask .deductStock fault with ⟨_, _, hopen⟩ | hopen
      · exact ⟨events, hevents, hopen⟩
      · exact ⟨_, List.mem_append_left _ hevents, hopen⟩

theorem Task.phase_createOrder
    (htask : e.sagaId = some (t : ℤ))
    (hknows : (createOrder e).Knows (db.view t)) :
    (createOrder e).PhaseAfter fault db t := by
  rcases hknows with ⟨hfresh, hlogged⟩
  have hcall := openOrder_call OrderStatus.normal none (some true)
    (some false) (· = some true) (by simp) e.sagaId e.itemId
    e.itemCount (some 100) fault db.orders
  refine phase_resume_of_init hfresh.saga fun b next hb hnext => ?_
  cases b with
  | none => cases hnext
  | some succeed =>
      cases hnext
      refine Event.knows_congr _ _ ?_
      cases succeed with
      | false => exact ⟨hfresh.saga, hfresh.reserve, hlogged⟩
      | true =>
          have hdone := hcall.done_self htask ⟨_, hb, rfl⟩
          refine ⟨⟨hfresh.saga, ?_, hfresh.reserve⟩, hlogged⟩
          rcases hcall.moves_self htask with hsame | ⟨_, hmove⟩
          · rw [hsame] at hdone
            exact absurd hfresh.order hdone
          · exact hmove

theorem Task.phase_deductStock
    (htask : e.sagaId = some (t : ℤ))
    (hknows : (deductStock e).Knows (db.view t)) :
    (deductStock e).PhaseAfter fault db t := by
  have hfail : (Event.outcome e .deductStock false).Knows (db.view t) :=
    hknows
  have hone : ∀ next : Task, next.Knows (db.view t) →
      Phase safety (db.view t) (Task.Outcome.tokens
        { db := db, put := none, next := some next }) :=
    fun next hnext => .running next hnext
  cases fault with
  | escape applied =>
      exact phase_idle_of_init hknows.1.saga
  | statement => exact hone _ hfail
  | none | commit applied =>
      cases hbody : ItemStockService.deductStock e.sagaId e.itemId
          e.itemCount db.stock with
      | error message =>
          simp only [PhaseAfter, step, beginDeductStock, hbody]
          exact hone _ hfail
      | ok result =>
          rcases result with ⟨exit, stock⟩
          simp only [PhaseAfter, step, beginDeductStock, hbody]
          cases exit with
          | committed b => exact hone _ hknows
          | returned b =>
              -- There is no reservation of this saga to be found.
              rcases reserveStock_eq_ok hbody with
                ⟨_, _, row, hrow⟩ | ⟨_, _, _, _, _, _, _, _, hexit, _⟩
              · have hfind : db.stock.reserves.find t = some row := by
                  have hselect := hrow
                  rw [show e.sagaId = some (t : ℤ) from htask,
                    UniqueTable.select_natCast] at hselect
                  exact hselect
                have hnone := hknows.1.reserve
                simp [SagaView.reserveStatus, Db.view, hfind] at hnone
              · cases hexit

theorem Task.phase_putEventInDeduct
    (hknows : (putEventInDeduct e).Knows (db.view t)) :
    (putEventInDeduct e).PhaseAfter fault db t := by
  have htokens : ((putEventInDeduct e).step fault db).tokens =
      {commitDeductStock e,
        (e.outcome .deductStock true).processEvent} := by
    exact Multiset.pair_comm _ _
  unfold PhaseAfter
  rw [htokens]
  exact .committing e _ hknows.1 rfl

theorem Task.phase_updateSagaStatus {status : SagaStatus}
    (htask : e.sagaId = some (t : ℤ))
    (hknows : (updateSagaStatus e status).Knows (db.view t)) :
    (updateSagaStatus e status).PhaseAfter fault db t := by
  have hsaga : (db.view t).saga = some .init := by
    cases status with
    | init => exact hknows.elim
    | finished => exact hknows.saga
    | canceled => exact hknows.saga
  have hmoves := updateSagaStatus_moves db htask status fault
  have hends : ∀ next : Task, (none : Option Task) ≠ some next := by
    intro next hnext
    cases hnext
  refine phase_resume ?_ (fun _ => ?_) fun b next _ hnext =>
    absurd hnext (hends next)
  · intro hnone
    rcases hmoves with hsame | hmove
    · cases (hsame.trans hsaga).symm.trans hnone
    · cases hmove.symm.trans hnone
  · rcases hmoves with hsame | hmove
    · exact SagaView.settled_of_init (hsame.trans hsaga)
    · cases status with
      | init => exact SagaView.settled_of_init hmove
      | finished =>
          constructor
          · exact fun _ => ⟨hknows.order, hknows.reserve⟩
          · intro hcanceled
            cases hmove.symm.trans hcanceled
      | canceled =>
          constructor
          · intro hfinished
            cases hmove.symm.trans hfinished
          · intro _
            refine ⟨fun horder => ?_, hknows.reserve⟩
            rcases hknows.order horder with ⟨row, hrow, _⟩
            cases hrow

theorem Task.phase_selectSagaLog
    (htask : e.sagaId = some (t : ℤ))
    (hknows : (selectSagaLog e).Knows (db.view t)) :
    (selectSagaLog e).PhaseAfter fault db t := by
  rcases hknows with ⟨hsaga, hreserve, events, hevents, hlogs⟩
  have hstart : (db.view t).Canceling
      (SagaLogDao.selectBySagaId e.sagaId db.logs).reverse := by
    refine ⟨hsaga, by simp [hreserve], fun _ => ?_⟩
    rw [← hlogs.events] at hevents
    rcases List.mem_map.mp hevents with ⟨row, hrow, hevent⟩
    refine ⟨row, List.mem_reverse.mpr ?_, hevent,
      hlogs.notCanceled row hrow⟩
    rw [htask]
    exact hrow
  have hidle : Phase safety (db.view t) 0 := phase_idle_of_init hsaga
  cases fault with
  | none => exact .running _ (cancelFrom_knows e hstart)
  | commit applied => exact .running _ (cancelFrom_knows e hstart)
  | statement => exact hidle
  | escape applied => exact hidle

theorem Task.phase_cancelDeductStock {rest : List SagaLog}
    (htask : e.sagaId = some (t : ℤ))
    (hknows : (cancelDeductStock e rest).Knows (db.view t)) :
    (cancelDeductStock e rest).PhaseAfter fault db t := by
  have hcall := releaseStock_call ReserveStatus.normal
    ReserveStatus.canceled e.sagaId e.itemId fault db.stock
  have hreserve : (callService (ItemStockService.cancelDeductStock
      e.sagaId e.itemId) false fault db.stock).1.reserves.reserveStatus
        t ≠ some .normal := by
    apply hcall.holds_self htask (fun reserve => reserve ≠ some .normal)
      hknows.reserve
    simp
  refine phase_resume_of_init hknows.saga fun b next _ hnext => ?_
  cases b with
  | false => cases hnext
  | true =>
      cases hnext
      exact ⟨hknows.saga, hreserve, hknows.order⟩

theorem Task.phase_cancelOrder {rest : List SagaLog}
    (htask : e.sagaId = some (t : ℤ))
    (hknows : (cancelOrder e rest).Knows (db.view t)) :
    (cancelOrder e rest).PhaseAfter fault db t := by
  have hcall := cancelOpenOrder_call OrderStatus.normal
    OrderStatus.canceled e.sagaId fault db.orders
  refine phase_resume_of_init hknows.1 fun b next hb hnext => ?_
  cases b with
  | false => cases hnext
  | true =>
      cases hnext
      have hdone := hcall.done_self htask ⟨true, hb, rfl⟩
      refine ⟨hknows.1, hknows.2, fun horder => ?_⟩
      rcases hdone with hnone | hcanceled
      · cases hnone.symm.trans horder
      · cases hcanceled.symm.trans horder

end Running

/-- One statement of a main token, while no open transaction of its saga
commits. -/
theorem Task.phase_running {db : Db} {t : ℕ} {task : Task} {fault : Fault}
    (htask : task.event.sagaId = some (t : ℤ))
    (hknows : task.Knows (db.view t))
    (hlog : ∀ e, task = insertSagaLog e .createOrder →
      fault ≠ .statement ∧ fault ≠ .commit false) :
    Phase safety ((task.step fault db).db.view t)
      (task.step fault db).tokens := by
  cases task with
  | updateSagaLogSucceed e => exact phase_updateSagaLogSucceed hknows
  | insertSagaLog e event =>
      apply phase_insertSagaLog htask hknows
      intro hevent
      exact hlog e (by rw [hevent])
  | createOrder e => exact phase_createOrder htask hknows
  | deductStock e => exact phase_deductStock htask hknows
  | putEvent e => exact .running _ (Event.processEvent_knows hknows)
  | putEventInDeduct e => exact phase_putEventInDeduct hknows
  | commitDeductStock e => exact hknows.elim
  | updateSagaStatus e status => exact phase_updateSagaStatus htask hknows
  | selectSagaLog e => exact phase_selectSagaLog htask hknows
  | cancelDeductStock e rest => exact phase_cancelDeductStock htask hknows
  | cancelOrder e rest => exact phase_cancelOrder htask hknows
  | updateSagaLogCanceled e event rest =>
      refine phase_resume_of_init hknows.saga fun b next _ hnext => ?_
      cases hnext
      exact cancelFrom_knows e ⟨hknows.saga, hknows.reserve, hknows.order⟩

/-! ## Beside an open transaction -/

theorem Task.InFlight.knows {v : SagaView} {task : Task}
    (htask : task.InFlight) (hv : v.Reserved) : task.Knows v := by
  cases task with
  | updateSagaLogSucceed e =>
      rcases e with ⟨sagaId, name, itemId, itemCount, succeed⟩
      have hname : name = .deductStock := htask
      subst hname
      exact ⟨by simp, hv⟩
  | updateSagaStatus e status =>
      have hstatus : status = .finished := htask
      subst hstatus
      exact hv
  | _ => exact htask.elim

/-- A statement of the event in flight, beside the open transaction. -/
theorem Task.phase_inFlight {db : Db} {t : ℕ} {e : Event} {task : Task}
    {fault : Fault} (hordered : (db.view t).Ordered) (hflight : task.InFlight)
    (hsound : ∀ e', task = updateSagaStatus e' .finished →
      fault.applies = false) :
    Phase safety ((task.step fault db).db.view t)
      ((task.step fault db).tokens + {commitDeductStock e}) := by
  cases task with
  | updateSagaLogSucceed e' =>
      rcases e' with ⟨sagaId, name, itemId, itemCount, succeed⟩
      have hname : name = .deductStock := hflight
      subst hname
      have hview : (((updateSagaLogSucceed ⟨sagaId, .deductStock, itemId,
          itemCount, succeed⟩).step fault db).db.view t).Ordered :=
        ⟨hordered.saga, hordered.order, hordered.reserve⟩
      cases hresult : ((updateSagaLogSucceed ⟨sagaId, .deductStock, itemId,
          itemCount, succeed⟩).step fault db).next with
      | none =>
          have htokens : ((updateSagaLogSucceed ⟨sagaId, .deductStock,
              itemId, itemCount, succeed⟩).step fault db).tokens = 0 := by
            simp only [Outcome.tokens, hresult]
            rfl
          rw [htokens, zero_add]
          exact .alone e hview
      | some next =>
          have htokens : ((updateSagaLogSucceed ⟨sagaId, .deductStock,
              itemId, itemCount, succeed⟩).step fault db).tokens =
                {next} := by
            simp only [Outcome.tokens, hresult]
            rfl
          rcases resume_next hresult with ⟨_, _, hnext⟩
          cases hnext
          rw [htokens, add_comm]
          exact .committing e _ hview rfl
  | updateSagaStatus e' status =>
      have hstatus : status = .finished := hflight
      subst hstatus
      have hfault := hsound e' rfl
      have hsame : ((updateSagaStatus e' .finished).step fault db).db =
          db := by
        have hdb := callService_of_not_applies
          (SagaService.updateSagaStatus e'.sagaId .finished) 0 hfault
          db.sagas
        simp only [step, resume, hdb]
      have htokens : ((updateSagaStatus e' .finished).step fault
          db).tokens = 0 := by
        simp only [step, resume, Outcome.tokens, Option.bind_fun_none]
        rfl
      rw [hsame, htokens, zero_add]
      exact .alone e hordered
  | _ => exact hflight.elim

/-! ## Every state of a sound run -/

structure Inv (world : World) : Prop where
  locks : LockInv world
  phase : ∀ t, Phase safety (world.db.view t) (world.tokensOf t)

/-- A commit of `deductStock` is the task of a worker. -/
theorem World.mem_workers_of_commit {world : World} {e : Event}
    (he : Task.commitDeductStock e ∈ world.tokens) :
    Task.commitDeductStock e ∈ world.workers.filterMap id := by
  rcases Multiset.mem_add.mp he with hevent | hworker
  · rcases Multiset.mem_map.mp hevent with ⟨e', _, hsame⟩
    unfold Event.processEvent at hsame
    split at hsame
    · split at hsame <;> cases hsame
    · cases hsame
  · exact hworker

theorem phase_work {world : World} {k : ℕ} {fault : Fault} {task : Task}
    {others : Multiset Task} {t : ℕ} (hinv : Inv world)
    (hsound : task.Sound world fault)
    (hworker : world.workers[k]? = some (some task)) (htask : task.Of t)
    (htokens : world.tokensOf t = task ::ₘ others) :
    Phase safety ((task.step fault world.db).db.view t)
      ((task.step fault world.db).tokens + others) := by
  have hphase := hinv.phase t
  rw [htokens] at hphase
  rcases hphase.cons_cases with
    ⟨hothers, hknows⟩ | ⟨e, htaskEq, hothers, hv⟩ |
      ⟨e, main, htaskEq, hothers, hv, hflight⟩ | ⟨e, hothers, hv, hflight⟩
  · subst hothers
    rw [add_zero]
    refine Task.phase_running htask hknows fun e he => ?_
    subst he
    exact hsound (by rw [show e.sagaId = some (t : ℤ) from htask]; simp)
  · subst htaskEq hothers
    have hreservable : e.Reservable world.db.stock :=
      hinv.locks.reservable k _ hworker rfl
    have hcommit := commitDeductStock_view (show e.sagaId = some (t : ℤ) from htask)
      hreservable hsound
    rw [hcommit.1, add_zero]
    exact phase_idle_of_init (hcommit.2.1.trans hv.saga)
  · subst htaskEq hothers
    have hreservable : e.Reservable world.db.stock :=
      hinv.locks.reservable k _ hworker rfl
    have hcommit := commitDeductStock_view (show e.sagaId = some (t : ℤ) from htask)
      hreservable hsound
    rw [hcommit.1, zero_add]
    exact .running main (hflight.knows
      ⟨hcommit.2.1.trans hv.saga, hcommit.2.2.1.trans hv.order,
        hcommit.2.2.2⟩)
  · subst hothers
    refine Task.phase_inFlight hv hflight fun e' he' => ?_
    subst he'
    have hmem : Task.commitDeductStock e ∈ world.tokensOf t := by
      rw [htokens]
      exact Multiset.mem_cons_of_mem (Multiset.mem_singleton_self _)
    cases happlies : fault.applies with
    | false => rfl
    | true =>
        have hworkers := World.mem_workers_of_commit
          (Multiset.mem_of_mem_filter hmem)
        have hsame : e.sagaId = e'.sagaId :=
          (Multiset.of_mem_filter hmem : Task.Of t _).trans htask.symm
        exact absurd hsame (hsound happlies _ hworkers)

theorem inv_of_reachable {world : World}
    (hreach : shop.ReachableBy Sound world) : Inv world := by
  refine hreach.invariant Inv
    (fun start hinit => ⟨lockInv_of_initial hinit, phase_of_initial hinit⟩)
    fun action state next hsound hstep hinv =>
      ⟨lockInv_step hstep hinv.locks, phase_step hstep hinv.phase ?_ ?_ ?_⟩
  · intro e hname hsucceed
    rcases e with ⟨sagaId, name, itemId, itemCount, succeed⟩
    subst hname hsucceed
    exact ⟨⟨rfl, rfl, rfl⟩, rfl, by simp [SagaView.new]⟩
  · intro k fault _ _
    exact SagaView.settled_of_init rfl
  · intro k fault task others t haction hworker htask htokens
    subst haction
    exact phase_work hinv (hsound.task hworker) hworker htask htokens

/-! ## Outcome safety -/

theorem Phase.settled {v : SagaView} {tokens : Multiset Task}
    (hphase : Phase safety v tokens) : v.Settled := by
  cases hphase with
  | absent hv =>
      rw [hv]
      constructor
      · intro hfinished
        cases hfinished
      · intro hcanceled
        cases hcanceled
  | idle _ hv => exact hv
  | running task htask =>
      exact SagaView.settled_of_init (safety.saga_of_at v task htask)
  | committing e task hv => exact SagaView.settled_of_init hv.saga
  | alone e hv => exact SagaView.settled_of_init (SagaView.Ordered.saga hv)

/-- Nothing leaves the status FINISHED. -/
theorem updateSagaStatus_finished {db : StatusDb SagaStatus} {t : ℕ}
    (hfinished : db.status t = some .finished) (sagaId : JLong)
    (status : SagaStatus) (fault : Fault) :
    (callService (SagaService.updateSagaStatus sagaId status) 0 fault
      db).1.status t = some .finished := by
  refine callService_preserves (fun next : StatusDb SagaStatus =>
    next.status t = some .finished) (fun n next hbody => ?_) 0 fault
    hfinished
  rcases updateStatus_eq_ok hbody with
    ⟨u, old, _, _, hold, hexpected, hnext⟩
  have hinit : old = .init := by simpa using hexpected
  have htu : t ≠ u := by
    intro htu
    rw [← htu, hfinished, hinit] at hold
    cases hold
  rw [hnext, Function.update_of_ne htu]
  exact hfinished

theorem finished_step {action : Action} {world next : World} {t : ℕ}
    (hstep : world.step action = some next)
    (hfinished : world.db.sagas.status t = some .finished) :
    next.db.sagas.status t = some .finished := by
  cases World.step_moves hstep with
  | silent hdb _ _ =>
      rw [hdb]
      exact hfinished
  | @insertSaga k fault itemId itemCount hcaller hdb _ _ =>
      rw [hdb]
      have hcall : _ ∨ ∃ u : ℕ, _ ∧ (callService SagaService.insertSaga
          none fault world.db.sagas).1.status = _ ∧ _ :=
        insertStatus_call SagaStatus.init fault world.db.sagas
      rcases hcall with ⟨hsame, _⟩ | ⟨u, hfresh, hmove, _⟩
      · exact (congrArg (fun db : StatusDb SagaStatus => db.status t)
          hsame).trans hfinished
      · have htu : t ≠ u := by
          intro htu
          rw [← htu, hfinished] at hfresh
          cases hfresh
        dsimp only
        rw [hmove, Function.update_of_ne htu]
        exact hfinished
  | @work k fault task rest hworker hwaits hold hdb _ _ =>
      rw [hdb]
      cases task with
      | updateSagaStatus e status =>
          exact updateSagaStatus_finished hfinished e.sagaId status fault
      | _ => exact hfinished

/-- In a run whose steps are sound, a FINISHED saga has its order and its
reservation, now and ever after, and a CANCELED saga has neither. -/
theorem saga_outcome_safety {world : World}
    (hreach : shop.ReachableBy Sound world) (t : ℕ) :
    (world.db.sagas.status t = some .finished →
      world.db.orders.orderStatus t = some .normal ∧
      world.db.stock.reserves.reserveStatus t = some .normal ∧
      ∀ later, shop.Run Sound world later →
        later.db.orders.orderStatus t = some .normal ∧
        later.db.stock.reserves.reserveStatus t = some .normal) ∧
    (world.db.sagas.status t = some .canceled →
      world.db.orders.orderStatus t ≠ some .normal ∧
      world.db.stock.reserves.reserveStatus t ≠ some .normal) := by
  have hsettled : ∀ state, shop.ReachableBy Sound state →
      (state.db.view t).Settled :=
    fun state hstate => ((inv_of_reachable hstate).phase t).settled
  refine ⟨fun hfinished => ?_, (hsettled world hreach).2⟩
  rcases (hsettled world hreach).1 hfinished with ⟨horder, hreserve⟩
  refine ⟨horder, hreserve, fun later hrun => ?_⟩
  have hlater : later.db.sagas.status t = some .finished :=
    hrun.invariant (fun state => state.db.sagas.status t = some .finished)
      (fun _ _ _ _ hstep => finished_step hstep) hfinished
  exact (hsettled later (hreach.trans hrun)).1 hlater

/-- One item of price 99 with 100 in stock, before any order. -/
def presentShop : World where
  db := {
    stock := {
      items := Function.update (fun _ => none) 1 (some ⟨99, 100⟩)
      reserves := .empty _ }
    sagas := .empty _
    logs := .empty _
    orders := .empty _ }
  queue := []
  workers := []
  callers := []

/-- An order of two items up to the commit of its `deductStock`, whose event
is already in the queue. -/
def presentOrder : List Action :=
  .placeOrder (some 1) (some 2) ::
    (List.replicate 3 (.call 0 .none) ++ List.replicate 9 (.work 0 .none))

theorem saga_outcome_safety_presentOrder :
    ∃ world, shop.exec Sound
        (presentOrder ++ List.replicate 4 (.work 0 .none)) presentShop =
          some world ∧
      world.db.orders.orderStatus 1 = some .normal ∧
      world.db.stock.reserves.reserveStatus 1 = some .normal := by
  have hexec : ∃ world, shop.exec Sound
        (presentOrder ++ List.replicate 4 (.work 0 .none)) presentShop =
          some world ∧
      world.db.sagas.status 1 = some .finished := ⟨_, rfl, rfl⟩
  rcases hexec with ⟨world, hworld, hfinished⟩
  have hreach : shop.ReachableBy Sound world :=
    TransitionSystem.reachableBy_of_exec
      ⟨rfl, rfl, rfl, rfl, rfl, rfl, rfl⟩ hworld
  have houtcome := (saga_outcome_safety hreach 1).1 hfinished
  exact ⟨world, hworld, houtcome.1, houtcome.2.1⟩

/-- The commit of `deductStock` fails after its event was put: the saga is
FINISHED, and no stock is reserved. -/
theorem not_saga_outcome_safety :
    ¬ ∀ world, shop.Reachable world → ∀ t,
      (world.db.sagas.status t = some .finished →
        world.db.orders.orderStatus t = some .normal ∧
        world.db.stock.reserves.reserveStatus t = some .normal) ∧
      (world.db.sagas.status t = some .canceled →
        world.db.orders.orderStatus t ≠ some .normal ∧
        world.db.stock.reserves.reserveStatus t ≠ some .normal) := by
  intro hsafe
  have hexec : ∃ world, shop.exec (fun _ _ => True)
        (presentOrder ++ .work 0 (.commit false) ::
          List.replicate 4 (.work 0 .none)) presentShop = some world ∧
      world.db.sagas.status 1 = some .finished ∧
      world.db.stock.reserves.reserveStatus 1 = none := ⟨_, rfl, rfl, rfl⟩
  rcases hexec with ⟨world, hworld, hfinished, hreserve⟩
  have hreach : shop.Reachable world :=
    TransitionSystem.reachableBy_of_exec
      ⟨rfl, rfl, rfl, rfl, rfl, rfl, rfl⟩ hworld
  have hnormal := ((hsafe world hreach 1).1 hfinished).2
  rw [hreserve] at hnormal
  cases hnormal

end Saga

end ClpszDemos
