import Mathlib.Data.Multiset.Basic
import ClpszDemos.SagaModel

/-!
# Tokens and locks of the Saga demo

An event in the queue, an event that a caller is about to put and the task
of a worker are all tokens: work that is still to be done.  Taking an event
moves a token, and a statement of a worker exchanges one token for those it
leaves.  The row locks keep every open `deductStock` transaction able to
commit.
-/

namespace ClpszDemos

/-- Setting one entry of a list exchanges what that entry contributes. -/
theorem filterMap_set_eq {α β : Type} (f : α → Option β) {l : List α}
    {k : ℕ} {old : α} (hk : l[k]? = some old) (new : α) :
    ∃ rest : Multiset β,
      (↑(l.filterMap f) : Multiset β) = ↑(f old).toList + rest ∧
      (↑((l.set k new).filterMap f) : Multiset β) =
        ↑(f new).toList + rest := by
  rcases List.getElem?_eq_some_iff.mp hk with ⟨hlt, hget⟩
  have hold : l = l.take k ++ old :: l.drop (k + 1) := by
    rw [← hget, List.cons_getElem_drop_succ, List.take_append_drop]
  have hnew : l.set k new = l.take k ++ new :: l.drop (k + 1) := by
    rw [List.set_eq_take_append_cons_drop, if_pos hlt]
  have hsplit : ∀ x : α,
      (↑((l.take k ++ x :: l.drop (k + 1)).filterMap f) : Multiset β) =
        ↑(f x).toList + (↑((l.take k).filterMap f) +
          ↑((l.drop (k + 1)).filterMap f)) := by
    intro x
    rw [List.filterMap_append, ← Multiset.coe_add]
    cases hfx : f x with
    | none => simp [hfx]
    | some y =>
        simp only [List.filterMap_cons, hfx, Option.toList_some]
        rw [← Multiset.cons_coe, Multiset.add_cons, Multiset.coe_singleton,
          Multiset.singleton_add]
  refine ⟨↑((l.take k).filterMap f) + ↑((l.drop (k + 1)).filterMap f),
    ?_, ?_⟩
  · exact (congrArg (fun xs : List α =>
      (↑(xs.filterMap f) : Multiset β)) hold).trans (hsplit old)
  · rw [hnew]
    exact hsplit new

namespace Saga

/-! ## Tokens -/

/-- The event that a `placeOrder` call has still to put. -/
def Caller.pending : Caller → Option Event
  | startEventLoop sagaId itemId itemCount
  | putEvent sagaId itemId itemCount =>
      some ⟨sagaId, .init, itemId, itemCount, true⟩
  | insertSaga _ _ | returned _ _ _ | threw _ _ => none

/-- The saga of a `placeOrder` call and its two arguments. -/
structure Request where
  sagaId : JLong
  itemId : JLong
  itemCount : JLong
  deriving DecidableEq, Repr

def Caller.request : Caller → Option Request
  | startEventLoop sagaId itemId itemCount
  | putEvent sagaId itemId itemCount
  | returned sagaId itemId itemCount => some ⟨sagaId, itemId, itemCount⟩
  | insertSaga _ _ | threw _ _ => none

def Event.request (e : Event) : Request where
  sagaId := e.sagaId
  itemId := e.itemId
  itemCount := e.itemCount

/-- The requests of all calls whose saga has a key. -/
def World.requests (world : World) : Multiset Request :=
  Multiset.ofList (world.callers.filterMap Caller.request)

/-- The work that is still to be done. -/
def World.tokens (world : World) : Multiset Task :=
  (Multiset.ofList (world.callers.filterMap Caller.pending) +
      Multiset.ofList world.queue).map Event.processEvent +
    Multiset.ofList (world.workers.filterMap id)

def Task.Outcome.tokens (outcome : Task.Outcome) : Multiset Task :=
  Multiset.ofList (outcome.put.toList.map Event.processEvent) +
    Multiset.ofList outcome.next.toList

/-- What one action of the system does to the databases and the tokens. -/
inductive World.Moves (world next : World) : Action → Prop
  | silent {action : Action} (hdb : next.db = world.db)
      (hrequests : next.requests = world.requests)
      (htokens : next.tokens = world.tokens) : Moves world next action
  | insertSaga {k : ℕ} {fault : Fault} {itemId itemCount : JLong}
      (hcaller : world.callers[k]? = some (.insertSaga itemId itemCount))
      (hdb : next.db = { world.db with
        sagas := (callService SagaService.insertSaga none fault
          world.db.sagas).1 })
      (hrequests : next.requests =
        Multiset.ofList ((callService SagaService.insertSaga none fault
          world.db.sagas).2.map fun sagaId => Request.mk sagaId itemId
            itemCount).toList + world.requests)
      (htokens : next.tokens =
        Multiset.ofList ((callService SagaService.insertSaga none fault
          world.db.sagas).2.map fun sagaId => Event.processEvent
            ⟨sagaId, .init, itemId, itemCount, true⟩).toList +
          world.tokens) :
      Moves world next (.call k fault)
  | work {k : ℕ} {fault : Fault} {task : Task} {rest : Multiset Task}
      (hworker : world.workers[k]? = some (some task))
      (hwaits : world.Waits k task = true → mayWait fault = true)
      (hold : world.tokens = task ::ₘ rest)
      (hdb : next.db = (task.step fault world.db).db)
      (hrequests : next.requests = world.requests)
      (htokens : next.tokens =
        (task.step fault world.db).tokens + rest) :
      Moves world next (.work k fault)

theorem World.put_eq_some {world next : World} {event : Option Event}
    (hput : world.put event = some next) :
    next = { world with queue := world.queue ++ event.toList } := by
  unfold World.put at hput
  cases event with
  | none =>
      cases hput
      simp
  | some e =>
      by_cases hroom : world.queue.length < queueCapacity
      · simp only [if_pos hroom, Option.some.injEq] at hput
        rw [← hput]
        rfl
      · simp only [if_neg hroom] at hput
        cases hput

/-- A caller that goes on keeps its request. -/
theorem World.requests_set {world : World} {k : ℕ} {old new : Caller}
    (hcaller : world.callers[k]? = some old)
    (hsame : new.request = old.request) :
    Multiset.ofList ((world.callers.set k new).filterMap Caller.request) =
      world.requests := by
  rcases filterMap_set_eq Caller.request hcaller new with
    ⟨rest, hold, hnew⟩
  rw [World.requests, hold, hnew, hsame]

/-- What one action makes of the system, one rule for each kind of step. -/
inductive World.Steps (world : World) : Action → World → Prop
  | placeOrder (itemId itemCount : JLong) :
      Steps world (.placeOrder itemId itemCount) { world with
        callers := world.callers ++ [.insertSaga itemId itemCount] }
  | startEventLoop :
      Steps world .startEventLoop { world with
        workers := world.workers ++ [none] }
  | insertSaga {k : ℕ} {fault : Fault} {itemId itemCount : JLong}
      (hcaller : world.callers[k]? = some (.insertSaga itemId itemCount)) :
      Steps world (.call k fault) { world with
        db := { world.db with
          sagas := (callService SagaService.insertSaga none fault
            world.db.sagas).1 }
        callers := world.callers.set k
          (Caller.afterInsertSaga itemId itemCount
            (callService SagaService.insertSaga none fault
              world.db.sagas).2) }
  | startLoop {k : ℕ} {fault : Fault} {sagaId itemId itemCount : JLong}
      (hcaller : world.callers[k]? =
        some (.startEventLoop sagaId itemId itemCount)) :
      Steps world (.call k fault) { world with
        workers := world.workers ++ [none]
        callers := world.callers.set k
          (.putEvent sagaId itemId itemCount) }
  | putEvent {k : ℕ} {fault : Fault} {sagaId itemId itemCount : JLong}
      (hcaller : world.callers[k]? =
        some (.putEvent sagaId itemId itemCount)) :
      Steps world (.call k fault) { world with
        queue := world.queue ++ [⟨sagaId, .init, itemId, itemCount, true⟩]
        callers := world.callers.set k
          (.returned sagaId itemId itemCount) }
  | takeEvent {k : ℕ} {fault : Fault} {e : Event} {queue : List Event}
      (hworker : world.workers[k]? = some none)
      (hqueue : world.queue = e :: queue) :
      Steps world (.work k fault) { world with
        queue := queue
        workers := world.workers.set k (some e.processEvent) }
  | work {k : ℕ} {fault : Fault} {task : Task}
      (hworker : world.workers[k]? = some (some task))
      (hwaits : world.Waits k task = true → mayWait fault = true) :
      Steps world (.work k fault) { world with
        db := (task.step fault world.db).db
        queue := world.queue ++ (task.step fault world.db).put.toList
        workers := world.workers.set k (task.step fault world.db).next }

theorem World.call_cases {k : ℕ} {fault : Fault} {world next : World}
    {caller : Caller} (hcaller : world.callers[k]? = some caller)
    (hcall : world.call k fault caller = some next) :
    world.Steps (.call k fault) next := by
  cases caller with
  | insertSaga itemId itemCount =>
      simp only [World.call, Option.some.injEq] at hcall
      subst hcall
      exact .insertSaga hcaller
  | startEventLoop sagaId itemId itemCount =>
      cases hcall
      exact .startLoop hcaller
  | putEvent sagaId itemId itemCount =>
      have hnext := World.put_eq_some
        (show World.put _ (some _) = some next from hcall)
      subst hnext
      exact .putEvent hcaller
  | returned => cases hcall
  | threw => cases hcall

theorem World.work_cases {k : ℕ} {fault : Fault} {world next : World}
    {task : Task} (hworker : world.workers[k]? = some (some task))
    (hwork : world.work k fault task = some next) :
    world.Steps (.work k fault) next := by
  unfold World.work at hwork
  by_cases hwait : (world.Waits k task && !mayWait fault) = true
  · rw [if_pos hwait] at hwork
    cases hwork
  · rw [if_neg hwait] at hwork
    have hnext := World.put_eq_some hwork
    subst hnext
    apply Steps.work hworker
    intro hwaits
    simpa [hwaits] using hwait

theorem World.step_cases {action : Action} {world next : World}
    (hstep : world.step action = some next) : world.Steps action next := by
  cases action with
  | placeOrder itemId itemCount =>
      cases hstep
      exact .placeOrder itemId itemCount
  | startEventLoop =>
      cases hstep
      exact .startEventLoop
  | call k fault =>
      simp only [World.step] at hstep
      cases hcaller : world.callers[k]? with
      | none =>
          rw [hcaller] at hstep
          cases hstep
      | some caller =>
          rw [hcaller] at hstep
          exact World.call_cases hcaller hstep
  | work k fault =>
      simp only [World.step] at hstep
      cases hworker : world.workers[k]? with
      | none =>
          rw [hworker] at hstep
          cases hstep
      | some worker =>
          rw [hworker] at hstep
          cases worker with
          | none =>
              cases hqueue : world.queue with
              | nil =>
                  rw [hqueue] at hstep
                  cases hstep
              | cons e queue =>
                  rw [hqueue] at hstep
                  cases hstep
                  exact .takeEvent hworker hqueue
          | some task => exact World.work_cases hworker hstep

theorem World.step_moves {action : Action} {world next : World}
    (hstep : world.step action = some next) :
    World.Moves world next action := by
  cases World.step_cases hstep with
  | placeOrder itemId itemCount =>
      have hrequest : [Caller.insertSaga itemId itemCount].filterMap
          Caller.request = [] := rfl
      have hpending : [Caller.insertSaga itemId itemCount].filterMap
          Caller.pending = [] := rfl
      refine .silent rfl ?_ ?_
      · simp only [World.requests, List.filterMap_append, hrequest,
          List.append_nil]
      · simp only [World.tokens, List.filterMap_append, hpending,
          List.append_nil]
  | startEventLoop =>
      refine .silent rfl rfl ?_
      simp [World.tokens]
  | @insertSaga k fault itemId itemCount hcaller =>
      refine .insertSaga hcaller rfl ?_ ?_
      · generalize (callService SagaService.insertSaga none fault
          world.db.sagas).2 = result
        rcases filterMap_set_eq Caller.request hcaller
          (Caller.afterInsertSaga itemId itemCount result) with
          ⟨rest, hold, hnew⟩
        simp only [World.requests]
        rw [hold, hnew]
        cases result <;>
          simp [Caller.request, Caller.afterInsertSaga]
      · generalize (callService SagaService.insertSaga none fault
          world.db.sagas).2 = result
        rcases filterMap_set_eq Caller.pending hcaller
          (Caller.afterInsertSaga itemId itemCount result) with
          ⟨rest, hold, hnew⟩
        simp only [World.tokens]
        rw [hold, hnew]
        cases result <;>
          simp [Caller.pending, Caller.afterInsertSaga]
  | @startLoop k fault sagaId itemId itemCount hcaller =>
      rcases filterMap_set_eq Caller.pending hcaller
        (.putEvent sagaId itemId itemCount) with ⟨rest, hold, hnew⟩
      refine .silent rfl (World.requests_set hcaller rfl) ?_
      simp only [World.tokens, List.filterMap_append]
      rw [hold, hnew]
      simp [Caller.pending]
  | @putEvent k fault sagaId itemId itemCount hcaller =>
      rcases filterMap_set_eq Caller.pending hcaller
        (.returned sagaId itemId itemCount) with ⟨rest, hold, hnew⟩
      refine .silent rfl (World.requests_set hcaller rfl) ?_
      simp only [World.tokens]
      rw [hold, hnew]
      simp only [Caller.pending, Option.toList_some,
        Option.toList_none, ← Multiset.coe_add, Multiset.map_add]
      simp only [Multiset.coe_nil, Multiset.map_zero, zero_add]
      abel
  | @takeEvent k fault e queue hworker hqueue =>
      rcases filterMap_set_eq id hworker
        (some e.processEvent) with ⟨rest, hold, hnew⟩
      refine .silent rfl rfl ?_
      simp only [World.tokens, hqueue]
      rw [hold, hnew]
      simp [← Multiset.cons_coe, Multiset.singleton_add]
  | @work k fault task hworker hwaits =>
      rcases filterMap_set_eq id hworker
        (task.step fault world.db).next with ⟨rest, hold, hnew⟩
      refine @World.Moves.work _ _ _ _ _
        ((Multiset.ofList (world.callers.filterMap
          Caller.pending) + Multiset.ofList world.queue).map
            Event.processEvent + rest) hworker hwaits ?_ rfl rfl ?_
      · simp only [World.tokens]
        rw [hold]
        simp [Multiset.singleton_add]
      · simp only [World.tokens, Task.Outcome.tokens]
        rw [hnew]
        simp only [id_eq, ← Multiset.coe_add, Multiset.map_add,
          Multiset.map_coe]
        abel

/-! ## Every statement works on one saga -/

theorem Event.processEvent_event (e : Event) : e.processEvent.event = e := by
  unfold Event.processEvent
  split
  · split <;> rfl
  · rfl

theorem Task.cancelFrom_event (e : Event) (logs : List SagaLog) :
    (Task.cancelFrom e logs).event = e := by
  induction logs with
  | nil => rfl
  | cons sagaLog rest ih =>
      unfold Task.cancelFrom
      by_cases hcanceled : sagaLog.eventStatus = .canceled
      · rw [if_pos hcanceled]
        exact ih
      · rw [if_neg hcanceled]
        cases sagaLog.event with
        | init => exact ih
        | createOrder => rfl
        | deductStock => rfl

theorem Task.resume_next {β : Type} {db : Db} {result : Option β}
    {next : β → Option Task} {task : Task}
    (hnext : (resume db result next).next = some task) :
    ∃ b, result = some b ∧ next b = some task :=
  Option.bind_eq_some_iff.mp hnext

theorem Task.put_request {fault : Fault} {db : Db} {task : Task} {e : Event}
    (hput : (task.step fault db).put = some e) :
    e.request = task.event.request := by
  cases task with
  | putEvent e' =>
      cases hput
      rfl
  | putEventInDeduct e' =>
      cases hput
      rfl
  | _ => cases hput

theorem Task.next_request {fault : Fault} {db : Db} {task τ : Task}
    (hτ : (task.step fault db).next = some τ) :
    τ.event.request = task.event.request := by
  cases task with
  | updateSagaLogSucceed e =>
      rcases resume_next hτ with ⟨_, _, hτ⟩
      cases hτ
      unfold afterSucceed
      split <;> rfl
  | insertSagaLog e event =>
      rcases resume_next hτ with ⟨_, _, hτ⟩
      cases hτ
      cases event <;> rfl
  | createOrder e =>
      rcases resume_next hτ with ⟨succeed, _, hτ⟩
      cases succeed with
      | none => cases hτ
      | some succeed =>
          cases hτ
          rfl
  | deductStock e =>
      simp only [step, beginDeductStock] at hτ
      split at hτ
      · cases hτ
      · cases hτ
        rfl
      all_goals
        cases hτ
        rcases ItemStockService.deductStock e.sagaId e.itemId e.itemCount
          db.stock with message | ⟨_ | _, next⟩ <;> rfl
  | putEvent e => cases hτ
  | putEventInDeduct e =>
      cases hτ
      rfl
  | commitDeductStock e =>
      rcases resume_next hτ with ⟨success, _, hτ⟩
      cases success
      · cases hτ
        rfl
      · cases hτ
  | updateSagaStatus e status =>
      rcases resume_next hτ with ⟨_, _, hτ⟩
      cases hτ
  | selectSagaLog e =>
      simp only [step] at hτ
      split at hτ <;> cases hτ
      · rw [cancelFrom_event]
        rfl
      · rw [cancelFrom_event]
        rfl
  | cancelDeductStock e rest =>
      rcases resume_next hτ with ⟨success, _, hτ⟩
      cases success
      · cases hτ
      · cases hτ
        rfl
  | cancelOrder e rest =>
      rcases resume_next hτ with ⟨success, _, hτ⟩
      cases success
      · cases hτ
      · cases hτ
        rfl
  | updateSagaLogCanceled e event rest =>
      rcases resume_next hτ with ⟨_, _, hτ⟩
      cases hτ
      rw [cancelFrom_event]
      rfl

/-- The tokens which a statement leaves serve the request of the task. -/
theorem Task.step_request (fault : Fault) (db : Db) (task next : Task)
    (hnext : next ∈ (task.step fault db).tokens) :
    next.event.request = task.event.request := by
  simp only [Outcome.tokens, Multiset.mem_add, Multiset.mem_coe,
    List.mem_map, Option.mem_toList] at hnext
  rcases hnext with ⟨e, he, rfl⟩ | hnext
  · rw [Event.processEvent_event]
    exact put_request he
  · exact next_request hnext

/-- The task works on saga `t`. -/
def Task.Of (t : ℕ) (task : Task) : Prop :=
  task.event.sagaId = some (t : ℤ)

instance (t : ℕ) : DecidablePred (Task.Of t) := fun task =>
  inferInstanceAs (Decidable (task.event.sagaId = some (t : ℤ)))

/-- The tokens of one saga. -/
def World.tokensOf (world : World) (t : ℕ) : Multiset Task :=
  world.tokens.filter (Task.Of t)

/-- The tokens which a statement leaves belong to the saga of the task. -/
theorem Task.step_sagaId (fault : Fault) (db : Db) (task next : Task)
    (hnext : next ∈ (task.step fault db).tokens) :
    next.event.sagaId = task.event.sagaId :=
  congrArg Request.sagaId (step_request fault db task next hnext)

/-! ## What a statement leaves of another saga -/

def Db.logsOf (db : Db) (t : ℕ) : List SagaLog :=
  SagaLogDao.selectBySagaId (some (t : ℤ)) db.logs

/-- The rows of one saga. -/
structure SagaView where
  saga : Option SagaStatus
  order : Option (OrderRow OrderStatus)
  reserve : Option (ReserveRow ReserveStatus)
  logs : List SagaLog

def Db.view (db : Db) (t : ℕ) : SagaView where
  saga := db.sagas.status t
  order := db.orders.find t
  reserve := db.stock.reserves.find t
  logs := db.logsOf t

theorem SagaLogDao.selectBySagaId_insert {db next : SagaLogDb} {t : ℕ}
    {event : EventName}
    (hinsert : db.insert (fun sagaLogId => ⟨sagaLogId, t, event, .init⟩)
      (fun _ => rfl) = some next) (u : ℕ) :
    selectBySagaId (some (u : ℤ)) next =
      selectBySagaId (some (u : ℤ)) db ++
        if u = t then [⟨db.nextKey, t, event, .init⟩] else [] := by
  have hrows := (UniqueTable.insert_eq_some hinsert).2.1
  unfold selectBySagaId
  rw [hrows, List.filter_append]
  by_cases hut : u = t
  · simp [hut]
  · have htu : (u : ℤ) ≠ t := by exact_mod_cast hut
    simp [hut]

/-- One status update of the saga log, seen from every saga. -/
theorem SagaLogDao.selectBySagaId_modify {db : SagaLogDb} {row : SagaLog}
    (hrow : row ∈ db.rows) (status : SagaLogEventStatus) (u : ℕ) :
    selectBySagaId (some (u : ℤ))
        (db.modify row.sagaLogId (SagaLog.setStatus status)) =
      if u = row.sagaId then
        (selectBySagaId (some (u : ℤ)) db).map fun other =>
          if other.sagaLogId = row.sagaLogId then
            { other with eventStatus := status }
          else other
      else selectBySagaId (some (u : ℤ)) db := by
  have hmap : selectBySagaId (some (u : ℤ))
      (db.modify row.sagaLogId (SagaLog.setStatus status)) =
        (selectBySagaId (some (u : ℤ)) db).map fun other =>
          if other.sagaLogId = row.sagaLogId then
            { other with eventStatus := status }
          else other := by
    unfold selectBySagaId UniqueTable.modify
    rw [List.filter_map]
    congr 1
    refine List.filter_congr fun other _ => ?_
    rw [Function.comp_apply]
    split <;> rfl
  rw [hmap]
  by_cases hu : u = row.sagaId
  · rw [if_pos hu]
  · rw [if_neg hu]
    refine (List.map_congr_left fun other hother => ?_).trans
      (List.map_id _)
    have hmem := List.mem_filter.mp hother
    have hne : other.sagaLogId ≠ row.sagaLogId := by
      intro hkey
      have hsame : other = row := List.inj_on_of_nodup_map
        db.primaryKey_nodup hmem.1 hrow hkey
      have hsaga : (u : ℤ) = other.sagaId := by simpa using hmem.2
      exact hu (by rw [← hsame]; exact_mod_cast hsaga)
    rw [if_neg hne, id]

namespace SagaLogService

theorem insertSagaLog_eq_ok {sagaId : JLong} {event : EventName}
    {db next : SagaLogDb} {exit : Exit JLong}
    (hok : insertSagaLog sagaId event db = .ok (exit, next)) :
    ∃ t : ℕ, sagaId = some (t : ℤ) ∧
      exit = .committed (some (db.nextKey : ℤ)) ∧
      ∀ u : ℕ, SagaLogDao.selectBySagaId (some (u : ℤ)) next =
        SagaLogDao.selectBySagaId (some (u : ℤ)) db ++
          if u = t then [⟨db.nextKey, t, event, .init⟩] else [] := by
  simp only [insertSagaLog, except_bind_eq_ok_iff, unbox_eq_ok_iff,
    toUnsigned_eq_ok_iff] at hok
  rcases hok with ⟨_, hsagaId, t, ht, hrows⟩
  subst ht
  cases hinsert : db.insert (fun sagaLogId =>
      (⟨sagaLogId, t, event, .init⟩ : SagaLog)) (fun _ => rfl) with
  | none =>
      rw [hinsert] at hrows
      cases hrows
  | some inserted =>
      rw [hinsert] at hrows
      cases hrows
      exact ⟨t, hsagaId, rfl,
        fun u => SagaLogDao.selectBySagaId_insert hinsert u⟩

/-- A log entry of an existing saga is always accepted. -/
theorem insertSagaLog_ok (t : ℕ) (event : EventName) (db : SagaLogDb) :
    ∃ result, insertSagaLog (some (t : ℤ)) event db = .ok result := by
  have hfresh : db.find db.nextKey = none := by
    apply UniqueTable.find_eq_none_iff.mpr
    intro row hrow
    exact (db.primaryKey_lt row hrow).ne
  rcases UniqueTable.insert_isSome
    (fun sagaLogId => (⟨sagaLogId, t, event, .init⟩ : SagaLog))
    (fun _ => rfl) hfresh with ⟨next, hnext⟩
  refine ⟨(.committed (some (db.nextKey : ℤ)), next), ?_⟩
  simp only [insertSagaLog, except_bind_eq_ok_iff, unbox_eq_ok_iff,
    toUnsigned_eq_ok_iff]
  exact ⟨_, rfl, t, rfl, by rw [hnext]⟩

theorem updateSagaLogEventStatus_eq_ok {sagaId : JLong}
    {event : EventName} {status : SagaLogEventStatus}
    {db next : SagaLogDb} {exit : Exit Bool}
    (hok : updateSagaLogEventStatus sagaId event status db =
      .ok (exit, next)) :
    ∃ row ∈ db.rows, sagaId = some (row.sagaId : ℤ) ∧
      exit = .committed true ∧
      next = db.modify row.sagaLogId (SagaLog.setStatus status) := by
  rcases Statements.bind_eq_ok_iff.mp hok with ⟨row?, mid, hread, hrest⟩
  rcases Statements.read_eq_ok_iff.mp hread with ⟨hrow?, rfl⟩
  cases hrow?
  cases hselect : SagaLogDao.selectBySagaIdAndEventForUpdate sagaId event
      mid with
  | none =>
      rw [hselect] at hrest
      cases hrest
  | some row =>
      rw [hselect] at hrest
      rcases Statements.bind_eq_ok_iff.mp hrest with
        ⟨_, updated, hwrite, hdone⟩
      cases Statements.write_eq_ok_iff.mp hwrite
      cases hdone
      have hmem := List.mem_filter.mp (List.mem_of_find?_eq_some hselect)
      exact ⟨row, hmem.1, by simpa using hmem.2, rfl, rfl⟩

end SagaLogService

/-- The saga log names these events, and none of them is canceled. -/
structure LogsOpen (events : List EventName) (logs : List SagaLog) :
    Prop where
  events : logs.map SagaLog.event = events
  notCanceled : ∀ row ∈ logs, row.eventStatus ≠ .canceled

theorem LogsOpen.append {events : List EventName} {logs : List SagaLog}
    (hlogs : LogsOpen events logs) (row : SagaLog)
    (hrow : row.eventStatus = .init) :
    LogsOpen (events ++ [row.event]) (logs ++ [row]) := by
  refine ⟨by simp [hlogs.events], fun other hother => ?_⟩
  rcases List.mem_append.mp hother with hold | hnew
  · exact hlogs.notCanceled other hold
  · rw [List.mem_singleton.mp hnew, hrow]
    decide

/-- Writing a status other than CANCELED closes no entry. -/
theorem LogsOpen.update {events : List EventName} {db : SagaLogDb} {t : ℕ}
    (hlogs : LogsOpen events
      (SagaLogDao.selectBySagaId (some (t : ℤ)) db))
    {status : SagaLogEventStatus} (hstatus : status ≠ .canceled)
    (sagaId : JLong) (event : EventName) (fault : Fault) :
    LogsOpen events (SagaLogDao.selectBySagaId (some (t : ℤ))
      (callService (SagaLogService.updateSagaLogEventStatus sagaId event
        status) false fault db).1) := by
  refine callService_preserves (fun next : SagaLogDb => LogsOpen events
    (SagaLogDao.selectBySagaId (some (t : ℤ)) next))
    (fun b next hbody => ?_) false fault hlogs
  rcases SagaLogService.updateSagaLogEventStatus_eq_ok hbody with
    ⟨row, hrow, _, _, hnext⟩
  rw [hnext, SagaLogDao.selectBySagaId_modify hrow]
  by_cases ht : t = row.sagaId
  · rw [if_pos ht]
    refine ⟨?_, fun other hother => ?_⟩
    · rw [List.map_map, ← hlogs.events]
      refine List.map_congr_left fun other _ => ?_
      rw [Function.comp_apply]
      split <;> rfl
    · rcases List.mem_map.mp hother with ⟨old, hold, hsame⟩
      rw [← hsame]
      split
      · exact hstatus
      · exact hlogs.notCanceled old hold
  · rw [if_neg ht]
    exact hlogs

/-- An insertion that is not lost adds its event; a lost one adds none. -/
theorem LogsOpen.insert {events : List EventName} {db : SagaLogDb} {t : ℕ}
    (hlogs : LogsOpen events
      (SagaLogDao.selectBySagaId (some (t : ℤ)) db))
    {sagaId : JLong} (hsagaId : sagaId = some (t : ℤ))
    (event : EventName) (fault : Fault) :
    (fault ≠ .none ∧ fault ≠ .commit true ∧
      LogsOpen events (SagaLogDao.selectBySagaId (some (t : ℤ))
        (callService (SagaLogService.insertSagaLog sagaId event)
          none fault db).1)) ∨
    LogsOpen (events ++ [event])
      (SagaLogDao.selectBySagaId (some (t : ℤ))
        (callService (SagaLogService.insertSagaLog sagaId event)
          none fault db).1) := by
  subst hsagaId
  rcases SagaLogService.insertSagaLog_ok t event db with
    ⟨⟨exit, next⟩, hbody⟩
  rcases SagaLogService.insertSagaLog_eq_ok hbody with
    ⟨u, hu, hexit, hnext⟩
  have htu : t = u := by simpa using hu
  subst htu
  subst hexit
  have happend : LogsOpen (events ++ [event])
      (SagaLogDao.selectBySagaId (some (t : ℤ)) next) := by
    rw [hnext t, if_pos rfl]
    exact hlogs.append ⟨db.nextKey, t, event, .init⟩ rfl
  unfold callService
  rw [hbody]
  cases fault with
  | none => exact .inr happend
  | statement => exact .inl ⟨by simp, by simp, hlogs⟩
  | commit applied =>
      cases applied
      · exact .inl ⟨by simp, by simp, hlogs⟩
      · exact .inr happend
  | escape applied =>
      cases applied
      · exact .inl ⟨by simp, by simp, hlogs⟩
      · exact .inr happend

/-- A statement changes no row of another saga. -/
theorem Task.step_frame (fault : Fault) (db : Db) (task : Task) {u : ℕ}
    (hu : task.event.sagaId ≠ some (u : ℤ)) :
    (task.step fault db).db.view u = db.view u := by
  have hupdate : ∀ event status,
      SagaLogDao.selectBySagaId (some (u : ℤ))
        (callService (SagaLogService.updateSagaLogEventStatus
          task.event.sagaId event status) false fault db.logs).1 =
        SagaLogDao.selectBySagaId (some (u : ℤ)) db.logs := by
    intro event status
    refine callService_preserves (fun next : SagaLogDb =>
      SagaLogDao.selectBySagaId (some (u : ℤ)) next =
        SagaLogDao.selectBySagaId (some (u : ℤ)) db.logs)
      (fun b next hbody => ?_) false fault rfl
    rcases SagaLogService.updateSagaLogEventStatus_eq_ok hbody with
      ⟨row, hrow, hsaga, _, hnext⟩
    have hne : u ≠ row.sagaId := fun hsame => hu (hsame ▸ hsaga)
    rw [hnext, SagaLogDao.selectBySagaId_modify hrow, if_neg hne]
  cases task with
  | updateSagaLogSucceed e =>
      simp only [step, resume, Db.view, Db.logsOf, SagaView.mk.injEq,
        true_and]
      exact hupdate _ _
  | insertSagaLog e event =>
      simp only [step, resume, Db.view, Db.logsOf, SagaView.mk.injEq,
        true_and]
      refine callService_preserves (fun next : SagaLogDb =>
        SagaLogDao.selectBySagaId (some (u : ℤ)) next =
          SagaLogDao.selectBySagaId (some (u : ℤ)) db.logs)
        (fun b next hbody => ?_) none fault rfl
      rcases SagaLogService.insertSagaLog_eq_ok hbody with
        ⟨t, ht, _, hnext⟩
      have hne : u ≠ t := fun hut => hu (hut ▸ ht)
      rw [hnext u, if_neg hne, List.append_nil]
  | createOrder e =>
      simp only [step, resume, Db.view, Db.logsOf, SagaView.mk.injEq,
        true_and, and_true]
      exact openOrder_frame hu
  | deductStock | putEvent | putEventInDeduct | selectSagaLog => rfl
  | commitDeductStock e =>
      simp only [step, resume, Db.view, Db.logsOf, SagaView.mk.injEq,
        true_and, and_true]
      exact reserveStock_frame.1 u hu
  | updateSagaStatus e status =>
      simp only [step, resume, Db.view, Db.logsOf, SagaView.mk.injEq,
        and_true]
      exact updateStatus_frame hu
  | cancelDeductStock e rest =>
      simp only [step, resume, Db.view, Db.logsOf, SagaView.mk.injEq,
        true_and, and_true]
      exact releaseStock_frame.1 u hu
  | cancelOrder e rest =>
      simp only [step, resume, Db.view, Db.logsOf, SagaView.mk.injEq,
        true_and, and_true]
      exact cancelOpenOrder_frame hu
  | updateSagaLogCanceled e event rest =>
      simp only [step, resume, Db.view, Db.logsOf, SagaView.mk.injEq,
        true_and]
      exact hupdate _ _

/-! ## Row locks keep open transactions able to commit -/

/-- `deductStock` for this event commits on these tables. -/
def Event.Reservable (e : Event) (db : ItemStockDb) : Prop :=
  ∃ (t i n : ℕ) (row : ItemRow), e.sagaId = some (t : ℤ) ∧
    e.itemId = some (i : ℤ) ∧ e.itemCount = some (n : ℤ) ∧
    db.items i = some row ∧ row.Readable ∧ n ≤ row.stock ∧
    db.reserves.find t = none

theorem Event.reservable_of_committed {e : Event} {db next : ItemStockDb}
    {b : Bool}
    (hok : ItemStockService.deductStock e.sagaId e.itemId e.itemCount db =
      .ok (.committed b, next)) :
    e.Reservable db := by
  rcases reserveStock_eq_ok hok with
    ⟨hexit, _⟩ | ⟨t, i, n, row, reserves, ht, hi, hn, _, hrow, hreadable,
      hle, hinsert, _⟩
  · cases hexit
  · have hfresh := (UniqueTable.insert_eq_some hinsert).1
    exact ⟨t, i, n, row, ht, hi, hn, hrow, hreadable, hle, hfresh⟩

theorem Event.Reservable.deductStock_ok {e : Event} {db : ItemStockDb}
    (hdb : e.Reservable db) :
    ∃ next, ItemStockService.deductStock e.sagaId e.itemId e.itemCount db =
      .ok (.committed true, next) := by
  rcases hdb with ⟨t, i, n, row, ht, hi, hn, hrow, hreadable, hle, hfresh⟩
  rw [ht, hi, hn]
  exact reserveStock_ok hrow hreadable hle hfresh

/-- Two databases that agree on the locked rows. -/
theorem Event.Reservable.congr {e : Event} {db next : ItemStockDb}
    (hdb : e.Reservable db)
    (hitems : ∀ i : ℕ, e.itemId = some (i : ℤ) →
      next.items i = db.items i)
    (hreserves : ∀ t : ℕ, e.sagaId = some (t : ℤ) →
      next.reserves.find t = db.reserves.find t) :
    e.Reservable next := by
  rcases hdb with ⟨t, i, n, row, ht, hi, hn, hrow, hreadable, hle, hfresh⟩
  exact ⟨t, i, n, row, ht, hi, hn, (hitems i hi).trans hrow, hreadable,
    hle, (hreserves t ht).trans hfresh⟩

structure LockInv (world : World) : Prop where
  reservable : ∀ (k : ℕ) (task : Task),
    world.workers[k]? = some (some task) → task.Holds = true →
    task.event.Reservable world.db.stock
  exclusive : ∀ (j k : ℕ) (task other : Task), j ≠ k →
    world.workers[j]? = some (some task) →
    world.workers[k]? = some (some other) →
    task.Holds = true → other.Holds = true → ¬ task.SharesRow other

theorem World.not_sharesRow_of_not_waits {world : World} {k j : ℕ}
    {task other : Task} (hwaits : world.Waits k task = false)
    (hselects : task.Selects = true) (hjk : j ≠ k)
    (hother : world.workers[j]? = some (some other))
    (hholds : other.Holds = true) : ¬ task.SharesRow other := by
  intro hshares
  have hmem : (some other, j) ∈ world.workers.zipIdx :=
    List.mem_zipIdx_iff_getElem?.mpr hother
  have hwaiting : world.Waits k task = true := by
    unfold World.Waits
    rw [Bool.and_eq_true]
    constructor
    · exact hselects
    · apply List.any_eq_true.mpr
      exact ⟨_, hmem, by simp [hjk, hholds, hshares]⟩
  rw [hwaits] at hwaiting
  cases hwaiting

/-- A statement that does not wait leaves the rows which other workers have
locked as they are. -/
theorem Task.step_reservable {world : World} (hlocks : LockInv world)
    {k j : ℕ} {fault : Fault} {task other : Task}
    (htask : world.workers[k]? = some (some task))
    (hwaits : world.Waits k task = true → mayWait fault = true)
    (hjk : j ≠ k) (hother : world.workers[j]? = some (some other))
    (hholds : other.Holds = true) :
    other.event.Reservable (task.step fault world.db).db.stock := by
  have hreservable := hlocks.reservable j other hother hholds
  cases task with
  | commitDeductStock e =>
      have hshares := hlocks.exclusive k j _ other (Ne.symm hjk) htask
        hother rfl hholds
      have hframe := @reserveStock_frame _ ReserveStatus.normal e.sagaId
        e.itemId e.itemCount fault world.db.stock
      refine hreservable.congr (fun i hi => ?_) (fun t ht => ?_)
      · exact hframe.2 i fun hsame => hshares (.inl (hsame.trans hi.symm))
      · exact hframe.1 t fun hsame => hshares (.inr (hsame.trans ht.symm))
  | cancelDeductStock e rest =>
      by_cases hwait : world.Waits k (cancelDeductStock e rest) = true
      · -- A waiting cancellation fails without an effect.
        have hsame : ((cancelDeductStock e rest).step fault
            world.db).db.stock = world.db.stock := by
          have hmay := hwaits hwait
          simp only [step, resume, callService]
          cases fault with
          | none => cases hmay
          | commit applied => cases hmay
          | statement => split <;> rfl
          | escape applied =>
              cases applied
              · split <;> rfl
              · cases hmay
        rw [hsame]
        exact hreservable
      · have hshares := World.not_sharesRow_of_not_waits
          (by simpa using hwait) rfl hjk hother hholds
        have hframe := @releaseStock_frame _ _ ReserveStatus.normal
          ReserveStatus.canceled e.sagaId e.itemId fault world.db.stock
        refine hreservable.congr (fun i hi => ?_) (fun t ht => ?_)
        · exact hframe.2 i fun hsame =>
            hshares (.inl (hsame.trans hi.symm))
        · exact hframe.1 t fun hsame =>
            hshares (.inr (hsame.trans ht.symm))
  | _ => exact hreservable

theorem Task.cancelFrom_holds (e : Event) (logs : List SagaLog) :
    (cancelFrom e logs).Holds = false := by
  induction logs with
  | nil => rfl
  | cons sagaLog rest ih =>
      unfold cancelFrom
      by_cases hcanceled : sagaLog.eventStatus = .canceled
      · rw [if_pos hcanceled]
        exact ih
      · rw [if_neg hcanceled]
        cases sagaLog.event with
        | init => exact ih
        | createOrder => rfl
        | deductStock => rfl

/-- A transaction of `deductStock` opens by its statements on the tables,
and stays open while its event is put. -/
theorem Task.step_next_holds {fault : Fault} {db : Db} {task next : Task}
    (hnext : (task.step fault db).next = some next)
    (hholds : next.Holds = true) :
    (∃ e stock, task = deductStock e ∧ next = putEventInDeduct e ∧
      mayWait fault = false ∧
      ItemStockService.deductStock e.sagaId e.itemId e.itemCount db.stock =
        .ok (.committed true, stock)) ∨
    ∃ e, task = putEventInDeduct e ∧ next = commitDeductStock e := by
  cases task with
  | deductStock e =>
      left
      cases hbody : ItemStockService.deductStock e.sagaId e.itemId
          e.itemCount db.stock with
      | error message =>
          simp only [step, beginDeductStock, hbody] at hnext
          split at hnext <;> cases hnext <;> cases hholds
      | ok result =>
          rcases result with ⟨exit, stock⟩
          simp only [step, beginDeductStock, hbody] at hnext
          cases exit with
          | returned b =>
              split at hnext <;> cases hnext <;> cases hholds
          | committed b =>
              have hb : b = true := by
                rcases reserveStock_eq_ok hbody with
                  ⟨hexit, _⟩ | ⟨_, _, _, _, _, _, _, _, hexit, _⟩
                · cases hexit
                · exact Exit.committed.inj hexit
              subst hb
              cases fault with
              | none =>
                  cases hnext
                  exact ⟨e, stock, rfl, rfl, rfl, hbody⟩
              | commit applied =>
                  cases hnext
                  exact ⟨e, stock, rfl, rfl, rfl, hbody⟩
              | statement =>
                  cases hnext
                  cases hholds
              | escape applied => cases hnext
  | putEventInDeduct e =>
      cases hnext
      exact .inr ⟨e, rfl, rfl⟩
  | updateSagaLogSucceed e =>
      rcases resume_next hnext with ⟨_, _, hτ⟩
      cases hτ
      unfold afterSucceed at hholds
      split at hholds <;> cases hholds
  | insertSagaLog e event =>
      rcases resume_next hnext with ⟨_, _, hτ⟩
      cases hτ
      cases event <;> cases hholds
  | createOrder e =>
      rcases resume_next hnext with ⟨succeed, _, hτ⟩
      cases succeed <;> cases hτ
      cases hholds
  | putEvent e => cases hnext
  | commitDeductStock e =>
      rcases resume_next hnext with ⟨success, _, hτ⟩
      cases success <;> cases hτ
      cases hholds
  | updateSagaStatus e status =>
      rcases resume_next hnext with ⟨_, _, hτ⟩
      cases hτ
  | selectSagaLog e =>
      simp only [step] at hnext
      split at hnext <;> cases hnext <;> simp [cancelFrom_holds] at hholds
  | cancelDeductStock e rest =>
      rcases resume_next hnext with ⟨success, _, hτ⟩
      cases success <;> cases hτ
      cases hholds
  | cancelOrder e rest =>
      rcases resume_next hnext with ⟨success, _, hτ⟩
      cases success <;> cases hτ
      cases hholds
  | updateSagaLogCanceled e event rest =>
      rcases resume_next hnext with ⟨_, _, hτ⟩
      cases hτ
      simp [cancelFrom_holds] at hholds

/-- The task that follows inside an open transaction was able to commit when
its locks were taken. -/
theorem Task.step_holds {world : World} (hlocks : LockInv world) {k : ℕ}
    {fault : Fault} {task next : Task}
    (htask : world.workers[k]? = some (some task))
    (hwaits : world.Waits k task = true → mayWait fault = true)
    (hnext : (task.step fault world.db).next = some next)
    (hholds : next.Holds = true) :
    next.event.Reservable (task.step fault world.db).db.stock ∧
      ∀ (j : ℕ) (other : Task), j ≠ k →
        world.workers[j]? = some (some other) → other.Holds = true →
        ¬ next.SharesRow other := by
  rcases step_next_holds hnext hholds with
    ⟨e, stock, htaskEq, hnextEq, hfault, hbody⟩ | ⟨e, htaskEq, hnextEq⟩
  · subst htaskEq hnextEq
    have hwait : world.Waits k (deductStock e) = false := by
      cases h : world.Waits k (deductStock e)
      · rfl
      · rw [hwaits h] at hfault
        cases hfault
    refine ⟨Event.reservable_of_committed hbody, ?_⟩
    intro j other hjk hother hotherHolds
    have hshares : ¬ (deductStock e).SharesRow other :=
      World.not_sharesRow_of_not_waits hwait rfl hjk hother hotherHolds
    exact hshares
  · subst htaskEq hnextEq
    have hreservable : e.Reservable world.db.stock :=
      hlocks.reservable k _ htask rfl
    refine ⟨hreservable, ?_⟩
    intro j other hjk hother hotherHolds
    have hshares : ¬ (putEventInDeduct e).SharesRow other :=
      hlocks.exclusive k j _ other (Ne.symm hjk) htask hother rfl
        hotherHolds
    exact hshares

theorem lockInv_of_noWorkers {world : World} (hworkers : world.workers = []) :
    LockInv world := by
  refine ⟨fun k task htask => ?_, fun j k task other _ htask => ?_⟩
  · rw [hworkers] at htask
    cases htask
  · rw [hworkers] at htask
    cases htask

theorem lockInv_of_initial {world : World} (hinit : world.Initial) :
    LockInv world := lockInv_of_noWorkers hinit.2.1

/-- Workers that leave the stock tables alone and open no transaction. -/
theorem LockInv.of_workers {world next : World} (hlocks : LockInv world)
    (hstock : next.db.stock = world.db.stock)
    (hworkers : ∀ (k : ℕ) (task : Task),
      next.workers[k]? = some (some task) → task.Holds = true →
      world.workers[k]? = some (some task)) : LockInv next := by
  refine ⟨fun k task htask hholds => ?_,
    fun j k task other hjk htask hother hholds hholds' => ?_⟩
  · rw [hstock]
    exact hlocks.reservable k task (hworkers k task htask hholds) hholds
  · exact hlocks.exclusive j k task other hjk (hworkers j task htask hholds)
      (hworkers k other hother hholds') hholds hholds'

theorem lockInv_work {world : World} {k : ℕ} {fault : Fault} {task : Task}
    (hlocks : LockInv world) (htask : world.workers[k]? = some (some task))
    (hwaits : world.Waits k task = true → mayWait fault = true) :
    LockInv { world with
      db := (task.step fault world.db).db
      queue := world.queue ++ (task.step fault world.db).put.toList
      workers := world.workers.set k (task.step fault world.db).next } := by
  have hlookup : ∀ (j : ℕ) (other : Task), (world.workers.set k
      (task.step fault world.db).next)[j]? = some (some other) →
      j = k ∧ (task.step fault world.db).next = some other ∨
        j ≠ k ∧ world.workers[j]? = some (some other) := by
    intro j other hother
    rcases TransitionSystem.process_cases hother with ⟨hjk, hnext⟩ | hold
    · exact .inl ⟨hjk, hnext.symm⟩
    · exact .inr hold
  refine ⟨fun j other hother hholds => ?_,
    fun i j first second hij hfirst hsecond hholds hholds' => ?_⟩
  · rcases hlookup j other hother with ⟨_, hnext⟩ | ⟨hjk, hold⟩
    · exact (Task.step_holds hlocks htask hwaits hnext hholds).1
    · exact Task.step_reservable hlocks htask hwaits hjk hold hholds
  · rcases hlookup i first hfirst with ⟨hik, hnew⟩ | ⟨hik, hold⟩
    · rcases hlookup j second hsecond with ⟨hjk, _⟩ | ⟨hjk, hold'⟩
      · exact absurd (hik.trans hjk.symm) hij
      · exact (Task.step_holds hlocks htask hwaits hnew hholds).2 j
          second hjk hold' hholds'
    · rcases hlookup j second hsecond with ⟨_, hnew'⟩ | ⟨_, hold'⟩
      · intro hshares
        have hother := (Task.step_holds hlocks htask hwaits hnew'
          hholds').2 i first hik hold hholds
        exact hother (hshares.imp Eq.symm Eq.symm)
      · exact hlocks.exclusive i j first second hij hold hold' hholds
          hholds'

theorem Event.processEvent_holds (e : Event) :
    e.processEvent.Holds = false := by
  unfold Event.processEvent
  split
  · split <;> rfl
  · rfl

theorem lockInv_step {action : Action} {world next : World}
    (hstep : world.step action = some next) (hlocks : LockInv world) :
    LockInv next := by
  have happend : ∀ (k : ℕ) (task : Task),
      (world.workers ++ [none])[k]? = some (some task) →
      world.workers[k]? = some (some task) := by
    intro k task htask
    rw [List.getElem?_append] at htask
    split at htask
    · exact htask
    · have hmem := List.mem_of_getElem? htask
      simp at hmem
  cases World.step_cases hstep with
  | placeOrder | insertSaga | putEvent =>
      exact hlocks.of_workers rfl fun _ _ htask _ => htask
  | startEventLoop | startLoop =>
      exact hlocks.of_workers rfl fun k task htask _ => happend k task htask
  | @takeEvent k fault e queue hworker hqueue =>
      refine hlocks.of_workers rfl fun j task htask hholds => ?_
      rcases TransitionSystem.process_cases htask with
        ⟨_, hnext⟩ | ⟨_, hold⟩
      · cases hnext
        rw [Event.processEvent_holds] at hholds
        cases hholds
      · exact hold
  | work hworker hwaits => exact lockInv_work hlocks hworker hwaits

end Saga

end ClpszDemos
