import ClpszDemos.SagaSteps

/-!
# The event loops and their bounded queue

The workers take events from the queue and put events into it, and a `put`
waits while the queue is full.  An event is live while it is in the queue or
may still be put by what runs now.  A placed order brings one worker and one
live event, and no statement makes two live events out of one, except a commit
of `deductStock` that fails: its transaction has put the event of its success
already, and the `catch` block puts another one.
-/

namespace ClpszDemos

/-- Setting one entry of a list exchanges what that entry adds to a sum. -/
theorem sum_map_set {α : Type} (f : α → ℕ) {l : List α} {k : ℕ} {old : α}
    (hk : l[k]? = some old) (new : α) :
    ((l.set k new).map f).sum + f old = (l.map f).sum + f new := by
  induction l generalizing k with
  | nil => cases hk
  | cons first rest ih =>
      cases k with
      | zero =>
          cases hk
          simp only [List.set_cons_zero, List.map_cons, List.sum_cons]
          omega
      | succ k =>
          have hrest := ih (show rest[k]? = some old from hk)
          simp only [List.set_cons_succ, List.map_cons, List.sum_cons]
          omega

namespace Saga

/-! ## Live events -/

/-- The events that a worker may still put before it takes the next one. -/
def workerRank : Option Task → ℕ
  | none => 0
  | some (.commitDeductStock _) => 0
  | some _ => 1

def Caller.rank : Caller → ℕ
  | putEvent _ _ _ => 1
  | _ => 0

def World.live (world : World) : ℕ :=
  world.queue.length + (world.workers.map workerRank).sum +
    (world.callers.map Caller.rank).sum

/-- The task is the commit of `deductStock`, and it throws. -/
def Task.failsCommit (fault : Fault) : Task → Bool
  | commitDeductStock _ =>
      match fault with
      | .statement | .commit _ => true
      | .none | .escape _ => false
  | _ => false

def World.commitFails (world : World) : Action → Bool
  | .work k fault =>
      match world.workers[k]? with
      | some (some task) => task.failsCommit fault
      | _ => false
  | _ => false

theorem workerRank_le_one (worker : Option Task) : workerRank worker ≤ 1 := by
  unfold workerRank
  split
  · exact Nat.zero_le 1
  · exact Nat.zero_le 1
  · exact Nat.le_refl 1

theorem workerRank_processEvent (e : Event) :
    workerRank (some e.processEvent) = 1 := by
  unfold Event.processEvent
  split
  · split <;> rfl
  · rfl

/-- A commit of `deductStock` that does not throw ends the work on its
event. -/
theorem Task.commitDeductStock_next {e : Event} {fault : Fault} {db : Db}
    (hreservable : e.Reservable db.stock)
    (hcommits : (commitDeductStock e).failsCommit fault = false) :
    ((commitDeductStock e).step fault db).next = none := by
  cases fault with
  | statement => cases hcommits
  | commit applied => cases hcommits
  | escape applied =>
      have hescape := callService_escape (ItemStockService.deductStock e.sagaId
        e.itemId e.itemCount) false applied db.stock
      simp only [step, resume, hescape]
      rfl
  | none =>
      obtain ⟨next, hbody⟩ := hreservable.deductStock_ok
      have hcall := callService_none_eq false hbody
      simp only [step, resume, hcall]
      rfl

/-- No statement makes two live events out of one, except a commit of
`deductStock` that throws. -/
theorem Task.step_rank {fault : Fault} {db : Db} {task : Task}
    (hreservable : task.Holds = true → task.event.Reservable db.stock) :
    (task.step fault db).put.toList.length +
        workerRank (task.step fault db).next ≤
      workerRank (some task) + (task.failsCommit fault).toNat := by
  have hnext := workerRank_le_one (task.step fault db).next
  cases task with
  | putEvent e => rfl
  | putEventInDeduct e => rfl
  | commitDeductStock e =>
      have hput : ((commitDeductStock e).step fault db).put = none := rfl
      rw [hput]
      cases hfails : (commitDeductStock e).failsCommit fault with
      | true =>
          simp only [Option.toList_none, List.length_nil, Bool.toNat_true]
          omega
      | false =>
          have hreservable' : e.Reservable db.stock := hreservable rfl
          rw [commitDeductStock_next hreservable' hfails]
          rfl
  | _ =>
      simp only [step, resume, Option.toList_none, List.length_nil,
        Nat.zero_add] at hnext ⊢
      exact Nat.le_add_right_of_le hnext

theorem Caller.rank_afterInsertSaga (itemId itemCount : JLong)
    (result : Option JLong) :
    (Caller.afterInsertSaga itemId itemCount result).rank = 0 := by
  cases result with
  | none => rfl
  | some sagaId => rfl

/-- Live events become more than the workers only by a commit of `deductStock`
that throws. -/
theorem World.live_step {action : Action} {world next : World}
    (hlocks : LockInv world) (hstep : world.step action = some next) :
    next.live + world.workers.length ≤
      world.live + next.workers.length + (world.commitFails action).toNat := by
  unfold World.live
  cases World.step_cases hstep with
  | placeOrder itemId itemCount =>
      simp [Caller.rank]
  | startEventLoop =>
      simp only [List.map_append, List.map_cons, List.map_nil,
        List.sum_append, List.sum_cons, List.sum_nil, List.length_append,
        List.length_cons, List.length_nil, workerRank]
      omega
  | @insertSaga k fault itemId itemCount hcaller =>
      have hcallers := sum_map_set Caller.rank hcaller
        (Caller.afterInsertSaga itemId itemCount
          (callService SagaService.insertSaga none fault world.db.sagas).2)
      rw [Caller.rank_afterInsertSaga] at hcallers
      simp only [Caller.rank] at hcallers
      dsimp only
      omega
  | @startLoop k fault sagaId itemId itemCount hcaller =>
      have hcallers := sum_map_set Caller.rank hcaller
        (.putEvent sagaId itemId itemCount)
      simp only [Caller.rank] at hcallers
      simp only [List.map_append, List.map_cons, List.map_nil,
        List.sum_append, List.sum_cons, List.sum_nil, List.length_append,
        List.length_cons, List.length_nil, workerRank]
      omega
  | @putEvent k fault sagaId itemId itemCount hcaller =>
      have hcallers := sum_map_set Caller.rank hcaller
        (.returned sagaId itemId itemCount)
      simp only [Caller.rank] at hcallers
      simp only [List.length_append, List.length_cons, List.length_nil]
      omega
  | @takeEvent k fault e queue hworker hqueue =>
      have hworkers := sum_map_set workerRank hworker (some e.processEvent)
      rw [workerRank_processEvent] at hworkers
      simp only [workerRank] at hworkers
      simp only [hqueue, List.length_cons, List.length_set]
      omega
  | @work k fault task hworker hwaits =>
      have hworkers := sum_map_set workerRank hworker
        (task.step fault world.db).next
      have hrank := @Task.step_rank fault world.db task
        (hlocks.reservable k task hworker)
      have hfails : world.commitFails (.work k fault) =
          task.failsCommit fault := by
        simp only [World.commitFails, hworker]
      rw [hfails]
      simp only [List.length_append, List.length_set]
      omega

/-! ## Freedom from deadlock -/

/-- Nothing runs and the queue is empty; the databases are any. -/
def World.Idle (world : World) : Prop :=
  world.queue = [] ∧ world.workers = [] ∧ world.callers = []

/-- The worker is inside `EventCenter.putEvent`. -/
def Task.Puts : Task → Bool
  | putEvent _ | putEventInDeduct _ => true
  | _ => false

/-- The queue is full, and every worker waits for room in it. -/
def World.Wedged (world : World) : Prop :=
  world.queue.length = queueCapacity ∧
    ∀ worker ∈ world.workers, ∃ task, worker = some task ∧ task.Puts = true

/-- A commit of `deductStock` throws only while the live events are fewer than
the workers and the free slots of an empty queue, the second event included. -/
def SparesSlots (action : Action) (world : World) : Prop :=
  world.commitFails action = true →
    world.live + 1 < world.workers.length + queueCapacity

instance (action : Action) (world : World) :
    Decidable (SparesSlots action world) :=
  inferInstanceAs (Decidable (_ → _))

/-- There are fewer live events than workers and slots. -/
structure SlotInv (world : World) : Prop where
  locks : LockInv world
  spare : world.live < world.workers.length + queueCapacity

theorem slotInv_of_idle {world : World} (hidle : world.Idle) :
    SlotInv world := by
  obtain ⟨hqueue, hworkers, hcallers⟩ := hidle
  refine ⟨lockInv_of_noWorkers hworkers, ?_⟩
  unfold World.live
  rw [hqueue, hworkers, hcallers]
  decide

theorem slotInv_step {action : Action} {world next : World}
    (hspares : SparesSlots action world)
    (hstep : world.step action = some next) (hinv : SlotInv world) :
    SlotInv next := by
  have hlive := World.live_step hinv.locks hstep
  have hspare := hinv.spare
  refine ⟨lockInv_step hstep hinv.locks, ?_⟩
  cases hfails : world.commitFails action with
  | true =>
      have hroom := hspares hfails
      rw [hfails, Bool.toNat_true] at hlive
      omega
  | false =>
      rw [hfails, Bool.toNat_false] at hlive
      omega

theorem Task.rank_of_puts {task : Task} (hputs : task.Puts = true) :
    workerRank (some task) = 1 := by
  cases task with
  | putEvent e => rfl
  | putEventInDeduct e => rfl
  | _ => cases hputs

theorem World.live_of_wedged {world : World} (hwedged : world.Wedged) :
    queueCapacity + world.workers.length ≤ world.live := by
  obtain ⟨hfull, hblocked⟩ := hwedged
  have hworkers : world.workers.map workerRank =
      List.replicate world.workers.length 1 := by
    rw [List.eq_replicate_iff]
    refine ⟨List.length_map _, ?_⟩
    intro rank hrank
    obtain ⟨worker, hworker, rfl⟩ := List.mem_map.mp hrank
    obtain ⟨task, rfl, hputs⟩ := hblocked worker hworker
    exact Task.rank_of_puts hputs
  unfold World.live
  rw [hfull, hworkers, List.sum_replicate, smul_eq_mul, mul_one]
  exact Nat.le_add_right _ _

/-- In a run of which every step spares the slots, the queue is never full with
every worker waiting in `putEvent`. -/
theorem eventLoop_not_wedged {start world : World} (hidle : start.Idle)
    (hrun : shop.Run SparesSlots start world) : ¬ world.Wedged := by
  intro hwedged
  have hinv : SlotInv world := hrun.invariant SlotInv
    (fun _ _ _ hspares hstep => slotInv_step hspares hstep)
    (slotInv_of_idle hidle)
  have hlive := World.live_of_wedged hwedged
  have hspare := hinv.spare
  omega

/-- A shop with one item, of which one piece is left. -/
def oneItem : World where
  db :=
    { stock := ⟨fun i => if i = 0 then some ⟨1, 1⟩ else none, .empty _⟩
      sagas := .empty _
      logs := .empty _
      orders := .empty _ }
  queue := []
  workers := []
  callers := []

/-- One order whose `deductStock` fails to commit. -/
def failingOrder : List Action :=
  [.placeOrder (some 0) (some 1), .call 0 .none, .call 0 .none, .call 0 .none,
    .work 0 .none, .work 0 .none, .work 0 .none, .work 0 .none,
    .work 0 .none, .work 0 .none, .work 0 .none, .work 0 .none, .work 0 .none,
    .work 0 (.commit false)]

theorem eventLoop_not_wedged_failingOrder :
    ∃ world, shop.exec SparesSlots failingOrder oneItem = some world ∧
      world.workers.length = 1 ∧ world.live = 2 ∧ ¬ world.Wedged := by
  have hexec : ∃ world, shop.exec SparesSlots failingOrder oneItem = some world ∧
      world.workers.length = 1 ∧ world.live = 2 := ⟨_, rfl, rfl, rfl⟩
  obtain ⟨world, hworld, hworkers, hlive⟩ := hexec
  have hidle : oneItem.Idle := ⟨rfl, rfl, rfl⟩
  have hrun := (TransitionSystem.Run.refl oneItem).of_exec hworld
  exact ⟨world, hworld, hworkers, hlive, eventLoop_not_wedged hidle hrun⟩

/-! ## A worker that runs alone -/

/-- What a worker does with one fault for each statement: the databases, the
events that it puts and the statement that follows. -/
def Task.runs : List Fault → Db → Task → Db × List Event × Option Task
  | [], db, task => (db, [], some task)
  | fault :: faults, db, task =>
      let outcome := task.step fault db
      match outcome.next with
      | none => (outcome.db, outcome.put.toList, none)
      | some next =>
          let rest := runs faults outcome.db next
          (rest.1, outcome.put.toList ++ rest.2.1, rest.2.2)

theorem Task.runs_next {fault : Fault} {db db' : Db} {task next : Task}
    {put : Option Event} (hstep : task.step fault db = ⟨db', put, some next⟩)
    (faults : List Fault) :
    task.runs (fault :: faults) db =
      ((next.runs faults db').1, put.toList ++ (next.runs faults db').2.1,
        (next.runs faults db').2.2) := by
  rw [Task.runs, hstep]

/-- No other worker has an open transaction. -/
def World.Alone (world : World) (k : ℕ) : Prop :=
  ∀ (j : ℕ) (other : Task), j ≠ k →
    world.workers[j]? = some (some other) → other.Holds = false

theorem World.Alone.not_waits {world : World} {k : ℕ}
    (halone : world.Alone k) (task : Task) : world.Waits k task = false := by
  unfold World.Waits
  rw [Bool.and_eq_false_iff]
  right
  rw [List.any_eq_false]
  rintro ⟨worker, j⟩ hmem
  have hworker := List.mem_zipIdx_iff_getElem?.mp hmem
  cases worker with
  | none => simp
  | some other =>
      by_cases hjk : j = k
      · simp [hjk]
      · have hholds := halone j other hjk hworker
        simp [hholds]

theorem World.step_alone {world : World} {k : ℕ} {fault : Fault} {task : Task}
    (hworker : world.workers[k]? = some (some task))
    (halone : world.Alone k)
    (hroom : world.queue.length + (task.step fault world.db).put.toList.length ≤
      queueCapacity) :
    world.step (.work k fault) = some { world with
      db := (task.step fault world.db).db
      queue := world.queue ++ (task.step fault world.db).put.toList
      workers := world.workers.set k (task.step fault world.db).next } := by
  simp only [World.step, hworker, World.work, halone.not_waits task,
    Bool.false_and, Bool.false_eq_true, if_false]
  cases hput : (task.step fault world.db).put with
  | none => simp [World.put]
  | some e =>
      rw [hput] at hroom
      have hlt : world.queue.length < queueCapacity := by
        simpa using hroom
      simp [World.put, hlt]

theorem World.Alone.set {world next : World} {k : ℕ} {worker : Option Task}
    (halone : world.Alone k)
    (hworkers : next.workers = world.workers.set k worker) : next.Alone k := by
  intro j other hjk hother
  rw [hworkers, List.getElem?_set_ne (Ne.symm hjk)] at hother
  exact halone j other hjk hother

/-- A worker that runs alone, with room for all its events, runs through. -/
theorem reachable_runs {world : World} {k : ℕ} {faults : List Fault}
    {task : Task} (hreachable : shop.Reachable world)
    (hworker : world.workers[k]? = some (some task))
    (halone : world.Alone k)
    (hroom : world.queue.length + (task.runs faults world.db).2.1.length ≤
      queueCapacity) :
    shop.Reachable { world with
      db := (task.runs faults world.db).1
      queue := world.queue ++ (task.runs faults world.db).2.1
      workers := world.workers.set k (task.runs faults world.db).2.2 } := by
  induction faults generalizing world task with
  | nil =>
      have hsame : world.workers.set k (some task) = world.workers := by
        obtain ⟨hlt, hget⟩ := List.getElem?_eq_some_iff.mp hworker
        rw [← hget, List.set_getElem_self]
      simp only [Task.runs, List.append_nil, hsame]
      exact hreachable
  | cons fault faults ih =>
      have hlt : k < world.workers.length :=
        (List.getElem?_eq_some_iff.mp hworker).1
      cases hnext : (task.step fault world.db).next with
      | none =>
          simp only [Task.runs, hnext] at hroom ⊢
          have hstep : shop.step (.work k fault) world = some _ :=
            World.step_alone hworker halone hroom
          rw [hnext] at hstep
          exact hreachable.step hstep
      | some next =>
          simp only [Task.runs, hnext, List.length_append] at hroom ⊢
          have hput : world.queue.length +
              (task.step fault world.db).put.toList.length ≤ queueCapacity := by
            omega
          have hstep : shop.step (.work k fault) world = some _ :=
            World.step_alone hworker halone hput
          rw [hnext] at hstep
          have hrest := ih (hreachable.step hstep)
            (List.getElem?_set_self hlt) (halone.set rfl)
            (by rw [List.length_append, Nat.add_assoc]; exact hroom)
          simpa only [List.set_set, List.append_assoc] using hrest

/-! ## A run that wedges -/

def initEvent (t : ℕ) : Event := ⟨some (t : ℤ), .init, some 0, some 1, true⟩

/-- The reserved stock of these orders is free, in one item. -/
structure Stocked (db : ItemStockDb) : Prop where
  item : db.items 0 = some ⟨1, 1⟩
  unreserved : ∀ t, db.reserves.find t = none

/-- The first event of an order becomes its CREATE_ORDER event. -/
theorem runs_initEvent {db : Db} {t : ℕ} (hfresh : db.orders.find t = none) :
    ∃ orders, (∀ u, u ≠ t → orders.find u = db.orders.find u) ∧
      (initEvent t).processEvent.runs [.statement, .none, .none] db =
        ({ db with orders := orders },
          [(initEvent t).outcome .createOrder true], none) := by
  obtain ⟨orders, hbody, hrows⟩ := @openOrder_ok _ _ OrderStatus.normal none
    (some true) t 0 1 100 db.orders hfresh
  have hcall := callService_none_eq (some false) hbody
  refine ⟨orders, ?_, ?_⟩
  · intro u hu
    exact UniqueTable.find_insert_of_ne hrows (Ne.symm hu)
  · have hcreate : callService (OrderService.createOrder (some (t : ℤ))
        (some 0) (some 1) (some 100)) (some false) .none db.orders =
        (orders, some (some true)) := hcall
    simp only [initEvent, Event.processEvent, if_true, Task.runs, Task.step,
      callService_statement, Task.resume, Option.bind_some,
      Task.afterInsertSagaLog, hcreate, Option.map_some, Option.toList_none,
      Option.toList_some, List.nil_append, Event.outcome]

/-- Its commit fails after the CREATE_ORDER event became two events, one of
them still to be put. -/
theorem runs_createEvent {db : Db} (hstock : Stocked db.stock) (t : ℕ) :
    ((initEvent t).outcome .createOrder true).processEvent.runs
        [.statement, .statement, .none, .none, .commit false] db =
      (db, [(initEvent t).outcome .deductStock true],
        some (.putEvent ((initEvent t).outcome .deductStock false))) := by
  obtain ⟨stock, hbody⟩ := @reserveStock_ok _ ReserveStatus.normal t 0 1
    db.stock ⟨1, 1⟩ hstock.item (by decide) (by decide) (hstock.unreserved t)
  have hdeduct : ItemStockService.deductStock (some (t : ℤ)) (some 0)
      (some 1) db.stock = .ok (.committed true, stock) := hbody
  have hcommit := callService_commit_eq false hdeduct false
  simp only [initEvent, Event.outcome, Event.processEvent, if_true, Task.runs,
    Task.step, callService_statement, Task.resume, Option.bind_some,
    Task.afterSucceed, Task.afterInsertSagaLog, Task.beginDeductStock, hdeduct,
    Task.afterDeductStock, hcommit, Option.toList_none,
    Option.toList_some, List.nil_append, List.append_nil, if_false,
    Bool.false_eq_true]

/-- These orders were placed and nothing else happened. -/
structure Placed (world : World) (ts : List ℕ) : Prop where
  reachable : shop.Reachable world
  nodup : ts.Nodup
  known : ∀ t ∈ ts, world.db.sagas.status t ≠ none
  stocked : Stocked world.db.stock
  unordered : ∀ t, world.db.orders.find t = none
  queue : world.queue = ts.map initEvent
  workers : world.workers = List.replicate ts.length none

theorem placed_nil : ∃ world, Placed world [] := by
  have hinit : shop.init oneItem := ⟨rfl, rfl, rfl, rfl, rfl, rfl, rfl⟩
  refine ⟨oneItem, ⟨_, hinit, .refl _⟩, List.nodup_nil, ?_, ⟨rfl, ?_⟩, ?_, rfl, rfl⟩
  · simp
  · exact fun t => UniqueTable.find_empty t
  · exact fun t => UniqueTable.find_empty t

/-- The world in which `caller` was placed last. -/
def World.withCaller (world : World) (caller : Caller) : World :=
  { world with callers := world.callers ++ [caller] }

/-- The call that was placed last makes a step. -/
theorem reachable_lastCall {world next : World} {caller : Caller}
    (hreachable : shop.Reachable (world.withCaller caller))
    (hcall : World.call (world.withCaller caller) world.callers.length .none
      caller = some next) : shop.Reachable next := by
  have hstep : shop.step (.call world.callers.length .none)
      (world.withCaller caller) = some next := by
    rw [← hcall]
    simp [shop, World.step, World.withCaller]
  exact hreachable.step hstep

/-- One more `placeOrder` call runs through. -/
theorem Placed.placeOrder {world : World} {ts : List ℕ}
    (hplaced : Placed world ts) (hroom : ts.length < queueCapacity) :
    ∃ next t, Placed next (ts ++ [t]) := by
  obtain ⟨t, hnew, hkey, hstatus⟩ :=
    insertStatus_none SagaStatus.init world.db.sagas
  have hinsert : (callService SagaService.insertSaga none .none
      world.db.sagas).2 = some (some (t : ℤ)) := hkey
  have hfresh : t ∉ ts := fun ht => hplaced.known t ht hnew
  have hplace : shop.step (.placeOrder (some 0) (some 1)) world =
      some (world.withCaller (.insertSaga (some 0) (some 1))) := rfl
  let inserted : World := { world with
    db := { world.db with
      sagas := (callService SagaService.insertSaga none .none
        world.db.sagas).1 } }
  have hinserted : shop.Reachable (inserted.withCaller
      (.startEventLoop (some (t : ℤ)) (some 0) (some 1))) := by
    apply reachable_lastCall (hplaced.reachable.step hplace)
    simp [World.call, World.withCaller, hinsert, Caller.afterInsertSaga,
      inserted]
  let started : World := { inserted with workers := world.workers ++ [none] }
  have hstarted : shop.Reachable (started.withCaller
      (.putEvent (some (t : ℤ)) (some 0) (some 1))) := by
    apply reachable_lastCall hinserted
    simp [World.call, World.withCaller, started, inserted]
  let put : World := { started with
    queue := world.queue ++ [initEvent t] }
  have hput : shop.Reachable (put.withCaller
      (.returned (some (t : ℤ)) (some 0) (some 1))) := by
    apply reachable_lastCall hstarted
    have hlength : world.queue.length < queueCapacity := by
      rw [hplaced.queue, List.length_map]
      exact hroom
    simp [World.call, World.withCaller, World.put, put, started, inserted,
      hlength, initEvent]
  refine ⟨_, t, hput, ?_, ?_, hplaced.stocked, hplaced.unordered, ?_, ?_⟩
  · exact hplaced.nodup.append (List.nodup_singleton t)
      (List.disjoint_singleton.mpr hfresh)
  · intro u hu
    have hcolumn : put.db.sagas.status =
        Function.update world.db.sagas.status t (some SagaStatus.init) :=
      hstatus
    simp only [World.withCaller, hcolumn]
    by_cases hut : u = t
    · simp [hut]
    · rw [Function.update_of_ne hut]
      have hold : u ∈ ts := by simpa [hut] using hu
      exact hplaced.known u hold
  · simp [World.withCaller, put, hplaced.queue]
  · simp [World.withCaller, put, started, hplaced.workers,
      List.replicate_succ']

theorem reachable_placed {n : ℕ} (hn : n ≤ queueCapacity) :
    ∃ world ts, Placed world ts ∧ ts.length = n := by
  induction n with
  | zero =>
      obtain ⟨world, hplaced⟩ := placed_nil
      exact ⟨world, [], hplaced, rfl⟩
  | succ n ih =>
      obtain ⟨world, ts, hplaced, hlength⟩ := ih (by omega)
      obtain ⟨next, t, hnext⟩ := hplaced.placeOrder (by omega)
      exact ⟨next, ts ++ [t], hnext, by simp [hlength]⟩

/-- An idle worker takes an event and runs alone. -/
theorem reachable_takeRuns {world : World} {k : ℕ} {e : Event}
    {queue : List Event} {faults : List Fault}
    (hreachable : shop.Reachable world)
    (hworker : world.workers[k]? = some none)
    (hqueue : world.queue = e :: queue) (halone : world.Alone k)
    (hroom : queue.length +
      (e.processEvent.runs faults world.db).2.1.length ≤ queueCapacity) :
    shop.Reachable { world with
      db := (e.processEvent.runs faults world.db).1
      queue := queue ++ (e.processEvent.runs faults world.db).2.1
      workers := world.workers.set k
        (e.processEvent.runs faults world.db).2.2 } := by
  have hlt : k < world.workers.length :=
    (List.getElem?_eq_some_iff.mp hworker).1
  have htake : shop.step (.work k .none) world = some { world with
      queue := queue
      workers := world.workers.set k (some e.processEvent) } := by
    simp [shop, World.step, hworker, hqueue]
  have hruns := reachable_runs (hreachable.step htake)
    (List.getElem?_set_self hlt) (halone.set rfl) hroom
  simpa only [List.set_set] using hruns

/-- One worker makes the CREATE_ORDER events of all orders. -/
theorem reachable_created {n : ℕ} {todo done : List ℕ} {world : World}
    (hreachable : shop.Reachable world) (hnodup : todo.Nodup)
    (hfresh : ∀ t ∈ todo, world.db.orders.find t = none)
    (hroom : todo.length + done.length ≤ queueCapacity)
    (hqueue : world.queue = todo.map initEvent ++
      done.map fun t => (initEvent t).outcome .createOrder true)
    (hworkers : world.workers = List.replicate (n + 1) none) :
    ∃ next, shop.Reachable next ∧ next.workers = world.workers ∧
      next.db.stock = world.db.stock ∧
      next.queue = (done ++ todo).map
        fun t => (initEvent t).outcome .createOrder true := by
  induction todo generalizing done world with
  | nil => exact ⟨world, hreachable, rfl, rfl, by simpa using hqueue⟩
  | cons t todo ih =>
      obtain ⟨htodo, hrest⟩ := List.nodup_cons.mp hnodup
      obtain ⟨orders, hsame, hruns⟩ :=
        runs_initEvent (hfresh t List.mem_cons_self)
      have hidle : world.workers[0]? = some none := by
        rw [hworkers]
        rfl
      have halone : world.Alone 0 := by
        intro j other _ hother
        rw [hworkers] at hother
        have hmem := List.eq_of_mem_replicate (List.mem_of_getElem? hother)
        cases hmem
      have hset : world.workers.set 0 none = world.workers := by
        rw [hworkers]
        rfl
      have hhead : world.queue = initEvent t :: (todo.map initEvent ++
          done.map fun t => (initEvent t).outcome .createOrder true) := hqueue
      have hput : (todo.map initEvent ++ done.map fun t =>
          (initEvent t).outcome .createOrder true).length +
          ((initEvent t).processEvent.runs [.statement, .none, .none]
            world.db).2.1.length ≤ queueCapacity := by
        rw [hruns]
        simp only [List.length_append, List.length_map, List.length_cons,
          List.length_nil] at hroom ⊢
        omega
      have hnext := reachable_takeRuns hreachable hidle hhead halone hput
      rw [hruns, hset] at hnext
      have hfreshRest : ∀ u ∈ todo, orders.find u = none := by
        intro u hu
        have hut : u ≠ t := fun heq => htodo (heq ▸ hu)
        rw [hsame u hut]
        exact hfresh u (List.mem_cons_of_mem t hu)
      have hroomRest : todo.length + (done ++ [t]).length ≤ queueCapacity := by
        simp only [List.length_append, List.length_cons,
          List.length_nil] at hroom ⊢
        omega
      obtain ⟨last, hlast, hlastWorkers, hlastStock, hlastQueue⟩ :=
        ih hnext hrest hfreshRest hroomRest (by simp) hworkers
      exact ⟨last, hlast, hlastWorkers, hlastStock, by simpa using hlastQueue⟩

/-- Every worker is stopped by a commit that fails. -/
theorem reachable_blocked {todo done : List ℕ} {world : World}
    {blocked : List (Option Task)} (hreachable : shop.Reachable world)
    (hstock : Stocked world.db.stock)
    (hroom : todo.length + done.length ≤ queueCapacity)
    (hqueue : world.queue =
      (todo.map fun t => (initEvent t).outcome .createOrder true) ++
        done.map fun t => (initEvent t).outcome .deductStock true)
    (hworkers : world.workers = blocked ++ List.replicate todo.length none)
    (hblocked : ∀ worker ∈ blocked, ∃ e, worker = some (.putEvent e)) :
    ∃ next, shop.Reachable next ∧
      next.queue.length = todo.length + done.length ∧
      ∀ worker ∈ next.workers, ∃ e, worker = some (.putEvent e) := by
  induction todo generalizing done world blocked with
  | nil =>
      refine ⟨world, hreachable, by simp [hqueue], ?_⟩
      rw [hworkers, List.length_nil, List.replicate_zero, List.append_nil]
      exact hblocked
  | cons t todo ih =>
      have hruns := runs_createEvent hstock t
      have hidle : world.workers[blocked.length]? = some none := by
        rw [hworkers]
        simp [List.replicate_succ]
      have halone : world.Alone blocked.length := by
        intro j other _ hother
        rw [hworkers] at hother
        rcases List.mem_append.mp (List.mem_of_getElem? hother) with
          hmem | hmem
        · obtain ⟨e, he⟩ := hblocked _ hmem
          cases he
          rfl
        · have hnone := List.eq_of_mem_replicate hmem
          cases hnone
      have hhead : world.queue = (initEvent t).outcome .createOrder true ::
          ((todo.map fun t => (initEvent t).outcome .createOrder true) ++
            done.map fun t => (initEvent t).outcome .deductStock true) :=
        hqueue
      have hput : ((todo.map fun t => (initEvent t).outcome .createOrder true) ++
          done.map fun t => (initEvent t).outcome .deductStock true).length +
          (((initEvent t).outcome .createOrder true).processEvent.runs
            [.statement, .statement, .none, .none, .commit false]
            world.db).2.1.length ≤ queueCapacity := by
        rw [hruns]
        simp only [List.length_append, List.length_map, List.length_cons,
          List.length_nil] at hroom ⊢
        omega
      have hnext := reachable_takeRuns hreachable hidle hhead halone hput
      rw [hruns] at hnext
      have hroomRest : todo.length + (done ++ [t]).length ≤ queueCapacity := by
        simp only [List.length_append, List.length_cons,
          List.length_nil] at hroom ⊢
        omega
      have hblockedRest : ∀ worker ∈ blocked ++ [some (.putEvent
          ((initEvent t).outcome .deductStock false))],
          ∃ e, worker = some (.putEvent e) := by
        intro worker hmem
        rcases List.mem_append.mp hmem with hold | hnew
        · exact hblocked worker hold
        · exact ⟨_, List.mem_singleton.mp hnew⟩
      obtain ⟨last, hlast, hlastQueue, hlastWorkers⟩ :=
        ih hnext hstock hroomRest (by simp)
          (by simp [hworkers, List.replicate_succ]) hblockedRest
      refine ⟨last, hlast, ?_, hlastWorkers⟩
      rw [hlastQueue]
      simp only [List.length_append, List.length_cons, List.length_nil]
      omega

/-- One hundred orders whose `deductStock` fails to commit. -/
theorem not_eventLoop_not_wedged :
    ¬ ∀ world, shop.Reachable world → ¬ world.Wedged := by
  intro hnever
  obtain ⟨world, ts, hplaced, hlength⟩ :=
    reachable_placed (Nat.le_refl queueCapacity)
  have hworkers : world.workers = List.replicate (99 + 1) none := by
    rw [hplaced.workers, hlength]
    rfl
  obtain ⟨created, hcreated, hcreatedWorkers, hcreatedStock, hcreatedQueue⟩ :=
    @reachable_created 99 ts [] world hplaced.reachable hplaced.nodup
      (fun t _ => hplaced.unordered t) (by simp [hlength])
      (by simp [hplaced.queue]) hworkers
  obtain ⟨last, hlast, hfull, hblocked⟩ :=
    @reachable_blocked ts [] created [] hcreated
      (hcreatedStock ▸ hplaced.stocked) (by simp [hlength])
      (by simpa using hcreatedQueue)
      (by rw [hcreatedWorkers, hplaced.workers]; rfl) (by simp)
  apply hnever last hlast
  refine ⟨by rw [hfull, hlength]; rfl, ?_⟩
  intro worker hworker
  obtain ⟨e, rfl⟩ := hblocked worker hworker
  exact ⟨_, rfl, rfl⟩

end Saga

end ClpszDemos
