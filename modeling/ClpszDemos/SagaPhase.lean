import ClpszDemos.SagaSteps

/-!
# The phase of one saga

The tokens of one saga are at most its main token, the event or task that
carries it on, and the commit of its open `deductStock` transaction.  What is
known at a token, and once there is none, is a parameter: each theorem about
the sagas brings a knowledge of its own.
-/

namespace ClpszDemos

namespace Saga

namespace SagaView

def orderStatus (v : SagaView) : Option OrderStatus :=
  v.order.map OrderRow.orderStatus

def reserveStatus (v : SagaView) : Option ReserveStatus :=
  v.reserve.map ReserveRow.reserveStatus

/-- A saga that is not in the table has no rows at all. -/
def Absent (v : SagaView) : Prop :=
  v = { saga := none, order := none, reserve := none, logs := [] }

/-- Nothing is ordered and nothing reserved. -/
structure Fresh (v : SagaView) : Prop where
  saga : v.saga = some .init
  order : v.orderStatus = none
  reserve : v.reserveStatus = none

/-- The order is made, and nothing is reserved. -/
structure Ordered (v : SagaView) : Prop where
  saga : v.saga = some .init
  order : v.orderStatus = some .normal
  reserve : v.reserveStatus = none

/-- The order is made and the stock is reserved. -/
structure Reserved (v : SagaView) : Prop where
  saga : v.saga = some .init
  order : v.orderStatus = some .normal
  reserve : v.reserveStatus = some .normal

end SagaView

/-- The tasks of the event that an open transaction has put. -/
def Task.InFlight : Task → Prop
  | updateSagaLogSucceed e => e.name = .deductStock
  | updateSagaStatus _ status => status = .finished
  | _ => False

/-- What is known of the rows of a saga when no token is left, at its main
token, and when only the commit of its stock is left. -/
structure Knowledge where
  Idle : SagaView → Prop
  At : SagaView → Task → Prop
  Alone : SagaView → Prop
  saga_of_at : ∀ v task, At v task → v.saga = some .init
  saga_of_alone : ∀ v, Alone v → v.saga ≠ none

/-- The rows of a saga and its tokens fit together. -/
inductive Phase (K : Knowledge) (v : SagaView) : Multiset Task → Prop
  | absent (hv : v.Absent) : Phase K v 0
  | idle (hsaga : v.saga ≠ none) (hv : K.Idle v) : Phase K v 0
  | running (task : Task) (htask : K.At v task) : Phase K v {task}
  | committing (e : Event) (task : Task) (hv : v.Ordered)
      (htask : task.InFlight) : Phase K v {Task.commitDeductStock e, task}
  | alone (e : Event) (hv : K.Alone v) :
      Phase K v {Task.commitDeductStock e}

variable {K : Knowledge}

/-- A saga that is not in the table has no tokens. -/
theorem Phase.eq_absent {v : SagaView} {tokens : Multiset Task}
    (hphase : Phase K v tokens) (hsaga : v.saga = none) :
    v.Absent ∧ tokens = 0 := by
  cases hphase with
  | absent hv => exact ⟨hv, rfl⟩
  | idle hne => exact absurd hsaga hne
  | running task htask => cases (K.saga_of_at v task htask).symm.trans hsaga
  | committing e task hv => cases hv.saga.symm.trans hsaga
  | alone e hv => exact absurd hsaga (K.saga_of_alone v hv)

/-- What a token of a saga can be, with the other tokens of the saga. -/
theorem Phase.cons_cases {v : SagaView} {task : Task}
    {others : Multiset Task} (hphase : Phase K v (task ::ₘ others)) :
    (others = 0 ∧ K.At v task) ∨
    (∃ e, task = .commitDeductStock e ∧ others = 0 ∧ K.Alone v) ∨
    (∃ e main, task = .commitDeductStock e ∧ others = {main} ∧
      v.Ordered ∧ main.InFlight) ∨
    ∃ e, others = {.commitDeductStock e} ∧ v.Ordered ∧ task.InFlight := by
  generalize htokens : task ::ₘ others = tokens at hphase
  cases hphase with
  | absent hv => exact absurd htokens Multiset.cons_ne_zero
  | idle hsaga hv => exact absurd htokens Multiset.cons_ne_zero
  | running main hmain =>
      rcases (Multiset.singleton_eq_cons_iff _).mp htokens.symm with
        ⟨hsame, hothers⟩
      exact .inl ⟨hothers, hsame ▸ hmain⟩
  | alone e hv =>
      rcases (Multiset.singleton_eq_cons_iff _).mp htokens.symm with
        ⟨hsame, hothers⟩
      exact .inr (.inl ⟨e, hsame.symm, hothers, hv⟩)
  | committing e main hv hflight =>
      rcases Multiset.cons_eq_cons.mp htokens with
        ⟨hsame, hothers⟩ | ⟨_, middle, hothers, hmain⟩
      · exact .inr (.inr (.inl ⟨e, main, hsame, hothers, hv, hflight⟩))
      · rcases (Multiset.singleton_eq_cons_iff _).mp hmain with
          ⟨hsame, hmiddle⟩
        rw [hmiddle] at hothers
        exact .inr (.inr (.inr ⟨e, hothers, hv, hsame ▸ hflight⟩))

/-- A statement that puts no event leaves the saga or carries it on. -/
theorem phase_next {v : SagaView} {db : Db} {next : Option Task}
    (hsaga : v.saga ≠ none) (hidle : next = none → K.Idle v)
    (hnext : ∀ task, next = some task → K.At v task) :
    Phase K v
      (Task.Outcome.tokens { db := db, put := none, next := next }) := by
  cases next with
  | none => exact .idle hsaga (hidle rfl)
  | some task => exact .running task (hnext task rfl)

theorem phase_resume {β : Type} {v : SagaView} {db : Db}
    {result : Option β} {next : β → Option Task} (hsaga : v.saga ≠ none)
    (hidle : result.bind next = none → K.Idle v)
    (hnext : ∀ b task, result = some b → next b = some task →
      K.At v task) :
    Phase K v (Task.resume db result next).tokens := by
  refine phase_next hsaga hidle fun task htask => ?_
  rcases Option.bind_eq_some_iff.mp htask with ⟨b, hb, hnextTask⟩
  exact hnext b task hb hnextTask

/-! ## The commit of an open transaction -/

/-- A commit that takes effect without a word reserves the stock, and
changes nothing else of its saga. -/
theorem commitDeductStock_view {db : Db} {t : ℕ} {e : Event} {fault : Fault}
    (he : e.sagaId = some (t : ℤ)) (hreservable : e.Reservable db.stock)
    (hfault : fault = .none ∨ fault = .escape true) :
    ((Task.commitDeductStock e).step fault db).tokens = 0 ∧
      (((Task.commitDeductStock e).step fault db).db.view t).saga =
        (db.view t).saga ∧
      (((Task.commitDeductStock e).step fault db).db.view t).orderStatus =
        (db.view t).orderStatus ∧
      (((Task.commitDeductStock e).step fault db).db.view t).reserveStatus =
        some .normal := by
  rcases hreservable.deductStock_ok with ⟨next, hbody⟩
  have hcall : ∃ result, callService (ItemStockService.deductStock e.sagaId
      e.itemId e.itemCount) false fault db.stock = (next, result) ∧
        (result = some true ∨ result = none) := by
    unfold callService
    rw [hbody]
    rcases hfault with hnone | hescape
    · subst hnone
      exact ⟨some true, rfl, .inl rfl⟩
    · subst hescape
      exact ⟨none, rfl, .inr rfl⟩
  have hreserve : next.reserves.reserveStatus t = some .normal := by
    rw [he] at hbody
    exact reserveStock_committed hbody
  rcases hcall with ⟨result, hresult, hcase⟩
  simp only [Task.step, hresult]
  refine ⟨?_, rfl, rfl, hreserve⟩
  rcases hcase with htrue | hnone
  · rw [htrue]
    rfl
  · rw [hnone]
    rfl

/-! ## Tokens of one saga and of the others -/

/-- A statement of one saga is none of another's. -/
theorem tokensOf_work {world next : World} {fault : Fault} {task : Task}
    {rest : Multiset Task} (hold : world.tokens = task ::ₘ rest)
    (htokens : next.tokens = (task.step fault world.db).tokens + rest)
    (t : ℕ) :
    (task.Of t → next.tokensOf t =
      (task.step fault world.db).tokens + rest.filter (Task.Of t)) ∧
    (¬ task.Of t → next.tokensOf t = world.tokensOf t) := by
  constructor
  · intro htask
    have hall : (task.step fault world.db).tokens.filter (Task.Of t) =
        (task.step fault world.db).tokens := by
      refine Multiset.filter_eq_self.mpr fun other hother => ?_
      exact (Task.step_sagaId fault world.db task other hother).trans htask
    rw [World.tokensOf, htokens, Multiset.filter_add, hall]
  · intro htask
    have hnone : (task.step fault world.db).tokens.filter (Task.Of t) =
        0 := by
      refine Multiset.filter_eq_nil.mpr fun other hother hof => ?_
      exact htask
        ((Task.step_sagaId fault world.db task other hother).symm.trans hof)
    rw [World.tokensOf, World.tokensOf, htokens, hold, Multiset.filter_add,
      hnone, zero_add, Multiset.filter_cons_of_neg _ htask]

/-- The token of a new saga belongs to that saga only. -/
theorem filter_insertSaga (result : Option JLong) (itemId itemCount : JLong)
    (t : ℕ) :
    (Multiset.ofList (result.map fun sagaId => Event.processEvent
        ⟨sagaId, .init, itemId, itemCount, true⟩).toList).filter
          (Task.Of t) =
      if result = some (some (t : ℤ)) then
        {Event.processEvent ⟨some (t : ℤ), .init, itemId, itemCount, true⟩}
      else 0 := by
  cases result with
  | none => rfl
  | some sagaId =>
      by_cases ht : sagaId = some (t : ℤ)
      · subst ht
        rw [if_pos rfl]
        refine Multiset.filter_eq_self.mpr fun task htask => ?_
        have hsame : task = Event.processEvent
            ⟨some (t : ℤ), .init, itemId, itemCount, true⟩ := by
          simpa using htask
        rw [hsame, Task.Of, Event.processEvent_event]
      · rw [if_neg (by simpa using ht)]
        refine Multiset.filter_eq_nil.mpr fun task htask hof => ?_
        have hsame : task = Event.processEvent
            ⟨sagaId, .init, itemId, itemCount, true⟩ := by
          simpa using htask
        rw [hsame, Task.Of, Event.processEvent_event] at hof
        exact ht hof

/-- The rows of a saga that was just inserted. -/
def SagaView.new : SagaView where
  saga := some .init
  order := none
  reserve := none
  logs := []

/-- A new saga is known to its caller, or to nobody. -/
theorem phase_insertSaga {world next : World} {fault : Fault}
    {itemId itemCount : JLong} {t : ℕ}
    (hphase : Phase K (world.db.view t) (world.tokensOf t))
    (hdb : next.db = { world.db with
      sagas := (callService SagaService.insertSaga none fault
        world.db.sagas).1 })
    (htokens : next.tokens =
      Multiset.ofList ((callService SagaService.insertSaga none fault
        world.db.sagas).2.map fun sagaId => Event.processEvent
          ⟨sagaId, .init, itemId, itemCount, true⟩).toList +
        world.tokens)
    (hnew : K.At SagaView.new (Event.processEvent
      ⟨some (t : ℤ), .init, itemId, itemCount, true⟩))
    (hlost : fault ≠ .none → K.Idle SagaView.new) :
    Phase K (next.db.view t) (next.tokensOf t) := by
  have hview : next.db.view t = { world.db.view t with
      saga := (callService SagaService.insertSaga none fault
        world.db.sagas).1.status t } := by
    rw [hdb]
    rfl
  rw [hview, World.tokensOf, htokens, Multiset.filter_add,
    filter_insertSaga]
  have hcall : _ ∨ ∃ u : ℕ, _ ∧ (callService SagaService.insertSaga none
      fault world.db.sagas).1.status = _ ∧ _ :=
    insertStatus_call SagaStatus.init fault world.db.sagas
  rcases hcall with ⟨hsame, hkey⟩ | ⟨u, hfresh, hmove, hkey⟩
  · have hnone : (callService SagaService.insertSaga none fault
        world.db.sagas).2 ≠ some (some (t : ℤ)) := by
      intro hresult
      cases hkey _ hresult
    rw [if_neg hnone, zero_add]
    rw [show (callService SagaService.insertSaga none fault
      world.db.sagas).1 = world.db.sagas from hsame]
    exact hphase
  · rw [hmove]
    by_cases htu : t = u
    · subst htu
      rcases hphase.eq_absent hfresh with ⟨habsent, hempty⟩
      rw [Function.update_self]
      change Phase K _ (_ + world.tokensOf t)
      rw [hempty, habsent]
      by_cases hresult : (callService SagaService.insertSaga none fault
          world.db.sagas).2 = some (some (t : ℤ))
      · rw [if_pos hresult, add_zero]
        exact .running _ hnew
      · rw [if_neg hresult, add_zero]
        refine .idle (by simp) (hlost fun hfault => hresult ?_)
        -- Without a fault the key cannot be lost.
        subst hfault
        obtain ⟨own, _, hgiven, _⟩ : ∃ own : ℕ, _ ∧
            (callService SagaService.insertSaga none .none
              world.db.sagas).2 = some (some (own : ℤ)) ∧ _ :=
          insertStatus_none SagaStatus.init world.db.sagas
        rcases hkey _ hgiven with hlost | hown
        · cases hlost
        · rw [hgiven, hown]
    · have hnone : (callService SagaService.insertSaga none fault
          world.db.sagas).2 ≠ some (some (t : ℤ)) := by
        intro hresult
        rcases hkey _ hresult with hlost | hown
        · cases hlost
        · exact htu (by exact_mod_cast Option.some.inj hown)
      rw [if_neg hnone, zero_add, Function.update_of_ne htu]
      exact hphase

/-- The phase of every saga survives a step of the system if each statement
keeps the phase of its own saga. -/
theorem phase_step {action : Action} {world next : World}
    (hstep : world.step action = some next)
    (hphase : ∀ t, Phase K (world.db.view t) (world.tokensOf t))
    (hnew : ∀ e : Event, e.name = .init → e.succeed = true →
      K.At SagaView.new e.processEvent)
    (hlost : ∀ k fault, action = .call k fault → fault ≠ .none →
      K.Idle SagaView.new)
    (hwork : ∀ (k : ℕ) (fault : Fault) (task : Task)
      (others : Multiset Task) (t : ℕ), action = .work k fault →
      world.workers[k]? = some (some task) → task.Of t →
      world.tokensOf t = task ::ₘ others →
      Phase K ((task.step fault world.db).db.view t)
        ((task.step fault world.db).tokens + others))
    (t : ℕ) : Phase K (next.db.view t) (next.tokensOf t) := by
  cases World.step_moves hstep with
  | silent hdb _ htokens =>
      rw [hdb, World.tokensOf, htokens]
      exact hphase t
  | insertSaga hcaller hdb _ htokens =>
      exact phase_insertSaga (hphase t) hdb htokens (hnew _ rfl rfl)
        (hlost _ _ rfl)
  | @work k fault task rest hworker hwaits hold hdb _ htokens =>
      have htokensOf := tokensOf_work hold htokens t
      rw [hdb]
      by_cases htask : task.Of t
      · rw [htokensOf.1 htask]
        refine hwork k fault task _ t rfl hworker htask ?_
        rw [World.tokensOf, hold, Multiset.filter_cons_of_pos _ htask]
      · rw [htokensOf.2 htask, Task.step_frame _ _ _ htask]
        exact hphase t

/-- Before the first step no saga exists. -/
theorem phase_of_initial {world : World} (hinit : world.Initial) (t : ℕ) :
    Phase K (world.db.view t) (world.tokensOf t) := by
  rcases hinit with ⟨hqueue, hworkers, hcallers, hreserves, hsagas, hlogs,
    horders⟩
  have htokens : world.tokensOf t = 0 := by
    simp [World.tokensOf, World.tokens, hqueue, hworkers, hcallers]
  rw [htokens]
  refine .absent ?_
  simp [SagaView.Absent, Db.view, Db.logsOf, SagaLogDao.selectBySagaId,
    UniqueTable.status, hreserves, hsagas, hlogs, horders]

end Saga

end ClpszDemos
