import ClpszDemos.SagaModel

/-!
# Compensating a saga

`processCancel` seen from one saga: the rows of the saga, its item, and the
statement that comes next.  A statement may fail at any point, so the saga log
may say less than the tables.  Here is when a run without failures undoes
everything that is left.
-/

namespace ClpszDemos

namespace Saga

/-! ## The rows of a saga -/

def SagaLog.IsOpen (entry : SagaLog) : Prop :=
  entry.eventStatus ≠ .canceled

instance : DecidablePred SagaLog.IsOpen := fun entry =>
  inferInstanceAs (Decidable (entry.eventStatus ≠ .canceled))

/-- The rows of one saga and the row of its item; a reservation is its status
and its quantity. -/
@[ext] structure Comp where
  saga : Option SagaStatus
  order : Option OrderStatus
  reserve : Option (ReserveStatus × ℕ)
  item : Option ItemRow
  logs : List SagaLog
  keyed : (logs.map SagaLog.sagaLogId).Nodup

/-- `entry` is canceled in the log. -/
def cancelEntry (entry other : SagaLog) : SagaLog :=
  if other.sagaLogId = entry.sagaLogId then
    { other with eventStatus := .canceled }
  else other

@[simp] theorem cancelEntry_sagaLogId (entry other : SagaLog) :
    (cancelEntry entry other).sagaLogId = other.sagaLogId := by
  unfold cancelEntry
  split <;> rfl

@[simp] theorem cancelEntry_event (entry other : SagaLog) :
    (cancelEntry entry other).event = other.event := by
  unfold cancelEntry
  split <;> rfl

theorem map_cancelEntry_sagaLogId (entry : SagaLog) (logs : List SagaLog) :
    (logs.map (cancelEntry entry)).map SagaLog.sagaLogId =
      logs.map SagaLog.sagaLogId := by
  rw [List.map_map]
  apply List.map_congr_left
  intro other _
  exact cancelEntry_sagaLogId entry other

namespace Comp

/-- The entry of a step that a log update finds. -/
def entry (c : Comp) (event : EventName) : Option SagaLog :=
  c.logs.find? fun row => row.event == event

def cancel (c : Comp) (entry : SagaLog) : Comp where
  saga := c.saga
  order := c.order
  reserve := c.reserve
  item := c.item
  logs := c.logs.map (cancelEntry entry)
  keyed := by
    rw [map_cancelEntry_sagaLogId]
    exact c.keyed

def stock (c : Comp) : ℤ :=
  match c.item with
  | some row => row.stock
  | none => 0

/-- The stock that is taken and not given back. -/
def reserved (c : Comp) : ℤ :=
  match c.reserve with
  | some (.normal, quantity) => quantity
  | _ => 0

/-- What a step did is in force. -/
def Live (c : Comp) : EventName → Prop
  | .init => False
  | .createOrder => c.order = some .normal
  | .deductStock => ∃ quantity, c.reserve = some (.normal, quantity)

/-- The compensating call of a step returns true. -/
def Accepts (c : Comp) : EventName → Prop
  | .init => False
  | .createOrder => c.order = none ∨ c.order = some .normal
  | .deductStock => (∃ row, c.item = some row ∧ row.Readable) ∧
      c.stock + c.reserved < 2 ^ 63

/-- A run of `processCancel` without failures can finish: the saga is not
FINISHED, every open entry is the one that its log update finds, and its call
returns true, and every step in force has an open entry. -/
structure Recoverable (c : Comp) : Prop where
  saga : c.saga = some .init ∨ c.saga = some .canceled
  entries : ∀ l ∈ c.logs, l.IsOpen → c.entry l.event = some l ∧
    c.Accepts l.event
  live : ∀ event, c.Live event → ∃ l ∈ c.logs, l.IsOpen ∧ l.event = event

/-- Nothing of the saga is left. -/
structure Undone (c : Comp) : Prop where
  saga : c.saga = some .canceled
  entries : ∀ l ∈ c.logs, ¬ l.IsOpen
  live : ∀ event, ¬ c.Live event

end Comp

/-! ## The statements of `processCancel` -/

/-- What the compensating call of a step does when it returns true. -/
inductive Undoes (c : Comp) : EventName → Comp → Prop
  | again (quantity : ℕ) (hreserve : c.reserve = some (.canceled, quantity)) :
      Undoes c .deductStock c
  | givenBack (row : ItemRow) (quantity : ℕ) (hitem : c.item = some row)
      (hreserve : c.reserve = some (.normal, quantity)) :
      Undoes c .deductStock
        { c with
          item := some { row with stock := row.stock + quantity }
          reserve := some (.canceled, quantity) }
  | recorded (hreserve : c.reserve = none) :
      Undoes c .deductStock { c with reserve := some (.canceled, 0) }
  | missing (horder : c.order = none) : Undoes c .createOrder c
  | canceled (horder : c.order = some .normal) :
      Undoes c .createOrder { c with order := some .canceled }

/-- The call that compensates a step. -/
def Task.compensation (e : Event) (rest : List SagaLog) : EventName → Task
  | .deductStock => cancelDeductStock e rest
  | .init | .createOrder => cancelOrder e rest

/-- After a call that succeeds comes `task`; one that fails may be the last. -/
def Goes (clean : Prop) (task : Task) (next : Option Task) : Prop :=
  next = some task ∨ ¬ clean ∧ next = none

/-- What a statement does to the rows of its saga and to the item, and what comes
next.  Nothing fails in a clean one. -/
inductive CancelStep (clean : Prop) (e : Event) :
    Task → Comp → Comp → Option Task → Prop
  | selected (c : Comp) {next : Option Task}
      (hnext : Goes clean (.cancelFrom e c.logs.reverse) next) :
      CancelStep clean e (.selectSagaLog e) c c next
  | failed (c : Comp) (event : EventName) (rest : List SagaLog)
      (hevent : event ≠ .init) (hfails : clean → ¬ c.Accepts event) :
      CancelStep clean e (.compensation e rest event) c c none
  | called (c c' : Comp) (event : EventName) (rest : List SagaLog)
      {next : Option Task} (haccepts : c.Accepts event)
      (hundoes : Undoes c event c')
      (hnext : Goes clean (.updateSagaLogCanceled e event rest) next) :
      CancelStep clean e (.compensation e rest event) c c' next
  | logKept (c : Comp) (event : EventName) (rest : List SagaLog)
      {next : Option Task} (hfails : clean → c.entry event = none)
      (hnext : Goes clean (.cancelFrom e rest) next) :
      CancelStep clean e (.updateSagaLogCanceled e event rest) c c next
  | logCanceled (c : Comp) (event : EventName) (rest : List SagaLog)
      (row : SagaLog) {next : Option Task} (hrow : c.entry event = some row)
      (hnext : Goes clean (.cancelFrom e rest) next) :
      CancelStep clean e (.updateSagaLogCanceled e event rest) c
        (c.cancel row) next
  | sagaKept (c : Comp) (hfails : clean → c.saga ≠ some .init) :
      CancelStep clean e (.updateSagaStatus e .canceled) c c none
  | sagaCanceled (c : Comp) (hsaga : c.saga = some .init) :
      CancelStep clean e (.updateSagaStatus e .canceled) c
        { c with saga := some .canceled } none

theorem Undoes.stock {event : EventName} {c c' : Comp}
    (hundoes : Undoes c event c') :
    c'.stock + c'.reserved = c.stock + c.reserved := by
  cases hundoes with
  | givenBack row quantity hitem hreserve =>
      simp [Comp.stock, Comp.reserved, hitem, hreserve]
  | recorded hreserve => simp [Comp.stock, Comp.reserved, hreserve]
  | again | missing | canceled => rfl

/-- Stock is moved, never made. -/
theorem CancelStep.stock {clean : Prop} {e : Event} {task : Task}
    {c c' : Comp} {next : Option Task}
    (hstep : CancelStep clean e task c c' next) :
    c'.stock + c'.reserved = c.stock + c.reserved := by
  cases hstep with
  | called _ _ event rest haccepts hundoes _ => exact hundoes.stock
  | selected | failed | logKept | logCanceled | sagaKept | sagaCanceled => rfl

/-- The quantity of the reservation is a `long`. -/
def Comp.Long (c : Comp) : Prop :=
  ∀ reservation, c.reserve = some reservation → reservation.2 < 2 ^ 63

theorem Undoes.long {event : EventName} {c c' : Comp}
    (hundoes : Undoes c event c') (hlong : c.Long) : c'.Long := by
  cases hundoes with
  | givenBack row quantity hitem hreserve =>
      intro reservation hreservation
      cases hreservation
      exact hlong (.normal, quantity) hreserve
  | recorded hreserve =>
      intro reservation hreservation
      cases hreservation
      exact Nat.two_pow_pos 63
  | again | missing | canceled => exact hlong

theorem CancelStep.long {clean : Prop} {e : Event} {task : Task}
    {c c' : Comp} {next : Option Task}
    (hstep : CancelStep clean e task c c' next) (hlong : c.Long) :
    c'.Long := by
  cases hstep with
  | called _ _ event rest haccepts hundoes _ => exact hundoes.long hlong
  | selected | failed | logKept | logCanceled | sagaKept | sagaCanceled =>
      exact hlong

/-- A call leaves the log and the saga, and the other steps. -/
structure Comp.Same (event : EventName) (c c' : Comp) : Prop where
  saga : c'.saga = c.saga
  logs : c'.logs = c.logs
  live : ∀ other, other ≠ event → (c'.Live other ↔ c.Live other)
  accepts : ∀ other, other ≠ event → (c'.Accepts other ↔ c.Accepts other)

theorem Undoes.same {event : EventName} {c c' : Comp}
    (hundoes : Undoes c event c') :
    c.Same event c' ∧ ¬ c'.Live event := by
  have hdeduct : ∀ (item : Option ItemRow) (reserve : Option (ReserveStatus × ℕ)),
      c.Same .deductStock { c with item := item, reserve := reserve } := by
    intro item reserve
    refine ⟨rfl, rfl, ?_, ?_⟩
    · intro other hother
      cases other with
      | deductStock => exact absurd rfl hother
      | init | createOrder => exact Iff.rfl
    · intro other hother
      cases other with
      | deductStock => exact absurd rfl hother
      | init | createOrder => exact Iff.rfl
  cases hundoes with
  | again quantity hreserve =>
      refine ⟨hdeduct c.item c.reserve, ?_⟩
      rintro ⟨other, hother⟩
      rw [hreserve] at hother
      cases hother
  | givenBack row quantity hitem hreserve =>
      refine ⟨hdeduct _ _, ?_⟩
      rintro ⟨other, hother⟩
      cases hother
  | recorded hreserve =>
      refine ⟨hdeduct c.item _, ?_⟩
      rintro ⟨other, hother⟩
      cases hother
  | missing horder =>
      refine ⟨⟨rfl, rfl, fun _ _ => Iff.rfl, fun _ _ => Iff.rfl⟩, ?_⟩
      intro hlive
      cases horder.symm.trans hlive
  | canceled horder =>
      refine ⟨⟨rfl, rfl, ?_, ?_⟩, ?_⟩
      · intro other hother
        cases other with
        | createOrder => exact absurd rfl hother
        | init | deductStock => exact Iff.rfl
      · intro other hother
        cases other with
        | createOrder => exact absurd rfl hother
        | init | deductStock => exact Iff.rfl
      · intro hlive
        cases hlive

/-! ## A run ends -/

/-- A statement of `processCancel` for the event. -/
def Task.Cancels (e : Event) : Task → Prop
  | selectSagaLog e' | cancelDeductStock e' _ | cancelOrder e' _
  | updateSagaLogCanceled e' _ _ => e' = e
  | updateSagaStatus e' status => e' = e ∧ status = .canceled
  | _ => False

/-- The statements that are left at most. -/
def Task.cancelSteps (c : Comp) : Task → ℕ
  | selectSagaLog _ => 2 * c.logs.length + 2
  | cancelDeductStock _ rest | cancelOrder _ rest => 2 * rest.length + 3
  | updateSagaLogCanceled _ _ rest => 2 * rest.length + 2
  | _ => 1

theorem Task.cancelFrom_cancels (c : Comp) (e : Event) (rest : List SagaLog) :
    (cancelFrom e rest).Cancels e ∧
      (cancelFrom e rest).cancelSteps c ≤ 2 * rest.length + 1 := by
  induction rest with
  | nil => exact ⟨⟨rfl, rfl⟩, Nat.le_refl 1⟩
  | cons l rest ih =>
      have hskip : (cancelFrom e rest).cancelSteps c ≤
          2 * (l :: rest).length + 1 := by
        rw [List.length_cons]
        omega
      unfold cancelFrom
      by_cases hcanceled : l.eventStatus = .canceled
      · rw [if_pos hcanceled]
        exact ⟨ih.1, hskip⟩
      · rw [if_neg hcanceled]
        cases l.event with
        | init => exact ⟨ih.1, hskip⟩
        | createOrder => exact ⟨rfl, Nat.le_refl _⟩
        | deductStock => exact ⟨rfl, Nat.le_refl _⟩

theorem Goes.eq {clean : Prop} {task next : Task}
    (hnext : Goes clean task (some next)) : next = task := by
  rcases hnext with hnext | ⟨_, hnone⟩
  · exact Option.some.inj hnext
  · cases hnone

/-- Every statement is followed by one with less to do. -/
theorem CancelStep.shorter {clean : Prop} {e : Event} {task next : Task}
    {c c' : Comp} (hstep : CancelStep clean e task c c' (some next)) :
    next.Cancels e ∧ next.cancelSteps c' < task.cancelSteps c := by
  have hloop : ∀ (c' : Comp) (rest : List SagaLog),
      Goes clean (.cancelFrom e rest) (some next) →
        next.Cancels e ∧ next.cancelSteps c' < 2 * rest.length + 2 := by
    intro c' rest hnext
    rw [hnext.eq]
    obtain ⟨hcancels, hsteps⟩ := Task.cancelFrom_cancels c' e rest
    exact ⟨hcancels, by omega⟩
  cases hstep with
  | selected _ hnext =>
      have hnext := hloop c c.logs.reverse hnext
      rw [List.length_reverse] at hnext
      exact hnext
  | called _ _ event rest haccepts hundoes hnext =>
      rw [hnext.eq]
      refine ⟨rfl, ?_⟩
      cases event with
      | init | createOrder | deductStock => exact Nat.lt_succ_self _
  | logKept _ event rest hfails hnext => exact hloop _ rest hnext
  | logCanceled _ event rest row hrow hnext => exact hloop _ rest hnext

/-! ## What is left to do -/

/-- The steps of the open entries. -/
def openEvents (logs : List SagaLog) : List EventName :=
  (logs.filter SagaLog.IsOpen).map SagaLog.event

theorem mem_openEvents {event : EventName} {logs : List SagaLog} :
    event ∈ openEvents logs ↔ ∃ l ∈ logs, l.IsOpen ∧ l.event = event := by
  simp [openEvents, and_assoc]

/-- The steps whose call is still to come. -/
def Task.todo (c : Comp) : Task → List EventName
  | selectSagaLog _ => openEvents c.logs.reverse
  | cancelDeductStock _ rest => .deductStock :: openEvents rest
  | cancelOrder _ rest => .createOrder :: openEvents rest
  | updateSagaLogCanceled _ _ rest => openEvents rest
  | _ => []

/-- The step whose log entry is written next. -/
def Task.logging : Task → Option EventName
  | updateSagaLogCanceled _ event _ => some event
  | _ => none

theorem Task.logging_cancelFrom (e : Event) (rest : List SagaLog) :
    (cancelFrom e rest).logging = none := by
  induction rest with
  | nil => rfl
  | cons l rest ih =>
      unfold cancelFrom
      by_cases hcanceled : l.eventStatus = .canceled
      · rw [if_pos hcanceled]
        exact ih
      · rw [if_neg hcanceled]
        cases l.event with
        | init => exact ih
        | createOrder => rfl
        | deductStock => rfl

/-- The loop skips what is canceled, and entries without a call. -/
theorem Task.todo_cancelFrom (c : Comp) (e : Event) (rest : List SagaLog) :
    (∀ event ∈ (cancelFrom e rest).todo c, event ∈ openEvents rest) ∧
      (.init ∉ openEvents rest →
        (cancelFrom e rest).todo c = openEvents rest) := by
  induction rest with
  | nil => simp [cancelFrom, todo, openEvents]
  | cons l rest ih =>
      unfold cancelFrom
      by_cases hcanceled : l.eventStatus = .canceled
      · have hskip : openEvents (l :: rest) = openEvents rest := by
          simp [openEvents, SagaLog.IsOpen, hcanceled]
        rw [if_pos hcanceled, hskip]
        exact ih
      · have hopen : openEvents (l :: rest) = l.event :: openEvents rest := by
          simp [openEvents, SagaLog.IsOpen, hcanceled]
        rw [if_neg hcanceled, hopen]
        cases l.event with
        | init =>
            refine ⟨fun event hevent => List.mem_cons_of_mem _ (ih.1 event
              hevent), ?_⟩
            intro hinit
            exact absurd List.mem_cons_self hinit
        | createOrder => exact ⟨fun event hevent => hevent, fun _ => rfl⟩
        | deductStock => exact ⟨fun event hevent => hevent, fun _ => rfl⟩

/-! ## Entries under an update -/

section Entries

variable {c : Comp} {event : EventName} {row l : SagaLog}

theorem Comp.entry_eq_some (hrow : c.entry event = some row) :
    row ∈ c.logs ∧ row.event = event := by
  refine ⟨List.mem_of_find?_eq_some hrow, ?_⟩
  simpa using List.find?_some hrow

/-- Two entries with one key are the same. -/
theorem Comp.eq_of_sagaLogId {other : SagaLog} (hl : l ∈ c.logs)
    (hother : other ∈ c.logs) (hkey : other.sagaLogId = l.sagaLogId) :
    other = l :=
  List.inj_on_of_nodup_map c.keyed hother hl hkey

theorem cancelEntry_of_ne (hne : l.sagaLogId ≠ row.sagaLogId) :
    cancelEntry row l = l :=
  if_neg hne

theorem not_isOpen_cancelEntry (hkey : l.sagaLogId = row.sagaLogId) :
    ¬ (cancelEntry row l).IsOpen := by
  unfold cancelEntry
  rw [if_pos hkey]
  exact fun hopen => hopen rfl

/-- What is open after an update was open before, under another key. -/
theorem Comp.mem_cancel_of_isOpen (hl : l ∈ (c.cancel row).logs)
    (hopen : l.IsOpen) : l ∈ c.logs ∧ l.sagaLogId ≠ row.sagaLogId := by
  obtain ⟨old, hold, rfl⟩ := List.mem_map.mp hl
  by_cases hkey : old.sagaLogId = row.sagaLogId
  · exact absurd hopen (not_isOpen_cancelEntry hkey)
  · rw [cancelEntry_of_ne hkey]
    exact ⟨hold, hkey⟩

theorem Comp.mem_cancel_of_ne (hl : l ∈ c.logs)
    (hne : l.sagaLogId ≠ row.sagaLogId) : l ∈ (c.cancel row).logs := by
  refine List.mem_map.mpr ⟨l, hl, cancelEntry_of_ne hne⟩

/-- An update moves no entry. -/
theorem Comp.entry_cancel (event : EventName) :
    (c.cancel row).entry event = (c.entry event).map (cancelEntry row) := by
  unfold Comp.entry Comp.cancel
  rw [List.find?_map]
  congr 2
  funext other
  simp

/-- The entry that is found stays found when another one is canceled. -/
theorem Comp.entry_cancel_iff (hl : l ∈ c.logs)
    (hne : l.sagaLogId ≠ row.sagaLogId) :
    (c.cancel row).entry event = some l ↔ c.entry event = some l := by
  rw [Comp.entry_cancel]
  constructor
  · intro hentry
    obtain ⟨old, hold, hsame⟩ := Option.map_eq_some_iff.mp hentry
    have hkey : old.sagaLogId = l.sagaLogId := by
      rw [← hsame, cancelEntry_sagaLogId]
    rw [hold, Comp.eq_of_sagaLogId hl (Comp.entry_eq_some hold).1 hkey]
  · intro hentry
    rw [hentry, Option.map_some, cancelEntry_of_ne hne]

end Entries

/-! ## A clean run of a recoverable saga -/

/-- The steps in `todo` are still to be compensated, and the log entry of the
step `logging` is still to be written. -/
structure Comp.OnTrack (c : Comp) (todo : List EventName)
    (logging : Option EventName) : Prop where
  saga : c.saga = some .init ∨ c.saga = some .canceled
  nodup : todo.Nodup
  accepts : ∀ event ∈ todo, c.Accepts event
  live : ∀ event, c.Live event → event ∈ todo
  entries : ∀ l ∈ c.logs, l.IsOpen → c.entry l.event = some l ∧
    (l.event ∈ todo ∨ logging = some l.event)

section OnTrack

variable {c c' : Comp} {todo : List EventName} {event : EventName}
  {row : SagaLog}

theorem Comp.onTrack_of_recoverable (hc : c.Recoverable) :
    c.OnTrack (openEvents c.logs.reverse) none := by
  have hlogs : c.logs.Nodup := List.Nodup.of_map _ c.keyed
  refine ⟨hc.saga, ?_, ?_, ?_, ?_⟩
  · -- Two open entries of one event are both the entry that is found.
    apply List.Nodup.map_on
    · intro l hl other hother hevent
      simp only [List.mem_filter, List.mem_reverse, decide_eq_true_eq]
        at hl hother
      have hfound := (hc.entries l hl.1 hl.2).1
      rw [hevent, (hc.entries other hother.1 hother.2).1] at hfound
      exact (Option.some.inj hfound).symm
    · exact (List.nodup_reverse.mpr hlogs).filter _
  · intro event hevent
    obtain ⟨l, hl, hopen, rfl⟩ := mem_openEvents.mp hevent
    exact (hc.entries l (List.mem_reverse.mp hl) hopen).2
  · intro event hlive
    obtain ⟨l, hl, hopen, rfl⟩ := hc.live event hlive
    exact mem_openEvents.mpr ⟨l, List.mem_reverse.mpr hl, hopen, rfl⟩
  · intro l hl hopen
    refine ⟨(hc.entries l hl hopen).1, .inl ?_⟩
    exact mem_openEvents.mpr ⟨l, List.mem_reverse.mpr hl, hopen, rfl⟩

/-- The loop starts from what is left of the log. -/
theorem Comp.OnTrack.cancelFrom {rest : List SagaLog}
    (hc : c.OnTrack (openEvents rest) none) (e : Event) :
    c.OnTrack ((Task.cancelFrom e rest).todo c)
      (Task.cancelFrom e rest).logging := by
  have hinit : .init ∉ openEvents rest := fun hinit => hc.accepts .init hinit
  rw [(Task.todo_cancelFrom c e rest).2 hinit, Task.logging_cancelFrom]
  exact hc

theorem Comp.OnTrack.called (hc : c.OnTrack (event :: todo) none)
    (hundoes : Undoes c event c') : c'.OnTrack todo (some event) := by
  obtain ⟨hsame, hgone⟩ := hundoes.same
  have hne : ∀ other ∈ todo, other ≠ event := by
    rintro other hother rfl
    exact (List.nodup_cons.mp hc.nodup).1 hother
  refine ⟨?_, (List.nodup_cons.mp hc.nodup).2, ?_, ?_, ?_⟩
  · rw [hsame.saga]
    exact hc.saga
  · intro other hother
    rw [hsame.accepts other (hne other hother)]
    exact hc.accepts other (List.mem_cons_of_mem _ hother)
  · intro other hlive
    have hother : other ≠ event := by
      rintro rfl
      exact hgone hlive
    rw [hsame.live other hother] at hlive
    exact (List.mem_cons.mp (hc.live other hlive)).resolve_left hother
  · intro l hl hopen
    rw [hsame.logs] at hl
    have hentry := hc.entries l hl hopen
    have hfound : c'.entry l.event = some l := by
      unfold Comp.entry
      rw [hsame.logs]
      exact hentry.1
    refine ⟨hfound, ?_⟩
    rcases hentry.2 with htodo | hnone
    · rcases List.mem_cons.mp htodo with hl | hl
      · exact .inr (congrArg some hl.symm)
      · exact .inl hl
    · cases hnone

/-- There was no entry to write. -/
theorem Comp.OnTrack.logKept (hc : c.OnTrack todo (some event))
    (hnone : c.entry event = none) : c.OnTrack todo none := by
  refine ⟨hc.saga, hc.nodup, hc.accepts, hc.live, ?_⟩
  intro l hl hopen
  obtain ⟨hfound, htodo | hlogging⟩ := hc.entries l hl hopen
  · exact ⟨hfound, .inl htodo⟩
  · rw [← Option.some.inj hlogging, hnone] at hfound
    cases hfound

theorem Comp.OnTrack.logCanceled (hc : c.OnTrack todo (some event))
    (hrow : c.entry event = some row) : (c.cancel row).OnTrack todo none := by
  refine ⟨hc.saga, hc.nodup, hc.accepts, hc.live, ?_⟩
  intro l hl hopen
  obtain ⟨hold, hkey⟩ := Comp.mem_cancel_of_isOpen hl hopen
  obtain ⟨hfound, htodo | hlogging⟩ := hc.entries l hold hopen
  · exact ⟨(Comp.entry_cancel_iff hold hkey).mpr hfound, .inl htodo⟩
  · rw [← Option.some.inj hlogging, hrow] at hfound
    exact absurd (congrArg SagaLog.sagaLogId (Option.some.inj hfound)).symm hkey

/-- Nothing is left to do. -/
theorem Comp.OnTrack.closed (hc : c.OnTrack [] none) :
    (∀ l ∈ c.logs, ¬ l.IsOpen) ∧ ∀ event, ¬ c.Live event := by
  constructor
  · intro l hl hopen
    rcases (hc.entries l hl hopen).2 with htodo | hnone
    · cases htodo
    · cases hnone
  · intro event hlive
    cases hc.live event hlive

theorem goes_of_clean {task : Task} {next : Option Task}
    (hnext : Goes True task next) : next = some task := by
  rcases hnext with hnext | ⟨hnot, _⟩
  · exact hnext
  · exact absurd trivial hnot

theorem Task.todo_compensation (e : Event) (rest : List SagaLog)
    (hevent : event ≠ .init) :
    (compensation e rest event).todo c = event :: openEvents rest := by
  cases event with
  | init => exact absurd rfl hevent
  | createOrder => rfl
  | deductStock => rfl

theorem Task.logging_compensation (e : Event) (rest : List SagaLog)
    (event : EventName) : (compensation e rest event).logging = none := by
  cases event <;> rfl

/-- The saga is on track, or undone at the end. -/
def Comp.Ends (c : Comp) : Option Task → Prop
  | some task => c.OnTrack (task.todo c) task.logging
  | none => c.Undone

theorem onTrack_step {e : Event} {task : Task} {next : Option Task}
    (hc : c.OnTrack (task.todo c) task.logging)
    (hstep : CancelStep True e task c c' next) : c'.Ends next := by
  cases hstep with
  | selected _ hnext =>
      rw [goes_of_clean hnext]
      exact hc.cancelFrom e
  | failed _ event rest hevent hfails =>
      rw [Task.todo_compensation e rest hevent] at hc
      exact absurd (hc.accepts event List.mem_cons_self) (hfails trivial)
  | called _ _ event rest haccepts hundoes hnext =>
      have hevent : event ≠ .init := by
        rintro rfl
        exact haccepts
      rw [Task.todo_compensation e rest hevent, Task.logging_compensation] at hc
      rw [goes_of_clean hnext]
      exact hc.called hundoes
  | logKept _ event rest hfails hnext =>
      rw [goes_of_clean hnext]
      exact (hc.logKept (hfails trivial)).cancelFrom e
  | logCanceled _ event rest row hrow hnext =>
      rw [goes_of_clean hnext]
      exact (hc.logCanceled hrow).cancelFrom e
  | sagaKept _ hfails =>
      obtain ⟨hentries, hlive⟩ := hc.closed
      exact ⟨hc.saga.resolve_left (hfails trivial), hentries, hlive⟩
  | sagaCanceled _ hsaga =>
      obtain ⟨hentries, hlive⟩ := hc.closed
      refine ⟨rfl, hentries, ?_⟩
      intro event
      cases event with
      | init => exact hlive .init
      | createOrder => exact hlive .createOrder
      | deductStock => exact hlive .deductStock

end OnTrack

/-! ## A saga that stays behind -/

/-- Whatever comes, the saga is not undone: its row is FINISHED or missing, or an
open entry is out of reach of the log updates, or the call of an open entry
returns false, or a step in force has no call left. -/
inductive Comp.Stuck (c : Comp) (todo : List EventName)
    (logging : Option EventName) : Prop
  | saga (hinit : c.saga ≠ some .init) (hcanceled : c.saga ≠ some .canceled)
  | hidden (l : SagaLog) (hl : l ∈ c.logs) (hopen : l.IsOpen)
      (hentry : c.entry l.event ≠ some l)
  | refused (l : SagaLog) (hl : l ∈ c.logs) (hopen : l.IsOpen)
      (hrefuses : ¬ c.Accepts l.event) (hlogging : logging ≠ some l.event)
  | lost (event : EventName) (hlive : c.Live event) (htodo : event ∉ todo)

section Stuck

variable {c c' : Comp} {todo rest : List EventName}
  {logging : Option EventName} {event : EventName} {row : SagaLog}

theorem Comp.Stuck.not_undone (hc : c.Stuck todo logging) : ¬ c.Undone := by
  intro hundone
  cases hc with
  | saga hinit hcanceled => exact hcanceled hundone.saga
  | hidden l hl hopen hentry => exact hundone.entries l hl hopen
  | refused l hl hopen hrefuses hlogging => exact hundone.entries l hl hopen
  | lost event hlive htodo => exact hundone.live event hlive

theorem Comp.stuck_of_not_recoverable (hc : ¬ c.Recoverable) :
    c.Stuck (openEvents c.logs.reverse) none := by
  by_contra hfree
  apply hc
  refine ⟨?_, ?_, ?_⟩
  · by_contra hsaga
    rw [not_or] at hsaga
    exact hfree (.saga hsaga.1 hsaga.2)
  · intro l hl hopen
    constructor
    · by_contra hentry
      exact hfree (.hidden l hl hopen hentry)
    · by_contra hrefuses
      exact hfree (.refused l hl hopen hrefuses (by simp))
  · intro event hlive
    by_contra hnone
    apply hfree
    refine .lost event hlive ?_
    intro htodo
    obtain ⟨l, hl, hopen, hevent⟩ := mem_openEvents.mp htodo
    exact hnone ⟨l, List.mem_reverse.mp hl, hopen, hevent⟩

/-- A statement that only goes on. -/
theorem Comp.Stuck.mono (hc : c.Stuck todo logging)
    (hrest : ∀ event ∈ rest, event ∈ todo) : c.Stuck rest none := by
  cases hc with
  | saga hinit hcanceled => exact .saga hinit hcanceled
  | hidden l hl hopen hentry => exact .hidden l hl hopen hentry
  | refused l hl hopen hrefuses hlogging =>
      exact .refused l hl hopen hrefuses (by simp)
  | lost event hlive htodo =>
      exact .lost event hlive fun hevent => htodo (hrest event hevent)

theorem Comp.Stuck.called (hc : c.Stuck (event :: todo) logging)
    (haccepts : c.Accepts event) (hundoes : Undoes c event c') :
    c'.Stuck todo (some event) := by
  obtain ⟨hsame, _⟩ := hundoes.same
  cases hc with
  | saga hinit hcanceled =>
      rw [← hsame.saga] at hinit hcanceled
      exact .saga hinit hcanceled
  | hidden l hl hopen hentry =>
      refine .hidden l (hsame.logs ▸ hl) hopen ?_
      unfold Comp.entry
      rw [hsame.logs]
      exact hentry
  | refused l hl hopen hrefuses hlogging =>
      have hne : l.event ≠ event := by
        intro hevent
        exact hrefuses (hevent ▸ haccepts)
      refine .refused l (hsame.logs ▸ hl) hopen ?_ ?_
      · rw [hsame.accepts l.event hne]
        exact hrefuses
      · intro hsome
        exact hne (Option.some.inj hsome).symm
  | lost other hlive htodo =>
      have hne : other ≠ event := by
        rintro rfl
        exact htodo List.mem_cons_self
      refine .lost other ((hsame.live other hne).mpr hlive) ?_
      intro hother
      exact htodo (List.mem_cons_of_mem _ hother)

theorem Comp.Stuck.logCanceled (hc : c.Stuck todo (some event))
    (hrow : c.entry event = some row) : (c.cancel row).Stuck todo none := by
  obtain ⟨hmem, hevent⟩ := Comp.entry_eq_some hrow
  cases hc with
  | saga hinit hcanceled => exact .saga hinit hcanceled
  | hidden l hl hopen hentry =>
      have hkey : l.sagaLogId ≠ row.sagaLogId := by
        intro hkey
        have hsame : l = row := Comp.eq_of_sagaLogId hmem hl hkey
        rw [hsame, hevent] at hentry
        exact hentry hrow
      refine .hidden l (Comp.mem_cancel_of_ne hl hkey) hopen ?_
      intro hfound
      exact hentry ((Comp.entry_cancel_iff hl hkey).mp hfound)
  | refused l hl hopen hrefuses hlogging =>
      have hkey : l.sagaLogId ≠ row.sagaLogId := by
        intro hkey
        have hsame : l = row := Comp.eq_of_sagaLogId hmem hl hkey
        rw [hsame, hevent] at hlogging
        exact hlogging rfl
      exact .refused l (Comp.mem_cancel_of_ne hl hkey) hopen hrefuses (by simp)
  | lost other hlive htodo => exact .lost other hlive htodo

/-- The saga is stuck, at a statement or at the end. -/
def Comp.StaysBehind (c : Comp) : Option Task → Prop
  | some task => c.Stuck (task.todo c) task.logging
  | none => c.Stuck [] none

theorem Comp.StaysBehind.not_undone {next : Option Task}
    (hc : c.StaysBehind next) : ¬ c.Undone := by
  cases next with
  | none => exact Comp.Stuck.not_undone hc
  | some task => exact Comp.Stuck.not_undone hc

theorem Comp.Stuck.goes {clean : Prop} {task : Task} {next : Option Task}
    (hc : c.Stuck (task.todo c) task.logging)
    (hnext : Goes clean task next) : c.StaysBehind next := by
  rcases hnext with rfl | ⟨_, rfl⟩
  · exact hc
  · exact hc.mono (by simp)

theorem Comp.Stuck.cancelFrom {clean : Prop} {logs : List SagaLog}
    {next : Option Task} (hc : c.Stuck (openEvents logs) none) (e : Event)
    (hnext : Goes clean (.cancelFrom e logs) next) : c.StaysBehind next := by
  refine Comp.Stuck.goes ?_ hnext
  rw [Task.logging_cancelFrom]
  exact hc.mono (Task.todo_cancelFrom c e logs).1

theorem stuck_step {clean : Prop} {e : Event} {task : Task}
    {next : Option Task} (hc : c.Stuck (task.todo c) task.logging)
    (hstep : CancelStep clean e task c c' next) : c'.StaysBehind next := by
  cases hstep with
  | selected _ hnext => exact hc.cancelFrom e hnext
  | failed _ event rest hevent hfails => exact hc.mono (by simp)
  | called _ _ event rest haccepts hundoes hnext =>
      have hevent : event ≠ .init := by
        rintro rfl
        exact haccepts
      rw [Task.todo_compensation e rest hevent] at hc
      exact (hc.called haccepts hundoes).goes hnext
  | logKept _ event rest hfails hnext =>
      exact Comp.Stuck.cancelFrom (hc.mono fun other hother => hother) e hnext
  | logCanceled _ event rest row hrow hnext =>
      exact Comp.Stuck.cancelFrom (hc.logCanceled hrow) e hnext
  | sagaKept _ hfails => exact hc.mono (by simp)
  | sagaCanceled _ hsaga =>
      cases hc with
      | saga hinit hcanceled => exact absurd hsaga hinit
      | hidden l hl hopen hentry => exact .hidden l hl hopen hentry
      | refused l hl hopen hrefuses hlogging =>
          exact .refused l hl hopen hrefuses (by simp)
      | lost other hlive htodo => exact .lost other hlive (by simp)

end Stuck

/-! ## What an interrupted run leaves -/

/-- The order is canceled, and the log does not say so yet. -/
def Comp.Gap (c : Comp) : Prop :=
  c.order = some .canceled ∧ ∃ l ∈ c.logs, l.IsOpen ∧ l.event = .createOrder

/-- What runs of `processCancel` leave of a recoverable saga, wherever they
stop. -/
structure Comp.Interrupted (c : Comp) (logging : Option EventName) : Prop where
  saga : c.saga = some .init ∨ c.saga = some .canceled
  entries : ∀ l ∈ c.logs, l.IsOpen → c.entry l.event = some l ∧ l.event ≠ .init
  order : (∃ l ∈ c.logs, l.IsOpen ∧ l.event = .createOrder) →
    c.order ≠ some .finished
  live : ∀ event, c.Live event →
    (∃ l ∈ c.logs, l.IsOpen ∧ l.event = event) ∧ logging ≠ some event

section Interrupted

variable {c c' : Comp} {logging : Option EventName} {event : EventName}
  {row : SagaLog}

theorem Comp.interrupted_of_recoverable (hc : c.Recoverable) :
    c.Interrupted none := by
  refine ⟨hc.saga, ?_, ?_, ?_⟩
  · intro l hl hopen
    obtain ⟨hentry, haccepts⟩ := hc.entries l hl hopen
    refine ⟨hentry, ?_⟩
    intro hinit
    rw [hinit] at haccepts
    exact haccepts
  · rintro ⟨l, hl, hopen, hevent⟩ hfinished
    have haccepts := (hc.entries l hl hopen).2
    rw [hevent] at haccepts
    rcases haccepts with hnone | hnormal
    · cases hnone.symm.trans hfinished
    · cases hnormal.symm.trans hfinished
  · intro other hlive
    exact ⟨hc.live other hlive, by simp⟩

/-- Of an interrupted run only the gap, and the stock, can be in the way. -/
theorem Comp.recoverable_iff (hc : c.Interrupted logging) :
    c.Recoverable ↔ ¬ c.Gap ∧
      ((∃ l ∈ c.logs, l.IsOpen ∧ l.event = .deductStock) →
        c.Accepts .deductStock) := by
  constructor
  · intro hrecoverable
    constructor
    · rintro ⟨hcanceled, l, hl, hopen, hevent⟩
      have haccepts := (hrecoverable.entries l hl hopen).2
      rw [hevent] at haccepts
      rcases haccepts with hnone | hnormal
      · cases hnone.symm.trans hcanceled
      · cases hnormal.symm.trans hcanceled
    · rintro ⟨l, hl, hopen, hevent⟩
      have haccepts := (hrecoverable.entries l hl hopen).2
      rw [hevent] at haccepts
      exact haccepts
  · rintro ⟨hgap, hstock⟩
    refine ⟨hc.saga, ?_, fun other hlive => (hc.live other hlive).1⟩
    intro l hl hopen
    obtain ⟨hentry, hinit⟩ := hc.entries l hl hopen
    refine ⟨hentry, ?_⟩
    cases hevent : l.event with
    | init => exact absurd hevent hinit
    | deductStock => exact hstock ⟨l, hl, hopen, hevent⟩
    | createOrder =>
        have hfinished := hc.order ⟨l, hl, hopen, hevent⟩
        cases horder : c.order with
        | none => exact .inl horder
        | some status =>
            cases status with
            | normal => exact .inr horder
            | canceled => exact absurd ⟨horder, l, hl, hopen, hevent⟩ hgap
            | finished => exact absurd horder hfinished

/-- A run that is left where it is. -/
theorem Comp.Interrupted.stop (hc : c.Interrupted logging) :
    c.Interrupted none := by
  refine ⟨hc.saga, hc.entries, hc.order, ?_⟩
  intro other hlive
  exact ⟨(hc.live other hlive).1, by simp⟩

theorem Comp.Interrupted.called (hc : c.Interrupted logging)
    (haccepts : c.Accepts event) (hundoes : Undoes c event c') :
    c'.Interrupted (some event) := by
  obtain ⟨hsame, hgone⟩ := hundoes.same
  refine ⟨?_, ?_, ?_, ?_⟩
  · rw [hsame.saga]
    exact hc.saga
  · intro l hl hopen
    unfold Comp.entry
    rw [hsame.logs] at hl ⊢
    exact hc.entries l hl hopen
  · intro hopen
    rw [hsame.logs] at hopen
    have hfinished := hc.order hopen
    cases hundoes with
    | canceled horder => simp
    | again | givenBack | recorded | missing => exact hfinished
  · intro other hlive
    have hne : other ≠ event := by
      rintro rfl
      exact hgone hlive
    rw [hsame.logs]
    refine ⟨(hc.live other ((hsame.live other hne).mp hlive)).1, ?_⟩
    intro hsome
    exact hne (Option.some.inj hsome).symm

theorem Comp.Interrupted.logCanceled (hc : c.Interrupted (some event))
    (hrow : c.entry event = some row) : (c.cancel row).Interrupted none := by
  obtain ⟨hmem, hevent⟩ := Comp.entry_eq_some hrow
  refine ⟨hc.saga, ?_, ?_, ?_⟩
  · intro l hl hopen
    obtain ⟨hold, hkey⟩ := Comp.mem_cancel_of_isOpen hl hopen
    obtain ⟨hentry, hinit⟩ := hc.entries l hold hopen
    exact ⟨(Comp.entry_cancel_iff hold hkey).mpr hentry, hinit⟩
  · rintro ⟨l, hl, hopen, hcreate⟩
    have hold := (Comp.mem_cancel_of_isOpen hl hopen).1
    exact hc.order ⟨l, hold, hopen, hcreate⟩
  · intro other hlive
    obtain ⟨⟨l, hl, hopen, hother⟩, hlogging⟩ := hc.live other hlive
    have hkey : l.sagaLogId ≠ row.sagaLogId := by
      intro hkey
      have hsame : l = row := Comp.eq_of_sagaLogId hmem hl hkey
      rw [hsame, hevent] at hother
      exact hlogging (congrArg some hother)
    refine ⟨⟨l, Comp.mem_cancel_of_ne hl hkey, hopen, hother⟩, by simp⟩

theorem interrupted_step {clean : Prop} {e : Event} {task : Task}
    {next : Option Task} (hc : c.Interrupted task.logging)
    (hstep : CancelStep clean e task c c' next) :
    c'.Interrupted (next.bind Task.logging) := by
  have hloop : ∀ {c : Comp} {rest : List SagaLog} {next : Option Task},
      c.Interrupted none → Goes clean (.cancelFrom e rest) next →
        c.Interrupted (next.bind Task.logging) := by
    intro c rest next hc hnext
    rcases hnext with rfl | ⟨_, rfl⟩
    · rw [Option.bind_some, Task.logging_cancelFrom]
      exact hc
    · exact hc
  cases hstep with
  | selected _ hnext => exact hloop hc hnext
  | failed _ event rest hevent hfails => exact hc.stop
  | called _ _ event rest haccepts hundoes hnext =>
      have hcalled := hc.called haccepts hundoes
      rcases hnext with rfl | ⟨_, rfl⟩
      · exact hcalled
      · exact hcalled.stop
  | logKept _ event rest hfails hnext => exact hloop hc.stop hnext
  | logCanceled _ event rest row hrow hnext =>
      exact hloop (hc.logCanceled hrow) hnext
  | sagaKept _ hfails => exact hc.stop
  | sagaCanceled _ hsaga =>
      refine ⟨.inr rfl, hc.entries, hc.order, ?_⟩
      exact hc.stop.live

end Interrupted

end Saga

end ClpszDemos
