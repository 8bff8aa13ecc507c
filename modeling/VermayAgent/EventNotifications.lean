import Mathlib
import VermayAgent.TaskHistory
import VermayAgent.StoreTransactions
import VermayAgent.Library.Log
import VermayAgent.Library.Transition

/-! Threads that wait for the events of a task, and threads that append them.
A step is what one thread does while it holds one lock. Writers hold the store's lock for a whole
outermost scope; the notifier has a lock of its own, and its callbacks run after the commit. -/
namespace VermayAgent
open Library

namespace MainAgentStore

/-- `list_task_events`: `WHERE task_id = … AND event_id > … ORDER BY event_id`. -/
def listTaskEvents (db : AgentDb) (taskId : TaskId) (afterEventId : ℕ) : List TaskEventRecord :=
  (db.taskEvents.filter fun e => e.taskId = taskId ∧ afterEventId < e.eventId).insertionSort
    fun e f => e.eventId ≤ f.eventId

end MainAgentStore

/-- The arguments of `wait_for_task_events`; when a wait times out is up to the run. -/
structure WaitCall where
  taskId : TaskId
  afterEventId : ℕ
deriving DecidableEq, Repr

/-- Where a call of `wait_for_task_events` is; a version is the one that it observed last. -/
inductive WaiterPhase where
  | called
  | known
  | unobserved
  | looking (version : ℕ)
  | waiting (version : ℕ)
  | parked (version : ℕ)
  | woken
  | returned (events : List TaskEventRecord)
  | failed
deriving DecidableEq

namespace WaiterPhase

/-- `notify_all` reaches the threads that wait in the condition. -/
def notified : WaiterPhase → WaiterPhase
  | parked _ => woken
  | phase => phase

def hasEnded : WaiterPhase → Bool
  | returned _ | failed => true
  | _ => false

/-- The version on which a waiter relies. -/
def version? : WaiterPhase → Option ℕ
  | looking v | waiting v | parked v => some v
  | _ => none

end WaiterPhase

/-- Where a writer is: in any code, in `append_task_event` behind its INSERT, or in the callbacks
of a commit. A callback is known by the event for which it was registered. -/
inductive WriterPhase where
  | running
  | appended (event : TaskEventRecord)
  | notifying (events : List TaskEventRecord)

/-- A statement that does not write the table of events. -/
structure OtherStatement where
  run : AgentDb → AgentDb
  taskEvents : ∀ db, (run db).taskEvents = db.taskEvents
  nextEventId : ∀ db, (run db).nextEventId = db.nextEventId

/-- How the code of the outermost scope ended, and its commit. -/
inductive ScopeExit where
  | committed | raised | commitFailed
deriving DecidableEq, Repr

/-- What a writer does next. Events are deleted in the transaction of a context's deletion only;
`abandon` is an exception between an INSERT and the registration of its callback, `interrupt` one
that the loop over the callbacks does not catch. -/
inductive WriterAction where
  | enter
  | append (taskId : TaskId) (type : String) (status : Option TaskStatus)
      (lifecycleRevision : ℕ) (payload : Json) (commitFails : Bool)
  | register
  | abandon
  | execute (statement : OtherStatement) (commitFails : Bool)
  | deleteTaskEvents (taskId : TaskId)
  | leave (exit : ScopeExit)
  | notify
  | interrupt

inductive WaitLabel (ι κ : Type) where
  | waiter (i : ι) (timedOut : Bool)
  | writer (w : κ) (action : WriterAction)

/-- The step is one of waiter `i`. -/
def WaitLabel.isOf {ι κ : Type} [DecidableEq ι] (i : ι) : WaitLabel ι κ → Bool
  | waiter j _ => j = i
  | writer _ _ => false

/-- The step is one of a waiter whose time is up. -/
def WaitLabel.timesOut {ι κ : Type} : WaitLabel ι κ → Bool
  | waiter _ timedOut => timedOut
  | writer _ _ => false

/-- The store, its notifier, and where all threads are. `delivered` is what was notified so far. -/
structure EventWaits (ι κ : Type) where
  store : AgentStore AgentDb Unit PyException TaskEventRecord
  owner : Option κ
  versions : TaskId → ℕ
  delivered : List TaskEventRecord
  waiters : ι → WaiterPhase
  writers : κ → WriterPhase

namespace EventWaits
open MainAgentStore AgentStore

variable {ι κ : Type} [DecidableEq ι] [DecidableEq κ]

def opened (db : AgentDb) : EventWaits ι κ where
  store := .opened db
  owner := none
  versions := fun _ => 0
  delivered := []
  waiters := fun _ => .called
  writers := fun _ => .running

section Waiters

def goto (s : EventWaits ι κ) (i : ι) (phase : WaiterPhase) : EventWaits ι κ :=
  {s with waiters := Function.update s.waiters i phase}

/-- What a query finds. -/
def list (s : EventWaits ι κ) (call : WaitCall) : List TaskEventRecord :=
  listTaskEvents s.store.conn.database call.taskId call.afterEventId

/-- A step of `wait_for_task_events`. A query needs the lock of the store. -/
def waiterStep (call : WaitCall) (s : EventWaits ι κ) (i : ι) (timedOut : Bool) :
    Option (EventWaits ι κ) :=
  match s.waiters i with
  | .called =>
    if s.owner.isSome then none
    else if (s.store.conn.database.tasks.get call.taskId).isNone then some (s.goto i .failed)
    else some (s.goto i .known)
  | .known =>
    if s.owner.isSome then none
    else if s.list call ≠ [] ∨ timedOut then some (s.goto i (.returned (s.list call)))
    else some (s.goto i .unobserved)
  | .unobserved => some (s.goto i (.looking (s.versions call.taskId)))
  | .looking version =>
    if s.owner.isSome then none
    else if s.list call ≠ [] then some (s.goto i (.returned (s.list call)))
    else if timedOut then some (s.goto i (.returned []))
    else some (s.goto i (.waiting version))
  | .waiting version =>
    if s.versions call.taskId ≤ version then some (s.goto i (.parked version))
    else some (s.goto i (.looking (s.versions call.taskId)))
  | .parked _ => if timedOut then some (s.goto i .woken) else none
  | .woken => some (s.goto i (.looking (s.versions call.taskId)))
  | .returned _ | .failed => none

end Waiters

section Writers

def become (s : EventWaits ι κ) (w : κ) (phase : WriterPhase) : EventWaits ι κ :=
  {s with writers := Function.update s.writers w phase}

/-- A statement of `w`: outside of all scopes it commits, and that may fail. -/
def statement (s : EventWaits ι κ) (w : κ) (f : AgentDb → AgentDb) (commitFails : Bool)
    (phase : WriterPhase) : Option (EventWaits ι κ) :=
  if s.owner = some w then some ({s with store := s.store.note (.wrote f)}.become w phase)
  else if s.owner.isSome then none
  else if commitFails then some ({s with store := s.store.note (.wrote f)}.become w .running)
  else some ({s with store := (s.store.note (.wrote f)).note .committed}.become w phase)

/-- The outermost scope commits or rolls back, and gives the lock back. -/
def close (s : EventWaits ι κ) (w : κ) : ScopeExit → EventWaits ι κ
  | .committed =>
    {s with
      store := (s.store.note .committed).leave true
      owner := none}.become w (.notifying (s.store.afterCommitCallbacks.map Prod.fst))
  | .raised | .commitFailed =>
    {s with
      store := (s.store.note .rolledBack).leave true
      owner := none}

/-- `notify`: every thread in the condition wakes up, whatever task it waits for. -/
def notify (s : EventWaits ι κ) (event : TaskEventRecord) : EventWaits ι κ :=
  {s with
    versions := Function.update s.versions event.taskId (s.versions event.taskId+1)
    delivered := s.delivered ++ [event]
    waiters := fun i => (s.waiters i).notified}

def insertedEvent (db : AgentDb) (taskId : TaskId) (type : String) (status : Option TaskStatus)
    (lifecycleRevision : ℕ) (payload : Json) : TaskEventRecord :=
  ⟨db.nextEventId,taskId,type,status,lifecycleRevision,payload⟩

/-- A step of a thread that appends events. -/
def writerStep (s : EventWaits ι κ) (w : κ) (action : WriterAction) : Option (EventWaits ι κ) :=
  match s.writers w,action with
  | .running,.enter =>
    if s.owner = none ∨ s.owner = some w then
      some {s with store := s.store.enter,owner := some w}
    else none
  | .running,.append taskId type status lifecycleRevision payload commitFails =>
    s.statement w (written (insertTaskEvent taskId type status lifecycleRevision payload).run)
      commitFails (.appended (insertedEvent s.store.conn.database taskId type status
        lifecycleRevision payload))
  | .appended event,.register =>
    if s.owner = some w then
      some ({s with store := {s.store with
        afterCommitCallbacks := s.store.afterCommitCallbacks ++ [(event,Program.perform event)]}}.become w
          .running)
    else if s.owner.isSome then none
    else some (s.become w (.notifying [event]))
  | .appended _,.abandon => some (s.become w .running)
  | .running,.execute statement commitFails =>
    s.statement w statement.run commitFails .running
  | .running,.deleteTaskEvents taskId =>
    if s.owner = some w then
      s.statement w (fun db => {db with
        taskEvents := db.taskEvents.filter fun e => e.taskId ≠ taskId}) false .running
    else none
  | .running,.leave exit =>
    if s.owner ≠ some w then none
    else if s.store.transactionDepth = 1 then some (s.close w exit)
    else some {s with store := s.store.leave false}
  | .notifying [],.notify => some (s.become w .running)
  | .notifying (event::events),.notify => some ((s.notify event).become w (.notifying events))
  | .notifying _,.interrupt => some (s.become w .running)
  | _,_ => none

end Writers

def step (call : ι → WaitCall) : WaitLabel ι κ → EventWaits ι κ → Option (EventWaits ι κ)
  | .waiter i timedOut,s => s.waiterStep (call i) i timedOut
  | .writer w action,s => s.writerStep w action

end EventWaits

/-! What happens to the table of events, as the connection has it and as it is durable. -/

/-- Events have ascending numbers, below the next one. -/
structure EventsNumbered (db : AgentDb) : Prop where
  ids : db.taskEvents.Pairwise fun e f => e.eventId < f.eventId
  below : ∀ e ∈ db.taskEvents, e.eventId < db.nextEventId

/-- What a statement does to the table of events. -/
inductive EventWrite (db db' : AgentDb) : Prop where
  | kept (hrows : db'.taskEvents = db.taskEvents) (hnext : db'.nextEventId = db.nextEventId)
  | inserted (event : TaskEventRecord) (hid : event.eventId = db.nextEventId)
      (hrows : db'.taskEvents = db.taskEvents ++ [event])
      (hnext : db'.nextEventId = db.nextEventId+1)
  | deleted (keep : TaskEventRecord → Bool) (hrows : db'.taskEvents = db.taskEvents.filter keep)
      (hnext : db'.nextEventId = db.nextEventId)

inductive ConnStep (c : StoreConnection AgentDb) : StoreConnection AgentDb → Prop where
  | wrote {db : AgentDb} (h : EventWrite c.database db) : ConnStep c ⟨db,c.durable⟩
  | committed : ConnStep c ⟨c.database,c.database⟩
  | rolledBack : ConnStep c ⟨c.durable,c.durable⟩

structure ConnNumbered (c : StoreConnection AgentDb) : Prop where
  database : EventsNumbered c.database
  durable : EventsNumbered c.durable
  le : c.durable.nextEventId ≤ c.database.nextEventId

/-- The event was committed and deleted, or it will never be committed: its number is taken. -/
structure Gone (c : StoreConnection AgentDb) (e : TaskEventRecord) : Prop where
  below : e.eventId < c.durable.nextEventId
  durable : e ∉ c.durable.taskEvents
  database : e ∉ c.database.taskEvents

section Connection

variable {db db' : AgentDb} {c c' : StoreConnection AgentDb} {e : TaskEventRecord}

theorem EventWrite.next_le (h : EventWrite db db') : db.nextEventId ≤ db'.nextEventId := by
  cases h with
  | kept hrows hnext | deleted keep hrows hnext => exact hnext.ge
  | inserted event hid hrows hnext =>
    rw [hnext]
    exact Nat.le_succ _

theorem EventsNumbered.write (hdb : EventsNumbered db) (h : EventWrite db db') :
    EventsNumbered db' := by
  cases h with
  | kept hrows hnext => exact ⟨hrows ▸ hdb.ids,by rw [hrows,hnext]; exact hdb.below⟩
  | inserted event hid hrows hnext =>
    constructor
    · rw [hrows]
      exact pairwise_snoc hdb.ids fun x hx => hid ▸ hdb.below x hx
    · intro x hx
      rw [hrows,List.mem_append,List.mem_singleton] at hx
      rw [hnext]
      rcases hx with hx | rfl
      · exact Nat.lt_succ_of_lt (hdb.below x hx)
      · rw [hid]
        exact Nat.lt_succ_self _
  | deleted keep hrows hnext =>
    constructor
    · rw [hrows]
      exact hdb.ids.sublist List.filter_sublist
    · intro x hx
      rw [hrows] at hx
      rw [hnext]
      exact hdb.below x (List.mem_filter.mp hx).1

/-- A number that is taken is not given to a new event. -/
theorem EventWrite.not_mem (h : EventWrite db db') (hlt : e.eventId < db.nextEventId)
    (he : e ∉ db.taskEvents) : e ∉ db'.taskEvents := by
  cases h with
  | kept hrows hnext => rwa [hrows]
  | inserted event hid hrows hnext =>
    rw [hrows,List.mem_append,List.mem_singleton]
    rintro (h | rfl)
    · exact he h
    · exact hlt.ne hid
  | deleted keep hrows hnext =>
    rw [hrows]
    exact fun h => he (List.mem_filter.mp h).1

theorem ConnNumbered.step (hc : ConnNumbered c) (h : ConnStep c c') : ConnNumbered c' := by
  cases h with
  | wrote h => exact ⟨hc.database.write h,hc.durable,hc.le.trans h.next_le⟩
  | committed => exact ⟨hc.database,hc.database,le_rfl⟩
  | rolledBack => exact ⟨hc.durable,hc.durable,le_rfl⟩

theorem ConnStep.next_le (hc : ConnNumbered c) (h : ConnStep c c') :
    c.durable.nextEventId ≤ c'.durable.nextEventId := by
  cases h with
  | wrote | rolledBack => exact le_rfl
  | committed => exact hc.le

theorem Gone.step (he : Gone c e) (hc : ConnNumbered c) (h : ConnStep c c') : Gone c' e := by
  cases h with
  | wrote h =>
    exact ⟨he.below,he.durable,h.not_mem (he.below.trans_le hc.le) he.database⟩
  | committed => exact ⟨he.below.trans_le hc.le,he.database,he.database⟩
  | rolledBack => exact ⟨he.below,he.durable,he.durable⟩

/-- A committed event is lost by a commit only, and then for good. -/
theorem ConnStep.durable_or_gone (h : ConnStep c c') (hc : ConnNumbered c)
    (he : e ∈ c.durable.taskEvents) : e ∈ c'.durable.taskEvents ∨ Gone c' e := by
  cases h with
  | wrote | rolledBack => exact .inl he
  | committed =>
    by_cases hdb : e ∈ c.database.taskEvents
    · exact .inl hdb
    · exact .inr ⟨(hc.durable.below e he).trans_le hc.le,hdb,hdb⟩

abbrev ConnSteps := Relation.ReflTransGen ConnStep

theorem ConnNumbered.steps (hc : ConnNumbered c) (h : ConnSteps c c') : ConnNumbered c' := by
  induction h with
  | refl => exact hc
  | tail _ h ih => exact ih.step h

theorem ConnSteps.next_le (hc : ConnNumbered c) (h : ConnSteps c c') :
    c.durable.nextEventId ≤ c'.durable.nextEventId := by
  induction h with
  | refl => exact le_rfl
  | tail hs h ih => exact ih.trans (h.next_le (hc.steps hs))

theorem Gone.steps (he : Gone c e) (hc : ConnNumbered c) (h : ConnSteps c c') : Gone c' e := by
  induction h with
  | refl => exact he
  | tail hs h ih => exact ih.step (hc.steps hs) h

/-- What is durable before and after was durable in between. -/
theorem ConnSteps.durable_between {c₁ : StoreConnection AgentDb} (h : ConnSteps c c₁)
    (h' : ConnSteps c₁ c') (hc : ConnNumbered c) (he : e ∈ c.durable.taskEvents)
    (he' : e ∈ c'.durable.taskEvents) : e ∈ c₁.durable.taskEvents := by
  have hkept : e ∈ c₁.durable.taskEvents ∨ Gone c₁ e := by
    clear h'
    induction h with
    | refl => exact .inl he
    | tail hs h ih =>
      rcases ih with ih | ih
      · exact h.durable_or_gone (hc.steps hs) ih
      · exact .inr (ih.step (hc.steps hs) h)
  rcases hkept with hkept | hgone
  · exact hkept
  · exact absurd he' (hgone.steps (hc.steps h) h').durable

end Connection
end VermayAgent
