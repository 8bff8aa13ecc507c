import VermayAgent.ContextOwnership

/-! The deletion of contexts.
`delete_context` reads the tasks of its context before its transaction opens. The callers share one
store, whose lock makes each read and each transaction one step; between two steps of a deletion the
others may commit anything, and other deletions may be under way. -/
namespace VermayAgent
open Library Txn MainAgentStore MainAgentCore

def PyException.contextDeletionConflict (contextId reason : String) : PyException :=
  .agentError ⟨"resource_conflict","cannot delete context " ++ contextId ++ ": " ++ reason,409,
    "Context has work that must finish or be canceled before deletion.",false⟩

structure DeleteContextResult where
  contextId : ContextId
  deletedMessages : Nat
  deletedTasks : Nat
  deletedTaskEvents : Nat
  deletedArtifacts : Nat
  deletedRouteDecisions : Nat
deriving DecidableEq

/-- `list_context_tasks`. -/
def AgentDb.contextTasks (db : AgentDb) (c : ContextId) : List TaskRecord :=
  db.tasks.rows.filter fun r => r.contextId = c

def AgentDb.contextTaskIds (db : AgentDb) (c : ContextId) : List TaskId :=
  (db.contextTasks c).map (·.taskId)

def AgentDb.contextMessageIds (db : AgentDb) (c : ContextId) : List MessageId :=
  (db.messages.rows.filter fun r => r.contextId = c).map (·.messageId)

/-- The counts of the deleted rows; no statement deletes a row that another one counts. -/
def AgentDb.deletionResult (db : AgentDb) (c : ContextId) (taskIds : List TaskId) :
    DeleteContextResult where
  contextId := c
  deletedMessages := (db.messages.rows.filter fun r => r.contextId = c).length
  deletedTasks := (db.contextTasks c).length
  deletedTaskEvents := (db.taskEvents.filter fun e => e.taskId ∈ taskIds).length
  deletedArtifacts := (db.artifacts.rows.filter fun r => r.contextId = c).length
  deletedRouteDecisions := (db.routeDecisions.rows.filter fun r => r.contextId = c).length

/-- What a call of `delete_context` does next. -/
inductive ContextDeletion where
  | getContext (c : ContextId) (force : Bool)
  | listContextTasks (c : ContextId) (force : Bool)
  | discardCheckpoints (c : ContextId) (tasks : List TaskRecord)
  | deleteTerminalContext (c : ContextId)
  | deleteRows (c : ContextId) (taskIds : List TaskId)

inductive DeletionAnswer where
  | absent
  | deleted (result : DeleteContextResult)
  | raised (error : PyException)
deriving DecidableEq

/-- The writes of the others. -/
inductive ContextWrite where
  | agent (a : {a : AgentTxn // ∀ c listed, a ≠ .deleteTerminalContext c listed})
  | createContext (c : ContextId) (title : Option String) (metadata : Json)
  /-- The acceptance of `_handle_local_task` where no local runner is configured. -/
  | acceptLocalTask (c : ContextId) (inputMessageId : MessageId) (route : MainAgentRouteDecision)
      (newDecisionId : String) (newTaskId : TaskId) (newThreadId : ThreadId)

namespace ContextWrite

variable (core : CoreEnv) (env : LedgerEnv)

def txn : ContextWrite → StoreTxn Unit
  | agent a => a.1.txn core env
  | createContext c title metadata =>
    (fun _ => ()) <$> MainAgentStore.createContext c title metadata
  | acceptLocalTask c m route decisionId taskId threadId =>
    (fun _ => ()) <$> acceptLocalTaskFromMessage ⟨route.record decisionId c m,taskId,threadId,false,
      none,1⟩

def creates (t : TaskId) : ContextWrite → Bool
  | agent a => a.1.is (CoreTxn.creates t)
  | createContext _ _ _ => false
  | acceptLocalTask _ _ _ _ taskId _ => taskId = t

/-- An answer to a message goes to the context that the message was received in. -/
def AnswersIn (db : AgentDb) : ContextWrite → Prop
  | agent ⟨.core x,_⟩ => x.AnswersIn db
  | _ => True

end ContextWrite

/-- The store with the states that were committed before, the deletions under way and the answers of
those that ended. -/
structure DeletionStore where
  db : AgentDb
  past : List AgentDb
  calls : Nat → Option ContextDeletion
  answers : List (Nat × DeletionAnswer)

namespace DeletionStore

def start (db : AgentDb) : DeletionStore := ⟨db,[],fun _ => none,[]⟩

def setCall (i : Nat) (next : ContextDeletion) (s : DeletionStore) : DeletionStore :=
  {s with calls := Function.update s.calls i (some next)}

def answer (i : Nat) (a : DeletionAnswer) (s : DeletionStore) : DeletionStore :=
  {s with
    calls := Function.update s.calls i none
    answers := (i,a)::s.answers}

def commit (db : AgentDb) (s : DeletionStore) : DeletionStore := {s with db, past := s.db::s.past}

def committed (s : DeletionStore) : List AgentDb := s.db::s.past

/-- A task of this id is or was stored. -/
def Used (s : DeletionStore) (t : TaskId) : Prop :=
  ∃ db ∈ s.committed, (db.tasks.get t).isSome = true

/-- One step of a deletion. Outside of the store it asks which tasks have a live callback, and what
the discard of a thread's checkpoint raises. -/
def proceed (i : Nat) (live : TaskId → Bool) (discard : ThreadId → Option PyException)
    (s : DeletionStore) : ContextDeletion → DeletionStore
  | .getContext c force =>
    match s.db.contexts.get c with
    | none => s.answer i .absent
    | some _ => s.setCall i (.listContextTasks c force)
  | .listContextTasks c force =>
    let tasks := s.db.contextTasks c
    if ∃ task ∈ tasks, isTerminalTaskStatus task.status = false then
      s.answer i (.raised (.contextDeletionConflict c ("active local or remote tasks exist" ++
        if force then "; force cannot delete live processes" else "")))
    else s.setCall i (.discardCheckpoints c tasks)
  | .discardCheckpoints c tasks =>
    if ∃ task ∈ tasks, live task.taskId = true then
      s.answer i (.raised (.contextDeletionConflict c
        "terminal tasks still have a live worker callback"))
    else
      match (tasks.filter fun task => task.assignedAgentId = none).findSome?
          fun task => discard task.runtimeThreadId with
      | some error => s.answer i (.raised error)
      | none => s.setCall i (.deleteTerminalContext c)
  | .deleteTerminalContext c =>
    let tasks := s.db.contextTasks c
    if ∃ task ∈ tasks, isTerminalTaskStatus task.status = false then
      s.answer i (.raised (.valueError ("context has non-terminal tasks: " ++ c)))
    else s.setCall i (.deleteRows c (s.db.contextTaskIds c))
  | .deleteRows c taskIds =>
    match (deleteContextRows c taskIds).run s.db with
    | .ok (_,db) => (s.commit db).answer i (.deleted (s.db.deletionResult c taskIds))
    | .error error => s.answer i (.raised error)

end DeletionStore

inductive DeletionStep where
  | write (x : ContextWrite)
  | deleteContext (i : Nat) (c : ContextId) (force : Bool)
  | proceed (i : Nat) (live : TaskId → Bool) (discard : ThreadId → Option PyException)

namespace DeletionStep

variable (core : CoreEnv) (env : LedgerEnv)

def step : DeletionStep → DeletionStore → Option DeletionStore
  | write x, s => some (s.commit ((x.txn core env).commit s.db))
  | deleteContext i c force, s =>
    if (s.calls i).isSome then none else some (s.setCall i (.getContext c force))
  | proceed i live discard, s => (s.calls i).map (s.proceed i live discard)

/-- The id of a new task is drawn, and no task has had it before. -/
def Proper : DeletionStep → DeletionStore → Prop
  | write x, s => (∀ t, x.creates t = true → ¬ s.Used t) ∧ x.AnswersIn s.db
  | _, _ => True

end DeletionStep

section Writes

variable {core : CoreEnv} {env : LedgerEnv} {A : WriteScope} {db db' : AgentDb} {t : TaskId}
  {r : TaskRecord}

theorem snapshot_terminal {current target : TaskStatus}
    (hended : isTerminalTaskStatus current = true)
    (haccepts : acceptsRemoteProxySnapshot current target = true) :
    isTerminalTaskStatus target = true := by
  revert hended haccepts
  cases current <;> cases target <;> decide

/-- No event leads out of a terminal status. -/
theorem RowEvent.terminal {rows : Rows} {e : RowEvent} {head : TaskHead} (hen : e.Enabled rows t)
    (hhead : (rows t).task = some head) (hended : isTerminalTaskStatus head.status = true) :
    ∃ head', (e.apply (rows t)).task = some head' ∧ isTerminalTaskStatus head'.status = true := by
  have hlive : ∀ {head'}, (rows t).task = some head' → isTerminalTaskStatus head'.status = false →
      False := by
    intro head' hhead' hopen
    cases hhead.symm.trans hhead'
    rw [hended] at hopen
    cases hopen
  cases e with
  | accepted head' row =>
    rw [hen.1.1] at hhead
    cases hhead
  | delegated head' =>
    rw [hen.1.1] at hhead
    cases hhead
  | synced status =>
    obtain ⟨_,head',hhead',haccepts⟩ := hen
    cases hhead.symm.trans hhead'
    exact ⟨{head with status},by simp [apply,TaskRows.setStatus,hhead],
      snapshot_terminal hended haccepts⟩
  | claimed =>
    obtain ⟨head',_,hhead',_,hqueued,_⟩ := hen
    exact (hlive hhead' (by rw [hqueued]; rfl)).elim
  | interrupted status kind =>
    obtain ⟨head',hhead',_,hstatus,hwaits⟩ := hen
    refine (hlive hhead' ?_).elim
    rcases hstatus with hstatus | hstatus
    · rcases hwaits with ⟨rfl,_⟩ | ⟨rfl,_⟩ <;> rw [hstatus] <;> rfl
    · rw [hstatus]
      rfl
  | resumed kind row =>
    obtain ⟨head',hhead',_,hstatus,_⟩ := hen
    refine (hlive hhead' ?_).elim
    rcases hstatus with hstatus | hstatus <;> rw [hstatus] <;> rfl
  | cancelRequested =>
    obtain ⟨head',hhead',_,hstatus⟩ := hen
    exact (hlive hhead' (by rw [hstatus]; rfl)).elim
  | ended status =>
    obtain ⟨head',hhead',_,hopen,_⟩ := hen
    exact (hlive hhead' hopen).elim

theorem RowsMove.terminal {E : TaskId → RowEvent → Prop} (h : RowsMove E db.rows db'.rows)
    (hr : db.tasks.get t = some r) (hended : isTerminalTaskStatus r.status = true) :
    ∃ r', db'.tasks.get t = some r' ∧ isTerminalTaskStatus r'.status = true := by
  have hhead : ∃ head, (db'.rows t).task = some head ∧ isTerminalTaskStatus head.status = true := by
    rcases h with h | ⟨t',e,_,hen,hrows⟩
    · rw [h]
      exact ⟨_,rows_task_of_get hr,hended⟩
    · rw [hrows]
      by_cases ht : t = t'
      · subst ht
        rw [Rows.modify_self]
        exact RowEvent.terminal hen (rows_task_of_get hr) hended
      · rw [Rows.modify_of_ne ht]
        exact ⟨_,rows_task_of_get hr,hended⟩
  obtain ⟨head,hhead,hended⟩ := hhead
  obtain ⟨r',hr',rfl⟩ := Option.map_eq_some_iff.mp hhead
  exact ⟨r',hr',hended⟩

/-- Outside of deletions, events are appended only. -/
theorem StoreWrite.taskEvents (hw : StoreWrite A db db') (hkept : ∀ c, ¬ A.deletes c) :
    db.taskEvents ⊆ db'.taskEvents := by
  cases hw with
  | event e => exact List.subset_append_left _ _
  | deletion _ hdeletes => exact (hkept _ hdeletes).elim
  | _ => exact List.Subset.refl _

theorem StoreWrite.absent (hw : StoreWrite A db db') (hcreates : ¬ A.creates t)
    (hnone : db.tasks.get t = none) : db'.tasks.get t = none := by
  cases hw with
  | @task tasks r hcreates' _ _ _ _ _ _ hinsert =>
    have hne : r.taskId ≠ t := fun heq => hcreates (heq ▸ hcreates')
    exact (Table.get_insert? hinsert t).trans (by rw [if_neg hne,hnone])
  | progress t' => simp only [Table.get_update,hnone,Option.map_none]
  | output => simp only [Table.get_update,hnone,Option.map_none]
  | deletion taskIds _ hrun =>
    rw [deleteContextRows_ok hrun]
    simp [Table.get_delete,hnone]
  | _ => exact hnone

/-- The tasks and events that a write leaves: ended tasks have ended, and a new task is noted. -/
structure Continues (creates : TaskId → Prop) (db db' : AgentDb) : Prop where
  kept : ∀ t r, db.tasks.get t = some r → ∃ r', db'.tasks.get t = some r' ∧
    r'.contextId = r.contextId ∧
    (isTerminalTaskStatus r.status = true → isTerminalTaskStatus r'.status = true)
  fresh : ∀ t, db.tasks.get t = none → (db'.tasks.get t).isSome = true →
    creates t ∧ ∃ e ∈ db'.taskEvents, e.taskId = t
  events : db.taskEvents ⊆ db'.taskEvents

theorem Continues.refl (creates : TaskId → Prop) (db : AgentDb) : Continues creates db db := by
  refine ⟨fun _ r hr => ⟨r,hr,rfl,id⟩,fun t hnone hsome => ?_,List.Subset.refl _⟩
  rw [hnone] at hsome
  cases hsome

/-- What the steps of a write and its lifecycle events say together. -/
theorem Continues.of_writes (hw : Relation.ReflTransGen (StoreWrite A) db db')
    (hkept : ∀ c, ¬ A.deletes c)
    (hended : ∀ t r, db.tasks.get t = some r → isTerminalTaskStatus r.status = true →
      ∃ r', db'.tasks.get t = some r' ∧ isTerminalTaskStatus r'.status = true)
    (hnew : ∀ t, A.creates t → db.tasks.get t = none → (db'.tasks.get t).isSome = true →
      ∃ e ∈ db'.taskEvents, e.taskId = t) : Continues A.creates db db' := by
  refine ⟨fun t r hr => ?_,fun t hnone hsome => ?_,?_⟩
  · have horigin : ∃ r', db'.tasks.get t = some r' ∧ r'.origin = r.origin :=
      reflTransGen_invariant (I := fun db => ∃ r', db.tasks.get t = some r' ∧ r'.origin = r.origin)
        (fun _ _ hs ⟨r₁,hr₁,h₁⟩ => by
          obtain ⟨r₂,hr₂,h₂⟩ := hs.origin hr₁ (hkept _)
          exact ⟨r₂,hr₂,h₂.trans h₁⟩) hw ⟨r,hr,rfl⟩
    obtain ⟨r',hr',horigin⟩ := horigin
    refine ⟨r',hr',congrArg TaskOrigin.contextId horigin,fun hend => ?_⟩
    obtain ⟨r'',hr'',hend⟩ := hended t r hr hend
    cases hr'.symm.trans hr''
    exact hend
  · have hcreates : A.creates t := by
      by_contra hcreates
      have habsent : db'.tasks.get t = none :=
        reflTransGen_invariant (I := fun db => db.tasks.get t = none)
          (fun _ _ hs h => hs.absent hcreates h) hw hnone
      rw [habsent] at hsome
      cases hsome
    exact ⟨hcreates,hnew t hcreates hnone hsome⟩
  · exact reflTransGen_invariant (I := fun db₁ => db.taskEvents ⊆ db₁.taskEvents)
      (fun _ _ hs h => List.Subset.trans h (hs.taskEvents hkept)) hw (List.Subset.refl _)

/-- A task that appears in the history of the lifecycle has an event. -/
theorem noted_of_history {allow : TaskId → LifecycleHead → TaskStatus → Prop}
    (hm : HistoryMoves allow db.history db'.history) (hnone : db.tasks.get t = none)
    (hsome : (db'.tasks.get t).isSome = true) : ∃ e ∈ db'.taskEvents, e.taskId = t := by
  obtain ⟨r,hr⟩ := Option.isSome_iff_exists.mp hsome
  have hlog := hm.logged (t := t) (by simp [AgentDb.history,hnone])
  rcases hlog with hnone | hevents
  · simp [AgentDb.history,hr] at hnone
  · obtain ⟨e,he⟩ := List.exists_mem_of_ne_nil _ hevents
    obtain ⟨he,ht⟩ := List.mem_filter.mp he
    exact ⟨e,he,of_decide_eq_true ht⟩

theorem CoreTxn.continues {x : CoreTxn} {a : Option PostCommitAction}
    (h : (x.txn core env).run db = .ok (a,db')) :
    Continues (fun t => x.creates t = true) db db' := by
  refine Continues.of_writes (A := x.scope) ((x.writes core env).run h) (fun _ => id)
    (fun t r hr hend => (txn_rows core env h).terminal hr hend) fun t hcreates hnone hsome => ?_
  have hcreates : x.creates t = true := hcreates
  cases x with
  | acceptLocalTask =>
    obtain ⟨_,h,_⟩ := (map_ok _ _).mp h
    exact noted_of_history (acceptLocalTaskFromMessage_history h) hnone hsome
  | retryTask =>
    obtain ⟨_,h,_⟩ := (map_ok _ _).mp h
    exact noted_of_history (acceptRetry_history h) hnone hsome
  | completeRemoteTask =>
    obtain ⟨_,h,_⟩ := (map_ok _ _).mp h
    exact noted_of_history (completeRemoteTask_history h) hnone hsome
  | _ => cases hcreates

theorem Continues.of_tables {creates : TaskId → Prop} (htasks : db'.tasks = db.tasks)
    (hevents : db'.taskEvents = db.taskEvents) : Continues creates db db' := by
  refine ⟨fun t r hr => ⟨r,htasks ▸ hr,rfl,id⟩,fun t hnone hsome => ?_,
    hevents ▸ List.Subset.refl _⟩
  rw [htasks,hnone] at hsome
  cases hsome

/-- An acceptance leaves all other tasks as they are. -/
theorem acceptLocalTaskFromMessage_continues {a : LocalTaskAcceptance}
    {result : RouteDecisionRecord × TaskRecord}
    (h : (acceptLocalTaskFromMessage a).run db = .ok (result,db')) :
    Continues (fun t => a.taskId = t) db db' := by
  obtain ⟨hnew,_,_,_,hothers⟩ := acceptLocalTaskFromMessage_task h
  let A : WriteScope := ⟨fun t => a.taskId = t,fun _ => True,fun _ _ => False,fun _ => False⟩
  have hwrites : StoreWrites A (acceptLocalTaskFromMessage a) :=
    StoreWrites.acceptLocalTaskFromMessage rfl fun _ => trivial
  refine Continues.of_writes (A := A) (hwrites.run h) (fun _ => id) (fun t r hr hend => ?_)
    fun t _ hnone hsome => noted_of_history (acceptLocalTaskFromMessage_history h) hnone hsome
  refine ⟨r,?_,hend⟩
  rw [hothers t fun heq => ?_,hr]
  rw [heq,hnew] at hr
  cases hr

theorem updateContextTitle_keeps {γ : Type} {v : AgentDb → γ}
    (hv : ∀ db c title, v {db with contexts := (
      db.contexts.update (fun r => r.contextId = c) fun r => {r with title})} = v db)
    (c : ContextId) (title : Option String) : Keeps v (updateContextTitle c title) :=
  .bind (.write fun db => hv db c title) fun _ => .select _

theorem updateRegisteredAgentCard_keeps {γ : Type} {v : AgentDb → γ}
    (hv : ∀ db registeredAgents, v {db with registeredAgents} = v db) (agentId : AgentId)
    (cardJson : Json) : Keeps v (updateRegisteredAgentCard agentId cardJson) :=
  .bind (.write fun db => hv db _) fun _ => .select _

theorem ContextWrite.continues (x : ContextWrite) (db : AgentDb) :
    Continues (fun t => x.creates t = true) db ((x.txn core env).commit db) := by
  rcases commit_cases (x.txn core env) db with h | ⟨u,h⟩
  · rw [h]
    exact .refl _ db
  generalize (x.txn core env).commit db = db' at h
  have hkeeps : ∀ {α : Type} {y : StoreTxn α} {a : α}, Keeps AgentDb.tasks y →
      Keeps AgentDb.taskEvents y → y.run db = .ok (a,db') →
      Continues (fun t => x.creates t = true) db db' :=
    fun h₁ h₂ h => .of_tables (h₁ _ _ _ h) (h₂ _ _ _ h)
  cases x with
  | agent a =>
    obtain ⟨a,ha⟩ := a
    cases a with
    | core x =>
      obtain ⟨_,h,_⟩ := (map_ok _ _).mp h
      exact x.continues h
    | updateContextTitle =>
      obtain ⟨_,h,_⟩ := (map_ok _ _).mp h
      exact hkeeps (updateContextTitle_keeps (fun _ _ _ => rfl) _ _)
        (updateContextTitle_keeps (fun _ _ _ => rfl) _ _) h
    | updateRegisteredAgentCard =>
      obtain ⟨_,h,_⟩ := (map_ok _ _).mp h
      exact hkeeps (updateRegisteredAgentCard_keeps (fun _ _ => rfl) _ _)
        (updateRegisteredAgentCard_keeps (fun _ _ => rfl) _ _) h
    | deleteRegisteredAgent =>
      have hdb := (deleteUnreferenced_ok.mp h).2
      exact .of_tables (by rw [← hdb]) (by rw [← hdb])
    | deleteTerminalContext c listed => exact (ha c listed rfl).elim
  | createContext =>
    obtain ⟨_,h,_⟩ := (map_ok _ _).mp h
    exact hkeeps (createContext_keeps (fun _ _ => rfl) _ _ _)
      (createContext_keeps (fun _ _ => rfl) _ _ _) h
  | acceptLocalTask c m route decisionId taskId threadId =>
    obtain ⟨_,h,_⟩ := (map_ok _ _).mp h
    have hcontinues := acceptLocalTaskFromMessage_continues h
    exact ⟨hcontinues.kept,fun t hnone hsome => (hcontinues.fresh t hnone hsome).imp_left
      fun heq => decide_eq_true heq,hcontinues.events⟩

theorem ContextWrite.recordsTo {x : ContextWrite} (hanswers : x.AnswersIn db) :
    RecordsTo db ((x.txn core env).commit db) := by
  rcases commit_cases (x.txn core env) db with h | ⟨u,h⟩
  · rw [h]
  generalize (x.txn core env).commit db = db' at h
  cases x with
  | agent a =>
    obtain ⟨a,ha⟩ := a
    cases a with
    | core x =>
      obtain ⟨_,h,_⟩ := (map_ok _ _).mp h
      exact x.recordsTo core env hanswers h
    | updateContextTitle =>
      obtain ⟨_,h,_⟩ := (map_ok _ _).mp h
      rw [RecordsTo,updateContextTitle_keeps (v := AgentDb.messageRecords)
        (fun _ _ _ => messageRecords_updateContexts _ _ _) _ _ _ _ _ h]
    | updateRegisteredAgentCard =>
      obtain ⟨_,h,_⟩ := (map_ok _ _).mp h
      rw [RecordsTo,updateRegisteredAgentCard_keeps (v := AgentDb.messageRecords) (fun _ _ => rfl)
        _ _ _ _ _ h]
    | deleteRegisteredAgent =>
      rw [← (deleteUnreferenced_ok.mp h).2]
      exact .refl
    | deleteTerminalContext c listed => exact (ha c listed rfl).elim
  | createContext => exact (createContext_moves _ _).map _ _ _ _ h
  | acceptLocalTask =>
    obtain ⟨_,h,_⟩ := (map_ok _ _).mp h
    exact acceptLocalTaskFromMessage_recordsTo (fun t ht => by cases ht) h

end Writes

/-- No foreign key of a row refers to the context, to one of the messages or to one of the tasks. -/
structure AgentDb.Forgets (db : AgentDb) (c : ContextId) (ms : List MessageId) (ts : List TaskId) :
    Prop where
  contexts : db.contexts.get c = none
  messages : ∀ r ∈ db.messages.rows, r.contextId ≠ c ∧ r.messageId ∉ ms
  routeDecisions : ∀ r ∈ db.routeDecisions.rows, r.contextId ≠ c ∧ r.messageId ∉ ms
  tasks : ∀ r ∈ db.tasks.rows, r.contextId ≠ c ∧ r.taskId ∉ ts ∧ r.inputMessageId ∉ ms ∧
    ∀ m ∈ ms, r.outputMessageId ≠ some m
  taskEvents : ∀ e ∈ db.taskEvents, e.taskId ∉ ts
  artifacts : ∀ r ∈ db.artifacts.rows, r.contextId ≠ c ∧ r.taskId ∉ ts
  toolInvocations : ∀ r ∈ db.toolInvocations.rows, r.contextId ≠ c ∧ r.taskId ∉ ts
  pendingContinuations : ∀ r ∈ db.pendingContinuations.rows, r.taskId ∉ ts
  queuedExecutions : ∀ r ∈ db.queuedExecutions.rows, r.taskId ∉ ts
  messageIngress : ∀ r ∈ db.messageIngress.rows, r.contextId ≠ c ∧ r.messageId ∉ ms
  delegatedTasks : ∀ r ∈ db.delegatedTasks.rows, r.contextId ≠ c ∧ r.inputMessageId ∉ ms ∧
    ∀ t ∈ ts, r.localTaskId ≠ some t

/-- Neither does a column that is no foreign key. -/
structure AgentDb.NamesNone (db : AgentDb) (ms : List MessageId) (ts : List TaskId) : Prop where
  messages : ∀ r ∈ db.messages.rows, ∀ t ∈ ts, r.taskId ≠ some t
  retries : ∀ r ∈ db.tasks.rows, ∀ t ∈ ts, r.retryOfTaskId ≠ some t
  outcomes : ∀ i ∈ db.messageIngress.rows,
    (i.outcomeKind = some .message → ∀ m ∈ ms, i.outcomeId ≠ some m) ∧
    (i.outcomeKind = some .task → ∀ t ∈ ts, i.outcomeId ≠ some t)

section Deletion

variable {db db' : AgentDb} {c : ContextId} {taskIds : List TaskId} {t : TaskId} {u : Unit}

theorem mem_contextTaskIds : t ∈ db.contextTaskIds c ↔ ∃ r, db.tasks.get t = some r ∧ r.contextId = c := by
  simp only [AgentDb.contextTaskIds,AgentDb.contextTasks,List.mem_map,List.mem_filter,decide_eq_true_eq]
  constructor
  · rintro ⟨r,⟨hr,hc⟩,rfl⟩
    exact ⟨r,Table.get_of_mem hr,hc⟩
  · rintro ⟨r,hr,hc⟩
    exact ⟨r,⟨Table.mem_of_get hr,hc⟩,Table.key_of_get hr⟩

theorem mem_contextMessageIds {m : MessageId} :
    m ∈ db.contextMessageIds c ↔ ∃ r, db.messages.get m = some r ∧ r.contextId = c := by
  simp only [AgentDb.contextMessageIds,List.mem_map,List.mem_filter,decide_eq_true_eq]
  constructor
  · rintro ⟨r,⟨hr,hc⟩,rfl⟩
    exact ⟨r,Table.get_of_mem hr,hc⟩
  · rintro ⟨r,hr,hc⟩
    exact ⟨r,⟨Table.mem_of_get hr,hc⟩,Table.key_of_get hr⟩

/-- Each deletion is refused while a row refers to what it deletes. -/
theorem deleteContextRows_forgets (h : (deleteContextRows c taskIds).run db = .ok (u,db')) :
    db'.Forgets c (db.contextMessageIds c) (db.contextTaskIds c) := by
  simp only [deleteContextRows,deleteTaskRows,deleteTasks,deleteRouteDecisions,deleteMessages,
    deleteContextRow,bind_ok,run_write,deleteUnreferenced_ok,Except.ok.injEq,Prod.mk.injEq] at h
  obtain ⟨_,_,⟨_,rfl⟩,_,_,⟨htasks,rfl⟩,_,_,⟨_,rfl⟩,_,_,⟨hmessages,rfl⟩,hcontext,rfl⟩ := h
  have htasks := fun t (ht : t ∈ db.contextTaskIds c) => htasks t ht
  have hmessages := fun m (hm : m ∈ db.contextMessageIds c) => hmessages m hm
  have hcontext := hcontext c List.mem_cons_self
  simp only [List.mem_append,List.mem_map,List.mem_filterMap,not_or,not_exists,not_and]
    at htasks hmessages hcontext
  obtain ⟨⟨⟨⟨⟨⟨hc₁,hc₂⟩,hc₃⟩,hc₄⟩,hc₅⟩,hc₆⟩,hc₇⟩ := hcontext
  have hgone : ∀ r ∈ (db.tasks.delete fun r => decide (r.contextId = c)).rows,
      r.taskId ∉ db.contextTaskIds c := by
    intro r hr ht
    obtain ⟨hr,hne⟩ := List.mem_filter.mp hr
    obtain ⟨r',hr',hc⟩ := mem_contextTaskIds.mp ht
    rw [Table.get_of_mem hr] at hr'
    cases hr'
    simp [hc] at hne
  have hgone' : ∀ r ∈ (db.messages.delete fun r => decide (r.contextId = c)).rows,
      r.messageId ∉ db.contextMessageIds c := by
    intro r hr hm
    obtain ⟨hr,hne⟩ := List.mem_filter.mp hr
    obtain ⟨r',hr',hc⟩ := mem_contextMessageIds.mp hm
    rw [Table.get_of_mem hr] at hr'
    cases hr'
    simp [hc] at hne
  constructor
  · rw [Table.get_delete]
    cases hr : db.contexts.get c with
    | none => rfl
    | some r =>
      have hkey : r.contextId = c := Table.key_of_get hr
      simp [Option.filter,hkey]
  · exact fun r hr => ⟨hc₁ r hr,hgone' r hr⟩
  · exact fun r hr => ⟨hc₂ r hr,fun hm => (hmessages _ hm).1.1.1.1 r hr rfl⟩
  · exact fun r hr => ⟨hc₃ r hr,hgone r hr,fun hm => (hmessages _ hm).1.1.1.2 r hr rfl,
      fun m hm => (hmessages m hm).1.1.2 r hr⟩
  · exact fun e he ht => (htasks _ ht).1.1.1.1.1 e he rfl
  · exact fun r hr => ⟨hc₄ r hr,fun ht => (htasks _ ht).1.1.1.1.2 r hr rfl⟩
  · exact fun r hr => ⟨hc₇ r hr,fun ht => (htasks _ ht).1.2 r hr rfl⟩
  · exact fun r hr ht => (htasks _ ht).1.1.1.2 r hr rfl
  · exact fun r hr ht => (htasks _ ht).1.1.2 r hr rfl
  · exact fun r hr => ⟨hc₆ r hr,fun hm => (hmessages _ hm).1.2 r hr rfl⟩
  · exact fun r hr => ⟨hc₅ r hr,fun hm => (hmessages _ hm).2 r hr rfl,
      fun t ht => (htasks t ht).2 r hr⟩

/-- A task that goes with the context has no event beside the deleted ones. -/
theorem deleteContextRows_listed (h : (deleteContextRows c taskIds).run db = .ok (u,db'))
    (ht : t ∈ db.contextTaskIds c) {e : TaskEventRecord} (he : e ∈ db.taskEvents) (heq : e.taskId = t) :
    t ∈ taskIds := by
  by_contra hnot
  have hkept : e ∈ db'.taskEvents := by
    rw [deleteContextRows_ok h]
    exact List.mem_filter.mpr ⟨he,by simpa [heq] using hnot⟩
  exact (deleteContextRows_forgets h).taskEvents e hkept (heq ▸ ht)

theorem get_deleteContextRows (h : (deleteContextRows c taskIds).run db = .ok (u,db')) :
    db'.tasks.get t = (db.tasks.get t).filter fun r => !decide (r.contextId = c) := by
  rw [deleteContextRows_ok h,Table.get_delete]

/-- What is left refers to nothing in the context where all references stay within contexts. -/
theorem MessageRecords.Owned.namesNone (h : db.messageRecords.Owned)
    (hrun : (deleteContextRows c taskIds).run db = .ok (u,db')) :
    db'.NamesNone (db.contextMessageIds c) (db.contextTaskIds c) := by
  have hdb := deleteContextRows_ok hrun
  have htask : ∀ {t c'}, c' ≠ c → db.messageRecords.HasTask t c' → t ∉ db.contextTaskIds c := by
    rintro t c' hne ⟨o,ho,rfl,rfl⟩ ht
    obtain ⟨r,hr,rfl⟩ := List.mem_map.mp ho
    obtain ⟨r',hr',hc⟩ := mem_contextTaskIds.mp ht
    have hget : db.tasks.get r.taskId = some r := Table.get_of_mem hr
    cases hget.symm.trans hr'
    exact hne hc
  have hmessage : ∀ {m c'}, c' ≠ c → db.messageRecords.HasMessage m c' →
      m ∉ db.contextMessageIds c := by
    rintro m c' hne ⟨r,hr,rfl⟩ hm
    obtain ⟨r',hr',hc⟩ := mem_contextMessageIds.mp hm
    have hget : db.messages.get m = some r := hr
    cases hget.symm.trans hr'
    exact hne hc
  constructor
  · intro r hr t ht heq
    rw [hdb] at hr
    obtain ⟨hr,hne⟩ := List.mem_filter.mp hr
    exact htask (by simpa using hne) (h.messages r hr t heq) ht
  · intro r hr t ht heq
    rw [hdb] at hr
    obtain ⟨hr,hne⟩ := List.mem_filter.mp hr
    have hcontext : r.contextId ≠ c := by simpa using hne
    exact htask hcontext (h.retries r.origin (List.mem_map.mpr ⟨r,hr,rfl⟩) t heq) ht
  · intro i hi
    rw [hdb] at hi
    obtain ⟨hi,hne⟩ := List.mem_filter.mp hi
    have hne : i.contextId ≠ c := by simpa using hne
    exact ⟨fun hkind m hm heq => hmessage hne (h.outcomes i hi .message m hkind heq) hm,
      fun hkind t ht heq => htask hne (h.outcomes i hi .task t hkind heq) ht⟩

end Deletion

namespace DeletionStore

variable {s s' : DeletionStore} {db' : AgentDb} {c c' : ContextId} {taskIds taskIds' : List TaskId}
  {creates : TaskId → Prop} {t : TaskId}

/-- What the list that a deletion took still says when its transaction opens: the listed tasks are
the context's and have ended, and a task that was accepted since has an event. -/
structure Listed (s : DeletionStore) (c : ContextId) (taskIds : List TaskId) : Prop where
  used : ∀ t ∈ taskIds, s.Used t
  within : ∀ t r, t ∈ taskIds → s.db.tasks.get t = some r → r.contextId = c
  tasks : ∀ t r, s.db.tasks.get t = some r → r.contextId = c →
    isTerminalTaskStatus r.status = true ∧ t ∈ taskIds ∨
      t ∉ taskIds ∧ ∃ e ∈ s.db.taskEvents, e.taskId = t

theorem used_of_get {r : TaskRecord} (h : s.db.tasks.get t = some r) : s.Used t :=
  ⟨s.db,List.mem_cons_self,by rw [h]; rfl⟩

theorem used_commit (h : s.Used t) : (s.commit db').Used t := by
  obtain ⟨db,hdb,ht⟩ := h
  exact ⟨db,List.mem_cons_of_mem _ hdb,ht⟩

theorem Listed.of_same (h : s.Listed c taskIds) (hdb : s'.db = s.db) (hpast : s'.past = s.past) :
    s'.Listed c taskIds := by
  obtain ⟨hused,hwithin,htasks⟩ := h
  have hcommitted : s'.committed = s.committed := by rw [committed,hdb,hpast,committed]
  refine ⟨fun t ht => ?_,by rwa [hdb],by rwa [hdb]⟩
  rw [Used,hcommitted]
  exact hused t ht

theorem listed_now (hended : ∀ r ∈ s.db.contextTasks c, isTerminalTaskStatus r.status = true) :
    s.Listed c (s.db.contextTaskIds c) := by
  refine ⟨fun t ht => ?_,fun t r ht hr => ?_,fun t r hr hc => ?_⟩
  · obtain ⟨r,hr,_⟩ := mem_contextTaskIds.mp ht
    exact used_of_get hr
  · obtain ⟨r',hr',hc⟩ := mem_contextTaskIds.mp ht
    cases hr.symm.trans hr'
    exact hc
  · refine .inl ⟨hended r ?_,mem_contextTaskIds.mpr ⟨r,hr,hc⟩⟩
    exact List.mem_filter.mpr ⟨Table.mem_of_get hr,decide_eq_true hc⟩

/-- A write of the others: a new task is none of the listed ones. -/
theorem Listed.write (h : s.Listed c taskIds) (hc : Continues creates s.db db')
    (hfresh : ∀ t, creates t → ¬ s.Used t) : (s.commit db').Listed c taskIds := by
  have horigin : ∀ t r', db'.tasks.get t = some r' →
      (∃ r, s.db.tasks.get t = some r ∧ r'.contextId = r.contextId ∧
        (isTerminalTaskStatus r.status = true → isTerminalTaskStatus r'.status = true)) ∨
      t ∉ taskIds ∧ ∃ e ∈ db'.taskEvents, e.taskId = t := by
    intro t r' hr'
    cases hr : s.db.tasks.get t with
    | some r =>
      obtain ⟨r'',hr'',hkept⟩ := hc.kept t r hr
      cases hr'.symm.trans hr''
      exact .inl ⟨r,rfl,hkept⟩
    | none =>
      obtain ⟨hcreates,hevent⟩ := hc.fresh t hr (by rw [hr']; rfl)
      exact .inr ⟨fun ht => hfresh t hcreates (h.used t ht),hevent⟩
  refine ⟨fun t ht => used_commit (h.used t ht),fun t r' ht hr' => ?_,fun t r' hr' hc' => ?_⟩
  · rcases horigin t r' hr' with ⟨r,hr,hcontext,_⟩ | ⟨hnot,_⟩
    · rw [hcontext]
      exact h.within t r ht hr
    · exact (hnot ht).elim
  · rcases horigin t r' hr' with ⟨r,hr,hcontext,hended⟩ | hnew
    · rcases h.tasks t r hr (hcontext ▸ hc') with ⟨hend,ht⟩ | ⟨hnot,e,he,heq⟩
      · exact .inl ⟨hended hend,ht⟩
      · exact .inr ⟨hnot,e,hc.events he,heq⟩
    · exact .inr hnew

/-- Another deletion: it takes no event of a task outside of its own context. -/
theorem Listed.deletion {u : Unit} (h : s.Listed c taskIds) (h' : s.Listed c' taskIds')
    (hrun : (deleteContextRows c' taskIds').run s.db = .ok (u,db')) :
    (s.commit db').Listed c taskIds := by
  have hkept : ∀ t r, db'.tasks.get t = some r → s.db.tasks.get t = some r ∧ r.contextId ≠ c' := by
    intro t r hr
    rw [get_deleteContextRows hrun,Option.filter_eq_some_iff] at hr
    exact ⟨hr.1,by simpa using hr.2⟩
  refine ⟨fun t ht => used_commit (h.used t ht),fun t r ht hr => h.within t r ht (hkept t r hr).1,
    fun t r hr hc => ?_⟩
  obtain ⟨hr,hne⟩ := hkept t r hr
  refine (h.tasks t r hr hc).imp id fun ⟨hnot,e,he,heq⟩ => ⟨hnot,e,?_,heq⟩
  have hother : t ∉ taskIds' := fun ht => hne (h'.within t r ht hr)
  change e ∈ db'.taskEvents
  rw [deleteContextRows_ok hrun]
  exact List.mem_filter.mpr ⟨he,by simpa [heq] using hother⟩

/-- Only tasks that have ended go with the context. -/
theorem Listed.removed {u : Unit} {r : TaskRecord} (h : s.Listed c taskIds)
    (hrun : (deleteContextRows c taskIds).run s.db = .ok (u,db'))
    (hr : s.db.tasks.get t = some r) (hnone : db'.tasks.get t = none) :
    isTerminalTaskStatus r.status = true := by
  have hc : r.contextId = c := by
    by_contra hne
    rw [get_deleteContextRows hrun,hr] at hnone
    simp [Option.filter,hne] at hnone
  rcases h.tasks t r hr hc with ⟨hended,_⟩ | ⟨hnot,e,he,heq⟩
  · exact hended
  · exact (hnot (deleteContextRows_listed hrun (mem_contextTaskIds.mpr ⟨r,hr,hc⟩) he heq)).elim

/-- Every deletion that is about to open its transaction has such a list. -/
def Ok (s : DeletionStore) : Prop :=
  ∀ i c taskIds, s.calls i = some (.deleteRows c taskIds) → s.Listed c taskIds

theorem Ok.answer {i : Nat} {a : DeletionAnswer} (h : s.Ok) : (s.answer i a).Ok := by
  intro j c taskIds hj
  have hj : Function.update s.calls i none j = some (.deleteRows c taskIds) := hj
  by_cases hij : j = i
  · subst hij
    simp at hj
  · rw [Function.update_of_ne hij] at hj
    exact (h j c taskIds hj).of_same rfl rfl

theorem Ok.setCall {i : Nat} {next : ContextDeletion} (h : s.Ok)
    (hnext : ∀ c taskIds, next = .deleteRows c taskIds → s.Listed c taskIds) :
    (s.setCall i next).Ok := by
  intro j c taskIds hj
  have hj : Function.update s.calls i (some next) j = some (.deleteRows c taskIds) := hj
  by_cases hij : j = i
  · subst hij
    rw [Function.update_self] at hj
    exact (hnext c taskIds (Option.some.inj hj)).of_same rfl rfl
  · rw [Function.update_of_ne hij] at hj
    exact (h j c taskIds hj).of_same rfl rfl

/-- What a step of a deletion can do: nothing to the rows, or delete them all and answer so. -/
theorem proceed_cases (i : Nat) (live : TaskId → Bool) (discard : ThreadId → Option PyException)
    (s : DeletionStore) (call : ContextDeletion) :
    (∃ a, s.proceed i live discard call = s.answer i a ∧ ∀ result, a ≠ .deleted result) ∨
      (∃ next, s.proceed i live discard call = s.setCall i next ∧
        ∀ c taskIds, next = .deleteRows c taskIds → s.Listed c taskIds) ∨
      ∃ c taskIds db', call = .deleteRows c taskIds ∧
        (deleteContextRows c taskIds).run s.db = .ok ((),db') ∧
        s.proceed i live discard call =
          (s.commit db').answer i (.deleted (s.db.deletionResult c taskIds)) := by
  cases call with
  | getContext c force =>
    simp only [proceed]
    split
    · exact .inl ⟨_,rfl,nofun⟩
    · exact .inr (.inl ⟨_,rfl,nofun⟩)
  | listContextTasks c force =>
    simp only [proceed]
    split
    · exact .inl ⟨_,rfl,nofun⟩
    · exact .inr (.inl ⟨_,rfl,nofun⟩)
  | discardCheckpoints c tasks =>
    simp only [proceed]
    split
    · exact .inl ⟨_,rfl,nofun⟩
    · split
      · exact .inl ⟨_,rfl,nofun⟩
      · exact .inr (.inl ⟨_,rfl,nofun⟩)
  | deleteTerminalContext c =>
    simp only [proceed]
    split
    · exact .inl ⟨_,rfl,nofun⟩
    · rename_i hended
      refine .inr (.inl ⟨_,rfl,fun c' taskIds heq => ?_⟩)
      cases heq
      refine listed_now fun r hr => ?_
      by_contra hopen
      exact hended ⟨r,hr,by simpa using hopen⟩
  | deleteRows c taskIds =>
    simp only [proceed]
    cases hrun : (deleteContextRows c taskIds).run s.db with
    | ok result => exact .inr (.inr ⟨c,taskIds,result.2,rfl,hrun,rfl⟩)
    | error e => exact .inl ⟨_,rfl,nofun⟩

theorem ok_start (db : AgentDb) : (start db).Ok := nofun

/-- What each step of a run keeps, from any state of the store on. -/
structure Sound (owned : Prop) (s : DeletionStore) : Prop where
  ok : s.Ok
  owned : owned → s.db.messageRecords.Owned

end DeletionStore

section Main

open DeletionStore DeletionStep

variable {core : CoreEnv} {env : LedgerEnv} {s s' : DeletionStore} {owned : Prop}

/-- What a deletion that succeeded removed: no row refers to anything of the context. -/
structure Deletes (owned : Prop) (c : ContextId) (db db' : AgentDb) : Prop where
  forgets : db'.Forgets c (db.contextMessageIds c) (db.contextTaskIds c)
  namesNone : owned → db'.NamesNone (db.contextMessageIds c) (db.contextTaskIds c)

/-- What a step does to the rows: a write of the others keeps all tasks, a step of a deletion leaves
all rows as they are or deletes its context, and only tasks that have ended disappear. -/
structure StepEffect (owned : Prop) (a : DeletionStep) (s s' : DeletionStore) : Prop where
  rows : ∀ i live discard, a = .proceed i live discard →
    s'.db = s.db ∧ (∀ result, s'.answers ≠ (i,.deleted result)::s.answers) ∨
      ∃ result, s'.answers = (i,.deleted result)::s.answers ∧
        Deletes owned result.contextId s.db s'.db
  begins : ∀ i c force, a = .deleteContext i c force → s'.db = s.db
  ended : ∀ t r, s.db.tasks.get t = some r → s'.db.tasks.get t = none →
    isTerminalTaskStatus r.status = true

theorem StepEffect.same {a : DeletionStep} {i : Nat} {live : TaskId → Bool}
    {discard : ThreadId → Option PyException} (ha : a = .proceed i live discard)
    (hdb : s'.db = s.db) (hanswers : ∀ result, s'.answers ≠ (i,.deleted result)::s.answers) :
    StepEffect owned a s s' := by
  subst ha
  refine ⟨fun _ _ _ heq => .inl ⟨hdb,?_⟩,nofun,fun t r hr hnone => ?_⟩
  · cases heq
    exact hanswers
  · rw [hdb,hr] at hnone
    cases hnone

theorem deletion_step {a : DeletionStep} (h : s.Sound owned) (hguard : Proper a s)
    (hs : step core env a s = some s') : s'.Sound owned ∧ StepEffect owned a s s' := by
  cases a with
  | write x =>
    cases hs
    have hc : Continues (fun t => x.creates t = true) s.db ((x.txn core env).commit s.db) :=
      x.continues s.db
    refine ⟨⟨fun i c taskIds hi => (h.ok i c taskIds hi).write hc hguard.1,fun ho => ?_⟩,nofun,nofun,
      fun t r hr hnone => ?_⟩
    · exact reflTransGen_invariant (fun _ _ hs h => hs.owned h) (x.recordsTo hguard.2) (h.owned ho)
    · obtain ⟨r',hr',_⟩ := hc.kept t r hr
      have hnone : ((x.txn core env).commit s.db).tasks.get t = none := hnone
      rw [hr'] at hnone
      cases hnone
  | deleteContext i c force =>
    simp only [step] at hs
    split at hs <;> cases hs
    refine ⟨⟨h.ok.setCall nofun,h.owned⟩,nofun,fun _ _ _ _ => rfl,fun t r hr hnone => ?_⟩
    have hnone : s.db.tasks.get t = none := hnone
    rw [hr] at hnone
    cases hnone
  | proceed i live discard =>
    simp only [step,Option.map_eq_some_iff] at hs
    obtain ⟨call,hcall,rfl⟩ := hs
    rcases proceed_cases i live discard s call with ⟨a,heq,hno⟩ | ⟨next,heq,hnext⟩ |
      ⟨c,taskIds,db',rfl,hrun,heq⟩
    · rw [heq]
      refine ⟨⟨h.ok.answer,h.owned⟩,.same rfl rfl fun result hresult => ?_⟩
      exact hno result (Prod.mk.inj (List.cons.inj hresult).1).2
    · rw [heq]
      refine ⟨⟨h.ok.setCall hnext,h.owned⟩,.same rfl rfl fun result hresult => ?_⟩
      exact List.cons_ne_self _ _ hresult.symm
    · rw [heq]
      have hlisted := h.ok i c taskIds hcall
      have hok : (s.commit db').Ok := fun j c' taskIds' hj =>
        (h.ok j c' taskIds' hj).deletion hlisted hrun
      refine ⟨⟨hok.answer,fun ho => (h.owned ho).deletion hrun⟩,fun i' _ _ hi => ?_,nofun,
        fun t r hr hnone => hlisted.removed hrun hr hnone⟩
      cases hi
      exact .inr ⟨_,rfl,deleteContextRows_forgets hrun,fun ho => (h.owned ho).namesNone hrun⟩

/-- In every interleaving, from any state of the store: a deletion that raises, or answers that there
is no context, has left all rows as they are, at each of its steps; one that succeeds leaves no row
that refers to the context, its messages or its tasks; and no task that has not ended is ever
removed. -/
theorem context_deletion {steps : List DeletionStep} {db : AgentDb} {a : DeletionStep}
    (hrun : exec (step core env) steps (.start db) = some s)
    (hguard : Guarded (step core env) Proper steps (.start db)) (ha : Proper a s)
    (hs : step core env a s = some s') : StepEffect db.messageRecords.Owned a s s' := by
  have hstart : (DeletionStore.start db).Sound db.messageRecords.Owned := ⟨DeletionStore.ok_start db,id⟩
  have hsound := exec_invariant_guarded (fun a s s' h hg hs => (deletion_step h hg hs).1) hstart
    hguard hrun
  exact (deletion_step hsound ha hs).2

/-- A context whose only task has failed. -/
def sampleEnded : AgentDb :=
  CoreTxn.history sampleCore sampleEnv (sampleAdmission ++ [.claimLocalExecution "task",
    .recordRuntimeRecoveryFailure "task" "runtime_restarted" "The runtime restarted."]) .empty

/-- A step of the first deletion, in a process without workers. -/
def sampleProceed : DeletionStep := .proceed 0 (fun _ => false) fun _ => none

def sampleDeletion : List DeletionStep :=
  .deleteContext 0 "context" false :: List.replicate 4 sampleProceed

theorem context_deletion_sample : ∃ s s',
    exec (step sampleCore sampleEnv) sampleDeletion (.start sampleEnded) = some s ∧
    step sampleCore sampleEnv sampleProceed s = some s' ∧
    s'.answers = [(0,.deleted ⟨"context",1,1,4,0,1⟩)] ∧
    StepEffect sampleEnded.messageRecords.Owned sampleProceed s s' := by
  have hanswers : ((exec (step sampleCore sampleEnv) sampleDeletion (.start sampleEnded)).bind
      (step sampleCore sampleEnv sampleProceed)).map (·.answers) =
        some [(0,.deleted ⟨"context",1,1,4,0,1⟩)] := by decide +kernel
  obtain ⟨s',hs',hanswers⟩ := Option.map_eq_some_iff.mp hanswers
  obtain ⟨s,hrun,hs⟩ := Option.bind_eq_some_iff.mp hs'
  have hguard : Guarded (step sampleCore sampleEnv) Proper sampleDeletion (.start sampleEnded) := by
    refine guarded_of_forall (fun a ha s => ?_) _
    rcases List.mem_cons.mp ha with rfl | ha
    · trivial
    · rw [List.eq_of_mem_replicate ha]
      trivial
  exact ⟨s,s',hrun,hs,hanswers,context_deletion hrun hguard trivial hs⟩

/-- A task that is accepted after the list was taken makes the deletion fail. -/
example : ((exec (step sampleCore sampleEnv) (sampleDeletion ++ [
      .write (.agent ⟨.core (.prepareMessage {sampleRequest with
        contextId := some "context"
        messageId := some "message-2"} "" ""),nofun⟩),
      .write (.acceptLocalTask "context" "message-2" ⟨.localTask,none,"long work",none,.obj []⟩
        "route-2" "task-2" "thread-2"),
      sampleProceed]) (.start sampleEnded)).map (·.answers)) =
    some [(0,.raised (.integrityError "FOREIGN KEY constraint failed"))] := by decide +kernel

end Main
end VermayAgent
