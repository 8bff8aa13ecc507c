import VermayAgent.Library.Interference
import VermayAgent.MessageRecords
import VermayAgent.MessageSequences

/-! Retries of failed tasks.
Any number of connections execute retry commands beside all other transactions, statement by
statement. The eligibility of the source is read before the first write of an acceptance, so that
what the others commit in between decides whether it still holds when the retry is stored. -/
namespace VermayAgent
open Library Txn MainAgentStore MainAgentCore

namespace MainAgentCore

/-- What `_retry_failed_task` reads before its transaction: the retry that there is, or the source
with its input message. -/
def prepareRetry (taskId : TaskId) : StoreTxn (TaskRecord ⊕ TaskRecord × MessageRecord) := do
  let source ← retryableFailedLocalTask taskId
  match ← getDirectTaskRetry source.taskId with
  | some existing => return .inl existing
  | none =>
    let inputMessage ← orFail (← getMessage source.inputMessageId)
      (.invalidSessionState "The original task input is unavailable.")
    require (inputMessage.role = .user)
      (.invalidSessionState "The original task input is unavailable.")
    return .inr (source,inputMessage)

end MainAgentCore

/-- The columns that make a task retryable. -/
structure TaskRecord.Retryable (r : TaskRecord) : Prop where
  localTask : r.assignedAgentId = none
  failed : r.status = .failed
  retryable : r.errorRetryable = true

/-- No invocation of the task may have had an effect. -/
def AgentDb.Effectless (db : AgentDb) (t : TaskId) : Prop :=
  ∀ r ∈ db.toolInvocations.rows, r.taskId = t → r.sideEffectLevel = "none"

/-- The task `c` is a direct retry of `t`. -/
def AgentDb.RetryOf (db : AgentDb) (t c : TaskId) : Prop :=
  ∃ r ∈ db.tasks.rows, r.retryOfTaskId = some t ∧ r.taskId = c

instance (db : AgentDb) (t : TaskId) : Decidable (db.Effectless t) :=
  inferInstanceAs (Decidable (∀ r ∈ db.toolInvocations.rows, r.taskId = t →
    r.sideEffectLevel = "none"))

instance (db : AgentDb) (t c : TaskId) : Decidable (db.RetryOf t c) :=
  inferInstanceAs (Decidable (∃ r ∈ db.tasks.rows, r.retryOfTaskId = some t ∧ r.taskId = c))

/-- Neither a message nor its record of receipt has the drawn id. -/
def MainAgentCore.RetryIds.Unused (ids : RetryIds) (db : AgentDb) : Prop :=
  db.messages.get ids.messageId = none ∧ db.messageIngress.get ids.messageId = none

instance (ids : RetryIds) (db : AgentDb) : Decidable (ids.Unused db) :=
  inferInstanceAs (Decidable (db.messages.get ids.messageId = none ∧
    db.messageIngress.get ids.messageId = none))

section Acceptance

/-- The rows that an accepted retry of `t` adds: its task, with the message, the record of receipt
and the decision that lead to it. -/
structure RetryStored (db db' : AgentDb) (t : TaskId) (contextId : ContextId) (attempt : Nat)
    (r : TaskRecord) : Prop where
  retry : r.retryOfTaskId = some t ∧ r.contextId = contextId ∧ r.attempt = attempt ∧
    r.assignedAgentId = none
  stored : db.tasks.get r.taskId = none ∧ db'.tasks.get r.taskId = some r
  others : ∀ t', t' ≠ r.taskId → db'.tasks.get t' = db.tasks.get t'
  first : ∀ r' ∈ db.tasks.rows, r'.retryOfTaskId ≠ some t
  thread : ∀ r' ∈ db.tasks.rows, r'.runtimeThreadId ≠ r.runtimeThreadId
  message : db.messages.get r.inputMessageId = none ∧
    ∃ m, db'.messages.get r.inputMessageId = some m ∧ m.role = .user ∧ m.contextId = contextId
  ingress : db.messageIngress.get r.inputMessageId = none ∧
    ∃ row, db'.messageIngress.get r.inputMessageId = some row ∧ row.contextId = contextId ∧
      row.outcomeKind = some .task ∧ row.outcomeId = some r.taskId
  decision : ∃ d, db.routeDecisions.get d.decisionId = none ∧
    db'.routeDecisions.get d.decisionId = some d ∧ d.messageId = r.inputMessageId ∧
    d.contextId = contextId

/-- An accepted retry: what its source was when it was stored, and the rows that were stored; the
source is as it was. -/
structure RetryAccepted (db db' : AgentDb) (t : TaskId) (r source : TaskRecord) : Prop where
  unchanged : db.tasks.get t = some source ∧ db'.tasks.get t = some source
  retryable : source.Retryable
  effectless : db.Effectless t
  rows : RetryStored db db' t source.contextId (source.attempt+1) r

variable {db db' : AgentDb} {t : TaskId}

theorem origin_ignores : IgnoresProgress fun db => (db.tasks.get t).map (·.origin) := by
  constructor
  · intro db p f hf horigin
    simp only [Table.get_update,Option.map_map]
    congr 1
    funext r
    by_cases hp : p r = true <;> simp [hp,horigin]
  all_goals intros; rfl

theorem updateTask_other {t' : TaskId} (ht : t' ≠ t) (f : TaskRecord → TaskRecord)
    (hf : ∀ r, (f r).taskId = r.taskId) : Keeps (fun db => db.tasks.get t') (updateTask t f hf) := by
  refine .write fun db => ?_
  simp only [Table.get_update]
  cases hr : db.tasks.get t' with
  | none => rfl
  | some r =>
    have hkey : r.taskId = t' := Table.key_of_get hr
    simp [hkey,ht]

theorem transitionLocalTask_other {t' : TaskId} (ht : t' ≠ t) (target : TaskStatus)
    (payload : Json) (error : TaskError) :
    Keeps (fun db => db.tasks.get t') (transitionLocalTask t target payload error) :=
  .bind (requireTask_keeps _) fun _ => .bind (.require _ _) fun _ => .bind (.ofExcept _) fun _ =>
    .ite (.pure _) (.bind (.ofExcept _) fun _ => .bind (updateTask_other ht _ _) fun _ =>
    .bind (.select _) fun _ => .bind (.orFail _ _) fun _ =>
    .bind (appendTaskEvent_keeps (fun _ _ _ => rfl) _ _ _ _) fun _ => .pure _)

theorem enqueueTaskExecution_other {γ : Type} {v : AgentDb → γ}
    (hv : ∀ db queuedExecutions, v {db with queuedExecutions} = v db) (kind : QueuedTaskExecutionKind)
    (thread : ThreadId) (payload : Option QueuedTaskExecutionPayload) (version : Int) :
    Keeps v (enqueueTaskExecution t kind thread payload version) := by
  refine .bind (requireTask_keeps _) fun _ => .bind (.require _ _) fun _ => .bind (.require _ _)
    fun _ => .bind (.require _ _) fun _ => .bind (.require _ _) fun _ =>
    .bind (normalizedPayload_keeps _ _) fun _ => .bind (.ofExcept _) fun _ =>
    .bind IgnoresProgress.getQueuedTaskExecution fun o => ?_
  cases o with
  | some existing => exact .bind (.require _ _) fun _ => .pure _
  | none =>
    refine .bind (.write? fun db db' h => ?_) fun _ =>
      .bind IgnoresProgress.getQueuedTaskExecution fun _ => .orFail _ _
    obtain ⟨rows,_,rfl⟩ := Option.map_eq_some_iff.mp h
    exact hv db rows

/-- The row of a new task, and what the unique columns demand of the others. -/
theorem createTask_task {new : NewTask} {task : TaskRecord}
    (h : (createTask new).run db = .ok (task,db')) :
    db.tasks.get new.taskId = none ∧
      (∀ r ∈ db.tasks.rows, r.runtimeThreadId ≠ new.runtimeThreadId) ∧
      (new.retryOfTaskId = none ∨ ∀ r ∈ db.tasks.rows, r.retryOfTaskId ≠ new.retryOfTaskId) ∧
      (∃ sequence, task.origin = ⟨new.taskId,new.contextId,new.inputMessageId,sequence,
        new.runtimeThreadId,new.assignedAgentId,new.retryOfTaskId,new.attempt⟩) ∧
      ∃ tasks, db.tasks.insert? task = some tasks ∧ db' = {db with tasks} := by
  simp only [createTask,insertTask,foreignKey,uniqueConstraint,getContext,getMessage,getTask,
    bind_ok,run_select,run_statement,orFail_ok,require_ok,write?_ok,Option.map_eq_some_iff,
    Except.ok.injEq,Prod.mk.injEq] at h
  obtain ⟨_,_,⟨rfl,rfl⟩,message,_,⟨_,rfl⟩,_,_,⟨_,rfl⟩,_,_,⟨_,rfl⟩,_,_,⟨_,_,⟨rfl,rfl⟩,_,_,
    ⟨_,rfl⟩,_,_,⟨rfl,rfl⟩,_,_,⟨hthread,rfl⟩,_,_,⟨hretry,rfl⟩,tasks,hinsert,rfl⟩,_,_,⟨rfl,rfl⟩,hget,
    rfl⟩ := h
  rw [Table.get_insert? hinsert,if_pos rfl,Option.some.injEq] at hget
  subst hget
  exact ⟨Table.insert?_fresh hinsert,hthread,hretry,⟨_,rfl⟩,tasks,hinsert,rfl⟩

/-- The row that an acceptance creates; all other tasks are as they were. -/
theorem acceptLocalTaskFromMessage_task {a : LocalTaskAcceptance}
    {result : RouteDecisionRecord × TaskRecord}
    (h : (acceptLocalTaskFromMessage a).run db = .ok (result,db')) :
    db.tasks.get a.taskId = none ∧
      (∀ r ∈ db.tasks.rows, r.runtimeThreadId ≠ a.runtimeThreadId) ∧
      (a.retryOfTaskId = none ∨ ∀ r ∈ db.tasks.rows, r.retryOfTaskId ≠ a.retryOfTaskId) ∧
      (∃ r sequence, db'.tasks.get a.taskId = some r ∧ r.origin = ⟨a.taskId,a.decision.contextId,
        a.decision.messageId,sequence,a.runtimeThreadId,none,a.retryOfTaskId,a.attempt⟩) ∧
      ∀ t', t' ≠ a.taskId → db'.tasks.get t' = db.tasks.get t' := by
  simp only [acceptLocalTaskFromMessage,createLocalTask,bind_ok,require_ok,pure_ok,ite_run] at h
  obtain ⟨_,_,⟨_,rfl⟩,_,db₁,hdecision,_,db₂,hroute,_,db₃,⟨created,db₄,hcreate,_,_,
    hevent,rfl,rfl⟩,_,db₅,hresolve,h⟩ := h
  have htasks₂ : db₂.tasks = db.tasks := by
    have h₁ := recordRouteDecision_keeps (v := AgentDb.tasks) (fun _ _ => rfl) _ _ _ _ hdecision
    have h₂ := setMessageIngressRouteDecision_keeps (v := AgentDb.tasks) (fun _ _ => rfl)
      _ _ _ _ _ hroute
    exact h₂.trans h₁
  obtain ⟨hnew,hthread,hretry,⟨sequence,horigin⟩,tasks,hinsert,rfl⟩ := createTask_task hcreate
  rw [htasks₂] at hnew hthread hretry hinsert
  have hid : created.taskId = a.taskId := congrArg TaskOrigin.taskId horigin
  have hkept : ∀ {γ : Type} (v : AgentDb → γ), (∀ db messageIngress, v {db with messageIngress} = v db) →
      (∀ db taskEvents nextEventId, v {db with taskEvents, nextEventId} = v db) →
      v db₅ = v {db₂ with tasks} := by
    intro γ v hingress hevents
    have h₃ := appendTaskEvent_keeps hevents _ _ _ _ _ _ _ hevent
    have h₄ := resolveMessageIngress_keeps hingress _ _ _ _ _ _ hresolve
    exact h₄.trans h₃
  have hlast : (db'.tasks.get a.taskId).map (·.origin) = (db₅.tasks.get a.taskId).map (·.origin) ∧
      ∀ t', t' ≠ a.taskId → db'.tasks.get t' = db₅.tasks.get t' := by
    split at h
    · simp only [bind_ok,pure_ok] at h
      obtain ⟨queued,db₆,hqueue,_,_,henqueue,_,rfl⟩ := h
      refine ⟨?_,fun t' ht' => ?_⟩
      · have hv := @origin_ignores a.taskId
        exact (hv.enqueueTaskExecution _ _ _ _ _ _ _ henqueue).trans
          (hv.transitionLocalTask _ _ _ _ _ _ hqueue)
      · have hother : db₆.tasks.get t' = db₅.tasks.get t' :=
          transitionLocalTask_other (hid ▸ ht') _ _ _ _ _ _ hqueue
        exact (enqueueTaskExecution_other (v := fun db => db.tasks.get t') (fun _ _ => rfl) _ _ _ _
          _ _ _ henqueue).trans hother
    · obtain ⟨_,rfl⟩ := pure_ok.mp h
      exact ⟨rfl,fun _ _ => rfl⟩
  have hget : ∀ t', db₅.tasks.get t' = if created.taskId = t' then some created
      else db.tasks.get t' := fun t' =>
    (hkept (fun db => db.tasks.get t') (fun _ _ => rfl) fun _ _ _ => rfl).trans
      (Table.get_insert? hinsert t')
  refine ⟨hnew,hthread,hretry,?_,fun t' ht' => ?_⟩
  · have horigin' := hlast.1
    rw [hget,if_pos hid,Option.map_some] at horigin'
    obtain ⟨r,hr,heq⟩ := Option.map_eq_some_iff.mp horigin'
    exact ⟨r,sequence,hr,heq.trans horigin⟩
  · rw [hlast.2 t' ht',hget,if_neg fun heq => ht' (hid ▸ heq.symm)]

end Acceptance

section StoreRetry

variable (core : CoreEnv) (ids : RetryIds) (source seen : TaskRecord) (inputMessage : MessageRecord)

/-- What `accept_retry` does once it has found the source retryable and no retry of it. -/
def MainAgentCore.storeRetry : StoreTxn (TaskRecord × Bool) := do
  let retryAttempt := seen.attempt+1
  let retryMetadata := retryMessageMetadata inputMessage.metadata seen retryAttempt
  let retryMessage ← appendMessage ids.messageId source.contextId .user inputMessage.parts none
    retryMetadata
  let _ ← reserveMessageIngress retryMessage.messageId source.contextId
    (core.fingerprint .user retryMessage.parts retryMetadata)
  let (_,task) ← acceptLocalTaskFromMessage ⟨⟨ids.decisionId,source.contextId,
      retryMessage.messageId,.localTask,none,
      "Manual retry of a retryable failed local task.",some 1,
      .obj [("source",.str "manual_retry"),("retryOfTaskId",.str source.taskId),
        ("retryAttempt",.num retryAttempt)]⟩,
    ids.taskId,ids.threadId,true,some source.taskId,retryAttempt⟩
  let _ ← appendTaskEvent source.taskId "task_retry_requested" none
    (.obj [("retry_task_id",.str task.taskId),("retry_attempt",.num task.attempt)])
  let _ ← appendTaskEvent task.taskId "task_retried" none
    (.obj [("retry_of_task_id",.str source.taskId),("retry_attempt",.num task.attempt)])
  return (task,true)

theorem acceptRetry_eq (t : TaskId) : acceptRetry core t ids seen inputMessage =
    retryableFailedLocalTask t >>= fun source => getDirectTaskRetry source.taskId >>= fun o =>
      match o with
      | some existing => pure (existing,false)
      | none => storeRetry core ids source seen inputMessage := rfl

variable {core ids source seen inputMessage} {db db' : AgentDb}

/-- In one state, the rows of a retry are stored as a whole; the source has to be there. -/
theorem storeRetry_ok {task : TaskRecord} {created : Bool} (hunused : ids.Unused db)
    (hne : source.taskId ≠ ids.taskId)
    (h : (storeRetry core ids source seen inputMessage).run db = .ok ((task,created),db')) :
    created = true ∧ task.taskId = ids.taskId ∧ (db.tasks.get source.taskId).isSome = true ∧
      ∃ r, r.taskId = ids.taskId ∧
        RetryStored db db' source.taskId source.contextId (seen.attempt+1) r := by
  simp only [storeRetry,bind_ok,pure_ok,Prod.mk.injEq] at h
  obtain ⟨m,db₁,happend,⟨row,reserved⟩,db₂,hreserve,⟨d,task'⟩,db₃,haccept,_,db₄,hevent,_,db₅,hevent',
    ⟨rfl,rfl⟩,rfl⟩ := h
  obtain ⟨_,⟨hstored,_⟩ | ⟨sequence,messages,rfl,hmessage,hrecords₁⟩⟩ := appendMessage_records happend
  · rw [hunused.1] at hstored
    cases hstored
  have hingress₁ : db₁.messageIngress = db.messageIngress :=
    congrArg MessageRecords.messageIngress hrecords₁
  obtain ⟨_,hstored,_⟩ | ⟨_,rfl,messageIngress,hingress,rfl⟩ := reserveMessageIngress_records hreserve
  · rw [hingress₁,hunused.2] at hstored
    cases hstored
  have htasks₁ : db₁.tasks = db.tasks :=
    appendMessage_keeps (v := AgentDb.tasks) (fun _ _ => rfl) (fun _ _ => rfl) _ _ _ _ _ _ _ _ _
      happend
  obtain ⟨rfl,_,hid,_,_,routeDecisions,_,hdecision,_,_,_,hrecords₃⟩ :=
    acceptLocalTaskFromMessage_records haccept
  obtain ⟨hnew,hthread,hretry,⟨r,sequence',hr,horigin⟩,hothers⟩ :=
    acceptLocalTaskFromMessage_task haccept
  have htasks₅ : db₅.tasks = db₃.tasks :=
    (appendTaskEvent_keeps (v := AgentDb.tasks) (fun _ _ _ => rfl) _ _ _ _ _ _ _ hevent').trans
      (appendTaskEvent_keeps (v := AgentDb.tasks) (fun _ _ _ => rfl) _ _ _ _ _ _ _ hevent)
  have hrecords₅ : db₅.messageRecords = db₃.messageRecords :=
    (messageRecords_ignores.appendTaskEvent _ _ _ _ _ _ hevent').trans
      (messageRecords_ignores.appendTaskEvent _ _ _ _ _ _ hevent)
  have hsource : ∃ r, db₃.tasks.get source.taskId = some r := by
    obtain ⟨r,_,hrequire,_⟩ := (bind_ok _ _).mp hevent
    exact ⟨r,(requireTask_ok.mp hrequire).1⟩
  rw [htasks₁] at hnew hthread hretry hothers
  have hkey : r.taskId = ids.taskId := congrArg TaskOrigin.taskId horigin
  have hinput : r.inputMessageId = ids.messageId := congrArg TaskOrigin.inputMessageId horigin
  have hcontext : r.contextId = source.contextId := congrArg TaskOrigin.contextId horigin
  have hthread' : r.runtimeThreadId = ids.threadId := congrArg TaskOrigin.runtimeThreadId horigin
  obtain ⟨source',hsource'⟩ := hsource
  refine ⟨rfl,hid,?_,r,hkey,?_⟩
  · rw [← hothers _ hne,hsource']
    rfl
  rw [hrecords₃] at hrecords₅
  refine ⟨⟨congrArg TaskOrigin.retryOfTaskId horigin,hcontext,congrArg TaskOrigin.attempt horigin,
    congrArg TaskOrigin.assignedAgentId horigin⟩,⟨by rw [hkey]; exact hnew,by rw [hkey,htasks₅]; exact hr⟩,
    fun t' ht' => by rw [htasks₅]; exact hothers t' (hkey ▸ ht'),?_,?_,?_,?_,?_⟩
  · exact hretry.resolve_left (by simp)
  · exact fun r' hr' => hthread' ▸ hthread r' hr'
  · have hmessages : db₅.messages = messages :=
      (congrArg MessageRecords.messages hrecords₅).trans (congrArg MessageRecords.messages hrecords₁)
    rw [hinput,hmessages]
    exact ⟨hunused.1,_,(Table.get_insert? hmessage _).trans (if_pos rfl),rfl,rfl⟩
  · rw [hinput]
    refine ⟨hunused.2,?_⟩
    have hrow : messageIngress.get ids.messageId = some (.reserved ids.messageId source.contextId
        (core.fingerprint .user inputMessage.parts
          (retryMessageMetadata inputMessage.metadata seen (seen.attempt+1)))) :=
      (Table.get_insert? hingress _).trans (if_pos rfl)
    have hget := congrArg (fun s : MessageRecords => s.messageIngress.get ids.messageId) hrecords₅
    simp only [MessageRecords.resolveIngress,MessageRecords.routeIngress,
      MessageRecords.updateIngress,Table.get_update] at hget
    simp only [AgentDb.messageRecords,hrow,Option.map_some,MessageIngressRecord.reserved,
      MessageIngressRecord.withRoute,decide_true,Bool.and_self,if_true] at hget
    exact ⟨_,hget,rfl,rfl,by rw [hkey]; rfl⟩
  · have hdecisions : db₅.routeDecisions = routeDecisions :=
      congrArg MessageRecords.routeDecisions hrecords₅
    have hdecisions₁ : db₁.routeDecisions = db.routeDecisions :=
      congrArg MessageRecords.routeDecisions hrecords₁
    rw [hdecisions₁] at hdecision
    rw [hdecisions,hinput]
    exact ⟨_,Table.insert?_fresh hdecision,(Table.get_insert? hdecision _).trans (if_pos rfl),rfl,rfl⟩

end StoreRetry

/-- A transaction other than the acceptance of a retry. -/
abbrev OtherTxn := {x : ContextTxn // ∀ t, ¬ x.retries t}

/-- What a connection is doing; an acceptance counts the statements that it has executed. -/
inductive RetryConnection where
  | idle
  | executing (x : OtherTxn) (program : StoreTxn Unit)
  | preparing (taskId : TaskId) (ids : RetryIds)
      (program : StoreTxn (TaskRecord ⊕ TaskRecord × MessageRecord))
  | accepting (taskId : TaskId) (ids : RetryIds) (program : StoreTxn (TaskRecord × Bool))
      (executed : Nat)
  /-- The acceptance raised an integrity error. -/
  | resolving (taskId : TaskId)
  /-- The post-commit action is next. -/
  | answering (taskId : TaskId) (retry : TaskRecord)

/-- The store with the states that were committed before, and the answers of retry commands. -/
structure RetryStore where
  db : AgentDb
  past : List AgentDb
  connections : Nat → RetryConnection
  answers : List (TaskId × TaskRecord)

namespace RetryStore

def start (db : AgentDb) : RetryStore := ⟨db,[],fun _ => .idle,[]⟩

def setConnection (i : Nat) (c : RetryConnection) (s : RetryStore) : RetryStore :=
  {s with connections := Function.update s.connections i c}

def commit (db : AgentDb) (s : RetryStore) : RetryStore := {s with db, past := s.db::s.past}

def answer (taskId : TaskId) (retry : TaskRecord) (s : RetryStore) : RetryStore :=
  {s with answers := s.answers++[(taskId,retry)]}

/-- The states that were committed so far. -/
def committed (s : RetryStore) : List AgentDb := s.db::s.past

/-- A task of this id is or was stored. -/
def Used (s : RetryStore) (t : TaskId) : Prop := ∃ db ∈ s.committed, ∃ r ∈ db.tasks.rows, r.taskId = t

instance (s : RetryStore) (t : TaskId) : Decidable (s.Used t) :=
  inferInstanceAs (Decidable (∃ db ∈ s.committed, ∃ r ∈ db.tasks.rows, r.taskId = t))

/-- The task `c` is or was a direct retry of `t`. -/
def Retried (s : RetryStore) (t c : TaskId) : Prop := ∃ db ∈ s.committed, db.RetryOf t c

end RetryStore

instance (t : TaskId) : DecidablePred (ContextOp.creates t)
  | .createContext _ _ _ | .appendMessage _ _ _ _ _ _ => isFalse id
  | .nested a => inferInstanceAs (Decidable (a.is (CoreTxn.creates t) = true))

instance (t : TaskId) (x : ContextTxn) : Decidable (x.creates t) :=
  inferInstanceAs (Decidable (∃ op ∈ x.ops, op.creates t))

namespace RetryConnection

/-- The identifiers drawn for what the connection is about to store were never in use. -/
def DrawsUnused (s : RetryStore) : RetryConnection → Prop
  | executing x _ => ∀ db ∈ s.committed, ∀ r ∈ db.tasks.rows, ¬ x.val.creates r.taskId
  | accepting _ ids _ _ => ids.Unused s.db ∧ ¬ s.Used ids.taskId
  | _ => True

instance (s : RetryStore) : DecidablePred (DrawsUnused s)
  | executing x _ => inferInstanceAs (Decidable (∀ db ∈ s.committed, ∀ r ∈ db.tasks.rows,
      ¬ x.val.creates r.taskId))
  | accepting _ ids _ _ => inferInstanceAs (Decidable (ids.Unused s.db ∧ ¬ s.Used ids.taskId))
  | idle | preparing _ _ _ | resolving _ | answering _ _ => isTrue trivial

end RetryConnection

inductive RetryStep where
  | begin (i : Nat) (x : OtherTxn)
  | beginRetry (i : Nat) (taskId : TaskId) (ids : RetryIds)
  | statement (i : Nat)
  /-- The connection was lost, the write lock was not given in time, or the post-commit action
  raised. -/
  | abort (i : Nat)

namespace RetryStep

variable (core : CoreEnv) (env : LedgerEnv)

/-- An acceptance that raised an integrity error is resolved by a read of the winner. -/
def endAcceptance (i : Nat) (taskId : TaskId) (result : Except PyException (TaskRecord × Bool))
    (db : AgentDb) (s : RetryStore) : RetryStore :=
  match result with
  | .ok (task,_) => (s.commit db).setConnection i (.answering taskId task)
  | .error (.integrityError _) => s.setConnection i (.resolving taskId)
  | .error _ => s.setConnection i .idle

def endPreparation (i : Nat) (taskId : TaskId) (ids : RetryIds)
    (result : Except PyException (TaskRecord ⊕ TaskRecord × MessageRecord)) (s : RetryStore) :
    RetryStore :=
  match result with
  | .ok (.inl existing) => (s.answer taskId existing).setConnection i .idle
  | .ok (.inr (source,inputMessage)) => s.setConnection i
      (.accepting taskId ids (acceptRetry core taskId ids source inputMessage) 0)
  | .error _ => s.setConnection i .idle

def resolve (i : Nat) (taskId : TaskId) (s : RetryStore) : RetryStore :=
  match s.db.tasks.rows.find? fun r => r.retryOfTaskId = some taskId with
  | some existing => (s.answer taskId existing).setConnection i .idle
  | none => s.setConnection i .idle

def step : RetryStep → RetryStore → Option RetryStore
  | begin i x, s =>
    match s.connections i with
    | .idle => some (s.setConnection i (.executing x (x.val.txn core env)))
    | _ => none
  | beginRetry i taskId ids, s =>
    match s.connections i with
    | .idle => some (s.setConnection i (.preparing taskId ids (prepareRetry taskId)))
    | _ => none
  | statement i, s =>
    match s.connections i with
    | .idle => none
    | .executing x program =>
      match program.advance s.db with
      | .inl rest => some (s.setConnection i (.executing x rest))
      | .inr (_,db) => some ((s.commit db).setConnection i .idle)
    | .preparing taskId ids program =>
      match program.advance s.db with
      | .inl rest => some (s.setConnection i (.preparing taskId ids rest))
      | .inr (result,_) => some (endPreparation core i taskId ids result s)
    | .accepting taskId ids program executed =>
      match program.advance s.db with
      | .inl rest => some (s.setConnection i (.accepting taskId ids rest (executed+1)))
      | .inr (result,db) => some (endAcceptance i taskId result db s)
    | .resolving taskId => some (resolve i taskId s)
    | .answering taskId retry => some ((s.answer taskId retry).setConnection i .idle)
  | abort i, s => some (s.setConnection i .idle)

/-- The connection that takes the step. -/
def connection : RetryStep → Nat
  | begin i _ | beginRetry i _ _ | statement i | abort i => i

/-- The identifiers drawn for what the connection is about to store were never in use. -/
def DrawsUnused : RetryStep → RetryStore → Prop
  | statement i, s => (s.connections i).DrawsUnused s
  | _, _ => True

instance (s : RetryStore) : ∀ a : RetryStep, Decidable (DrawsUnused a s)
  | .statement i => inferInstanceAs (Decidable ((s.connections i).DrawsUnused s))
  | .begin _ _ | .beginRetry _ _ _ | .abort _ => isTrue trivial

/-- What the re-check of an acceptance has read by now holds in the state that is committed next:
the source is retryable once its row was read, and without effects once its invocations were. -/
def KeepsChecked (t : TaskId) (executed : Nat) (db db' : AgentDb) : Prop :=
  ∀ r r', db.tasks.get t = some r → db'.tasks.get t = some r' →
    (1 ≤ executed → r.Retryable → r'.Retryable) ∧
      (2 ≤ executed → db.Effectless t → db'.Effectless t)

/-- The step takes nothing from a source that an acceptance of another connection has checked and
not yet stored the retry of. -/
def KeepsSources : RetryStep → RetryStore → Prop
  | statement i, s => ∀ s', step core env (.statement i) s = some s' →
      ∀ j t ids program executed, j ≠ i → s.connections j = .accepting t ids program executed →
        KeepsChecked t executed s.db s'.db
  | _, _ => True

/-- Drawn identifiers are unused, and checked sources are left as they are. -/
def Undisturbed (a : RetryStep) (s : RetryStore) : Prop := DrawsUnused a s ∧ KeepsSources core env a s

end RetryStep

/-- What the others do between two statements of a retry command of `t`, of which an acceptance has
executed `n`: a task that was ever stored is not stored anew, and what was checked of it holds. -/
structure RetryStore.Move (t : TaskId) (n : Nat) (s s' : RetryStore) : Prop where
  committed : ∀ db ∈ s.committed, db ∈ s'.committed
  source : s.Used t → ∀ r', s'.db.tasks.get t = some r' → ∃ r, s.db.tasks.get t = some r ∧
    r'.origin = r.origin ∧ (1 ≤ n → r.Retryable → r'.Retryable) ∧
      (2 ≤ n → s.db.Effectless t → s'.db.Effectless t)

namespace RetryStore

variable {s s' : RetryStore} {t c : TaskId} {n : Nat}

theorem Move.used (h : Move t n s s') (hused : s.Used t) : s'.Used t := by
  obtain ⟨db,hdb,hstored⟩ := hused
  exact ⟨db,h.committed db hdb,hstored⟩

theorem Move.retried (h : Move t n s s') (hretried : s.Retried t c) : s'.Retried t c := by
  obtain ⟨db,hdb,hretry⟩ := hretried
  exact ⟨db,h.committed db hdb,hretry⟩

theorem Move.trans {s₁ s₂ s₃ : RetryStore} (h₁ : Move t n s₁ s₂) (h₂ : Move t n s₂ s₃) :
    Move t n s₁ s₃ := by
  refine ⟨fun db hdb => h₂.committed db (h₁.committed db hdb),fun hused r' hr' => ?_⟩
  obtain ⟨r₂,hr₂,horigin₂,hretryable₂,heffectless₂⟩ := h₂.source (h₁.used hused) r' hr'
  obtain ⟨r₁,hr₁,horigin₁,hretryable₁,heffectless₁⟩ := h₁.source hused r₂ hr₂
  exact ⟨r₁,hr₁,horigin₂.trans horigin₁,fun hn h => hretryable₂ hn (hretryable₁ hn h),
    fun hn h => heffectless₂ hn (heffectless₁ hn h)⟩

theorem move_interference (t : TaskId) : Interference (Move t) :=
  ⟨fun _ _ => ⟨fun _ h => h,fun _ r hr => ⟨r,hr,rfl,fun _ h => h,fun _ h => h⟩⟩,.trans⟩

/-- Before the acceptance, nothing has been checked that has to last. -/
theorem prepare_interference (t : TaskId) : Interference fun _ => Move t 0 :=
  ⟨fun _ => (move_interference t).refl 0,(move_interference t).trans⟩

theorem used_of_get {r : TaskRecord} (h : s.db.tasks.get t = some r) : s.Used t :=
  ⟨s.db,List.mem_cons_self,r,Table.mem_of_get h,Table.key_of_get h⟩

end RetryStore

section Relies

open RetryStore

variable {s : RetryStore} {t : TaskId}

/-- The answer of the reads before the acceptance: a direct retry, or the source as it was made. -/
def Prepared (t : TaskId) (s : RetryStore) : TaskRecord ⊕ TaskRecord × MessageRecord → Prop
  | .inl existing => s.Retried t existing.taskId
  | .inr (source,_) => source.taskId = t ∧ s.Used t ∧
    ∀ r, s.db.tasks.get t = some r → r.origin = source.origin

theorem retried_of_find {existing : TaskRecord}
    (h : (s.db.tasks.rows.find? fun r => r.retryOfTaskId = some t) = some existing) :
    s.Retried t existing.taskId :=
  ⟨s.db,List.mem_cons_self,existing,List.mem_of_find?_eq_some h,
    by simpa using List.find?_some h,rfl⟩

/-- The source as the preparation read it is the one that is stored later, if one is. -/
theorem prepareRetry_relies (n : Nat) (s : RetryStore) :
    (prepareRetry t).Relies (·.db) (fun _ => Move t 0) (fun _ => True)
      (fun s a _ => Prepared t s a) n s := by
  simp only [prepareRetry,retryableFailedLocalTask,hasPotentiallySideEffectingToolInvocation,getTask,
    getDirectTaskRetry,getMessage,bind_assoc,pure_bind]
  refine .select fun s₁ _ _ => .orFail fun source hsource => .require fun _ => .require fun _ =>
    .require fun _ => .select fun s₂ h₂ _ => .require fun _ => .select fun s₃ h₃ _ => ?_
  have hkey : source.taskId = t := Table.key_of_get hsource
  subst hkey
  have hused : s₁.Used source.taskId := used_of_get hsource
  split
  · rename_i existing hexisting
    refine .pure fun s₄ h₄ _ => ?_
    exact h₄.retried (retried_of_find hexisting)
  · refine .select fun s₄ h₄ _ => .orFail fun m _ => .require fun _ => .pure fun s₅ h₅ _ => ?_
    have h : Move source.taskId 0 s₁ s₅ := ((h₂.trans h₃).trans h₄).trans h₅
    refine ⟨rfl,h.used hused,fun r hr => ?_⟩
    obtain ⟨r₁,hr₁,horigin,_⟩ := h.source hused r hr
    cases hsource.symm.trans hr₁
    exact horigin

/-- What the re-check of an acceptance found, as long as the source is stored. -/
def Checked (t : TaskId) (seen : TaskRecord) (s : RetryStore) : Prop :=
  s.Used t ∧ ∀ r, s.db.tasks.get t = some r →
    r.origin = seen.origin ∧ r.Retryable ∧ s.db.Effectless t

theorem Checked.move {seen : TaskRecord} {s s' : RetryStore} {n : Nat} (hn : 2 ≤ n)
    (h : Checked t seen s) (hmove : Move t n s s') : Checked t seen s' := by
  refine ⟨hmove.used h.1,fun r' hr' => ?_⟩
  obtain ⟨r,hr,horigin,hretryable,heffectless⟩ := hmove.source h.1 r' hr'
  obtain ⟨horigin₀,hretryable₀,heffectless₀⟩ := h.2 r hr
  exact ⟨horigin.trans horigin₀,hretryable (by omega) hretryable₀,heffectless hn heffectless₀⟩

/-- The append of a message whose id is in no use writes first; what it read before, it would read
again. -/
theorem appendMessage_relies {ω α : Type} {view : ω → AgentDb} {R : Nat → ω → ω → Prop}
    {J : ω → Prop} {Q : ω → α → AgentDb → Prop} {n : Nat} {w : ω} {id : MessageId} {c : ContextId}
    {role : MessageRole} {parts : List Json} {taskId : Option TaskId} {metadata : Json}
    {f : MessageRecord → StoreTxn α} (hunused : ∀ w, J w → (view w).messages.get id = none)
    (h : ∀ w₁ w₂ w₃, R n w w₁ → R (n+1) w₁ w₂ → R (n+2) w₂ w₃ → J w₃ → ∀ a db',
      (appendMessage id c role parts taskId metadata >>= f).run (view w₃) = .ok (a,db') →
      Q w₃ a db') :
    (appendMessage id c role parts taskId metadata >>= f).Relies view R J Q n w := by
  simp only [appendMessage,getContext,getMessage,bind_assoc] at h ⊢
  refine .select fun w₁ h₁ _ => .orFail fun _ _ => .select fun w₂ h₂ hJ₂ => ?_
  rw [hunused w₂ hJ₂]
  simp only [bind_assoc]
  refine .write fun w₃ h₃ hJ₃ a db' hrun => h w₁ w₂ w₃ h₁ h₂ h₃ hJ₃ a db' ?_
  have hcontext : ∃ r, (view w₃).contexts.get c = some r := by
    obtain ⟨_,_,hread,hrest⟩ := (bind_ok _ _).mp hrun
    cases hread
    obtain ⟨r,_,hr,_⟩ := (bind_ok _ _).mp hrest
    have hget := ((orFail_ok _ _).mp hr).1
    simp only [Table.get_update] at hget
    obtain ⟨r₀,hr₀,_⟩ := Option.map_eq_some_iff.mp hget
    exact ⟨r₀,hr₀⟩
  obtain ⟨r,hr⟩ := hcontext
  rw [run_bind_of (run_select _),run_bind_of (run_orFail_of hr _),run_bind_of (run_select _),
    hunused w₃ hJ₃]
  simp only [bind_assoc]
  exact hrun

/-- What an acceptance answers: the retry that it stored, or the one that it found. -/
def AcceptanceAnswer (t : TaskId) (ids : RetryIds) (s : RetryStore) (a : TaskRecord × Bool)
    (db' : AgentDb) : Prop :=
  match a.2 with
  | true => a.1.taskId = ids.taskId ∧
    ∃ r source, r.taskId = ids.taskId ∧ RetryAccepted s.db db' t r source
  | false => s.db = db' ∧ s.Retried t a.1.taskId

/-- As long as the others leave alone what the re-check read, an acceptance stores its retry for a
source that is still eligible. -/
theorem acceptRetry_relies {core : CoreEnv} {ids : RetryIds} {seen : TaskRecord}
    {inputMessage : MessageRecord} (hprepared : Prepared t s (.inr (seen,inputMessage))) :
    (acceptRetry core t ids seen inputMessage).Relies (·.db) (Move t)
      (fun s => ids.Unused s.db ∧ ¬ s.Used ids.taskId) (AcceptanceAnswer t ids) 0 s := by
  obtain ⟨rfl,hused,horigin⟩ := hprepared
  rw [acceptRetry_eq]
  simp only [retryableFailedLocalTask,hasPotentiallySideEffectingToolInvocation,getTask,
    getDirectTaskRetry,bind_assoc,pure_bind]
  refine .select fun s₁ h₁ _ => .orFail fun source hsource => .require fun hlocal =>
    .require fun hfailed => .require fun hretryable => .select fun s₂ h₂ _ =>
    .require fun heffects => .select fun s₃ h₃ _ => ?_
  have hkey : source.taskId = seen.taskId := Table.key_of_get hsource
  rw [hkey] at heffects ⊢
  have hsource₁ : source.origin = seen.origin := by
    obtain ⟨r,hr,heq,_⟩ := h₁.source hused source hsource
    exact heq.trans (horigin r hr)
  have hchecked : Checked seen.taskId seen s₂ := by
    refine ⟨h₂.used (h₁.used hused),fun r hr => ?_⟩
    obtain ⟨r₁,hr₁,heq,hkeeps,_⟩ := h₂.source (h₁.used hused) r hr
    cases hsource.symm.trans hr₁
    refine ⟨heq.trans hsource₁,hkeeps (Nat.le_refl 1) ⟨hlocal,hfailed,hretryable⟩,fun i hi hit => ?_⟩
    by_contra hne
    rw [List.any_eq_false] at heffects
    exact heffects i hi (decide_eq_true ⟨hit,hne⟩)
  split
  · rename_i existing hexisting
    exact .pure fun s₄ h₄ _ => ⟨rfl,h₄.retried (retried_of_find hexisting)⟩
  · refine appendMessage_relies (fun _ hJ => hJ.1.1) fun s₄ s₅ s₆ h₄ h₅ h₆ hJ a db' hrun => ?_
    have hchecked : Checked seen.taskId seen s₆ := (((hchecked.move (Nat.le_refl 2) h₃).move
      (by omega) h₄).move (by omega) h₅).move (by omega) h₆
    obtain ⟨task,created⟩ := a
    have hne : source.taskId ≠ ids.taskId := fun heq => hJ.2 (heq ▸ hkey ▸ hchecked.1)
    obtain ⟨rfl,hid,hstored,r,hr,hrows⟩ := storeRetry_ok hJ.1 hne hrun
    obtain ⟨source',hsource'⟩ := Option.isSome_iff_exists.mp hstored
    rw [hkey] at hsource' hrows
    obtain ⟨heq,hretryable',heffectless⟩ := hchecked.2 source' hsource'
    refine ⟨hid,r,source',hr,⟨hsource',?_⟩,hretryable',heffectless,?_⟩
    · rw [hrows.others _ (hr ▸ hkey ▸ hne)]
      exact hsource'
    · have hcontext : source.contextId = source'.contextId :=
        congrArg TaskOrigin.contextId (hsource₁.trans heq.symm)
      have hattempt : seen.attempt = source'.attempt := congrArg TaskOrigin.attempt heq.symm
      rw [← hcontext,← hattempt]
      exact hrows

end Relies

section Others

/-- Every retry is stored with its source, in the same context and one attempt later. -/
def Lineage (db : AgentDb) : Prop :=
  ∀ r ∈ db.tasks.rows, ∀ t, r.retryOfTaskId = some t → ∃ source, db.tasks.get t = some source ∧
    r.attempt = source.attempt+1 ∧ r.contextId = source.contextId

/-- The tasks some writes later: made as they were or created since, not as retries, and the tasks
of a context are deleted together. -/
structure TasksFrom (creates : TaskId → Prop) (db db' : AgentDb) : Prop where
  origin : ∀ t r', db'.tasks.get t = some r' →
    (∃ r, db.tasks.get t = some r ∧ r'.origin = r.origin) ∨
      db.tasks.get t = none ∧ creates t ∧ r'.retryOfTaskId = none
  together : ∀ t c r r', db.tasks.get t = some r → db.tasks.get c = some r' →
    r.contextId = r'.contextId → (db'.tasks.get t).isSome = true →
    (db'.tasks.get c).isSome = true

variable {A : WriteScope} {creates : TaskId → Prop} {db db₁ db₂ : AgentDb}

theorem TasksFrom.refl (creates : TaskId → Prop) (db : AgentDb) : TasksFrom creates db db :=
  ⟨fun _ r hr => .inl ⟨r,hr,rfl⟩,fun _ _ _ _ _ hc _ _ => by rw [hc]; rfl⟩

/-- Rows change in place. -/
theorem TasksFrom.map {f : TaskRecord → TaskRecord} (h : TasksFrom creates db db₁)
    (horigin : ∀ r, (f r).origin = r.origin)
    (hget : ∀ t, db₂.tasks.get t = (db₁.tasks.get t).map f) : TasksFrom creates db db₂ := by
  refine ⟨fun t r' hr' => ?_,fun t c r r' hr hr' hcontext ht => ?_⟩
  · rw [hget] at hr'
    obtain ⟨r₁,hr₁,rfl⟩ := Option.map_eq_some_iff.mp hr'
    have hretry : (f r₁).retryOfTaskId = r₁.retryOfTaskId :=
      congrArg TaskOrigin.retryOfTaskId (horigin r₁)
    exact (h.origin t r₁ hr₁).imp (fun ⟨r,hr,h₁⟩ => ⟨r,hr,(horigin r₁).trans h₁⟩)
      fun ⟨hnone,hcreates,h₁⟩ => ⟨hnone,hcreates,hretry.trans h₁⟩
  · rw [hget,Option.isSome_map] at ht ⊢
    exact h.together t c r r' hr hr' hcontext ht

theorem TasksFrom.write (hunused : ∀ t, A.creates t → db.tasks.get t = none)
    (hretries : ∀ t, ¬ A.retries t) (hw : StoreWrite A db₁ db₂) (h : TasksFrom A.creates db db₁) :
    TasksFrom A.creates db db₂ := by
  cases hw with
  | @task tasks r hcreates hretry _ _ _ _ _ hinsert =>
    have hfirst : r.retryOfTaskId = none := by
      by_contra hne
      exact hretries _ (hretry hne)
    refine ⟨fun t r' hr' => ?_,fun t c r₁ r₂ hr₁ hr₂ hcontext ht => ?_⟩
    · have hget : tasks.get t = some r' := hr'
      rw [Table.get_insert? hinsert] at hget
      split at hget
      · rename_i hkey
        cases hget
        exact .inr ⟨hkey ▸ hunused _ hcreates,hkey ▸ hcreates,hfirst⟩
      · exact h.origin t r' hget
    · have hne : ∀ t', r.taskId = t' → db.tasks.get t' = none := fun t' heq =>
        heq ▸ hunused _ hcreates
      have hget : ∀ t', (db.tasks.get t').isSome = true → tasks.get t' = db₁.tasks.get t' := by
        intro t' hstored
        rw [Table.get_insert? hinsert,if_neg fun heq => ?_]
        rw [hne t' heq] at hstored
        cases hstored
      have ht' : (tasks.get t).isSome = true := ht
      rw [hget t (by rw [hr₁]; rfl)] at ht'
      have hc := h.together t c r₁ r₂ hr₁ hr₂ hcontext ht'
      rw [← hget c (by rw [hr₂]; rfl)] at hc
      exact hc
  | @progress t f hf horigin =>
    refine h.map (fun r => ?_) fun t => Table.get_update _ _ f hf _
    split
    · exact horigin r
    · rfl
  | output =>
    refine h.map (fun r => ?_) fun t => Table.get_update _ _ _ (by intros; rfl) _
    split <;> rfl
  | @deletion _ c₀ taskIds _ _ hrun =>
    have hget : ∀ t, db₂.tasks.get t =
        (db₁.tasks.get t).filter fun r => !decide (r.contextId = c₀) := fun t => by
      rw [deleteContextRows_ok hrun,Table.get_delete]
    refine ⟨fun t r' hr' => ?_,fun t c r₁ r₂ hr₁ hr₂ hcontext ht => ?_⟩
    · rw [hget] at hr'
      exact h.origin t r' (Option.filter_eq_some_iff.mp hr').1
    · obtain ⟨r,hr⟩ := Option.isSome_iff_exists.mp ht
      rw [hget,Option.filter_eq_some_iff] at hr
      have hc := h.together t c r₁ r₂ hr₁ hr₂ hcontext (by rw [hr.1]; rfl)
      obtain ⟨r',hr'⟩ := Option.isSome_iff_exists.mp hc
      have hsame : ∀ {t r r₀}, db.tasks.get t = some r₀ → db₁.tasks.get t = some r →
          r.contextId = r₀.contextId := by
        intro t r r₀ hr₀ hr
        obtain ⟨r₁,hr₁,heq⟩ | ⟨hnone,_⟩ := h.origin t r hr
        · cases hr₀.symm.trans hr₁
          exact congrArg TaskOrigin.contextId heq
        · rw [hr₀] at hnone
          cases hnone
      rw [hget,hr',Option.isSome_iff_exists]
      refine ⟨r',Option.filter_eq_some_iff.mpr ⟨rfl,?_⟩⟩
      rw [hsame hr₂ hr',← hcontext,← hsame hr₁ hr.1]
      exact hr.2
  | _ => exact ⟨h.origin,h.together⟩

/-- What any other transaction leaves of the tasks. -/
theorem TasksFrom.writes (hunused : ∀ t, A.creates t → db.tasks.get t = none)
    (hretries : ∀ t, ¬ A.retries t) (hw : Relation.ReflTransGen (StoreWrite A) db db₁) :
    TasksFrom A.creates db db₁ :=
  reflTransGen_invariant (fun _ _ hw h => h.write hunused hretries hw) hw (.refl _ _)

theorem Lineage.from (h : Lineage db) (hfrom : TasksFrom creates db db₁) : Lineage db₁ := by
  intro r' hr' t ht
  obtain ⟨r,hr,horigin⟩ | ⟨_,_,hfirst⟩ := hfrom.origin r'.taskId r' (Table.get_of_mem hr')
  · have hretry : r.retryOfTaskId = some t := by
      rw [← ht]
      exact (congrArg TaskOrigin.retryOfTaskId horigin).symm
    obtain ⟨source,hsource,hattempt,hcontext⟩ := h r (Table.mem_of_get hr) t hretry
    have hkept := hfrom.together _ _ r source hr hsource hcontext
      (by rw [Table.get_of_mem hr']; rfl)
    obtain ⟨source',hsource'⟩ := Option.isSome_iff_exists.mp hkept
    obtain ⟨source₁,hsource₁,heq⟩ | ⟨hnone,_⟩ := hfrom.origin t source' hsource'
    · cases hsource.symm.trans hsource₁
      refine ⟨source',hsource',?_,?_⟩
      · exact (congrArg TaskOrigin.attempt horigin).trans
          (hattempt.trans (congrArg (·.attempt+1) heq.symm))
      · exact (congrArg TaskOrigin.contextId horigin).trans
          (hcontext.trans (congrArg TaskOrigin.contextId heq.symm))
    · rw [hsource] at hnone
      cases hnone
  · rw [ht] at hfirst
    cases hfirst

end Others

namespace RetryStore

variable {s s' : RetryStore} {t c : TaskId} {n : Nat} {db' : AgentDb} {r source : TaskRecord}

/-- The retries that are and were stored: each task has at most one for ever, it is stored as long
as the task is, and every answer is one of them. -/
structure Sound (s : RetryStore) : Prop where
  lineage : ∀ db ∈ s.committed, Lineage db
  once : ∀ t c c', s.Retried t c → s.Retried t c' → c = c'
  kept : ∀ t c, s.Retried t c → (s.db.tasks.get t).isSome = true → s.db.RetryOf t c
  answers : ∀ a ∈ s.answers, s.Retried a.1 a.2.taskId

theorem used_of_retried (h : s.Sound) (hretried : s.Retried t c) : s.Used t := by
  obtain ⟨db,hdb,r,hr,ht,_⟩ := hretried
  obtain ⟨source,hsource,_⟩ := h.lineage db hdb r hr t ht
  exact ⟨db,hdb,source,Table.mem_of_get hsource,Table.key_of_get hsource⟩

theorem committed_commit (db' : AgentDb) : (s.commit db').committed = db'::s.committed := rfl

theorem retried_commit : (s.commit db').Retried t c ↔ db'.RetryOf t c ∨ s.Retried t c := by
  simp only [Retried,committed_commit,List.mem_cons,exists_eq_or_imp]

/-- A transaction that is no acceptance of a retry commits. -/
theorem Sound.commit_other {creates : TaskId → Prop} (h : s.Sound)
    (hunused : ∀ t, creates t → ¬ s.Used t) (hfrom : TasksFrom creates s.db db') :
    (s.commit db').Sound ∧ ∀ t r', s.Used t → db'.tasks.get t = some r' →
      ∃ r, s.db.tasks.get t = some r ∧ r'.origin = r.origin := by
  have hsource : ∀ t r', s.Used t → db'.tasks.get t = some r' →
      ∃ r, s.db.tasks.get t = some r ∧ r'.origin = r.origin := fun t r' hused hr' =>
    (hfrom.origin t r' hr').resolve_right fun ⟨_,hcreates,_⟩ => hunused t hcreates hused
  have hold : ∀ t c, db'.RetryOf t c → s.Retried t c := by
    rintro t c ⟨r',hr',ht,rfl⟩
    obtain ⟨r,hr,horigin⟩ | ⟨_,_,hfirst⟩ := hfrom.origin r'.taskId r' (Table.get_of_mem hr')
    · exact ⟨s.db,List.mem_cons_self,r,Table.mem_of_get hr,
        (congrArg TaskOrigin.retryOfTaskId horigin).symm.trans ht,Table.key_of_get hr⟩
    · rw [ht] at hfirst
      cases hfirst
  have hretried : ∀ {t c}, (s.commit db').Retried t c → s.Retried t c := fun hretried =>
    (retried_commit.mp hretried).elim (hold _ _) id
  refine ⟨⟨fun db hdb => ?_,fun t c c' hc hc' => h.once t c c' (hretried hc) (hretried hc'),
    fun t c hc ht => ?_,fun a ha => retried_commit.mpr (.inr (h.answers a ha))⟩,hsource⟩
  · rcases List.mem_cons.mp hdb with rfl | hdb
    · exact (h.lineage s.db List.mem_cons_self).from hfrom
    · exact h.lineage db hdb
  · have hc := hretried hc
    obtain ⟨r',hr'⟩ := Option.isSome_iff_exists.mp ht
    obtain ⟨r,hr,_⟩ := hsource t r' (used_of_retried h hc) hr'
    obtain ⟨rc,hrc,hretry,rfl⟩ := h.kept t c hc (by rw [hr]; rfl)
    obtain ⟨source,hsource',_,hcontext⟩ := h.lineage s.db List.mem_cons_self rc hrc t hretry
    have hstored := hfrom.together t rc.taskId source rc hsource' (Table.get_of_mem hrc)
      hcontext.symm ht
    obtain ⟨rc',hrc'⟩ := Option.isSome_iff_exists.mp hstored
    have hused : s.Used rc.taskId := used_of_get (Table.get_of_mem hrc)
    obtain ⟨r₁,hr₁,horigin⟩ := hsource rc.taskId rc' hused hrc'
    cases (Table.get_of_mem hrc).symm.trans hr₁
    exact ⟨rc',Table.mem_of_get hrc',(congrArg TaskOrigin.retryOfTaskId horigin).trans hretry,
      Table.key_of_get hrc'⟩

/-- The rows after an accepted retry are those before it and the retry. -/
theorem row_of_accepted (hrows : RetryAccepted s.db db' t r source) {r' : TaskRecord}
    (hr' : r' ∈ db'.tasks.rows) : r' = r ∨ r' ∈ s.db.tasks.rows := by
  have hget := Table.get_of_mem hr'
  by_cases heq : r'.taskId = r.taskId
  · rw [heq,hrows.rows.stored.2] at hget
    exact .inl (Option.some.inj hget).symm
  · rw [hrows.rows.others _ heq] at hget
    exact .inr (Table.mem_of_get hget)

/-- The acceptance of a retry commits. -/
theorem Sound.commit_retry (h : s.Sound) (hunused : ¬ s.Used r.taskId)
    (hrows : RetryAccepted s.db db' t r source) :
    (s.commit db').Sound ∧ ∀ t r', s.Used t → db'.tasks.get t = some r' →
      s.db.tasks.get t = some r' := by
  have hne : ∀ {t}, s.Used t → t ≠ r.taskId := fun hused heq => hunused (heq ▸ hused)
  have hsource : ∀ t r', s.Used t → db'.tasks.get t = some r' → s.db.tasks.get t = some r' :=
    fun t r' hused hr' => (hrows.rows.others t (hne hused)).symm.trans hr'
  have hkept : ∀ t r', s.db.tasks.get t = some r' → db'.tasks.get t = some r' := fun t r' hr' =>
    (hrows.rows.others t (hne (used_of_get hr'))).trans hr'
  have hstored : r ∈ db'.tasks.rows := Table.mem_of_get hrows.rows.stored.2
  have hno : ∀ c, ¬ s.Retried t c := by
    intro c hc
    obtain ⟨r',hr',ht,_⟩ := h.kept t c hc (by rw [hrows.unchanged.1]; rfl)
    exact hrows.rows.first r' hr' ht
  have hretried : ∀ {t' c}, (s.commit db').Retried t' c →
      (t' = t ∧ c = r.taskId) ∨ s.Retried t' c := by
    intro t' c hc
    refine (retried_commit.mp hc).elim (fun ⟨r',hr',ht',hkey⟩ => ?_) .inr
    rcases row_of_accepted hrows hr' with rfl | hr'
    · rw [hrows.rows.retry.1] at ht'
      exact .inl ⟨(Option.some.inj ht').symm,hkey.symm⟩
    · exact .inr ⟨s.db,List.mem_cons_self,r',hr',ht',hkey⟩
  refine ⟨⟨fun db hdb => ?_,fun t' c c' hc hc' => ?_,fun t' c hc ht' => ?_,
    fun a ha => retried_commit.mpr (.inr (h.answers a ha))⟩,hsource⟩
  · rcases List.mem_cons.mp hdb with rfl | hdb
    · intro r' hr' t' ht'
      rcases row_of_accepted hrows hr' with rfl | hr'
      · rw [hrows.rows.retry.1,Option.some.injEq] at ht'
        subst ht'
        exact ⟨source,hrows.unchanged.2,hrows.rows.retry.2.2.1,hrows.rows.retry.2.1⟩
      · obtain ⟨source',hsource',hlater⟩ := h.lineage s.db List.mem_cons_self r' hr' t' ht'
        exact ⟨source',hkept _ _ hsource',hlater⟩
    · exact h.lineage db hdb
  · rcases hretried hc with ⟨rfl,rfl⟩ | hc <;> rcases hretried hc' with ⟨heq,rfl⟩ | hc'
    · rfl
    · exact absurd hc' (hno _)
    · exact absurd (heq ▸ hc) (hno _)
    · exact h.once t' c c' hc hc'
  · rcases hretried hc with ⟨rfl,rfl⟩ | hc
    · exact ⟨r,hstored,hrows.rows.retry.1,rfl⟩
    · obtain ⟨r',hr'⟩ := Option.isSome_iff_exists.mp ht'
      have hbefore := hsource t' r' (used_of_retried h hc) hr'
      obtain ⟨rc,hrc,hretry,hkey⟩ := h.kept t' c hc (by rw [hbefore]; rfl)
      exact ⟨rc,Table.mem_of_get (hkept _ _ (Table.get_of_mem hrc)),hretry,hkey⟩

/-- Every retry that appears was accepted in the one state and is stored in the other. -/
def Accepts (db db' : AgentDb) : Prop :=
  ∀ t r, db'.tasks.get r.taskId = some r → r.retryOfTaskId = some t →
    db.tasks.get r.taskId = none → ∃ source, RetryAccepted db db' t r source

theorem accepts_refl (db : AgentDb) : Accepts db db := by
  intro t r hr _ hnone
  rw [hr] at hnone
  cases hnone

theorem accepts_other {creates : TaskId → Prop} {db : AgentDb} (h : TasksFrom creates db db') :
    Accepts db db' := by
  intro t r hr hretry hnone
  obtain ⟨r₀,hr₀,_⟩ | ⟨_,_,hfirst⟩ := h.origin r.taskId r hr
  · rw [hr₀] at hnone
    cases hnone
  · rw [hretry] at hfirst
    cases hfirst

theorem accepts_retry (h : RetryAccepted s.db db' t r source) : Accepts s.db db' := by
  intro t' r' hr' hretry hnone
  rcases row_of_accepted h (Table.mem_of_get hr') with rfl | hold
  · rw [h.rows.retry.1,Option.some.injEq] at hretry
    exact ⟨source,hretry ▸ h⟩
  · rw [Table.get_of_mem hold] at hnone
    cases hnone

end RetryStore

section Steps

open RetryStore RetryStep

/-- The rest of what the connection executes ensures what all of it does. -/
def RetryConnection.Ok (s : RetryStore) : RetryConnection → Prop
  | .executing x program => StoreWrites x.val.scope program
  | .preparing t _ program => ∃ n, program.Relies (·.db) (fun _ => Move t 0) (fun _ => True)
      (fun s a _ => Prepared t s a) n s
  | .accepting t ids program n => program.Relies (·.db) (Move t)
      (fun s => ids.Unused s.db ∧ ¬ s.Used ids.taskId) (AcceptanceAnswer t ids) n s
  | .answering t retry => s.Retried t retry.taskId
  | _ => True

/-- The step of another connection, as this connection has to rely on it. -/
def RetryConnection.Sees (s s' : RetryStore) : RetryConnection → Prop
  | .preparing t _ _ => Move t 0 s s'
  | .accepting t _ _ n => Move t n s s'
  | _ => ∀ db ∈ s.committed, db ∈ s'.committed

structure RetryStore.Ok (s : RetryStore) : Prop where
  sound : s.Sound
  connections : ∀ i, (s.connections i).Ok s

variable {s s' s₁ : RetryStore} {c : RetryConnection} {i : Nat} {t : TaskId} {n : Nat}
  {db' : AgentDb} {core : CoreEnv} {env : LedgerEnv}

theorem RetryConnection.Ok.later (h : c.Ok s) (hsees : c.Sees s s') : c.Ok s' := by
  cases c with
  | idle | resolving => trivial
  | executing => exact h
  | preparing t ids program =>
    obtain ⟨n,hrelies⟩ := h
    exact ⟨n,hrelies.later (prepare_interference t) hsees⟩
  | accepting t ids program n => exact Relies.later (move_interference t) h hsees
  | answering t retry =>
    obtain ⟨db,hdb,hretry⟩ := h
    exact ⟨db,hsees db hdb,hretry⟩

/-- Nothing was committed. -/
theorem sees_of_same (hdb : s'.db = s.db) (hpast : s'.past = s.past) : c.Sees s s' := by
  have hcommitted : ∀ db ∈ s.committed, db ∈ s'.committed := by
    simp only [committed,hdb,hpast]
    exact fun _ h => h
  have hmove : ∀ t n, Move t n s s' := fun t n =>
    ⟨hcommitted,fun _ r hr => ⟨r,hdb ▸ hr,rfl,fun _ h => h,fun _ h => hdb ▸ h⟩⟩
  cases c <;> first | exact hmove _ _ | exact hcommitted

/-- The tasks that were ever stored are not stored anew, and what was checked holds. -/
theorem sees_commit (hsource : ∀ t r', s.Used t → db'.tasks.get t = some r' →
      ∃ r, s.db.tasks.get t = some r ∧ r'.origin = r.origin)
    (hkeeps : ∀ t ids program n, c = .accepting t ids program n → KeepsChecked t n s.db db') :
    c.Sees s (s.commit db') := by
  have hcommitted : ∀ db ∈ s.committed, db ∈ (s.commit db').committed :=
    fun db hdb => List.mem_cons_of_mem _ hdb
  have hmove : ∀ t n, KeepsChecked t n s.db db' → Move t n s (s.commit db') := by
    refine fun t n hkeeps => ⟨hcommitted,fun hused r' hr' => ?_⟩
    obtain ⟨r,hr,horigin⟩ := hsource t r' hused hr'
    obtain ⟨hretryable,heffectless⟩ := hkeeps r r' hr hr'
    exact ⟨r,hr,horigin,hretryable,heffectless⟩
  cases c with
  | preparing t ids program =>
    exact hmove t 0 fun _ _ _ _ => ⟨fun h => absurd h (by decide),fun h => absurd h (by decide)⟩
  | accepting t ids program n => exact hmove t n (hkeeps t ids program n rfl)
  | _ => exact hcommitted

/-- Connection `i` moved on, and the others rely on what it did. -/
theorem RetryStore.Ok.next (h : s.Ok) (hsound : s₁.Sound) (hconnections : s₁.connections = s.connections)
    (hsees : ∀ j, j ≠ i → (s.connections j).Sees s s₁) (hc : c.Ok s₁) :
    (s₁.setConnection i c).Ok := by
  have hsame : ∀ c' : RetryConnection, c'.Ok s₁ → c'.Ok (s₁.setConnection i c) := fun c' hc' =>
    hc'.later (sees_of_same rfl rfl)
  refine ⟨⟨hsound.lineage,hsound.once,hsound.kept,hsound.answers⟩,fun j => ?_⟩
  by_cases hj : j = i
  · subst hj
    simpa [setConnection] using hsame c hc
  · have hother := hsame _ ((h.connections j).later (hsees j hj))
    simpa [setConnection,hj,hconnections] using hother

/-- A step that commits nothing. -/
theorem RetryStore.Ok.keep (h : s.Ok) (hc : c.Ok s) : (s.setConnection i c).Ok :=
  h.next h.sound rfl (fun _ _ => sees_of_same rfl rfl) hc

theorem RetryStore.Ok.answer {retry : TaskRecord} (h : s.Ok) (hretried : s.Retried t retry.taskId) :
    ((s.answer t retry).setConnection i .idle).Ok := by
  refine h.next ⟨h.sound.lineage,h.sound.once,h.sound.kept,fun a ha => ?_⟩ rfl
    (fun _ _ => sees_of_same rfl rfl) trivial
  rcases List.mem_append.mp ha with ha | ha
  · exact h.sound.answers a ha
  · cases List.mem_singleton.mp ha
    exact hretried

/-- The end of a transaction that accepts no retry. -/
theorem RetryStore.Ok.end_other {x : OtherTxn} (h : s.Ok)
    (hunused : ∀ t, x.val.creates t → ¬ s.Used t)
    (hwrites : Relation.ReflTransGen (StoreWrite x.val.scope) s.db db')
    (hkeeps : ∀ j t ids program n, j ≠ i → s.connections j = .accepting t ids program n →
      KeepsChecked t n s.db db') :
    ((s.commit db').setConnection i .idle).Ok ∧ Accepts s.db db' := by
  have hfrom : TasksFrom x.val.creates s.db db' :=
    TasksFrom.writes (fun t ht => Option.eq_none_iff_forall_ne_some.mpr fun r hr =>
      hunused t ht (used_of_get hr)) x.property hwrites
  obtain ⟨hsound,hsource⟩ := h.sound.commit_other hunused hfrom
  exact ⟨h.next hsound rfl (fun j hj => sees_commit hsource fun t ids program n hc =>
    hkeeps j t ids program n hj hc) trivial,accepts_other hfrom⟩

/-- The end of an acceptance. -/
theorem RetryStore.Ok.end_acceptance {ids : RetryIds} {program : StoreTxn (TaskRecord × Bool)}
    {result : Except PyException (TaskRecord × Bool)} (h : s.Ok)
    (hi : s.connections i = .accepting t ids program n) (hunused : ids.Unused s.db ∧ ¬ s.Used ids.taskId)
    (hadvance : program.advance s.db = .inr (result,db'))
    (hkeeps : ∀ j t' ids program n, j ≠ i → s.connections j = .accepting t' ids program n →
      KeepsChecked t' n s.db (endAcceptance i t result db' s).db) :
    (endAcceptance i t result db' s).Ok ∧ Accepts s.db (endAcceptance i t result db' s).db := by
  have hrelies := h.connections i
  rw [hi] at hrelies
  cases result with
  | error e =>
    cases e with
    | integrityError m => exact ⟨h.keep trivial,accepts_refl _⟩
    | _ => exact ⟨h.keep trivial,accepts_refl _⟩
  | ok a =>
    obtain ⟨task,created⟩ := a
    have hanswer := Relies.result (move_interference t) hrelies hunused hadvance
    cases created with
    | false =>
      obtain ⟨rfl,hretried⟩ : s.db = db' ∧ s.Retried t task.taskId := hanswer
      have hunused : ∀ t, False → ¬ s.Used t := fun _ h => h.elim
      obtain ⟨hsound,hsource⟩ := h.sound.commit_other hunused (.refl _ s.db)
      exact ⟨h.next hsound rfl (fun j hj => sees_commit hsource fun t ids program n hc =>
        hkeeps j t ids program n hj hc) (retried_commit.mpr (.inr hretried)),accepts_refl _⟩
    | true =>
      obtain ⟨hid,r,source,hr,haccepted⟩ : task.taskId = ids.taskId ∧ ∃ r source : TaskRecord,
        r.taskId = ids.taskId ∧ RetryAccepted s.db db' t r source := hanswer
      obtain ⟨hsound,hsource⟩ := h.sound.commit_retry (hr ▸ hunused.2) haccepted
      have hretried : (s.commit db').Retried t task.taskId := retried_commit.mpr
        (.inl ⟨r,Table.mem_of_get haccepted.rows.stored.2,haccepted.rows.retry.1,hr.trans hid.symm⟩)
      exact ⟨h.next hsound rfl (fun j hj => sees_commit (fun t' r' hused hr' =>
        ⟨r',hsource t' r' hused hr',rfl⟩) fun t ids program n hc => hkeeps j t ids program n hj hc)
        hretried,accepts_retry haccepted⟩

/-- An undisturbed step keeps the retries sound, and stores a retry only by accepting it. -/
theorem RetryStore.ok_step {a : RetryStep} (h : s.Ok) (hguard : Undisturbed core env a s)
    (hs : step core env a s = some s') : s'.Ok ∧ Accepts s.db s'.db := by
  cases a with
  | begin i x =>
    simp only [step] at hs
    split at hs <;> cases hs
    exact ⟨h.keep (x.val.writes core env),accepts_refl _⟩
  | beginRetry i t ids =>
    simp only [step] at hs
    split at hs <;> cases hs
    exact ⟨h.keep ⟨0,prepareRetry_relies 0 s⟩,accepts_refl _⟩
  | abort i =>
    cases hs
    exact ⟨h.keep trivial,accepts_refl _⟩
  | statement i =>
    obtain ⟨hunused,hsources⟩ := hguard
    have hkeeps := hsources s' hs
    simp only [RetryStep.DrawsUnused,RetryConnection.DrawsUnused] at hunused
    have hi := h.connections i
    simp only [step] at hs
    split at hs
    · cases hs
    · rename_i x program hc
      rw [hc] at hi
      simp only [hc] at hunused
      have hunused : ∀ t, x.val.creates t → ¬ s.Used t := by
        rintro t ht ⟨db,hdb,r,hr,rfl⟩
        exact hunused db hdb r hr ht
      split at hs
      · rename_i rest hrest
        cases hs
        exact ⟨h.keep (Writes.rest hi hrest),accepts_refl _⟩
      · rename_i result db' hadvance
        cases hs
        exact h.end_other hunused (Writes.result hi hadvance) hkeeps
    · rename_i t ids program hc
      rw [hc] at hi
      obtain ⟨n,hi⟩ := hi
      split at hs
      · rename_i rest hrest
        cases hs
        exact ⟨h.keep ⟨n+1,hi.rest (prepare_interference t) trivial hrest⟩,accepts_refl _⟩
      · rename_i result db' hadvance
        cases hs
        cases result with
        | error e => exact ⟨h.keep trivial,accepts_refl _⟩
        | ok a =>
          have hanswer := hi.result (prepare_interference t) trivial hadvance
          cases a with
          | inl existing => exact ⟨h.answer hanswer,accepts_refl _⟩
          | inr seen => exact ⟨h.keep (acceptRetry_relies hanswer),accepts_refl _⟩
    · rename_i t ids program n hc
      rw [hc] at hi
      simp only [hc] at hunused
      split at hs
      · rename_i rest hrest
        cases hs
        exact ⟨h.keep (Relies.rest (move_interference t) hi hunused hrest),accepts_refl _⟩
      · rename_i result db' hadvance
        cases hs
        exact h.end_acceptance hc hunused hadvance hkeeps
    · rename_i t hc
      cases hs
      unfold resolve
      split
      · rename_i existing hexisting
        exact ⟨h.answer (retried_of_find hexisting),accepts_refl _⟩
      · exact ⟨h.keep trivial,accepts_refl _⟩
    · rename_i t retry hc
      rw [hc] at hi
      cases hs
      exact ⟨h.answer hi,accepts_refl _⟩

end Steps

section Main

open RetryStore RetryStep

/-- A retry is one attempt later than its source, so that no chain of retries closes. -/
theorem attempt_lt {db : AgentDb} {t c : TaskId} (h : Lineage db)
    (hchain : Relation.TransGen db.RetryOf t c) :
    ∃ source r, db.tasks.get t = some source ∧ db.tasks.get c = some r ∧
      source.attempt < r.attempt := by
  have hstep : ∀ {t c}, db.RetryOf t c → ∃ source r, db.tasks.get t = some source ∧
      db.tasks.get c = some r ∧ source.attempt < r.attempt := by
    rintro t c ⟨r,hr,ht,rfl⟩
    obtain ⟨source,hsource,hattempt,_⟩ := h r hr t ht
    exact ⟨source,r,hsource,Table.get_of_mem hr,by omega⟩
  induction hchain with
  | single hretry => exact hstep hretry
  | tail _ hretry ih =>
    obtain ⟨source,r₁,hsource,hr₁,hlt⟩ := ih
    obtain ⟨r₁',r,hr₁',hr,hlt'⟩ := hstep hretry
    cases hr₁.symm.trans hr₁'
    exact ⟨source,r,hsource,hr,hlt.trans hlt'⟩

theorem retryStore_start_ok : (RetryStore.start .empty).Ok := by
  have hno : ∀ t c, ¬ (RetryStore.start .empty).Retried t c := by
    rintro t c ⟨db,hdb,r,hr,_⟩
    cases List.mem_singleton.mp hdb
    cases hr
  refine ⟨⟨fun db hdb r hr => ?_,fun t c _ hc => absurd hc (hno t c),
    fun t c hc => absurd hc (hno t c),fun a ha => nomatch ha⟩,fun _ => trivial⟩
  cases List.mem_singleton.mp hdb
  cases hr

variable (core : CoreEnv) (env : LedgerEnv)

/-- A step is one of its connection alone. -/
theorem step_connections {core : CoreEnv} {env : LedgerEnv} {a : RetryStep} {s s' : RetryStore}
    {j : Nat} (hs : step core env a s = some s') (hj : j ≠ a.connection) :
    s'.connections j = s.connections j := by
  have hmoved : ∀ s₁ : RetryStore, s₁.connections = s.connections → ∀ c,
      (s₁.setConnection a.connection c).connections j = s.connections j := fun s₁ h₁ c => by
    simp [setConnection,hj,h₁]
  cases a with
  | begin i x | beginRetry i t ids =>
    simp only [step] at hs
    split at hs <;> cases hs
    exact hmoved s rfl _
  | abort i =>
    cases hs
    exact hmoved s rfl _
  | statement i =>
    simp only [step] at hs
    split at hs
    · cases hs
    · split at hs <;> cases hs
      · exact hmoved s rfl _
      · exact hmoved (s.commit _) rfl _
    · split at hs <;> cases hs
      · exact hmoved s rfl _
      · rename_i result _ _
        rcases result with e | existing | seen
        · exact hmoved s rfl _
        · exact hmoved (s.answer _ existing) rfl _
        · exact hmoved s rfl _
    · split at hs <;> cases hs
      · exact hmoved s rfl _
      · unfold endAcceptance
        split
        · exact hmoved (s.commit _) rfl _
        · exact hmoved s rfl _
        · exact hmoved s rfl _
    · cases hs
      unfold resolve
      split
      · exact hmoved (s.answer _ _) rfl _
      · exact hmoved s rfl _
    · cases hs
      exact hmoved (s.answer _ _) rfl _

/-- In every undisturbed interleaving: a task is retried at most once for ever; a stored retry has its
source beside it, in the same context and one attempt earlier, and no chain of retries closes; each
retry was accepted for an eligible source, which stays as it is; all answers for a source name the
same retry. -/
theorem retry_lineage {steps : List RetryStep} {s : RetryStore}
    (hrun : exec (step core env) steps (.start .empty) = some s)
    (hguard : Guarded (step core env) (Undisturbed core env) steps (.start .empty)) :
    (∀ t c c', s.Retried t c → s.Retried t c' → c = c') ∧
      (∀ r ∈ s.db.tasks.rows, ∀ t, r.retryOfTaskId = some t → ∃ source,
        s.db.tasks.get t = some source ∧ r.attempt = source.attempt+1 ∧
          r.contextId = source.contextId) ∧
      (∀ t, ¬ Relation.TransGen s.db.RetryOf t t) ∧
      (∀ a s', Undisturbed core env a s → step core env a s = some s' →
        ∀ t r, s'.db.tasks.get r.taskId = some r → r.retryOfTaskId = some t →
          s.db.tasks.get r.taskId = none → ∃ source, RetryAccepted s.db s'.db t r source) ∧
      ∀ t r r', (t,r) ∈ s.answers → (t,r') ∈ s.answers →
        s.Retried t r.taskId ∧ r.taskId = r'.taskId := by
  have hok : s.Ok := exec_invariant_guarded (fun a s s' h hg hs => (ok_step h hg hs).1) retryStore_start_ok
    hguard hrun
  have hlineage : Lineage s.db := hok.sound.lineage s.db List.mem_cons_self
  refine ⟨hok.sound.once,hlineage,fun t hcycle => ?_,fun a s' hg hs => (ok_step hok hg hs).2,
    fun t r r' hr hr' => ?_⟩
  · obtain ⟨source,r,hsource,hr,hlt⟩ := attempt_lt hlineage hcycle
    cases hsource.symm.trans hr
    exact Nat.lt_irrefl _ hlt
  · have h₁ := hok.sound.answers _ hr
    exact ⟨h₁,hok.sound.once t _ _ h₁ (hok.sound.answers _ hr')⟩

/-- A connection that no other runs beside disturbs nobody. -/
theorem guarded_alone {i : Nat} {steps : List RetryStep} {s : RetryStore}
    (hsteps : ∀ a ∈ steps, a.connection = i) (hidle : ∀ j, j ≠ i → s.connections j = .idle)
    (h : Guarded (step core env) DrawsUnused steps s) :
    Guarded (step core env) (Undisturbed core env) steps s := by
  induction steps generalizing s with
  | nil => trivial
  | cons a steps ih =>
    have ha : a.connection = i := hsteps a List.mem_cons_self
    refine ⟨⟨h.1,?_⟩,fun s' hs => ih (fun b hb => hsteps b (List.mem_cons_of_mem a hb))
      (fun j hj => ?_) (h.2 s' hs)⟩
    · cases a with
      | statement i' =>
        intro s' _ j t ids program n hj hc
        rw [hidle j (ha ▸ hj)] at hc
        cases hc
      | _ => trivial
    · rw [step_connections hs (ha ▸ hj)]
      exact hidle j hj

end Main

section Sample

/-- Transactions of the agent that are no acceptance of a retry, as one. -/
def otherTxn (xs : List CoreTxn) (hxs : ∀ x ∈ xs, ∀ t, x.retries t = false) : OtherTxn :=
  ⟨⟨xs.map fun x => .nested (.core x),none⟩,by
    rintro t ⟨op,hop,ht⟩
    obtain ⟨x,hx,rfl⟩ := List.mem_map.mp hop
    rw [ContextOp.retries,AgentTxn.is,hxs x hx] at ht
    cases ht⟩

/-- A task is accepted and claimed, and fails as one that another runtime left behind. -/
def sampleFailure : OtherTxn :=
  otherTxn (sampleAdmission ++ [CoreTxn.claimLocalExecution "task",
    CoreTxn.recordRuntimeRecoveryFailure "task" "runtime_restarted" "The runtime restarted."]) (by
  simp [sampleAdmission,CoreTxn.retries])

def sampleRetryIds : RetryIds := ⟨"msg-2","retry","thread-2","route-2"⟩

/-- The failed task is retried. -/
def sampleRetry : List RetryStep :=
  [.begin 0 sampleFailure] ++ List.replicate 3 (.statement 0) ++
    [.beginRetry 0 "task" sampleRetryIds] ++ List.replicate 12 (.statement 0)

def runRetries (steps : List RetryStep) : Option RetryStore :=
  exec (RetryStep.step sampleCore sampleEnv) steps (.start .empty)

/-- A call of a tool that writes, made by the runtime that still executes the failed task. -/
def sampleEffect : OtherTxn := otherTxn [.ledger (.prepare (some "thread") 1
  ⟨"write_file",.obj [],some "call-a"⟩ ⟨"builtin","filesystem","local",false,"local",false,false⟩
  false 1)] (by simp [CoreTxn.retries])

/-- The call is recorded after the re-check of the acceptance and before its first write. -/
def sampleDisturbed : List RetryStep :=
  [.begin 0 sampleFailure] ++ List.replicate 3 (.statement 0) ++
    [.beginRetry 0 "task" sampleRetryIds] ++ List.replicate 10 (.statement 0) ++
    [.begin 1 sampleEffect] ++ List.replicate 7 (.statement 1)

end Sample

theorem retry_lineage_sample : ∃ s, runRetries sampleRetry = some s ∧ s.Retried "task" "retry" := by
  have hguard : Guarded (RetryStep.step sampleCore sampleEnv)
      (RetryStep.Undisturbed sampleCore sampleEnv) sampleRetry (.start .empty) :=
    guarded_alone (i := 0) _ _ (by simp [sampleRetry,RetryStep.connection]) (fun _ _ => rfl)
      (by decide +kernel)
  have hanswers : (runRetries sampleRetry).map
      (fun s => s.answers.map fun a => (a.1,a.2.taskId)) = some [("task","retry")] := by
    decide +kernel
  obtain ⟨s,hrun,hanswers⟩ := Option.map_eq_some_iff.mp hanswers
  obtain ⟨⟨t,r⟩,ha,hr⟩ : ∃ a ∈ s.answers, (a.1,a.2.taskId) = ("task","retry") :=
    List.mem_map.mp (hanswers ▸ List.mem_singleton_self _)
  obtain ⟨rfl,hid⟩ := Prod.mk.inj hr
  have hretried := ((retry_lineage sampleCore sampleEnv hrun hguard).2.2.2.2 _ r r ha ha).1
  exact ⟨s,hrun,hid ▸ hretried⟩

/-- The retry is stored although a call with an effect is recorded for its source. -/
theorem stale_recheck_accepts : ∃ s s', runRetries sampleDisturbed = some s ∧
    RetryStep.step sampleCore sampleEnv (.statement 0) s = some s' ∧
    Guarded (RetryStep.step sampleCore sampleEnv) RetryStep.DrawsUnused
      (sampleDisturbed++[.statement 0]) (.start .empty) ∧
    s.db.tasks.get "retry" = none ∧ s'.db.RetryOf "task" "retry" ∧ ¬ s.db.Effectless "task" := by
  have haccepts : (runRetries sampleDisturbed).bind (fun s =>
      (RetryStep.step sampleCore sampleEnv (.statement 0) s).map fun s' =>
        decide (s.db.tasks.get "retry" = none ∧ s'.db.RetryOf "task" "retry" ∧
          ¬ s.db.Effectless "task")) = some true := by decide +kernel
  have hguard : Guarded (RetryStep.step sampleCore sampleEnv) RetryStep.DrawsUnused
      (sampleDisturbed++[.statement 0]) (.start .empty) := by decide +kernel
  obtain ⟨s,hrun,hs⟩ := Option.bind_eq_some_iff.mp haccepts
  obtain ⟨s',hstep,haccepts⟩ := Option.map_eq_some_iff.mp hs
  exact ⟨s,s',hrun,hstep,hguard,of_decide_eq_true haccepts⟩

end VermayAgent
