import VermayAgent.Library.SharedState
import VermayAgent.StatusLaws
import VermayAgent.TaskFrames

/-! What the application writes, one step at a time.
Every transaction, whatever its earlier statements read, commits a chain of the steps below; an
invariant of the store is proved by one case analysis over them, for any number of connections. -/
namespace VermayAgent
open Library Txn MainAgentStore

namespace MainAgentStore

/-- The transaction of `delete_terminal_context`. -/
def deleteContextRows (contextId : ContextId) (taskIds : List TaskId) : StoreTxn Unit := do
  deleteTaskRows contextId taskIds
  deleteTasks contextId
  deleteRouteDecisions contextId
  deleteMessages contextId
  deleteContextRow contextId

end MainAgentStore

/-- The tasks that a transaction may create, at all and as retries, those that it may answer for in a
context, by an agent's message, by an output message or by the final answer of a remote process, and
the contexts that it may delete. -/
structure WriteScope where
  creates : TaskId → Prop
  retries : TaskId → Prop
  answers : TaskId → ContextId → Prop
  deletes : ContextId → Prop

/-- Whatever the one scope allows, the other allows. -/
structure WriteScope.Le (A B : WriteScope) : Prop where
  creates : ∀ t, A.creates t → B.creates t
  retries : ∀ t, A.retries t → B.retries t
  answers : ∀ t c, A.answers t c → B.answers t c
  deletes : ∀ c, A.deletes c → B.deletes c

def WriteScope.all : WriteScope := ⟨fun _ => True,fun _ => True,fun _ _ => True,fun _ => True⟩

theorem WriteScope.le_all (A : WriteScope) : A.Le .all :=
  ⟨fun _ _ => trivial,fun _ _ => trivial,fun _ _ _ => trivial,fun _ _ => trivial⟩

/-- The message that a task is made for is in the task's context, with the sequence of its cut. -/
def AgentDb.InputOf (db : AgentDb) (r : TaskRecord) : Prop :=
  0 < r.inputContextSequence ∧ ∃ m, db.messages.get r.inputMessageId = some m ∧
    m.contextId = r.contextId ∧ m.contextSequence = r.inputContextSequence

/-- One step of a write part. -/
inductive StoreWrite (scope : WriteScope) : AgentDb → AgentDb → Prop where
  | context {db contexts} {r : ContextRecord} (hfirst : r.nextMessageSequence = 1)
      (hinsert : db.contexts.insert? r = some contexts) : StoreWrite scope db {db with contexts}
  | title (db : AgentDb) (c : ContextId) (title : Option String) :
      StoreWrite scope db {db with contexts := (
        db.contexts.update (fun r => r.contextId = c) fun r => {r with title})}
  | message {db messages context} {m : MessageRecord}
      (hanswers : ∀ t, m.role = .agent → m.taskId = some t → scope.answers t m.contextId)
      (hcontext : db.contexts.get m.contextId = some context)
      (hsequence : m.contextSequence = context.nextMessageSequence)
      (hinsert : db.messages.insert? m = some messages) :
      StoreWrite scope db {db with
        contexts := (db.contexts.update (fun r => r.contextId = m.contextId)
          fun r => {r with nextMessageSequence := r.nextMessageSequence+1})
        messages := messages}
  | ingress (db : AgentDb) (messageIngress) : StoreWrite scope db {db with messageIngress}
  | decisions (db : AgentDb) (routeDecisions) : StoreWrite scope db {db with routeDecisions}
  | task {db tasks} {r : TaskRecord} (hcreates : scope.creates r.taskId)
      (hretries : r.retryOfTaskId ≠ none → scope.retries r.taskId)
      (hinput : r.assignedAgentId = none → db.InputOf r) (hcontext : (db.contexts.get r.contextId).isSome = true)
      (hthread : ∀ r' ∈ db.tasks.rows, r'.runtimeThreadId ≠ r.runtimeThreadId)
      (hretry : r.retryOfTaskId = none ∨ ∀ r' ∈ db.tasks.rows, r'.retryOfTaskId ≠ r.retryOfTaskId)
      (houtput : r.outputMessageId = none)
      (hinsert : db.tasks.insert? r = some tasks) : StoreWrite scope db {db with tasks}
  | progress (db : AgentDb) (t : TaskId) {f : TaskRecord → TaskRecord}
      {hf : ∀ r, (f r).taskId = r.taskId} (horigin : ∀ r, (f r).origin = r.origin)
      (houtput : ∀ r, (f r).outputMessageId = r.outputMessageId) :
      StoreWrite scope db {db with tasks := db.tasks.update (fun r => r.taskId = t) f hf}
  | output (db : AgentDb) {t : TaskId} {c : ContextId} (m : MessageId) (hanswers : scope.answers t c) :
      StoreWrite scope db {db with tasks := (db.tasks.update (fun r => r.taskId = t) fun r =>
        {r with outputMessageId := some m, lifecycleRevision := r.lifecycleRevision+1})}
  | event (db : AgentDb) (e : TaskEventRecord) :
      StoreWrite scope db {db with taskEvents := db.taskEvents++[e], nextEventId := e.eventId+1}
  | artifact {db artifacts} {r : ArtifactRecord}
      (hanswers : ∀ t, r.artifactId = t ++ ":remote_final_answer" → scope.answers t r.contextId)
      (hinsert : db.artifacts.insert? r = some artifacts) : StoreWrite scope db {db with artifacts}
  | parts (db : AgentDb) {id : ArtifactId} (parts : List Json) (metadata : Json)
      (hanswers : ∀ t, id = t ++ ":remote_final_answer" → ∃ c, scope.answers t c) :
      StoreWrite scope db {db with artifacts := (
        db.artifacts.update (fun r => r.artifactId = id) fun r => {r with parts, metadata})}
  | pending (db : AgentDb) (pendingContinuations) :
      StoreWrite scope db {db with pendingContinuations}
  | queued (db : AgentDb) (queuedExecutions) : StoreWrite scope db {db with queuedExecutions}
  | invocations (db : AgentDb) (toolInvocations) :
      StoreWrite scope db {db with toolInvocations}
  | agents (db : AgentDb) (registeredAgents) : StoreWrite scope db {db with registeredAgents}
  | delegations (db : AgentDb) (delegatedTasks) : StoreWrite scope db {db with delegatedTasks}
  | deletion {db db'} {c : ContextId} (taskIds : List TaskId) {u : Unit} (hdeletes : scope.deletes c)
      (h : (deleteContextRows c taskIds).run db = .ok (u,db')) : StoreWrite scope db db'

variable {A B : WriteScope} {t : TaskId} {c : ContextId}

theorem StoreWrite.mono (hAB : A.Le B) {db db' : AgentDb} (h : StoreWrite A db db') :
    StoreWrite B db db' := by
  cases h with
  | context hfirst hinsert => exact .context hfirst hinsert
  | title => exact .title _ _ _
  | message ha hcontext hsequence hinsert =>
    exact .message (fun t hr ht => hAB.answers t _ (ha t hr ht)) hcontext hsequence hinsert
  | ingress => exact .ingress _ _
  | decisions => exact .decisions _ _
  | task hcreates hretries hinput hcontext hthread hretry houtput hinsert =>
    exact .task (hAB.creates _ hcreates) (fun h => hAB.retries _ (hretries h)) hinput hcontext hthread hretry houtput hinsert
  | progress _ horigin houtput => exact .progress _ _ horigin houtput
  | output m ha => exact .output _ m (hAB.answers _ _ ha)
  | event => exact .event _ _
  | artifact ha hinsert => exact .artifact (fun t ht => hAB.answers t _ (ha t ht)) hinsert
  | parts _ _ ha => exact .parts _ _ _ fun t ht => (ha t ht).imp fun c => hAB.answers t c
  | pending => exact .pending _ _
  | queued => exact .queued _ _
  | invocations => exact .invocations _ _
  | agents => exact .agents _ _
  | delegations => exact .delegations _ _
  | deletion taskIds hd h => exact .deletion taskIds (hAB.deletes _ hd) h

/-- The transaction writes by these steps only. -/
abbrev StoreWrites (scope : WriteScope) {α : Type} (x : StoreTxn α) : Prop :=
  x.Writes (StoreWrite scope)

namespace StoreWrites

section Messages

theorem createContext (title : Option String) (metadata : Json) :
    StoreWrites A (createContext c title metadata) := by
  refine .bind (.write? fun db db' h => ?_) fun _ => .bind (.select _) fun _ => .orFail _ _
  obtain ⟨contexts,hinsert,rfl⟩ := Option.map_eq_some_iff.mp h
  exact .context rfl hinsert

/-- The counter, the row that is read back and the message are written in one state. -/
theorem appendMessage (id : MessageId) (role : MessageRole) (parts : List Json)
    (taskId : Option TaskId) (metadata : Json)
    (hanswers : ∀ t, role = .agent → taskId = some t → A.answers t c) :
    StoreWrites A (appendMessage id c role parts taskId metadata) := by
  refine .bind (.select _) fun _ => .bind (.orFail _ _) fun _ => .bind (.select _) fun o => ?_
  cases o with
  | some existing => exact .bind (.require _ _) fun _ => .pure _
  | none =>
    refine .write_bind fun db r db' h => ?_
    simp only [getContext,getMessage,insertMessage,uniqueConstraint,bind_ok,run_select,
      run_statement,orFail_ok,require_ok,write?_ok,Option.map_eq_some_iff,Except.ok.injEq,
      Prod.mk.injEq] at h
    obtain ⟨_,_,⟨rfl,rfl⟩,context',_,⟨hcontext',rfl⟩,_,_,⟨_,_,⟨rfl,rfl⟩,_,_,⟨_,rfl⟩,messages,
      hinsert,rfl⟩,_,_,⟨rfl,rfl⟩,_,rfl⟩ := h
    rw [Table.get_update] at hcontext'
    obtain ⟨context,hcontext,rfl⟩ := Option.map_eq_some_iff.mp hcontext'
    have hkey : context.contextId = c := Table.key_of_get hcontext
    simp only [hkey,decide_true,if_true,Nat.add_sub_cancel] at hinsert ⊢
    exact .single (.message hanswers hcontext rfl hinsert)

end Messages

section Ingress

theorem updateInProgressIngress (p : MessageIngressRecord → Bool)
    (f : MessageIngressRecord → MessageIngressRecord) (hf : ∀ r, (f r).messageId = r.messageId) :
    StoreWrites A (updateInProgressIngress p f hf) :=
  .write fun db => .ingress db _

theorem insertMessageIngress (record : MessageIngressRecord) :
    StoreWrites A (insertMessageIngress record) := by
  refine .statement (.bind (.select _) fun o => ?_)
  cases o with
  | some existing => exact .pure _
  | none =>
    refine .bind (.write? fun db db' h => ?_) fun _ => .pure _
    obtain ⟨messageIngress,_,rfl⟩ := Option.map_eq_some_iff.mp h
    exact .ingress db messageIngress

theorem updateOneInProgressIngress (m : MessageId)
    (f : MessageIngressRecord → MessageIngressRecord) (hf : ∀ r, (f r).messageId = r.messageId) :
    StoreWrites A (updateOneInProgressIngress m f hf) :=
  .statement (.bind (.select _) fun _ => .bind (.require _ _) fun _ =>
    updateInProgressIngress _ _ _)

theorem reserveMessageIngress (m : MessageId) (fingerprint : String) :
    StoreWrites A (reserveMessageIngress m c fingerprint) :=
  .bind (.select _) fun _ => .bind (.orFail _ _) fun _ => .bind (.select _) fun _ =>
    .bind (.orFail _ _) fun _ => .bind (.require _ _) fun _ => .bind (insertMessageIngress _)
    fun _ => .bind (.select _) fun _ => .bind (.orFail _ _) fun _ => .pure _

theorem failInProgressMessageIngresses (error : IngressError) :
    StoreWrites A (failInProgressMessageIngresses error) :=
  .bind (.select _) fun _ => .statement (.bind (.select _) fun _ =>
    .bind (updateInProgressIngress _ _ _) fun _ => .pure _)

theorem setMessageIngressRouteDecision (m : MessageId) (decisionId : String) :
    StoreWrites A (setMessageIngressRouteDecision m decisionId) :=
  .bind (.select _) fun _ => .bind (.orFail _ _) fun _ =>
    .bind (updateOneInProgressIngress _ _ _) fun _ => .bind (.select _) fun _ => .orFail _ _

theorem resolveMessageIngress (m : MessageId) (kind : MessageIngressOutcomeKind) (id : String) :
    StoreWrites A (resolveMessageIngress m kind id) :=
  .bind (updateOneInProgressIngress _ _ _) fun _ => .bind (.select _) fun _ => .orFail _ _

theorem failMessageIngress (m : MessageId) (error : IngressError) :
    StoreWrites A (failMessageIngress m error) :=
  .bind (updateInProgressIngress _ _ _) fun _ => .bind (.select _) fun _ => .orFail _ _

theorem recordRouteDecision (record : RouteDecisionRecord) :
    StoreWrites A (recordRouteDecision record) := by
  have hinsert : StoreWrites A (insertRouteDecision record) := by
    refine .statement (.bind (.select _) fun _ => .bind (.require _ _) fun _ =>
      .write? fun db db' h => ?_)
    obtain ⟨routeDecisions,_,rfl⟩ := Option.map_eq_some_iff.mp h
    exact .decisions db routeDecisions
  exact .bind (.select _) fun _ => .bind (.orFail _ _) fun _ => .bind hinsert fun _ =>
    .bind (.select _) fun _ => .orFail _ _

end Ingress

section Tasks

theorem requireTask : StoreWrites A (requireTask t) := .bind (.select _) fun _ => .orFail _ _

/-- The record that is read is that of the task. -/
theorem requireTask_bind {α : Type} {f : TaskRecord → StoreTxn α}
    (h : ∀ r : TaskRecord, r.taskId = t → StoreWrites A (f r)) :
    StoreWrites A (MainAgentStore.requireTask t >>= f) := by
  unfold MainAgentStore.requireTask
  rw [bind_assoc]
  exact .select_bind fun _ => .orFail_bind fun r hr => h r (Table.key_of_get hr)

theorem updateTask {f : TaskRecord → TaskRecord} {hf : ∀ r, (f r).taskId = r.taskId}
    (horigin : ∀ r, (f r).origin = r.origin)
    (houtput : ∀ r, (f r).outputMessageId = r.outputMessageId) : StoreWrites A (updateTask t f hf) :=
  .write fun db => .progress db t horigin houtput

theorem appendTaskEvent (type : String) (status : Option TaskStatus) (payload : Json) :
    StoreWrites A (appendTaskEvent t type status payload) :=
  .bind requireTask fun _ => .statement (.bind (.select _) fun _ =>
    .bind (.write fun db => .event db _) fun _ => .pure _)

/-- A task is inserted as it was asked for; in one state, its input message is there. -/
theorem insertTask_writes {r : TaskRecord} {db db' : AgentDb} {u : Unit}
    (hcreates : A.creates r.taskId) (hretries : r.retryOfTaskId ≠ none → A.retries r.taskId)
    (hinput : r.assignedAgentId = none → db.InputOf r)
    (houtput : r.outputMessageId = none) (h : (insertTask r).run db = .ok (u,db')) :
    StoreWrite A db db' := by
  simp only [insertTask,foreignKey,getContext,uniqueConstraint,bind_ok,run_select,run_statement,
    require_ok,write?_ok,Option.map_eq_some_iff,Except.ok.injEq,Prod.mk.injEq] at h
  obtain ⟨_,_,⟨rfl,rfl⟩,_,_,⟨hcontext,rfl⟩,_,_,⟨rfl,rfl⟩,_,_,⟨hthread,rfl⟩,_,_,⟨hretry,rfl⟩,tasks,
    hinsert,rfl⟩ := h
  exact .task hcreates hretries hinput hcontext hthread hretry houtput hinsert

theorem createRemoteTask {new : NewTask} (hcreates : A.creates new.taskId)
    (hretries : new.retryOfTaskId ≠ none → A.retries new.taskId)
    (hremote : new.assignedAgentId ≠ none) : StoreWrites A (createTask new) :=
  .bind (.select _) fun _ => .bind (.orFail _ _) fun _ => .bind (.require _ _) fun _ =>
    .bind (.require _ _) fun _ => .bind (.statement_run fun _ _ _ h =>
      .single (insertTask_writes hcreates hretries (fun hlocal => absurd hlocal hremote) rfl h))
    fun _ =>
    .bind (.select _) fun _ => .orFail _ _

/-- Inside a write part the input message is read in the state that the task is inserted in. -/
theorem createTask_run {new : NewTask} (hcreates : A.creates new.taskId)
    (hretries : new.retryOfTaskId ≠ none → A.retries new.taskId) :
    Txn.Moves (fun db => db) (StoreWrite A) (createTask new) := by
  intro db r db' h
  simp only [createTask,getMessage,getTask,bind_ok,run_select,require_ok,orFail_ok,
    Except.ok.injEq,Prod.mk.injEq] at h
  obtain ⟨_,_,⟨rfl,rfl⟩,m,_,⟨hm,rfl⟩,_,_,⟨hcontext,rfl⟩,_,_,⟨hpositive,rfl⟩,_,_,hinsert,_,_,
    ⟨rfl,rfl⟩,_,rfl⟩ := h
  exact .single (insertTask_writes hcreates hretries (fun _ => ⟨hpositive,m,hm,hcontext,rfl⟩) rfl
    hinsert)

theorem transitionLocalTask (target : TaskStatus) (payload : Json) (error : TaskError) :
    StoreWrites A (transitionLocalTask t target payload error) :=
  .bind requireTask fun _ => .bind (.require _ _) fun _ => .bind (.ofExcept _) fun _ =>
    .ite (.pure _) (.bind (.ofExcept _) fun _ =>
    .bind (updateTask (fun _ => rfl) fun _ => rfl) fun _ => .bind (.select _) fun _ =>
    .bind (.orFail _ _) fun _ => .bind (appendTaskEvent _ _ _) fun _ => .pure _)

theorem updateTaskStatus (status : TaskStatus) (error : TaskError) :
    StoreWrites A (updateTaskStatus t status error) :=
  .bind requireTask fun _ => .ite (.pure _) (.bind (updateTask (fun _ => rfl) fun _ => rfl)
    fun _ => .bind (.select _) fun _ => .orFail _ _)

theorem setTaskOutputMessage (m : MessageId) (hanswers : A.answers t c) :
    StoreWrites A (setTaskOutputMessage t m) :=
  .bind (.select _) fun _ => .bind (.orFail _ _) fun _ => .bind requireTask fun _ =>
    .ite (.pure _) (.bind (.write fun db => .output db m hanswers) fun _ =>
    .bind (.select _) fun _ => .orFail _ _)

end Tasks

section Artifacts

variable {id : ArtifactId} (hanswers : ∀ t, id = t ++ ":remote_final_answer" → A.answers t c)
include hanswers

theorem putArtifact (parts : List Json) (metadata : Json) :
    StoreWrites A (putArtifact ⟨id,t,c,parts,metadata⟩) := by
  refine .statement (.bind (.select _) fun o => ?_)
  cases o with
  | some current => exact .write fun db => .parts db _ _ fun t ht => ⟨c,hanswers t ht⟩
  | none =>
    refine .bind (.select _) fun _ => .bind (.require _ _) fun _ => .write? fun db db' h => ?_
    obtain ⟨artifacts,hinsert,rfl⟩ := Option.map_eq_some_iff.mp h
    exact .artifact hanswers hinsert

theorem upsertArtifact (parts : List Json) (metadata : Json) :
    StoreWrites A (upsertArtifact id t c parts metadata) := by
  have hstore : StoreWrites A (storeArtifact ⟨id,t,c,parts,metadata⟩) :=
    .bind (putArtifact hanswers _ _) fun _ => .bind (updateTask (fun _ => rfl) fun _ => rfl)
      fun _ => .bind (.select _) fun _ => .orFail _ _
  refine .bind requireTask fun _ => .bind (.select _) fun o => ?_
  cases o with
  | some current => exact .bind (.require _ _) fun _ => .ite (.pure _) hstore
  | none => exact hstore

end Artifacts

section Executions

theorem setPendingContinuation (kind : String) (inputRequest : Json) :
    StoreWrites A (setPendingContinuation t kind inputRequest) := by
  refine .bind requireTask fun _ => .bind (.require _ _) fun _ =>
    .bind (.statement (.bind (.select _) fun o => ?_)) fun _ => .bind (.select _) fun _ =>
    .orFail _ _
  cases o with
  | some current => exact .write fun db => .pending db _
  | none =>
    refine .write? fun db db' h => ?_
    obtain ⟨rows,_,rfl⟩ := Option.map_eq_some_iff.mp h
    exact .pending db rows

theorem clearPendingContinuation : StoreWrites A (clearPendingContinuation t) :=
  .write fun db => .pending db _

theorem clearQueuedTaskExecution : StoreWrites A (clearQueuedTaskExecution t) :=
  .write fun db => .queued db _

theorem requirePending (kind : String) : StoreWrites A (requirePending t kind) :=
  .bind (.select _) fun _ => .bind (.orFail _ _) fun _ => .bind (.require _ _) fun _ => .pure _

theorem consumePendingContinuation (kind : String) :
    StoreWrites A (consumePendingContinuation t kind) :=
  .bind (requirePending _) fun _ => .bind (.statement (.bind (.select _) fun _ =>
    .bind (.write fun db => .pending db _) fun _ => .pure _)) fun _ =>
    .bind (.require _ _) fun _ => .pure _

theorem getQueuedTaskExecution : StoreWrites A (getQueuedTaskExecution t) := by
  refine .bind (.select _) fun o => ?_
  cases o with
  | none => exact .pure _
  | some row => exact .map _ (.ofExcept _)

theorem normalizedPayload (kind : QueuedTaskExecutionKind)
    (payload : Option QueuedTaskExecutionPayload) :
    StoreWrites A (normalizedPayload t kind payload) := by
  cases payload with
  | some payload => exact .pure _
  | none => exact .bind (.require _ _) fun _ => .pure _

theorem enqueueTaskExecution (kind : QueuedTaskExecutionKind) (thread : ThreadId)
    (payload : Option QueuedTaskExecutionPayload) (version : Int) :
    StoreWrites A (enqueueTaskExecution t kind thread payload version) := by
  refine .bind requireTask fun _ => .bind (.require _ _) fun _ => .bind (.require _ _) fun _ =>
    .bind (.require _ _) fun _ => .bind (.require _ _) fun _ => .bind (normalizedPayload _ _)
    fun _ => .bind (.ofExcept _) fun _ => .bind getQueuedTaskExecution fun o => ?_
  cases o with
  | some existing => exact .bind (.require _ _) fun _ => .pure _
  | none =>
    refine .bind (.write? fun db db' h => ?_) fun _ => .bind getQueuedTaskExecution fun _ =>
      .orFail _ _
    obtain ⟨rows,_,rfl⟩ := Option.map_eq_some_iff.mp h
    exact .queued db rows

theorem claimQueuedTaskExecution : StoreWrites A (claimQueuedTaskExecution t) := by
  refine .bind requireTask fun _ => .ite (.pure _) (.bind getQueuedTaskExecution fun o => ?_)
  cases o with
  | none => exact .pure _
  | some command =>
    exact .bind (.require _ _) fun _ => .bind (.statement (.bind (.select _) fun _ =>
      .bind clearQueuedTaskExecution fun _ => .pure _)) fun _ => .ite (.pure _)
      (.bind (transitionLocalTask _ _ _) fun _ => .pure _)

/-- The decision is the first row that an acceptance writes; what follows is in one state. -/
theorem acceptLocalTaskFromMessage {a : LocalTaskAcceptance} (hcreates : A.creates a.taskId)
    (hretries : a.retryOfTaskId ≠ none → A.retries a.taskId) :
    StoreWrites A (acceptLocalTaskFromMessage a) := by
  have hinsert : StoreWrites A (do
      foreignKey (← getContext a.decision.contextId)
      Txn.write? (fun db => (db.routeDecisions.insert? a.decision).map
        fun routeDecisions => {db with routeDecisions})
        (.integrityError "UNIQUE constraint failed: route_decisions.decision_id")) := by
    refine .bind (.select _) fun _ => .bind (.require _ _) fun _ => .write? fun db db' h => ?_
    obtain ⟨routeDecisions,_,rfl⟩ := Option.map_eq_some_iff.mp h
    exact .decisions db routeDecisions
  have hcreate : Txn.Moves (fun db => db) (StoreWrite A) (createLocalTask a.taskId
      a.decision.contextId a.decision.messageId a.runtimeThreadId a.retryOfTaskId a.attempt) :=
    (createTask_run hcreates hretries).bind fun _ => (appendTaskEvent _ _ _).moves.bind fun _ =>
      (Writes.pure _).moves
  rw [MainAgentStore.acceptLocalTaskFromMessage,MainAgentStore.recordRouteDecision,
    insertRouteDecision]
  simp only [bind_assoc]
  refine .bind (.require _ _) fun _ => .bind (.select _) fun _ => .bind (.orFail _ _) fun _ =>
    .statement_bind hinsert fun _ => ?_
  exact (Writes.select _).moves.bind fun _ => (Writes.orFail _ _).moves.bind fun _ =>
    (setMessageIngressRouteDecision _ _).moves.bind fun _ => hcreate.bind fun _ =>
    (resolveMessageIngress _ _ _).moves.bind fun _ =>
    .ite ((transitionLocalTask _ _ _).moves.bind fun _ =>
      (enqueueTaskExecution _ _ _ _).moves.bind fun _ => (Writes.pure _).moves)
      (Writes.pure _).moves

end Executions

section Delegation

theorem upsertRegisteredAgent (record : RegisteredAgentRecord) :
    StoreWrites A (upsertRegisteredAgent record) := by
  refine .bind (.statement (.bind (.select _) fun o => ?_)) fun _ => .bind (.select _) fun _ =>
    .orFail _ _
  cases o with
  | some current => exact .write fun db => .agents db _
  | none =>
    refine .write? fun db db' h => ?_
    obtain ⟨agents,_,rfl⟩ := Option.map_eq_some_iff.mp h
    exact .agents db agents

theorem createDelegatedTask (record : DelegatedTaskRecord) :
    StoreWrites A (createDelegatedTask record) := by
  refine .bind (.select _) fun _ => .bind (.orFail _ _) fun _ => .bind (.select _) fun _ =>
    .bind (.orFail _ _) fun _ => .bind (.select _) fun _ => .bind (.orFail _ _) fun _ =>
    .bind (.select _) fun _ => .bind (.orFail _ _) fun _ => .bind (.write? fun db db' h => ?_)
    fun _ => .bind (.select _) fun _ => .orFail _ _
  obtain ⟨delegatedTasks,_,rfl⟩ := Option.map_eq_some_iff.mp h
  exact .delegations db delegatedTasks

theorem updateDelegatedTaskStatus (id status : String) (metadata : Json) :
    StoreWrites A (updateDelegatedTaskStatus id status metadata) :=
  .bind (.select _) fun _ => .bind (.orFail _ _) fun _ =>
    .bind (.write fun db => .delegations db _) fun _ => .bind (.select _) fun _ => .orFail _ _

end Delegation

section ToolInvocations

theorem updateToolInvocations (p : ToolInvocationRecord → Bool)
    (f : ToolInvocationRecord → ToolInvocationRecord)
    (hf : ∀ r, (f r).invocationId = r.invocationId) :
    StoreWrites A (updateToolInvocations p f hf) :=
  .write fun db => .invocations db _

theorem requireToolInvocation (id : InvocationId) : StoreWrites A (requireToolInvocation id) :=
  .bind (.select _) fun _ => .orFail _ _

theorem resolveToolInvocationApproval (id : InvocationId) (toolName digest : String)
    (approved : Bool) (reason : Option String) :
    StoreWrites A (resolveToolInvocationApproval t id toolName digest approved reason) :=
  .bind (requireToolInvocation _) fun _ => .bind (.require _ _) fun _ =>
    .bind (.require _ _) fun _ => .ite (.pure _) (.bind (.require _ _) fun _ =>
    .bind (.require _ _) fun _ => .bind (.ite (updateToolInvocations _ _ _)
      (updateToolInvocations _ _ _)) fun _ => .bind (.select _) fun _ => .orFail _ _)

theorem resolvePendingToolInvocationApproval (inputRequest : Json) (approved : Bool)
    (reason : Option String) :
    StoreWrites A (resolvePendingToolInvocationApproval t inputRequest approved reason) := by
  unfold MainAgentStore.resolvePendingToolInvocationApproval
  split
  · exact .pure _
  · exact .bind (.require _ _) fun _ => .map _ (resolveToolInvocationApproval _ _ _ _ _)
  · exact .fail _

theorem markRunningToolInvocationsUncertain (errorCode errorMessage : String) (retryable : Bool) :
    StoreWrites A (markRunningToolInvocationsUncertain t errorCode errorMessage retryable) :=
  .statement (.bind (.select _) fun _ => .bind (updateToolInvocations _ _ _) fun _ => .pure _)

theorem cancelPreparedToolInvocations (reason : String) :
    StoreWrites A (cancelPreparedToolInvocations t reason) :=
  .statement (.bind (.select _) fun _ => .bind (updateToolInvocations _ _ _) fun _ => .pure _)

theorem createOrGetToolInvocation (new : NewToolInvocation) (now : Nat) :
    StoreWrites A (createOrGetToolInvocation new now) := by
  have howner : StoreWrites A (requireInvocationOwner new) :=
    .bind requireTask fun _ => .bind (.require _ _) fun _ => .bind (.require _ _) fun _ =>
      .require _ _
  have hvalid : ∀ r, StoreWrites A (validateToolInvocationIdentity r new) := fun _ =>
    .require _ _
  refine .bind (.require _ _) fun _ => .bind (.require _ _) fun _ => .bind howner fun _ =>
    .bind (.select _) fun o => ?_
  cases o with
  | some existing => exact .bind (hvalid _) fun _ => .pure _
  | none =>
    refine .bind (.select _) fun o => ?_
    cases o with
    | some identityMatch => exact .bind (hvalid _) fun _ => .pure _
    | none =>
      refine .bind (.statement (.bind (.select _) fun _ => .bind (.require _ _) fun _ =>
        .write? fun db db' h => ?_)) fun _ => .bind (.select _) fun _ => .orFail _ _
      obtain ⟨toolInvocations,_,rfl⟩ := Option.map_eq_some_iff.mp h
      exact .invocations db toolInvocations

theorem beginToolInvocation (id : InvocationId) : StoreWrites A (beginToolInvocation id) :=
  .bind (requireToolInvocation _) fun _ => .ite (.pure _) (.ite (.pure _)
    (.bind (updateToolInvocations _ _ _) fun _ => .bind (.select _) fun _ => .orFail _ _))

theorem markToolInvocationUncertain (id : InvocationId) (errorCode errorMessage : String)
    (retryable : Bool) :
    StoreWrites A (markToolInvocationUncertain id errorCode errorMessage retryable) :=
  .bind (requireToolInvocation _) fun _ => .ite (.pure _) (.ite (.pure _)
    (.bind (updateToolInvocations _ _ _) fun _ => .bind (.select _) fun _ => .orFail _ _))

theorem cancelToolInvocation (id : InvocationId) (reason : String) :
    StoreWrites A (cancelToolInvocation id reason) :=
  .bind (requireToolInvocation _) fun _ => .ite (.pure _) (.ite (.pure _)
    (.bind (updateToolInvocations _ _ _) fun _ => .bind (.select _) fun _ => .orFail _ _))

theorem completeToolInvocationSuccess (id : InvocationId) (parts : List Json) (metadata : Json) :
    StoreWrites A (completeToolInvocationSuccess id parts metadata) := by
  have hid : ∀ {c} t, id ++ ":result" = t ++ ":remote_final_answer" → A.answers t c := fun t heq =>
    absurd heq (append_ne_append 0 (by decide) (by decide) (by decide) _ _)
  exact .bind (requireToolInvocation _) fun _ => .ite (.pure _) (.bind (.require _ _) fun _ =>
    .bind (upsertArtifact hid _ _) fun _ => .bind (appendTaskEvent _ _ _) fun _ =>
    .bind (updateToolInvocations _ _ _) fun _ => .bind (.select _) fun _ => .orFail _ _)

theorem prepare (env : LedgerEnv) (thread : Option ThreadId) (loopIndex : Int) (call : ToolCall)
    (metadata : ToolMetadata) (approvalRequired : Bool) (now : Nat) :
    StoreWrites A (MainAgentToolInvocationLedger.prepare env thread loopIndex call metadata
      approvalRequired now) := by
  have hprior : ∀ new, StoreWrites A (MainAgentToolInvocationLedger.priorInvocation new) := by
    intro new
    refine .bind (.select _) fun o => ?_
    cases o with
    | some existing => exact .pure _
    | none => exact .select _
  have hnew : ∀ new, StoreWrites A (MainAgentToolInvocationLedger.prepareNew new now) := by
    intro new
    refine .bind (hprior new) fun o => ?_
    cases o.filter fun r => blocksReplay r.status with
    | some prior => exact .pure _
    | none => exact .map _ (createOrGetToolInvocation _ _)
  cases thread with
  | none => exact .pure _
  | some thread =>
    refine .ite (.pure _) (.bind (.select _) fun task => ?_)
    cases MainAgentToolInvocationLedger.invocationRequest env task thread loopIndex call metadata
        approvalRequired with
    | none => exact .pure _
    | some new => exact hnew new

theorem ledger (env : LedgerEnv) (op : LedgerOp) : StoreWrites A (op.txn env) := by
  cases op with
  | prepare => exact .map _ (prepare _ _ _ _ _ _ _)
  | createOrGet => exact .map _ (createOrGetToolInvocation _ _)
  | resolveApproval => exact .map _ (resolveToolInvocationApproval _ _ _ _ _)
  | begin => exact .map _ (.map _ (beginToolInvocation _))
  | finish id response =>
    refine .map _ ?_
    unfold MainAgentToolInvocationLedger.finishExecution
    split
    · exact markToolInvocationUncertain _ _ _ _
    · exact completeToolInvocationSuccess _ _ _
  | complete => exact .map _ (completeToolInvocationSuccess _ _ _)
  | markUncertain => exact .map _ (markToolInvocationUncertain _ _ _ _)
  | cancel => exact .map _ (cancelToolInvocation _ _)
  | cancelPrepared => exact .map _ (cancelPreparedToolInvocations _)
  | markRunningUncertain => exact .map _ (markRunningToolInvocationsUncertain _ _ _)

end ToolInvocations

section Recorders

open TaskOutcomeRecorder

variable {result : LocalTaskRunResult}

theorem closeUnresolvedExecution (errorCode errorMessage preparedReason : String)
    (retryable : Bool) :
    StoreWrites A (closeUnresolvedExecution t errorCode errorMessage retryable preparedReason) :=
  .bind (markRunningToolInvocationsUncertain _ _ _) fun _ =>
    .bind (cancelPreparedToolInvocations _) fun _ => .bind clearPendingContinuation fun _ =>
    clearQueuedTaskExecution

theorem recordCancellation : StoreWrites A (recordCancellation t) :=
  .bind requireTask fun _ => .ite (.pure _) (.bind (transitionLocalTask _ _ _) fun _ =>
    .bind (closeUnresolvedExecution _ _ _ _) fun _ => .pure _)

theorem unlessEnded {record : TaskRecord → StoreTxn TaskRecord}
    (hrecord : ∀ r, r.taskId = t → StoreWrites A (record r)) :
    StoreWrites A (unlessEnded t record) :=
  requireTask_bind fun _ hr => .ite (.pure _) (.ite recordCancellation (hrecord _ hr))

theorem recordFailure (error : PyException) : StoreWrites A (recordFailure t error) :=
  unlessEnded fun _ _ => .bind (transitionLocalTask _ _ _) fun _ =>
    .bind (closeUnresolvedExecution _ _ _ _) fun _ => .pure _

theorem recordRuntimeRecoveryFailure (errorCode errorMessage : String) :
    StoreWrites A (recordRuntimeRecoveryFailure t errorCode errorMessage) :=
  .bind requireTask fun _ => .ite (.pure _) (.bind (transitionLocalTask _ _ _) fun _ =>
    .bind (closeUnresolvedExecution _ _ _ _) fun _ => .pure _)

theorem persistObservations (task : TaskRecord) :
    StoreWrites A (persistObservations task result) := by
  have hid : ∀ t, task.taskId ++ ":tool_observations" = t ++ ":remote_final_answer" →
      A.answers t task.contextId := fun t heq =>
    absurd heq (append_ne_append 0 (by decide) (by decide) (by decide) _ _)
  exact .ite (.pure _) (.bind (.select _) fun _ => .bind (upsertArtifact hid _ _) fun _ =>
    .bind (appendTaskEvent _ _ _) fun _ => .pure _)

/-- What the agent says about a task is said by a transaction that answers for it. -/
theorem appendAgentMessage (id : MessageId) (parts : List Json) (metadata : Json)
    (hanswers : A.answers t c) :
    StoreWrites A (MainAgentStore.appendMessage id c .agent parts (some t) metadata) :=
  appendMessage _ _ _ _ _ fun _ _ ht => Option.some.inj ht ▸ hanswers

/-- After the task was read, the transaction answers for it in its context. -/
def AnswersFor (t : TaskId) (x : StoreTxn TaskRecord) : Prop :=
  ∃ f, x = (MainAgentStore.requireTask t >>= f) ∧ ∀ (A : WriteScope) (r : TaskRecord), r.taskId = t →
    A.answers t r.contextId → StoreWrites A (f r)

theorem AnswersFor.writes {x : StoreTxn TaskRecord} (hx : AnswersFor t x) (ht : ∀ c, A.answers t c) :
    StoreWrites A x := by
  obtain ⟨f,rfl,hf⟩ := hx
  exact requireTask_bind fun r hr => hf A r hr (ht r.contextId)

theorem AnswersFor.unlessEnded {record : TaskRecord → StoreTxn TaskRecord}
    (hrecord : ∀ (A : WriteScope) (r : TaskRecord), r.taskId = t → A.answers t r.contextId →
      StoreWrites A (record r)) : AnswersFor t (TaskOutcomeRecorder.unlessEnded t record) :=
  ⟨_,rfl,fun A r hr ht => .ite (.pure _) (.ite recordCancellation (hrecord A r hr ht))⟩

theorem recordCompletedResult (metadata : Json) (id : MessageId) :
    AnswersFor t (recordCompletedResult t result metadata id) := by
  refine .unlessEnded fun A r _ ht => ?_
  have hid : ∀ t', t ++ ":final_answer" = t' ++ ":remote_final_answer" → A.answers t' r.contextId :=
    fun t' heq => absurd heq (append_ne_append 12 (by decide) (by decide) (by decide) _ _)
  exact .bind (persistObservations _) fun _ => .bind (appendAgentMessage _ _ _ ht) fun _ =>
    .bind (upsertArtifact hid _ _) fun _ => .bind (appendTaskEvent _ _ _) fun _ =>
    .bind (setTaskOutputMessage _ ht) fun _ => .bind (transitionLocalTask _ _ _) fun _ =>
    .bind clearPendingContinuation fun _ => .bind clearQueuedTaskExecution fun _ => .pure _

theorem recordFailedResult (status : TaskStatus) :
    AnswersFor t (recordFailedResult t result status) :=
  .unlessEnded fun _ _ _ _ => .bind (persistObservations _) fun _ =>
    .bind (transitionLocalTask _ _ _) fun _ => .bind (closeUnresolvedExecution _ _ _ _) fun _ =>
    .pure _

theorem recordInterruptedResult (status : TaskStatus) (inputRequest : Json) :
    AnswersFor t (recordInterruptedResult t result status inputRequest) := by
  refine .unlessEnded fun A r hr ht => ?_
  have hrequest : ∀ active, StoreWrites A (appendInputRequestMessage r active inputRequest) :=
    fun _ => .ite (.bind (appendAgentMessage _ _ _ (hr ▸ ht)) fun _ => .pure _) (.pure _)
  exact .bind (persistObservations _) fun _ => .bind (setPendingContinuation _ _) fun _ =>
    .bind (transitionLocalTask _ _ _) fun _ => .bind (hrequest _) fun _ =>
    .bind clearQueuedTaskExecution fun _ => .pure _

/-- A recorded result is left as it is, or an answer of the task is recorded. -/
theorem recordLocalResult_cases (metadata : Json) (id : MessageId) (seen : TaskRecord)
    {P : StoreTxn TaskRecord → Prop} (hquiet : ∀ x, (∀ A, StoreWrites A x) → P x)
    (hguard : ∀ x, P x → P (ofExcept (hashRequestKind result) >>= fun _ => x))
    (hanswers : ∀ x, AnswersFor t x → P x) :
    P (recordLocalResult t result metadata id seen) := by
  unfold TaskOutcomeRecorder.recordLocalResult
  split
  · exact hquiet _ fun _ => .pure _
  · split
    · exact hquiet _ fun _ => recordCancellation
    · refine hguard _ ?_
      split
      · exact hanswers _ (recordCompletedResult _ _)
      · exact hquiet _ fun _ => .pure _
      · split
        · exact hquiet _ fun _ => recordFailure _
        · exact hanswers _ (recordInterruptedResult _ _)
      · split
        · exact hquiet _ fun _ => recordFailure _
        · exact hanswers _ (recordInterruptedResult _ _)
      · exact hanswers _ (recordFailedResult _)

theorem recordLocalResult (metadata : Json) (id : MessageId) (seen : TaskRecord)
    (ht : ∀ c, A.answers t c) : StoreWrites A (recordLocalResult t result metadata id seen) :=
  recordLocalResult_cases metadata id seen (fun _ hx => hx A) (fun _ hx => .bind (.ofExcept _)
    fun _ => hx) fun _ hx => hx.writes ht

theorem recordRemoteSnapshot (snapshot : RemoteAgentTaskSnapshot) (id : MessageId) :
    AnswersFor t (recordRemoteSnapshot t snapshot id) := by
  refine ⟨_,rfl,fun A task htask ht => ?_⟩
  have hvalid : ∀ delegation, StoreWrites A (validateRemoteProxySnapshot delegation snapshot) :=
    fun _ => .bind (.orFail _ _) fun _ => .bind (.require _ _) fun _ => .require _ _
  refine .bind (.select _) fun _ => .bind (.orFail _ _) fun delegation =>
    .bind (hvalid delegation) fun _ => .ite (.pure _)
    (.bind (updateDelegatedTaskStatus _ _ _) fun _ => .bind (.ite (.ite (.pure _) ?_) (.pure _))
    fun _ => .ite (.pure _) (.bind (updateTaskStatus _ _) fun _ => .bind (appendTaskEvent _ _ _)
    fun _ => .pure _))
  have hid : ∀ t', task.taskId ++ ":remote_final_answer" = t' ++ ":remote_final_answer" →
      A.answers t' task.contextId := fun t' heq => (String.append_left_inj _).mp heq ▸ htask ▸ ht
  refine .bind (.select _) fun o => ?_
  cases o with
  | some artifact => exact .bind (.select _) fun _ => .pure _
  | none =>
    exact .bind (appendAgentMessage _ _ _ (htask ▸ ht)) fun _ => .bind (upsertArtifact hid _ _)
      fun _ => .bind (appendTaskEvent _ _ _) fun _ => setTaskOutputMessage _ (htask ▸ ht)

end Recorders

section Commands

open MainAgentCore

theorem validateExplicitRouteMetadata (core : CoreEnv) (metadata : Json) :
    StoreWrites A (validateExplicitRouteMetadata core metadata) :=
  .bind (.require _ _) fun _ => .ite (.pure _) (.bind (.orFail _ _) fun _ =>
    .bind (.select _) fun _ => .bind (.orFail _ _) fun _ => .bind (.require _ _) fun _ =>
    .require _ _)

theorem resultFromMessageIngress (ingress : MessageIngressRecord) :
    StoreWrites A (resultFromMessageIngress ingress) := by
  refine .bind (.orFail _ _) fun _ => .bind (.orFail _ _) fun _ => .bind (.orFail _ _) fun _ =>
    .bind (.select _) fun _ => .bind (.orFail _ _) fun decision => .bind (.require _ _) fun _ => ?_
  cases decision.kind with
  | localMessage =>
    exact .bind (.require _ _) fun _ => .bind (.select _) fun _ => .bind (.orFail _ _) fun _ =>
      .pure _
  | localTask =>
    exact .bind (.require _ _) fun _ => .bind (.select _) fun _ => .bind (.orFail _ _) fun _ =>
      .pure _
  | remoteAgent =>
    refine .bind (.require _ _) fun _ => .bind (.select _) fun _ => .bind (.orFail _ _)
      fun delegation => .ite ?_ (.bind (.orFail _ _) fun _ => .bind (.select _) fun _ =>
        .bind (.orFail _ _) fun _ => .pure _)
    have hmessage : StoreWrites A (delegatedMessage delegation) := by
      unfold delegatedMessage
      split
      · exact .ite (.pure _) (.select _)
      · exact .pure _
    exact .bind hmessage fun _ => .bind (.orFail _ _) fun _ => .pure _

theorem preparedExistingMessageIngress (request : MainAgentRequest) (fingerprint : String)
    (ingress : MessageIngressRecord) :
    StoreWrites A (preparedExistingMessageIngress request fingerprint ingress) := by
  refine .bind (.require _ _) fun _ => .bind (.require _ _) fun _ => .bind (.select _) fun _ =>
    .bind (.orFail _ _) fun _ => .bind (.require _ _) fun _ => ?_
  cases ingress.state with
  | resolved => exact .bind (resultFromMessageIngress ingress) fun _ => .pure _
  | failed => exact .fail _
  | inProgress => exact .fail _

theorem resolveContextId (contextId : Option ContextId) (newContextId : ContextId)
    (title : Option String) : StoreWrites A (resolveContextId contextId newContextId title) := by
  cases contextId with
  | none => exact .bind (createContext _ _) fun _ => .pure _
  | some contextId => exact .bind (.select _) fun _ => .bind (.orFail _ _) fun _ => .pure _

theorem prepareMessage (core : CoreEnv) (request : MainAgentRequest) (messageId : MessageId)
    (contextId : ContextId) : StoreWrites A (prepareMessage core request messageId contextId) := by
  refine .bind (.require _ _) fun _ => .bind (validateExplicitRouteMetadata _ _) fun _ =>
    .bind (.select _) fun o => ?_
  cases o with
  | some ingress => exact preparedExistingMessageIngress _ _ _
  | none =>
    exact .bind (.select _) fun _ => .bind (.require _ _) fun _ =>
      .bind (resolveContextId _ _ _) fun _ =>
      .bind (appendMessage _ _ _ _ _ fun _ _ ht => nomatch ht) fun _ =>
      .bind (reserveMessageIngress _ _) fun _ => .ite (preparedExistingMessageIngress _ _ _)
      (.pure _)

theorem acceptPendingContinuation (expectedKind operation : String) (resumePayload : Json)
    (kind : QueuedTaskExecutionKind) (payload : QueuedTaskExecutionPayload) :
    StoreWrites A (acceptPendingContinuation t expectedKind operation resumePayload kind
      payload) := by
  have hvalid : StoreWrites A (validatePendingContinuation t expectedKind operation) :=
    .bind requireTask fun _ => .bind (.require _ _) fun _ => .bind (requirePending _) fun _ =>
      .pure _
  have hresolve : ∀ pending, StoreWrites A
      (resolveBoundApproval t expectedKind pending resumePayload) := fun _ =>
    .ite (.bind (resolvePendingToolInvocationApproval _ _ _) fun _ => .pure _) (.pure _)
  exact .bind hvalid fun _ => .bind (consumePendingContinuation _) fun _ =>
    .bind (hresolve _) fun _ => .bind (appendTaskEvent _ _ _) fun _ =>
    .bind (transitionLocalTask _ _ _) fun _ => .bind (enqueueTaskExecution _ _ _ _) fun _ =>
    .pure _

theorem submitTaskInput (request : MainAgentRequest) (messageId : MessageId) :
    StoreWrites A (submitTaskInput t request messageId) := by
  have hvalid : StoreWrites A (validatePendingContinuation t "user_input_required" "input") :=
    .bind requireTask fun _ => .bind (.require _ _) fun _ => .bind (requirePending _) fun _ =>
      .pure _
  exact .bind (.require _ _) fun _ => .bind (.require _ _) fun _ => .bind hvalid fun _ =>
    .bind (.require _ _) fun _ => .bind (appendMessage _ _ _ _ _ fun _ hr _ => nomatch hr) fun _ =>
    .bind (appendTaskEvent _ _ _) fun _ => acceptPendingContinuation _ _ _ _ _

theorem commitCancellation (reason : Option String) (active : Bool) :
    StoreWrites A (commitCancellation t reason active) := by
  have hdirect : ∀ payload, StoreWrites A (cancelDirectly t reason payload) := fun _ =>
    .bind (transitionLocalTask _ _ _) fun _ => .bind (cancelPreparedToolInvocations _) fun _ =>
      .bind clearPendingContinuation fun _ => .bind clearQueuedTaskExecution fun _ => .pure _
  exact .bind requireTask fun _ => .bind (.require _ _) fun _ => .ite (.pure _)
    (.ite (.bind (transitionLocalTask _ _ _) fun _ => .ite (.pure _) (hdirect _)) (hdirect _))

theorem claimLocalExecution : StoreWrites A (claimLocalExecution t) := by
  refine .bind claimQueuedTaskExecution fun o => ?_
  cases o with
  | none => exact .pure _
  | some claimed =>
    exact .ite (.bind (.require _ _) fun _ => .bind (.select _) fun _ => .pure _) (.pure _)

theorem acceptRetry (core : CoreEnv) {ids : RetryIds} (seen : TaskRecord)
    (inputMessage : MessageRecord) (hcreates : A.creates ids.taskId) (hretries : A.retries ids.taskId) :
    StoreWrites A (acceptRetry core t ids seen inputMessage) := by
  have hfailed : StoreWrites A (retryableFailedLocalTask t) :=
    .bind (.select _) fun _ => .bind (.orFail _ _) fun _ => .bind (.require _ _) fun _ =>
      .bind (.require _ _) fun _ => .bind (.require _ _) fun _ => .bind (.select _) fun _ =>
      .bind (.require _ _) fun _ => .pure _
  refine .bind hfailed fun _ => .bind (.select _) fun o => ?_
  cases o with
  | some existing => exact .pure _
  | none =>
    exact .bind (appendMessage _ _ _ _ _ fun _ hr _ => nomatch hr) fun _ =>
      .bind (reserveMessageIngress _ _) fun _ =>
      .bind (acceptLocalTaskFromMessage hcreates fun _ => hretries) fun _ =>
      .bind (appendTaskEvent _ _ _) fun _ => .bind (appendTaskEvent _ _ _) fun _ => .pure _

end Commands
end StoreWrites

theorem deleteContextRows_writes (taskIds : List TaskId) (hdeletes : A.deletes c) :
    StoreWrites A (deleteContextRows c taskIds) := by
  refine Writes.write_bind fun db u db' h => ?_
  have hrun : (deleteContextRows c taskIds).run db = .ok (u,db') := by
    rw [deleteContextRows,deleteTaskRows,run_bind,run_write]
    exact h
  exact .single (.deletion taskIds hdeletes hrun)

/-- The retry that the transaction may create. -/
def CoreTxn.retries (t : TaskId) : CoreTxn → Bool
  | .retryTask _ ids _ _ => ids.taskId = t
  | _ => false

/-- The task whose answers the transaction may record. -/
def CoreTxn.answers (t : TaskId) : CoreTxn → Bool
  | .recordLocalTaskResult taskId _ _ _ _ | .recordRemoteSnapshot taskId _ _ => taskId = t
  | _ => false

def CoreTxn.scope (x : CoreTxn) : WriteScope :=
  ⟨fun t => x.creates t = true,fun t => x.retries t = true,fun t _ => x.answers t = true,
    fun _ => False⟩

/-- Whatever its statements read, a transaction of the main agent writes by these steps. -/
theorem CoreTxn.writes (core : CoreEnv) (env : LedgerEnv) (x : CoreTxn) :
    StoreWrites x.scope (x.txn core env) := by
  cases x with
  | upsertRegisteredAgent => exact .map _ (StoreWrites.upsertRegisteredAgent _)
  | prepareMessage => exact .map _ (StoreWrites.prepareMessage _ _ _ _)
  | recordMessageIngressFailure => exact .map _ (StoreWrites.failMessageIngress _ _)
  | recordMessageIngressRoute =>
    exact .map _ (.bind (StoreWrites.recordRouteDecision _) fun _ =>
      .bind (StoreWrites.setMessageIngressRouteDecision _ _) fun _ => .pure _)
  | completeLocalMessage =>
    exact .map _ (.bind (StoreWrites.appendMessage _ _ _ _ _ fun _ _ ht => nomatch ht) fun _ =>
      .bind (StoreWrites.resolveMessageIngress _ _ _) fun _ => .pure _)
  | acceptLocalTask =>
    exact .map _ (StoreWrites.acceptLocalTaskFromMessage (decide_eq_true rfl) (absurd rfl))
  | completeRemoteMessage =>
    exact .map _ (.bind (StoreWrites.appendMessage _ _ _ _ _ fun _ _ ht => nomatch ht) fun _ =>
      .bind (StoreWrites.createDelegatedTask _) fun _ =>
      .bind (StoreWrites.resolveMessageIngress _ _ _) fun _ => .pure _)
  | completeRemoteTask =>
    exact .map _ (.bind (.orFail _ _) fun _ =>
      .bind (StoreWrites.createRemoteTask (decide_eq_true rfl) (absurd rfl) (by simp)) fun _ =>
      .bind (StoreWrites.appendTaskEvent _ _ _) fun _ =>
      .bind (StoreWrites.createDelegatedTask _) fun _ =>
      .bind (StoreWrites.resolveMessageIngress _ _ _) fun _ => .pure _)
  | recordRemoteSnapshot => exact .map _ ((StoreWrites.recordRemoteSnapshot _ _).writes fun _ => decide_eq_true rfl)
  | resolveApproval => exact .map _ (StoreWrites.acceptPendingContinuation _ _ _ _ _)
  | submitTaskInput => exact .map _ (StoreWrites.submitTaskInput _ _)
  | cancelTask => exact .map _ (StoreWrites.commitCancellation _ _)
  | retryTask => exact .map _ (StoreWrites.acceptRetry _ _ _ (decide_eq_true rfl) (decide_eq_true rfl))
  | claimLocalExecution => exact .map _ StoreWrites.claimLocalExecution
  | recordLocalTaskResult => exact .map _ (StoreWrites.recordLocalResult _ _ _ fun _ => decide_eq_true rfl)
  | recordLocalTaskFailure => exact .map _ (StoreWrites.recordFailure _)
  | recordTaskCancellation => exact .map _ StoreWrites.recordCancellation
  | recordRuntimeRecoveryFailure => exact .map _ (StoreWrites.recordRuntimeRecoveryFailure _ _)
  | failInProgressMessageIngresses => exact .map _ (StoreWrites.failInProgressMessageIngresses _)
  | ledger op => exact .map _ (StoreWrites.ledger env op)

def AgentTxn.scope : AgentTxn → WriteScope
  | .core x => x.scope
  | deleteTerminalContext c _ =>
    ⟨fun _ => False,fun _ => False,fun _ _ => False,fun c' => c' = c⟩
  | _ => ⟨fun _ => False,fun _ => False,fun _ _ => False,fun _ => False⟩

theorem AgentTxn.writes (core : CoreEnv) (env : LedgerEnv) (a : AgentTxn) :
    StoreWrites a.scope (a.txn core env) := by
  cases a with
  | core x => exact .map _ (x.writes core env)
  | updateContextTitle c title =>
    exact .map _ (.bind (.write fun db => .title db c title) fun _ => .select _)
  | updateRegisteredAgentCard =>
    exact .map _ (.bind (.write fun db => .agents db _) fun _ => .select _)
  | deleteRegisteredAgent =>
    exact .statement (.bind (.select _) fun _ => .bind (.select _) fun _ =>
      .bind (.require _ _) fun _ => .write fun db => .agents db _)
  | deleteTerminalContext c listed =>
    exact .bind (.select _) fun _ => .bind (.require _ _) fun _ => deleteContextRows_writes _ rfl

section Rows

variable {db db' : AgentDb} {r : TaskRecord}

/-- What the deletion of a context leaves of every table. -/
theorem deleteContextRows_ok {taskIds : List TaskId} {u : Unit}
    (h : (deleteContextRows c taskIds).run db = .ok (u,db')) :
    db' = {db with
      contexts := db.contexts.delete fun r => r.contextId = c
      messages := db.messages.delete fun r => r.contextId = c
      messageIngress := db.messageIngress.delete fun r => r.contextId = c
      routeDecisions := db.routeDecisions.delete fun r => r.contextId = c
      tasks := db.tasks.delete fun r => r.contextId = c
      taskEvents := db.taskEvents.filter fun e => e.taskId ∉ taskIds
      artifacts := db.artifacts.delete fun r => r.contextId = c
      toolInvocations := db.toolInvocations.delete fun r => r.taskId ∈ taskIds
      pendingContinuations := db.pendingContinuations.delete fun r => r.taskId ∈ taskIds
      queuedExecutions := db.queuedExecutions.delete fun r => r.taskId ∈ taskIds
      delegatedTasks := db.delegatedTasks.delete fun r => r.contextId = c} := by
  simp only [deleteContextRows,deleteTaskRows,deleteTasks,deleteRouteDecisions,deleteMessages,
    deleteContextRow,bind_ok,run_write,deleteUnreferenced_ok,Except.ok.injEq,Prod.mk.injEq] at h
  obtain ⟨_,_,⟨_,rfl⟩,_,_,⟨_,rfl⟩,_,_,⟨_,rfl⟩,_,_,⟨_,rfl⟩,_,rfl⟩ := h
  rfl

theorem deleteTerminalContext_rows {listed : List TaskId} {u : Unit}
    (h : (deleteTerminalContext c listed).run db = .ok (u,db')) :
    ∃ taskIds, (deleteContextRows c taskIds).run db = .ok (u,db') := by
  simp only [deleteTerminalContext,bind_ok,run_select,require_ok,Except.ok.injEq,Prod.mk.injEq] at h
  obtain ⟨tasks,_,⟨_,rfl⟩,_,_,⟨_,rfl⟩,h⟩ := h
  refine ⟨tasks.map (·.taskId),?_⟩
  simp only [deleteContextRows,bind_ok]
  exact h

/-- A task whose context is not deleted stays, made from what it was made from. -/
theorem StoreWrite.origin (hw : StoreWrite A db db') (hr : db.tasks.get t = some r)
    (hkept : ¬ A.deletes r.contextId) :
    ∃ r', db'.tasks.get t = some r' ∧ r'.origin = r.origin := by
  have hkey : r.taskId = t := Table.key_of_get hr
  cases hw with
  | task hcreates hretries hinput hcontext hthread hretry houtput hinsert =>
    rename_i new
    have hne : new.taskId ≠ t := by
      rintro rfl
      rw [Table.insert?_fresh hinsert] at hr
      cases hr
    refine ⟨r,?_,rfl⟩
    exact (Table.get_insert? hinsert t).trans (by rw [if_neg hne,hr])
  | progress t' horigin =>
    simp only [Table.get_update,hr,Option.map_some,Option.some.injEq,exists_eq_left']
    split
    · exact horigin r
    · rfl
  | output =>
    simp only [Table.get_update,hr,Option.map_some,Option.some.injEq,exists_eq_left']
    split <;> rfl
  | deletion taskIds hdeletes hrun =>
    rename_i c u
    have hne : r.contextId ≠ c := fun heq => hkept (heq ▸ hdeletes)
    refine ⟨r,?_,rfl⟩
    rw [deleteContextRows_ok hrun]
    simp [Table.get_delete,hr,Option.filter,hne]
  | _ => exact ⟨r,hr,rfl⟩

end Rows
end VermayAgent
