import VermayAgent.Library.Table
import VermayAgent.Lifecycle

/-! The main agent's relational store.
Each operation runs inside a transaction; an identifier that the program draws at random
is a parameter, so that a clash with a stored key shows up as the integrity error it is. -/
namespace VermayAgent
open Library Txn

structure AgentDb where
  contexts : Table ContextRecord.contextId
  messages : Table MessageRecord.messageId
  messageIngress : Table MessageIngressRecord.messageId
  routeDecisions : Table RouteDecisionRecord.decisionId
  tasks : Table TaskRecord.taskId
  taskEvents : List TaskEventRecord
  nextEventId : Nat
  artifacts : Table ArtifactRecord.artifactId
  toolInvocations : Table ToolInvocationRecord.invocationId
  pendingContinuations : Table PendingContinuationRecord.taskId
  queuedExecutions : Table QueuedExecutionRow.taskId
  registeredAgents : Table RegisteredAgentRecord.agentId
  delegatedTasks : Table DelegatedTaskRecord.delegationId

namespace AgentDb

/-- The database right after its schema was created. -/
def empty : AgentDb :=
  ⟨.empty,.empty,.empty,.empty,.empty,[],1,.empty,.empty,.empty,.empty,.empty,.empty⟩

end AgentDb

abbrev StoreTxn := Txn AgentDb PyException

namespace MainAgentStore

def uniqueConstraint (p : Prop) [Decidable p] (columns : String) : StoreTxn Unit :=
  require p (.integrityError ("UNIQUE constraint failed: " ++ columns))

def foreignKey {α : Type} (row : Option α) : StoreTxn Unit :=
  require (row.isSome = true) (.integrityError "FOREIGN KEY constraint failed")

section Contexts

def getContext (contextId : ContextId) : StoreTxn (Option ContextRecord) :=
  select (·.contexts.get contextId)

def createContext (contextId : ContextId) (title : Option String) (metadata : Json) :
    StoreTxn ContextRecord := do
  write? (fun db => (db.contexts.insert? ⟨contextId,title,metadata,1⟩).map
    fun contexts => {db with contexts}) (.integrityError "UNIQUE constraint failed: contexts.context_id")
  orFail (← getContext contextId) (.runtimeError ("failed to create context: " ++ contextId))

end Contexts

section Messages

def getMessage (messageId : MessageId) : StoreTxn (Option MessageRecord) :=
  select (·.messages.get messageId)

def insertMessage (record : MessageRecord) : StoreTxn Unit := statement do
  let rows ← select (·.messages.rows)
  uniqueConstraint (∀ r ∈ rows,
      (r.contextId,r.contextSequence) ≠ (record.contextId,record.contextSequence))
    "messages.context_id, messages.context_sequence"
  write? (fun db => (db.messages.insert? record).map fun messages => {db with messages})
    (.integrityError "UNIQUE constraint failed: messages.message_id")

/-- Append to the context's message list; an equal message of the same id is returned as it is. -/
def appendMessage (messageId : MessageId) (contextId : ContextId) (role : MessageRole)
    (parts : List Json) (taskId : Option TaskId) (metadata : Json) : StoreTxn MessageRecord := do
  let _ ← orFail (← getContext contextId) (.valueError ("unknown context: " ++ contextId))
  match ← getMessage messageId with
  | some existing =>
    require (existing.contextId = contextId ∧ existing.role = role ∧ existing.parts = parts ∧
      existing.taskId = taskId) (.valueError ("message conflict: " ++ messageId))
    return existing
  | none =>
    write fun db => {db with contexts := (db.contexts.update (fun r => r.contextId = contextId)
      fun r => {r with nextMessageSequence := r.nextMessageSequence+1})}
    let context ← orFail (← getContext contextId) (.valueError ("unknown context: " ++ contextId))
    insertMessage ⟨messageId,contextId,context.nextMessageSequence-1,role,parts,taskId,metadata⟩
    orFail (← getMessage messageId) (.runtimeError ("failed to append message: " ++ messageId))

end Messages

section MessageIngress

def getMessageIngress (messageId : MessageId) : StoreTxn (Option MessageIngressRecord) :=
  select (·.messageIngress.get messageId)

/-- `INSERT … ON CONFLICT(message_id) DO NOTHING`; whether it inserted. -/
def insertMessageIngress (record : MessageIngressRecord) : StoreTxn Bool := statement do
  match ← getMessageIngress record.messageId with
  | some _ => return false
  | none =>
    write? (fun db => (db.messageIngress.insert? record).map
      fun messageIngress => {db with messageIngress})
      (.integrityError "UNIQUE constraint failed: main_agent_message_ingress.message_id")
    return true

/-- The ingress row of the message and whether this call created it. -/
def reserveMessageIngress (messageId : MessageId) (contextId : ContextId)
    (requestFingerprint : String) : StoreTxn (MessageIngressRecord × Bool) := do
  let _ ← orFail (← getContext contextId) (.valueError ("unknown context: " ++ contextId))
  let message ← orFail (← getMessage messageId) (.valueError ("unknown message: " ++ messageId))
  require (message.contextId = contextId) (.valueError ("message context mismatch: " ++ messageId))
  let created ← insertMessageIngress ⟨messageId,contextId,requestFingerprint,.inProgress,none,none,
    none,none,none,none,false⟩
  let record ← orFail (← getMessageIngress messageId)
    (.runtimeError ("failed to reserve message ingress: " ++ messageId))
  return (record,created)

def updateInProgressIngress (p : MessageIngressRecord → Bool)
    (f : MessageIngressRecord → MessageIngressRecord) (hf : ∀ r, (f r).messageId = r.messageId) :
    StoreTxn Unit :=
  write fun db => {db with messageIngress := (
    db.messageIngress.update (fun r => p r && r.state = .inProgress) f hf)}

structure IngressError where
  errorCode : String
  errorMessage : String
  errorHttpStatus : Nat
  retryable : Bool

def MessageIngressRecord.fail (error : IngressError) (r : MessageIngressRecord) :
    MessageIngressRecord :=
  {r with
    state := .failed
    errorCode := error.errorCode
    errorMessage := error.errorMessage
    errorHttpStatus := error.errorHttpStatus
    errorRetryable := error.retryable}

theorem MessageIngressRecord.fail_messageId (error : IngressError) (r : MessageIngressRecord) :
    (MessageIngressRecord.fail error r).messageId = r.messageId := rfl

/-- The updates of the rows with these ids that are still in progress; the ids of those. -/
def failMessageIngresses (messageIds : List MessageId) (error : IngressError) :
    StoreTxn (List MessageId) := statement do
  let failed ← select fun db => messageIds.filter fun messageId =>
    (db.messageIngress.get messageId).map (·.state) = some .inProgress
  updateInProgressIngress (fun r => r.messageId ∈ messageIds) (MessageIngressRecord.fail error)
    (MessageIngressRecord.fail_messageId error)
  return failed

/-- Fail every ingress row left in progress; the ids of the rows that were. -/
def failInProgressMessageIngresses (error : IngressError) : StoreTxn (List MessageId) := do
  let rows ← select (·.messageIngress.rows.filter fun r => r.state = .inProgress)
  failMessageIngresses (rows.map (·.messageId)) error

def getRouteDecision (decisionId : String) : StoreTxn (Option RouteDecisionRecord) :=
  select (·.routeDecisions.get decisionId)

/-- `UPDATE … WHERE message_id=? AND state='in_progress'`, which has to find the row. -/
def updateOneInProgressIngress (messageId : MessageId)
    (f : MessageIngressRecord → MessageIngressRecord) (hf : ∀ r, (f r).messageId = r.messageId) :
    StoreTxn Unit := statement do
  let before ← getMessageIngress messageId
  require ((before.map (·.state)) = some .inProgress)
    (.valueError ("message ingress is not in progress: " ++ messageId))
  updateInProgressIngress (fun r => r.messageId = messageId) f hf

def setMessageIngressRouteDecision (messageId : MessageId) (routeDecisionId : String) :
    StoreTxn MessageIngressRecord := do
  let _ ← orFail (← getRouteDecision routeDecisionId)
    (.valueError ("unknown route decision: " ++ routeDecisionId))
  updateOneInProgressIngress messageId (fun r => {r with routeDecisionId := some routeDecisionId})
    fun _ => rfl
  orFail (← getMessageIngress messageId)
    (.runtimeError ("failed to update message ingress route: " ++ messageId))

def resolveMessageIngress (messageId : MessageId) (outcomeKind : MessageIngressOutcomeKind)
    (outcomeId : String) : StoreTxn MessageIngressRecord := do
  updateOneInProgressIngress messageId
    (fun r => {r with
      state := .resolved
      outcomeKind := some outcomeKind
      outcomeId := some outcomeId
      errorCode := none
      errorMessage := none
      errorHttpStatus := none
      errorRetryable := false}) fun _ => rfl
  orFail (← getMessageIngress messageId)
    (.runtimeError ("failed to resolve message ingress: " ++ messageId))

/-- Fail the row if it is still in progress; a row already decided is returned unchanged. -/
def failMessageIngress (messageId : MessageId) (error : IngressError) :
    StoreTxn MessageIngressRecord := do
  updateInProgressIngress (fun r => r.messageId = messageId) (MessageIngressRecord.fail error)
    (MessageIngressRecord.fail_messageId error)
  orFail (← getMessageIngress messageId) (.valueError ("unknown message ingress: " ++ messageId))

end MessageIngress

section RouteDecisions

def insertRouteDecision (record : RouteDecisionRecord) : StoreTxn Unit := statement do
  foreignKey (← getContext record.contextId)
  write? (fun db => (db.routeDecisions.insert? record).map
    fun routeDecisions => {db with routeDecisions})
    (.integrityError "UNIQUE constraint failed: route_decisions.decision_id")

def recordRouteDecision (record : RouteDecisionRecord) : StoreTxn RouteDecisionRecord := do
  let _ ← orFail (← getMessage record.messageId)
    (.valueError ("unknown message: " ++ record.messageId))
  insertRouteDecision record
  orFail (← getRouteDecision record.decisionId)
    (.runtimeError ("failed to record route decision: " ++ record.decisionId))

def getRouteDecisionByMessageId (messageId : MessageId) : StoreTxn (Option RouteDecisionRecord) :=
  select (·.routeDecisions.rows.find? fun r => r.messageId = messageId)

end RouteDecisions

section Tasks

def getTask (taskId : TaskId) : StoreTxn (Option TaskRecord) := select (·.tasks.get taskId)

/-- The task, or the error that every caller raises when there is none. -/
def requireTask (taskId : TaskId) : StoreTxn TaskRecord := do
  orFail (← getTask taskId) (.valueError ("unknown task: " ++ taskId))

def getDirectTaskRetry (taskId : TaskId) : StoreTxn (Option TaskRecord) :=
  select (·.tasks.rows.find? fun r => r.retryOfTaskId = some taskId)

def getTaskByRuntimeThreadId (runtimeThreadId : ThreadId) : StoreTxn (Option TaskRecord) :=
  select (·.tasks.rows.find? fun r => r.runtimeThreadId = runtimeThreadId)

def listLocalTasksByStatuses (statuses : List TaskStatus) : StoreTxn (List TaskRecord) :=
  select (·.tasks.rows.filter fun r => r.assignedAgentId = none ∧ r.status ∈ statuses)

def updateTask (taskId : TaskId) (f : TaskRecord → TaskRecord)
    (hf : ∀ r, (f r).taskId = r.taskId) : StoreTxn Unit :=
  write fun db => {db with tasks := db.tasks.update (fun r => r.taskId = taskId) f hf}

/-- The row is numbered as it is inserted. -/
def insertTaskEvent (taskId : TaskId) (type : String) (status : Option TaskStatus)
    (lifecycleRevision : Nat) (payload : Json) : StoreTxn TaskEventRecord := statement do
  let eventId ← select (·.nextEventId)
  let event : TaskEventRecord := ⟨eventId,taskId,type,status,lifecycleRevision,payload⟩
  write fun db => {db with taskEvents := db.taskEvents++[event], nextEventId := eventId+1}
  return event

def appendTaskEvent (taskId : TaskId) (type : String) (status : Option TaskStatus)
    (payload : Json) : StoreTxn TaskEventRecord := do
  let task ← requireTask taskId
  insertTaskEvent taskId type status task.lifecycleRevision payload

/-- What the caller of `create_task` decides about the new row. -/
structure NewTask where
  taskId : TaskId
  contextId : ContextId
  inputMessageId : MessageId
  runtimeThreadId : ThreadId
  status : TaskStatus
  assignedAgentId : Option AgentId
  retryOfTaskId : Option TaskId
  attempt : Nat

def insertTask (record : TaskRecord) : StoreTxn Unit := statement do
  foreignKey (← getContext record.contextId)
  let rows ← select (·.tasks.rows)
  uniqueConstraint (∀ r ∈ rows, r.runtimeThreadId ≠ record.runtimeThreadId)
    "main_agent_tasks.runtime_thread_id"
  uniqueConstraint (record.retryOfTaskId = none ∨
      ∀ r ∈ rows, r.retryOfTaskId ≠ record.retryOfTaskId) "main_agent_tasks.retry_of_task_id"
  write? (fun db => (db.tasks.insert? record).map fun tasks => {db with tasks})
    (.integrityError "UNIQUE constraint failed: main_agent_tasks.task_id")

def createTask (new : NewTask) : StoreTxn TaskRecord := do
  let inputMessage ← orFail (← getMessage new.inputMessageId)
    (.valueError ("unknown input message: " ++ new.inputMessageId))
  require (inputMessage.contextId = new.contextId)
    (.valueError ("input message context mismatch: " ++ new.inputMessageId))
  require (0 < inputMessage.contextSequence)
    (.valueError ("input message has no context sequence: " ++ new.inputMessageId))
  insertTask {
    taskId := new.taskId
    contextId := new.contextId
    status := new.status
    inputMessageId := new.inputMessageId
    inputContextSequence := inputMessage.contextSequence
    outputMessageId := none
    runtimeThreadId := new.runtimeThreadId
    assignedAgentId := new.assignedAgentId
    retryOfTaskId := new.retryOfTaskId
    attempt := new.attempt
    errorCode := none
    errorMessage := none
    errorRetryable := false
    lifecycleRevision := 1}
  orFail (← getTask new.taskId) (.runtimeError ("failed to create task: " ++ new.taskId))

def createLocalTask (taskId : TaskId) (contextId : ContextId) (inputMessageId : MessageId)
    (runtimeThreadId : ThreadId) (retryOfTaskId : Option TaskId) (attempt : Nat) :
    StoreTxn TaskRecord := do
  let task ← createTask ⟨taskId,contextId,inputMessageId,runtimeThreadId,.created,none,
    retryOfTaskId,attempt⟩
  let _ ← appendTaskEvent task.taskId "task_created" (some .created) (.obj [])
  return task

/-- The error columns that a status change writes. -/
structure TaskError where
  errorCode : Option String
  errorMessage : Option String
  errorRetryable : Bool

def TaskError.none : TaskError := ⟨.none,.none,false⟩

/-- One validated local transition with its event; an equal target changes nothing. -/
def transitionLocalTask (taskId : TaskId) (target : TaskStatus) (payload : Json)
    (error : TaskError) : StoreTxn TaskRecord := do
  let task ← requireTask taskId
  require (task.assignedAgentId = none)
    (.valueError ("remote proxy task cannot use local transition policy: " ++ taskId))
  let real ← ofExcept (validateLocalTaskTransition task.status target)
  if real = false then
    return task
  else
    let eventType ← ofExcept (lifecycleEventTypeForStatus target)
    updateTask taskId (fun r => {r with
      status := target
      errorCode := error.errorCode
      errorMessage := error.errorMessage
      errorRetryable := error.errorRetryable
      lifecycleRevision := r.lifecycleRevision+1}) fun _ => rfl
    let updated ← orFail (← getTask taskId)
      (.runtimeError ("failed to transition task: " ++ taskId))
    let _ ← appendTaskEvent taskId eventType (some target) payload
    return updated

/-- The unvalidated status change, reserved for remote proxies. -/
def updateTaskStatus (taskId : TaskId) (status : TaskStatus) (error : TaskError) :
    StoreTxn TaskRecord := do
  let current ← requireTask taskId
  if current.status = status ∧ current.errorCode = error.errorCode ∧
      current.errorMessage = error.errorMessage ∧
      current.errorRetryable = error.errorRetryable then
    return current
  else
    updateTask taskId (fun r => {r with
      status := status
      errorCode := error.errorCode
      errorMessage := error.errorMessage
      errorRetryable := error.errorRetryable
      lifecycleRevision := r.lifecycleRevision+1}) fun _ => rfl
    orFail (← getTask taskId) (.runtimeError ("failed to update task: " ++ taskId))

def setTaskOutputMessage (taskId : TaskId) (outputMessageId : MessageId) :
    StoreTxn TaskRecord := do
  let _ ← orFail (← getMessage outputMessageId)
    (.valueError ("unknown output message: " ++ outputMessageId))
  let current ← requireTask taskId
  if current.outputMessageId = some outputMessageId then
    return current
  else
    updateTask taskId (fun r => {r with
      outputMessageId := some outputMessageId
      lifecycleRevision := r.lifecycleRevision+1}) fun _ => rfl
    orFail (← getTask taskId) (.runtimeError ("failed to set task output: " ++ taskId))

end Tasks

section Artifacts

def getArtifact (artifactId : ArtifactId) : StoreTxn (Option ArtifactRecord) :=
  select (·.artifacts.get artifactId)

def bumpRevision (taskId : TaskId) : StoreTxn Unit :=
  updateTask taskId (fun r => {r with lifecycleRevision := r.lifecycleRevision+1}) fun _ => rfl

/-- `INSERT … ON CONFLICT(artifact_id) DO UPDATE`. -/
def putArtifact (record : ArtifactRecord) : StoreTxn Unit := statement do
  match ← getArtifact record.artifactId with
  | some _ =>
    write fun db => {db with artifacts := (db.artifacts.update
      (fun r => r.artifactId = record.artifactId)
      fun r => {r with parts := record.parts, metadata := record.metadata})}
  | none =>
    foreignKey (← getContext record.contextId)
    write? (fun db => (db.artifacts.insert? record).map fun artifacts => {db with artifacts})
      (.integrityError "UNIQUE constraint failed: artifacts.artifact_id")

def storeArtifact (record : ArtifactRecord) : StoreTxn ArtifactRecord := do
  putArtifact record
  bumpRevision record.taskId
  orFail (← getArtifact record.artifactId)
    (.runtimeError ("failed to upsert artifact: " ++ record.artifactId))

def upsertArtifact (artifactId : ArtifactId) (taskId : TaskId) (contextId : ContextId)
    (parts : List Json) (metadata : Json) : StoreTxn ArtifactRecord := do
  let _ ← requireTask taskId
  match ← getArtifact artifactId with
  | some current =>
    require (current.taskId = taskId ∧ current.contextId = contextId)
      (.valueError ("artifact ownership mismatch: " ++ artifactId))
    if current.parts = parts ∧ current.metadata = metadata then
      return current
    else
      storeArtifact ⟨artifactId,taskId,contextId,parts,metadata⟩
  | none => storeArtifact ⟨artifactId,taskId,contextId,parts,metadata⟩

end Artifacts

section PendingContinuations

def getPendingContinuation (taskId : TaskId) : StoreTxn (Option PendingContinuationRecord) :=
  select (·.pendingContinuations.get taskId)

/-- `INSERT … ON CONFLICT(task_id) DO UPDATE`. -/
def upsertPendingContinuation (record : PendingContinuationRecord) : StoreTxn Unit := statement do
  match ← getPendingContinuation record.taskId with
  | some _ =>
    write fun db => {db with pendingContinuations := (db.pendingContinuations.update
      (fun r => r.taskId = record.taskId)
      fun r => {r with kind := record.kind, inputRequest := record.inputRequest})}
  | none =>
    write? (fun db => (db.pendingContinuations.insert? record).map
      fun pendingContinuations => {db with pendingContinuations})
      (.integrityError "UNIQUE constraint failed: main_agent_pending_continuations.task_id")

def setPendingContinuation (taskId : TaskId) (kind : String) (inputRequest : Json) :
    StoreTxn PendingContinuationRecord := do
  let _ ← requireTask taskId
  require (kind ≠ "") (.valueError "pending continuation kind is required")
  upsertPendingContinuation ⟨taskId,kind,inputRequest⟩
  orFail (← getPendingContinuation taskId)
    (.runtimeError ("failed to persist pending continuation: " ++ taskId))

/-- How error texts call a kind of request. -/
def pendingLabel (kind : String) : String :=
  if kind = "approval_required" then "approval" else "general input"

/-- The pending request, which has to be of the expected kind. -/
def requirePending (taskId : TaskId) (expectedKind : String) :
    StoreTxn PendingContinuationRecord := do
  let record ← orFail (← getPendingContinuation taskId)
    (.valueError ("task has no pending " ++ expectedKind ++ " request: " ++ taskId))
  require (record.kind = expectedKind) (.valueError ("task is waiting for " ++
    pendingLabel record.kind ++ ", not " ++ pendingLabel expectedKind ++ ": " ++ taskId))
  return record

/-- `DELETE … WHERE task_id=? AND kind=?`; how many rows it deleted. -/
def deletePendingContinuation (taskId : TaskId) (kind : String) : StoreTxn Nat := statement do
  let deleted ← select fun db =>
    (db.pendingContinuations.rows.filter fun r => r.taskId = taskId ∧ r.kind = kind).length
  write fun db => {db with pendingContinuations :=
    db.pendingContinuations.delete fun r => r.taskId = taskId ∧ r.kind = kind}
  return deleted

def consumePendingContinuation (taskId : TaskId) (expectedKind : String) :
    StoreTxn PendingContinuationRecord := do
  let record ← requirePending taskId expectedKind
  let deleted ← deletePendingContinuation taskId expectedKind
  require (deleted = 1)
    (.valueError ("task has no pending " ++ expectedKind ++ " request: " ++ taskId))
  return record

def clearPendingContinuation (taskId : TaskId) : StoreTxn Unit :=
  write fun db => {db with pendingContinuations :=
    db.pendingContinuations.delete fun r => r.taskId = taskId}

end PendingContinuations

section QueuedExecutions

/-- The decoded command; a stored row that does not decode raises. -/
def getQueuedTaskExecution (taskId : TaskId) : StoreTxn (Option QueuedTaskExecutionRecord) := do
  match ← select (·.queuedExecutions.get taskId) with
  | none => return none
  | some row => some <$> ofExcept row.decode

def normalizedPayload (taskId : TaskId) (kind : QueuedTaskExecutionKind) :
    Option QueuedTaskExecutionPayload → StoreTxn QueuedTaskExecutionPayload
  | some payload => pure payload
  | none => do
    require (kind = .initial) (.valueError ("queued execution payload is required: " ++ taskId))
    return .initial

def enqueueTaskExecution (taskId : TaskId) (kind : QueuedTaskExecutionKind)
    (runtimeThreadId : ThreadId) (payload : Option QueuedTaskExecutionPayload)
    (commandVersion : Int) : StoreTxn QueuedTaskExecutionRecord := do
  let task ← requireTask taskId
  require (task.assignedAgentId = none)
    (.valueError ("remote proxy task cannot queue a local execution: " ++ taskId))
  require (task.status = .queued) (.valueError ("local task is not queued: " ++ taskId))
  require (task.runtimeThreadId = runtimeThreadId)
    (.valueError ("task runtime thread mismatch: " ++ taskId))
  require (commandVersion = localExecutionCommandVersion)
    (.valueError ("unsupported local execution command version: " ++ toString commandVersion))
  let payload ← normalizedPayload taskId kind payload
  let serialized ← ofExcept (payload.toDict kind)
  match ← getQueuedTaskExecution taskId with
  | some existing =>
    require (existing.kind = kind ∧ existing.runtimeThreadId = runtimeThreadId ∧
        existing.commandVersion = commandVersion ∧ existing.payload = payload)
      (.valueError ("local task already has a queued execution: " ++ taskId))
    return existing
  | none =>
    write? (fun db => (db.queuedExecutions.insert? ⟨taskId,kind.value,runtimeThreadId,
        commandVersion,serialized⟩).map fun queuedExecutions => {db with queuedExecutions})
      (.integrityError "UNIQUE constraint failed: main_agent_queued_executions.task_id")
    orFail (← getQueuedTaskExecution taskId)
      (.runtimeError ("failed to enqueue local task execution: " ++ taskId))

def clearQueuedTaskExecution (taskId : TaskId) : StoreTxn Unit :=
  write fun db => {db with queuedExecutions :=
    db.queuedExecutions.delete fun r => r.taskId = taskId}

/-- `DELETE … WHERE task_id=?`; how many rows it deleted. -/
def deleteQueuedTaskExecution (taskId : TaskId) : StoreTxn Nat := statement do
  let deleted ← select fun db =>
    (db.queuedExecutions.rows.filter fun r => r.taskId = taskId).length
  clearQueuedTaskExecution taskId
  return deleted

/-- The part of a claim from its first write on. -/
def claimDelete (taskId : TaskId) (command : QueuedTaskExecutionRecord) :
    StoreTxn (Option (TaskRecord × QueuedTaskExecutionRecord)) := do
  let deleted ← deleteQueuedTaskExecution taskId
  if deleted ≠ 1 then
    return none
  else
    let task ← transitionLocalTask taskId .running (.obj []) .none
    return some (task,command)

/-- Claim one queued slice and mark its process running. -/
def claimQueuedTaskExecution (taskId : TaskId) :
    StoreTxn (Option (TaskRecord × QueuedTaskExecutionRecord)) := do
  let task ← requireTask taskId
  if task.assignedAgentId ≠ none ∨ task.status ≠ .queued then
    return none
  else
    match ← getQueuedTaskExecution taskId with
    | none => return none
    | some command =>
      require (command.runtimeThreadId = task.runtimeThreadId)
        (.valueError ("queued execution runtime thread mismatch: " ++ taskId))
      claimDelete taskId command

end QueuedExecutions

section LocalTaskAcceptance

/-- What the caller of `accept_local_task_from_message` supplies. -/
structure LocalTaskAcceptance where
  decision : RouteDecisionRecord
  taskId : TaskId
  runtimeThreadId : ThreadId
  queueExecution : Bool
  retryOfTaskId : Option TaskId
  attempt : Nat

/-- The routing decision, the task, its ingress result and its first command, together. -/
def acceptLocalTaskFromMessage (a : LocalTaskAcceptance) :
    StoreTxn (RouteDecisionRecord × TaskRecord) := do
  require (a.decision.kind = .localTask)
    (.valueError ("local task acceptance requires local_task route: " ++ a.decision.kind.value))
  let decision ← recordRouteDecision a.decision
  let _ ← setMessageIngressRouteDecision a.decision.messageId decision.decisionId
  let task ← createLocalTask a.taskId a.decision.contextId a.decision.messageId a.runtimeThreadId
    a.retryOfTaskId a.attempt
  let _ ← resolveMessageIngress a.decision.messageId .task task.taskId
  if a.queueExecution then
    let task ← transitionLocalTask task.taskId .queued (.obj []) .none
    let _ ← enqueueTaskExecution task.taskId .initial task.runtimeThreadId none
      localExecutionCommandVersion
    return (decision,task)
  else
    return (decision,task)

end LocalTaskAcceptance

section Delegation

def getRegisteredAgent (agentId : AgentId) : StoreTxn (Option RegisteredAgentRecord) :=
  select (·.registeredAgents.get agentId)

/-- `INSERT … ON CONFLICT(agent_id) DO UPDATE`. -/
def putRegisteredAgent (record : RegisteredAgentRecord) : StoreTxn Unit := statement do
  match ← getRegisteredAgent record.agentId with
  | some _ =>
    write fun db => {db with registeredAgents := (db.registeredAgents.update
      (fun r => r.agentId = record.agentId) fun r => {record with agentId := r.agentId})}
  | none =>
    write? (fun db => (db.registeredAgents.insert? record).map
      fun registeredAgents => {db with registeredAgents})
      (.integrityError "UNIQUE constraint failed: registered_agents.agent_id")

def upsertRegisteredAgent (record : RegisteredAgentRecord) : StoreTxn RegisteredAgentRecord := do
  putRegisteredAgent record
  orFail (← getRegisteredAgent record.agentId)
    (.runtimeError ("failed to upsert registered agent: " ++ record.agentId))

def getDelegatedTask (delegationId : String) : StoreTxn (Option DelegatedTaskRecord) :=
  select (·.delegatedTasks.get delegationId)

def getDelegatedTaskByLocalTaskId (localTaskId : TaskId) : StoreTxn (Option DelegatedTaskRecord) :=
  select (·.delegatedTasks.rows.find? fun r => r.localTaskId = some localTaskId)

def createDelegatedTask (record : DelegatedTaskRecord) : StoreTxn DelegatedTaskRecord := do
  let _ ← orFail (← getContext record.contextId)
    (.valueError ("unknown context: " ++ record.contextId))
  let _ ← orFail (← getMessage record.inputMessageId)
    (.valueError ("unknown input message: " ++ record.inputMessageId))
  let _ ← orFail (← getRouteDecision record.routeDecisionId)
    (.valueError ("unknown route decision: " ++ record.routeDecisionId))
  let _ ← orFail (← getRegisteredAgent record.remoteAgentId)
    (.valueError ("unknown registered agent: " ++ record.remoteAgentId))
  write? (fun db => (db.delegatedTasks.insert? record).map
    fun delegatedTasks => {db with delegatedTasks})
    (.integrityError "UNIQUE constraint failed: delegated_tasks.delegation_id")
  orFail (← getDelegatedTask record.delegationId)
    (.runtimeError ("failed to create delegated task: " ++ record.delegationId))

def updateDelegatedTaskStatus (delegationId : String) (status : String) (metadata : Json) :
    StoreTxn DelegatedTaskRecord := do
  let _ ← orFail (← getDelegatedTask delegationId)
    (.valueError ("unknown delegated task: " ++ delegationId))
  write fun db => {db with delegatedTasks := (db.delegatedTasks.update
    (fun r => r.delegationId = delegationId) fun r => {r with status, metadata})}
  orFail (← getDelegatedTask delegationId)
    (.runtimeError ("failed to update delegated task: " ++ delegationId))

end Delegation
end MainAgentStore
end VermayAgent
