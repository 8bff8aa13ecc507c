import VermayAgent.TaskOutcomes

/-! The lifecycle transactions of the main agent.
A command commits its transaction first and acts on the process afterwards; here stand
the transactions, and the answer that each gives to the action that follows it. -/
namespace VermayAgent
open Library Txn MainAgentStore

/-- What admission takes from outside: the request fingerprint and the child-agent client. -/
structure CoreEnv where
  fingerprint : MessageRole → List Json → Json → String
  hasRemoteClient : Bool

inductive MainAgentResult where
  | localMessage (contextId : ContextId) (messageId inputMessageId : MessageId)
      (routeDecisionId : String) (parts : List Json)
  | localTask (contextId : ContextId) (taskId : TaskId) (inputMessageId : MessageId)
      (routeDecisionId : String)
  | remoteAgent (contextId : ContextId) (inputMessageId : MessageId) (targetAgentId : AgentId)
      (routeDecisionId delegationId : String) (messageId : Option MessageId)
      (taskId : Option TaskId) (parts : List Json)
deriving DecidableEq

/-- `RemoteAgentSendResult`. -/
structure RemoteAgentSendResult where
  kind : String
  contextId : Option String
  messageId : Option String
  taskId : Option String
  status : Option String
  parts : List Json

/-- `MainAgentRouteDecision`, as far as it is stored. -/
structure MainAgentRouteDecision where
  kind : RouteDecisionKind
  targetAgentId : Option AgentId
  reason : String
  confidence : Option ℚ
  metadata : Json

def MainAgentRouteDecision.record (route : MainAgentRouteDecision) (decisionId : String)
    (contextId : ContextId) (messageId : MessageId) : RouteDecisionRecord :=
  ⟨decisionId,contextId,messageId,route.kind,route.targetAgentId,route.reason,route.confidence,
    route.metadata⟩

namespace MainAgentCore

section Admission

/-- The words of a text, between white space. -/
def words (text : List Char) : List (List Char) :=
  (text.splitOnP Char.isWhitespace).filter fun w => !w.isEmpty

/-- `_title_from_parts`. -/
def titleFromParts (parts : List Json) : Option String :=
  let text := (parts.filterMap fun part => (part.member "text").asString).flatMap fun s =>
    words s.toList
  if text.isEmpty then none
  else some (String.intercalate " " (text.map String.ofList))

def resolveContextId (contextId : Option ContextId) (newContextId : ContextId)
    (title : Option String) : StoreTxn ContextId := do
  match contextId with
  | none => return (← createContext newContextId title (.obj [])).contextId
  | some contextId =>
    let _ ← orFail (← getContext contextId) (.valueError ("unknown context: " ++ contextId))
    return contextId

/-- The first target id that the metadata names. -/
def targetAgentIdFromMetadata (metadata : Json) : Option AgentId :=
  (["targetAgentId","target_agent_id","remoteAgentId","remote_agent_id"].filterMap fun key =>
    (metadata.member key).asString.map fun s => s.trimAscii.toString).find? fun s => s ≠ ""

def validateExplicitRouteMetadata (env : CoreEnv) (metadata : Json) : StoreTxn Unit := do
  let mode := if (metadata.member "executionMode").truthy then metadata.member "executionMode"
    else .str "auto"
  require (mode ∈ [Json.str "auto",.str "message",.str "task"])
    (.valueError ("unsupported executionMode: " ++ mode.asString.getD ""))
  if metadata.member "route" ≠ .str "remote_agent" then
    return ()
  else
    let targetAgentId ← orFail (targetAgentIdFromMetadata metadata)
      (.valueError "remote_agent route requires metadata.targetAgentId")
    let agent ← orFail (← getRegisteredAgent targetAgentId)
      (.valueError ("unknown registered agent: " ++ targetAgentId))
    require (agent.enabled = true) (.valueError ("registered agent is disabled: " ++ targetAgentId))
    require (env.hasRemoteClient = true) (.valueError "remote_agent client is not configured")

/-- The output of a delegation whose remote agent answered with a message. -/
def delegatedMessage (delegation : DelegatedTaskRecord) : StoreTxn (Option MessageRecord) :=
  match delegation.metadata.member "localMessageId" with
  | .str localMessageId => if localMessageId = "" then pure none else getMessage localMessageId
  | _ => pure none

/-- `_result_from_message_ingress`: the stored result, rebuilt from the rows it names. -/
def resultFromMessageIngress (ingress : MessageIngressRecord) : StoreTxn MainAgentResult := do
  let id := ingress.messageId
  let decisionId ← orFail ingress.routeDecisionId
    (.runtimeError ("resolved message ingress is incomplete: " ++ id))
  let outcomeKind ← orFail ingress.outcomeKind
    (.runtimeError ("resolved message ingress is incomplete: " ++ id))
  let outcomeId ← orFail ingress.outcomeId
    (.runtimeError ("resolved message ingress is incomplete: " ++ id))
  let decision ← orFail (← getRouteDecision decisionId)
    (.runtimeError ("message ingress route decision is missing: " ++ id))
  require (decision.contextId = ingress.contextId ∧ decision.messageId = id)
    (.runtimeError ("message ingress route decision mismatch: " ++ id))
  match decision.kind with
  | .localMessage =>
    require (outcomeKind = .message) (.runtimeError ("message ingress outcome mismatch: " ++ id))
    let message ← orFail (← getMessage outcomeId)
      (.runtimeError ("message ingress output is missing: " ++ id))
    return .localMessage ingress.contextId message.messageId id decision.decisionId message.parts
  | .localTask =>
    require (outcomeKind = .task) (.runtimeError ("message ingress outcome mismatch: " ++ id))
    let task ← orFail (← getTask outcomeId)
      (.runtimeError ("message ingress task is missing: " ++ id))
    return .localTask ingress.contextId task.taskId id decision.decisionId
  | .remoteAgent =>
    require (outcomeKind = .delegation)
      (.runtimeError ("message ingress outcome mismatch: " ++ id))
    let delegation ← orFail (← getDelegatedTask outcomeId)
      (.runtimeError ("message ingress delegation is missing: " ++ id))
    if delegation.resultKind = "message" then
      let message ← orFail (← delegatedMessage delegation)
        (.runtimeError ("message ingress delegated output is missing: " ++ id))
      return .remoteAgent ingress.contextId id delegation.remoteAgentId decision.decisionId
        delegation.delegationId (some message.messageId) none message.parts
    else
      let localTaskId ← orFail delegation.localTaskId
        (.runtimeError ("message ingress delegated task is missing: " ++ id))
      let task ← orFail (← getTask localTaskId)
        (.runtimeError ("message ingress delegated task is missing: " ++ id))
      return .remoteAgent ingress.contextId id delegation.remoteAgentId decision.decisionId
        delegation.delegationId none (some task.taskId) []

/-- `_PreparedMessageRoute` before the router has decided. -/
inductive PreparedMessage where
  | existing (result : MainAgentResult)
  | admitted (contextId : ContextId) (inputMessageId : MessageId)

def preparedExistingMessageIngress (request : MainAgentRequest) (requestFingerprint : String)
    (ingress : MessageIngressRecord) : StoreTxn PreparedMessage := do
  require (request.contextId = none ∨ request.contextId = some ingress.contextId)
    (.valueError ("message context mismatch: " ++ ingress.messageId))
  require (requestFingerprint = ingress.requestFingerprint)
    (.valueError ("message conflict: " ++ ingress.messageId))
  let message ← orFail (← getMessage ingress.messageId)
    (.runtimeError ("message ingress is missing its message: " ++ ingress.messageId))
  require (message.contextId = ingress.contextId)
    (.runtimeError ("message ingress context mismatch: " ++ ingress.messageId))
  match ingress.state with
  | .resolved => return .existing (← resultFromMessageIngress ingress)
  | .failed => fail (.persistedMessageIngress ((nonEmpty ingress.errorCode).getD "runtime_error")
      ((nonEmpty ingress.errorMessage).getD "Agent execution failed.") ingress.errorHttpStatus
      ingress.errorRetryable)
  | .inProgress => fail (.messageIngressInProgress ingress.messageId)

/-- The admitting transaction of `_prepare_message_route`. -/
def prepareMessage (env : CoreEnv) (request : MainAgentRequest) (newMessageId : MessageId)
    (newContextId : ContextId) : StoreTxn PreparedMessage := do
  require (request.role = .user) (.valueError "main agent request role must be user")
  validateExplicitRouteMetadata env request.metadata
  let messageId := (nonEmpty request.messageId).getD newMessageId
  let requestFingerprint := env.fingerprint request.role request.parts request.metadata
  match ← getMessageIngress messageId with
  | some ingress => preparedExistingMessageIngress request requestFingerprint ingress
  | none =>
    let existingMessage ← getMessage messageId
    require (existingMessage.isNone = true)
      (.runtimeError ("message is missing durable ingress: " ++ messageId))
    let contextId ← resolveContextId request.contextId newContextId (titleFromParts request.parts)
    let userMessage ← appendMessage messageId contextId request.role request.parts none
      request.metadata
    let (ingress,created) ← reserveMessageIngress messageId contextId requestFingerprint
    if created = false then
      preparedExistingMessageIngress request requestFingerprint ingress
    else
      return .admitted contextId userMessage.messageId

def recordMessageIngressFailure (messageId : MessageId) (error : PyException) :
    StoreTxn MessageIngressRecord :=
  let info := errorInfoFromException error
  failMessageIngress messageId ⟨info.code,info.publicMessage,info.httpStatus,info.retryable⟩

def recordMessageIngressRoute (contextId : ContextId) (inputMessageId : MessageId)
    (route : MainAgentRouteDecision) (newDecisionId : String) : StoreTxn RouteDecisionRecord := do
  let decision ← recordRouteDecision (route.record newDecisionId contextId inputMessageId)
  let _ ← setMessageIngressRouteDecision inputMessageId decision.decisionId
  return decision

/-- The answer of a direct message, stored with its ingress result. -/
def completeLocalMessage (contextId : ContextId) (inputMessageId newMessageId : MessageId)
    (decisionId : String) (parts : List Json) : StoreTxn MessageRecord := do
  let assistantMessage ← appendMessage newMessageId contextId .agent parts none
    (.obj [("inputMessageId",.str inputMessageId),("routeDecisionId",.str decisionId),
      ("routeKind",.str "local_message")])
  let _ ← resolveMessageIngress inputMessageId .message assistantMessage.messageId
  return assistantMessage

/-- The acceptance of `_handle_local_task`, with a local runner configured. -/
def acceptLocalTask (contextId : ContextId) (inputMessageId : MessageId)
    (route : MainAgentRouteDecision) (newDecisionId : String) (newTaskId : TaskId)
    (newThreadId : ThreadId) : StoreTxn (RouteDecisionRecord × TaskRecord) :=
  acceptLocalTaskFromMessage ⟨route.record newDecisionId contextId inputMessageId,newTaskId,
    newThreadId,true,none,1⟩

end Admission

section Delegation

def completeRemoteMessage (contextId : ContextId) (inputMessageId newMessageId : MessageId)
    (decisionId newDelegationId : String) (targetAgentId : AgentId)
    (remote : RemoteAgentSendResult) : StoreTxn MessageRecord := do
  let assistantMessage ← appendMessage newMessageId contextId .agent remote.parts none
    (.obj [("inputMessageId",.str inputMessageId),("routeDecisionId",.str decisionId),
      ("routeKind",.str "remote_agent"),("remoteAgentId",.str targetAgentId),
      ("remoteContextId",(remote.contextId.map .str).getD .null),
      ("remoteMessageId",(remote.messageId.map .str).getD .null)])
  let _ ← createDelegatedTask ⟨newDelegationId,contextId,inputMessageId,decisionId,targetAgentId,
    none,none,remote.contextId,remote.messageId,"message","completed",
    .obj [("localMessageId",.str assistantMessage.messageId)]⟩
  let _ ← resolveMessageIngress inputMessageId .delegation newDelegationId
  return assistantMessage

def completeRemoteTask (contextId : ContextId) (inputMessageId : MessageId)
    (decisionId newDelegationId : String) (targetAgentId : AgentId)
    (remote : RemoteAgentSendResult) (newTaskId : TaskId) (newThreadId : ThreadId) :
    StoreTxn TaskRecord := do
  let remoteTaskId ← orFail (remote.taskId.filter fun id => id.trimAscii.toString ≠ "")
    (.runtimeError "remote agent task result is missing a task id")
  let task ← createTask ⟨newTaskId,contextId,inputMessageId,newThreadId,
    remoteTaskStatus remote.status .failed,some targetAgentId,none,1⟩
  let _ ← appendTaskEvent task.taskId "task_delegated" (some task.status)
    (.obj [("remote_agent_id",.str targetAgentId),("remote_task_id",.str remoteTaskId),
      ("remote_context_id",(remote.contextId.map .str).getD .null)])
  let _ ← createDelegatedTask ⟨newDelegationId,contextId,inputMessageId,decisionId,targetAgentId,
    some task.taskId,some remoteTaskId,remote.contextId,none,"task",
    (nonEmpty remote.status).getD task.status.value,.obj []⟩
  let _ ← resolveMessageIngress inputMessageId .delegation newDelegationId
  return task

end Delegation

section Continuation

def validatePendingContinuation (taskId : TaskId) (expectedKind operation : String) :
    StoreTxn TaskRecord := do
  let task ← requireTask taskId
  require (task.status = .inputRequired ∨ task.status = .authRequired)
    (.valueError ("task is not waiting for " ++ operation ++ ": " ++ taskId))
  let _ ← requirePending taskId expectedKind
  return task

/-- An approval decides the invocation that its request is bound to. -/
def resolveBoundApproval (taskId : TaskId) (expectedKind : String)
    (pending : PendingContinuationRecord) (resumePayload : Json) : StoreTxn Unit := do
  if expectedKind = "approval_required" then
    let _ ← resolvePendingToolInvocationApproval taskId pending.inputRequest
      (resumePayload.member "approved").truthy (nonEmpty (resumePayload.member "reason").asString)
  else
    return ()

/-- The handoff: pending record, audit event, queue state and command, together. -/
def acceptPendingContinuation (taskId : TaskId) (expectedKind operation : String)
    (resumePayload : Json) (kind : QueuedTaskExecutionKind)
    (payload : QueuedTaskExecutionPayload) : StoreTxn TaskRecord := do
  let _ ← validatePendingContinuation taskId expectedKind operation
  let pending ← consumePendingContinuation taskId expectedKind
  resolveBoundApproval taskId expectedKind pending resumePayload
  let _ ← appendTaskEvent taskId "task_resumed" none resumePayload
  let task ← transitionLocalTask taskId .queued (.obj []) .none
  let _ ← enqueueTaskExecution task.taskId kind task.runtimeThreadId (some payload)
    localExecutionCommandVersion
  return task

/-- `ResolveApprovalCommand`: it names the task and the decision, nothing else. -/
def resolveApproval (taskId : TaskId) (approved : Bool) (reason : Option String) :
    StoreTxn TaskRecord :=
  acceptPendingContinuation taskId "approval_required" "approval"
    (.ofOptions [("approved",some (.bool approved)),("reason",(nonEmpty reason).map .str)])
    .approval (.approval approved reason)

/-- `SubmitTaskInputCommand`. -/
def submitTaskInput (taskId : TaskId) (request : MainAgentRequest) (newMessageId : MessageId) :
    StoreTxn TaskRecord := do
  require (request.role = .user) (.valueError "task input role must be user")
  require (request.parts ≠ []) (.valueError "task input parts are required")
  let task ← validatePendingContinuation taskId "user_input_required" "input"
  require (request.contextId = none ∨ request.contextId = some task.contextId)
    (.valueError ("task context mismatch: " ++ taskId))
  let message ← appendMessage ((nonEmpty request.messageId).getD newMessageId) task.contextId .user
    request.parts (some taskId)
    (request.metadata.merge (.obj [("inputRequestKind",.str "user_input_required")]))
  let _ ← appendTaskEvent taskId "task_input_submitted" none
    (.obj [("message_id",.str message.messageId)])
  acceptPendingContinuation taskId "user_input_required" "input"
    (.obj [("input_message_id",.str message.messageId)]) .userInput
    (.userInput request.parts (if request.metadata.truthy then some request.metadata else none))

end Continuation

section Cancellation

/-- The task as committed, and the thread to signal when its slice is active. -/
structure CommittedCancellation where
  task : TaskRecord
  activeRuntimeThreadId : Option ThreadId

def cancelDirectly (taskId : TaskId) (reason : Option String) (payload : Json) :
    StoreTxn CommittedCancellation := do
  let canceledTask ← transitionLocalTask taskId .canceled payload .none
  let _ ← cancelPreparedToolInvocations taskId
    ((nonEmpty reason).getD "task canceled before tool execution")
  clearPendingContinuation taskId
  clearQueuedTaskExecution taskId
  return ⟨canceledTask,none⟩

/-- `commit_cancellation`; `active` is what the adapter answers about the task. -/
def commitCancellation (taskId : TaskId) (reason : Option String) (active : Bool) :
    StoreTxn CommittedCancellation := do
  let task ← requireTask taskId
  require (isTerminalTaskStatus task.status = false)
    (.valueError ("task is terminal and cannot be canceled: " ++ taskId))
  let payload := .ofOptions [("reason",(nonEmpty reason).map .str)]
  if task.status = .cancelRequested then
    return ⟨task,if active then some task.runtimeThreadId else none⟩
  else if task.status = .running then
    let cancelRequested ← transitionLocalTask taskId .cancelRequested payload .none
    if active = true then
      return ⟨cancelRequested,some cancelRequested.runtimeThreadId⟩
    else
      cancelDirectly taskId reason payload
  else
    cancelDirectly taskId reason payload

end Cancellation

section Retry

def retryableFailedLocalTask (taskId : TaskId) : StoreTxn TaskRecord := do
  let task ← orFail (← getTask taskId) (.taskNotFound taskId)
  require (task.assignedAgentId = none)
    (.invalidSessionState "Only locally owned tasks can be retried.")
  require (task.status = .failed) (.invalidSessionState "Only failed tasks can be retried.")
  require (task.errorRetryable = true) (.invalidSessionState "This task failure is not retryable.")
  let sideEffecting ← hasPotentiallySideEffectingToolInvocation task.taskId
  require (sideEffecting = false) (.invalidSessionState
    "This task cannot be retried because it has potentially side-effecting tool work.")
  return task

/-- Metadata of the retry message: the user's, without its routing intent. -/
def retryMessageMetadata (metadata : Json) (source : TaskRecord) (retryAttempt : Nat) : Json :=
  (Json.obj (metadata.fields.filter fun f => f.1 ≠ "route" ∧ f.1 ≠ "targetAgentId")).merge
    (.obj [("executionMode",.str "task"),("retryOfTaskId",.str source.taskId),
      ("retryAttempt",.num retryAttempt)])

/-- The identifiers drawn for a retry. -/
structure RetryIds where
  messageId : MessageId
  taskId : TaskId
  threadId : ThreadId
  decisionId : String

/-- `accept_retry`: the task of the retry and whether this call created it. The attempt and the
input message are those of the source as it was read before. -/
def acceptRetry (env : CoreEnv) (taskId : TaskId) (ids : RetryIds) (seen : TaskRecord)
    (inputMessage : MessageRecord) : StoreTxn (TaskRecord × Bool) := do
  let source ← retryableFailedLocalTask taskId
  match ← getDirectTaskRetry source.taskId with
  | some existing => return (existing,false)
  | none =>
    let retryAttempt := seen.attempt+1
    let retryMetadata := retryMessageMetadata inputMessage.metadata seen retryAttempt
    let retryMessage ← appendMessage ids.messageId source.contextId .user inputMessage.parts none
      retryMetadata
    let _ ← reserveMessageIngress retryMessage.messageId source.contextId
      (env.fingerprint .user retryMessage.parts retryMetadata)
    let (_,task) ← acceptLocalTaskFromMessage ⟨⟨ids.decisionId,source.contextId,
        retryMessage.messageId,.localTask,none,
        "Manual retry of a retryable failed local task.",some 1,
        .obj [("source",.str "manual_retry"),("retryOfTaskId",.str source.taskId),
          ("retryAttempt",.num retryAttempt)]⟩,
      ids.taskId,ids.threadId,true,some source.taskId,retryAttempt⟩
    let _ ← appendTaskEvent source.taskId "task_retry_requested" none
      (.obj [("retry_task_id",.str task.taskId),("retry_attempt",.num task.attempt)])
    let _ ← appendTaskEvent task.taskId "task_retried" none
      (.obj [("retry_of_task_id",.str source.taskId),("retry_attempt",.num task.attempt)])
    return (task,true)

end Retry

section LocalExecution

/-- `ClaimedLocalExecution`, without the messages that the runner is given. -/
structure ClaimedLocalExecution where
  task : TaskRecord
  command : QueuedTaskExecutionRecord
  routeDecisionId : Option String

/-- What the runner needs besides the command: an initial slice needs its input and route. -/
def prepareClaimed (taskId : TaskId) :
    Option (TaskRecord × QueuedTaskExecutionRecord) → StoreTxn (Option ClaimedLocalExecution)
  | none => return none
  | some (task,command) => do
    if command.kind = .initial then
      require (0 < task.inputContextSequence)
        (.runtimeError ("task input cut is unavailable: " ++ taskId))
      let decision ← getRouteDecisionByMessageId task.inputMessageId
      return some ⟨task,command,decision.map (·.decisionId)⟩
    else
      return some ⟨task,command,none⟩

/-- `_claim_local_execution`. -/
def claimLocalExecution (taskId : TaskId) : StoreTxn (Option ClaimedLocalExecution) := do
  prepareClaimed taskId (← claimQueuedTaskExecution taskId)

end LocalExecution
end MainAgentCore
end VermayAgent
