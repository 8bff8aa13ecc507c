import VermayAgent.ToolInvocationStore

/-! Recording accepted execution outcomes.
`record_local_result` reads the task before it opens its transaction, so the record it
saw then is a parameter; each recorder reads the task again inside. -/
namespace VermayAgent
open Library Txn MainAgentStore

structure LocalTaskRunResult where
  status : TaskStatus
  parts : List Json
  artifactParts : List Json
  errorCode : Option String
  errorMessage : Option String
  errorRetryable : Bool
  inputRequest : Option Json
  observations : List Json
  execution : Json

structure RemoteAgentTaskSnapshot where
  taskId : String
  contextId : Option String
  status : Option String
  artifacts : List Json
  raw : Json

section Projection

/-- The input request of a result, if it is of a kind that can be continued. -/
def continuationInputRequest (result : LocalTaskRunResult) : Option Json :=
  match result.inputRequest with
  | some (.obj fields) =>
    let kind := (Json.obj fields).member "kind"
    if kind = .str "approval_required" ∨ kind = .str "user_input_required" then some (.obj fields)
    else none
  | _ => none

/-- The set test on the kind of a waiting result's request hashes it, which lists and dicts
refuse. -/
def hashRequestKind (result : LocalTaskRunResult) : Except PyException Unit :=
  if result.status ≠ .inputRequired ∧ result.status ≠ .authRequired then .ok ()
  else
    match result.inputRequest with
    | some (.obj fields) =>
      match (Json.obj fields).member "kind" with
      | .arr _ => .error (.typeError "unhashable type: 'list'")
      | .obj _ => .error (.typeError "unhashable type: 'dict'")
      | _ => .ok ()
    | _ => .ok ()

def localProcessStatus (result : LocalTaskRunResult) : TaskStatus :=
  if result.status ≠ .inputRequired ∧ result.status ≠ .authRequired then result.status
  else
    match continuationInputRequest result with
    | none => result.status
    | some inputRequest =>
      if inputRequest.member "kind" = .str "approval_required" then .authRequired
      else .inputRequired

def taskResultExecution (result : LocalTaskRunResult) : Json :=
  if result.execution.isObject then result.execution else .obj []

def taskResultLifecyclePayload (result : LocalTaskRunResult)
    (observationArtifactId : Option ArtifactId) : Json :=
  .ofOptions [("execution",if (taskResultExecution result).truthy then
      some (taskResultExecution result) else none),
    ("observation_artifact_id",observationArtifactId.map .str)]

def nonEmpty (s : Option String) : Option String := s.filter fun s => s ≠ ""

def taskResultErrorPayload (result : LocalTaskRunResult)
    (observationArtifactId : Option ArtifactId) : Json :=
  (Json.ofOptions [("error_code",(nonEmpty result.errorCode).map .str),
    ("error_message",(nonEmpty result.errorMessage).map .str),
    ("input_request",result.inputRequest.filter Json.truthy)]).merge
    (taskResultLifecyclePayload result observationArtifactId)

def taskResultExecutionMetadata (result : LocalTaskRunResult)
    (observationArtifactId : Option ArtifactId) : Json :=
  .ofOptions [("execution",if (taskResultExecution result).truthy then
      some (taskResultExecution result) else none),
    ("observationArtifactId",observationArtifactId.map .str)]

def taskResultObservations (result : LocalTaskRunResult) : List Json :=
  result.observations.filter Json.isObject

end Projection

/-- `_input_request_prompt`. -/
def inputRequestPrompt (inputRequest : Json) : String :=
  let prompt := if (inputRequest.member "prompt").truthy then inputRequest.member "prompt"
    else inputRequest.member "message"
  match prompt with
  | .str text =>
    if text.trimAscii.toString ≠ "" then text.trimAscii.toString
    else "Please provide the information required to continue."
  | _ => "Please provide the information required to continue."

/-- `remote_task_status`. -/
def remoteTaskStatus (status : Option String) (fallback : TaskStatus) : TaskStatus :=
  match status with
  | none => fallback
  | some status =>
    if status ∈ ["submitted","TASK_STATE_SUBMITTED","created","queued"] then .queued
    else if status ∈ ["working","TASK_STATE_WORKING","running"] then .running
    else if status ∈ ["completed","TASK_STATE_COMPLETED"] then .completed
    else if status ∈ ["canceled","cancelled","TASK_STATE_CANCELED"] then .canceled
    else if status ∈ ["failed","rejected","TASK_STATE_FAILED","TASK_STATE_REJECTED"] then .failed
    else if status ∈ ["input-required","TASK_STATE_INPUT_REQUIRED"] then .inputRequired
    else if status ∈ ["auth-required","TASK_STATE_AUTH_REQUIRED"] then .authRequired
    else fallback

/-- `_normalize_remote_part`. -/
def normalizeRemotePart (part : Json) : Option Json :=
  match part with
  | .obj fields =>
    match (Json.obj fields).member "text",(Json.obj fields).member "kind" with
    | .str text,_ => some (.obj [("kind",.str "text"),("text",.str text)])
    | _,.str _ => some (.obj fields)
    | _,_ => none
  | _ => none

/-- `_remote_final_artifact`: the parts of the first artifact that has any, and its id. -/
def remoteFinalArtifact : List Json → List Json × Json
  | [] => ([],.null)
  | artifact::artifacts =>
    match artifact.member "parts" with
    | .arr rawParts =>
      let parts := rawParts.filterMap normalizeRemotePart
      if parts.isEmpty then remoteFinalArtifact artifacts
      else (parts,if (artifact.member "artifactId").truthy then artifact.member "artifactId"
        else artifact.member "id")
    | _ => remoteFinalArtifact artifacts

namespace TaskOutcomeRecorder

def closeUnresolvedExecution (taskId : TaskId) (errorCode errorMessage : String)
    (retryable : Bool) (preparedReason : String) : StoreTxn Unit := do
  let _ ← markRunningToolInvocationsUncertain taskId errorCode errorMessage retryable
  let _ ← cancelPreparedToolInvocations taskId preparedReason
  clearPendingContinuation taskId
  clearQueuedTaskExecution taskId

def recordCancellation (taskId : TaskId) : StoreTxn TaskRecord := do
  let task ← requireTask taskId
  if task.status = .canceled ∨ isTerminalTaskStatus task.status = true then
    return task
  else
    let task ← transitionLocalTask taskId .canceled (.obj [("execution",.obj
      [("stop_reason",.str "canceled"),
        ("stop_detail",.obj [("source",.str "control_plane_cancellation")])])]) .none
    closeUnresolvedExecution taskId "task_canceled_during_tool_execution"
      ("Task cancellation reached a boundary while a side-effecting tool outcome " ++
        "was unresolved.") false "task canceled before prepared tool execution"
    return task

/-- The task is open for an outcome, already terminal, or to be canceled instead. -/
def unlessEnded (taskId : TaskId) (record : TaskRecord → StoreTxn TaskRecord) :
    StoreTxn TaskRecord := do
  let task ← requireTask taskId
  if isTerminalTaskStatus task.status = true then
    return task
  else if task.status = .cancelRequested then
    recordCancellation taskId
  else
    record task

def recordFailure (taskId : TaskId) (error : PyException) : StoreTxn TaskRecord :=
  let info := errorInfoFromException error
  unlessEnded taskId fun _ => do
    let failed ← transitionLocalTask taskId .failed (.obj
      [("error_code",.str info.code),("error_message",.str info.publicMessage),
        ("retryable",.bool info.retryable),
        ("execution",.obj [("stop_reason",.str "environment_failure"),
          ("stop_detail",.obj [("error_code",.str info.code)]),
          ("residual_risks",.arr [.obj [("category",.str "environment_failure"),
            ("summary",.str info.publicMessage),("retryable",.bool info.retryable)]])])])
      ⟨some info.code,some info.publicMessage,info.retryable⟩
    closeUnresolvedExecution taskId info.code info.publicMessage info.retryable
      "task failed before prepared tool execution"
    return failed

def recordRuntimeRecoveryFailure (taskId : TaskId) (errorCode errorMessage : String) :
    StoreTxn TaskRecord := do
  let task ← requireTask taskId
  if isTerminalTaskStatus task.status = true then
    return task
  else
    let failed ← transitionLocalTask taskId .failed (.obj [("error_code",.str errorCode),
      ("error_message",.str errorMessage),("retryable",.bool true)])
      ⟨some errorCode,some errorMessage,true⟩
    closeUnresolvedExecution taskId errorCode errorMessage true
      "runtime recovery ended before prepared tool execution"
    return failed

def persistObservations (task : TaskRecord) (result : LocalTaskRunResult) :
    StoreTxn (Option ArtifactId) := do
  let observations := taskResultObservations result
  if observations.isEmpty = true then
    return none
  else
    let artifactId := task.taskId ++ ":tool_observations"
    let existing ← getArtifact artifactId
    let artifact ← upsertArtifact artifactId task.taskId task.contextId
      [.obj [("kind",.str "data"),("data",.obj [("observations",.arr observations)])]]
      ((Json.obj [("kind",.str "tool_observations"),
        ("observationCount",.num observations.length)]).merge
        (taskResultExecutionMetadata result none))
    let _ ← appendTaskEvent task.taskId
      (if existing.isSome then "task_artifact_updated" else "task_artifact_created") none
      (.obj [("artifact_id",.str artifact.artifactId),("kind",.str "tool_observations")])
    return some artifact.artifactId

def recordCompletedResult (taskId : TaskId) (result : LocalTaskRunResult) (metadata : Json)
    (newMessageId : MessageId) : StoreTxn TaskRecord :=
  unlessEnded taskId fun task => do
    let observationArtifactId ← persistObservations task result
    let assistantMessage ← appendMessage newMessageId task.contextId .agent result.parts
      (some taskId) (metadata.merge (.obj [("routeKind",.str "local_task")]))
    let artifact ← upsertArtifact (taskId ++ ":final_answer") taskId task.contextId
      (if result.artifactParts.isEmpty then result.parts else result.artifactParts)
      ((Json.obj [("kind",.str "final_answer"),
        ("outputMessageId",.str assistantMessage.messageId)]).merge
        (taskResultExecutionMetadata result observationArtifactId))
    let _ ← appendTaskEvent taskId "task_artifact_created" none
      (.obj [("artifact_id",.str artifact.artifactId),("kind",.str "final_answer")])
    let _ ← setTaskOutputMessage taskId assistantMessage.messageId
    let task ← transitionLocalTask taskId .completed
      (taskResultLifecyclePayload result observationArtifactId) .none
    clearPendingContinuation taskId
    clearQueuedTaskExecution taskId
    return task

/-- The agent message that asks the user, for requests of general input. -/
def appendInputRequestMessage (task active : TaskRecord) (inputRequest : Json) :
    StoreTxn Unit := do
  if inputRequest.member "kind" = .str "user_input_required" then
    let _ ← appendMessage ("msg-input-request-" ++ task.taskId ++ "-" ++
        toString active.lifecycleRevision) task.contextId .agent
      [.obj [("kind",.str "text"),("text",.str (inputRequestPrompt inputRequest))]]
      (some task.taskId)
      (.obj [("routeKind",.str "local_task"),("messageKind",.str "task_input_request"),
        ("inputRequest",inputRequest),("inputRequestRevision",.num active.lifecycleRevision)])
  else
    return ()

def recordInterruptedResult (taskId : TaskId) (result : LocalTaskRunResult)
    (resultStatus : TaskStatus) (inputRequest : Json) : StoreTxn TaskRecord :=
  unlessEnded taskId fun task => do
    let observationArtifactId ← persistObservations task result
    let _ ← setPendingContinuation taskId
      (((inputRequest.member "kind").asString).getD "") inputRequest
    let active ← transitionLocalTask taskId resultStatus
      (taskResultErrorPayload result observationArtifactId) .none
    appendInputRequestMessage task active inputRequest
    clearQueuedTaskExecution taskId
    return active

def recordFailedResult (taskId : TaskId) (result : LocalTaskRunResult)
    (resultStatus : TaskStatus) : StoreTxn TaskRecord :=
  unlessEnded taskId fun task => do
    let observationArtifactId ← persistObservations task result
    let errorCode := (nonEmpty result.errorCode).getD "task_not_completed"
    let errorMessage := (nonEmpty result.errorMessage).getD
      ("local task ended with unsupported status: " ++ resultStatus.value)
    let failed ← transitionLocalTask taskId .failed
      ((Json.obj [("error_code",.str errorCode),("error_message",.str errorMessage),
        ("retryable",.bool result.errorRetryable)]).merge
        (taskResultLifecyclePayload result observationArtifactId))
      ⟨some errorCode,some errorMessage,result.errorRetryable⟩
    closeUnresolvedExecution taskId "task_ended_before_tool_outcome"
      "Task ended before a side-effecting tool outcome was durably recorded." true
      "task failed before prepared tool execution"
    return failed

/-- The recorder that is chosen for a result, given the task record read beforehand. -/
def recordLocalResult (taskId : TaskId) (result : LocalTaskRunResult) (metadata : Json)
    (newMessageId : MessageId) (seen : TaskRecord) : StoreTxn TaskRecord :=
  if isTerminalTaskStatus seen.status = true then pure seen
  else if seen.status = .cancelRequested then recordCancellation taskId
  else do
    ofExcept (hashRequestKind result)
    match localProcessStatus result with
    | .completed => recordCompletedResult taskId result metadata newMessageId
    | .running => pure seen
    | .inputRequired | .authRequired =>
      match continuationInputRequest result with
      | none =>
        recordFailure taskId
          (.valueError "interrupted task result must include a supported input_request.kind")
      | some inputRequest =>
        recordInterruptedResult taskId result (localProcessStatus result) inputRequest
    | resultStatus => recordFailedResult taskId result resultStatus

/-- The part of `recordLocalResult` that records an interruption. -/
def recordInterruption (taskId : TaskId) (result : LocalTaskRunResult) : StoreTxn TaskRecord :=
  match continuationInputRequest result with
  | none =>
    recordFailure taskId
      (.valueError "interrupted task result must include a supported input_request.kind")
  | some inputRequest =>
    recordInterruptedResult taskId result (localProcessStatus result) inputRequest

def validateRemoteProxySnapshot (delegation : DelegatedTaskRecord)
    (snapshot : RemoteAgentTaskSnapshot) : StoreTxn Unit := do
  let expected ← orFail (nonEmpty delegation.remoteTaskId) (.runtimeError
    ("delegated task has no persisted remote task id: " ++ delegation.delegationId))
  require (snapshot.taskId = expected) (.runtimeError
    ("remote agent snapshot task id does not match the delegated task " ++
      "('" ++ snapshot.taskId ++ "' != '" ++ expected ++ "')"))
  require (delegation.remoteContextId = none ∨ snapshot.contextId = none ∨
      snapshot.contextId = delegation.remoteContextId) (.runtimeError
    "remote agent snapshot context id does not match the delegated context")

def materializeRemoteFinalAnswer (task : TaskRecord) (delegation : DelegatedTaskRecord)
    (snapshot : RemoteAgentTaskSnapshot) (newMessageId : MessageId) : StoreTxn TaskRecord := do
  let (parts,remoteArtifactId) := remoteFinalArtifact snapshot.artifacts
  if parts.isEmpty = true then
    return task
  else
    let artifactId := task.taskId ++ ":remote_final_answer"
    match ← getArtifact artifactId with
    | some _ => return (← getTask task.taskId).getD task
    | none =>
      let assistantMessage ← appendMessage newMessageId task.contextId .agent parts
        (some task.taskId) (.obj [("routeKind",.str "remote_agent"),
          ("remoteAgentId",.str delegation.remoteAgentId),("remoteTaskId",.str snapshot.taskId),
          ("remoteContextId",(snapshot.contextId.map .str).getD .null),
          ("remoteArtifactId",remoteArtifactId),("delegationId",.str delegation.delegationId)])
      let artifact ← upsertArtifact artifactId task.taskId task.contextId parts
        (.obj [("kind",.str "final_answer"),("source",.str "remote_agent"),
          ("outputMessageId",.str assistantMessage.messageId),
          ("remoteAgentId",.str delegation.remoteAgentId),("remoteTaskId",.str snapshot.taskId),
          ("remoteArtifactId",remoteArtifactId)])
      let _ ← appendTaskEvent task.taskId "task_artifact_created" none
        (.obj [("artifact_id",.str artifact.artifactId),("kind",.str "final_answer"),
          ("source",.str "remote_agent"),("remote_agent_id",.str delegation.remoteAgentId),
          ("remote_task_id",.str snapshot.taskId),("remote_artifact_id",remoteArtifactId)])
      setTaskOutputMessage task.taskId assistantMessage.messageId

/-- The task after its final answer was stored, where the snapshot is a completed one. -/
def materializeIfCompleted (nextStatus : TaskStatus) (task : TaskRecord)
    (delegation : DelegatedTaskRecord) (snapshot : RemoteAgentTaskSnapshot)
    (newMessageId : MessageId) : StoreTxn TaskRecord :=
  if nextStatus = .completed then
    materializeRemoteFinalAnswer task delegation snapshot newMessageId
  else pure task

def recordRemoteSnapshot (taskId : TaskId) (snapshot : RemoteAgentTaskSnapshot)
    (newMessageId : MessageId) : StoreTxn TaskRecord := do
  let task ← requireTask taskId
  let delegation ← orFail (← getDelegatedTaskByLocalTaskId taskId)
    (.valueError ("remote proxy task is missing delegation: " ++ taskId))
  validateRemoteProxySnapshot delegation snapshot
  let nextStatus := remoteTaskStatus snapshot.status task.status
  if acceptsRemoteProxySnapshot task.status nextStatus = false then
    return task
  else
    let _ ← updateDelegatedTaskStatus delegation.delegationId
      ((nonEmpty snapshot.status).getD nextStatus.value)
      (delegation.metadata.merge (.ofOptions [("remoteTaskId",some (.str snapshot.taskId)),
        ("remoteContextId",some ((snapshot.contextId.map .str).getD .null)),
        ("remoteStatus",some ((snapshot.status.map .str).getD .null)),
        ("lastRemoteSnapshot",if snapshot.raw.truthy then some snapshot.raw else none)]))
    let task ← materializeIfCompleted nextStatus task delegation snapshot newMessageId
    if nextStatus = task.status then
      return task
    else
      let updated ← updateTaskStatus task.taskId nextStatus .none
      let _ ← appendTaskEvent task.taskId "remote_task_status_synced" (some nextStatus)
        (.obj [("remote_agent_id",.str delegation.remoteAgentId),
          ("remote_task_id",.str snapshot.taskId),
          ("remote_context_id",(snapshot.contextId.map .str).getD .null),
          ("remote_status",(snapshot.status.map .str).getD .null)])
      return updated

end TaskOutcomeRecorder
end VermayAgent
