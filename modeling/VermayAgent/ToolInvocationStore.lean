import VermayAgent.Store

/-! The store's half of the tool-invocation ledger.
A row is the durable identity of one external effect; two status columns say what was
decided about it and what became of it. -/
namespace VermayAgent
open Library Txn

namespace MainAgentStore

def getToolInvocation (invocationId : InvocationId) : StoreTxn (Option ToolInvocationRecord) :=
  select (·.toolInvocations.get invocationId)

def requireToolInvocation (invocationId : InvocationId) : StoreTxn ToolInvocationRecord := do
  orFail (← getToolInvocation invocationId)
    (.valueError ("unknown tool invocation: " ++ invocationId))

/-- The columns of the unique execution-identity index. -/
def ToolInvocationRecord.executionIdentity (r : ToolInvocationRecord) :
    TaskId × ThreadId × Int × String × String :=
  (r.taskId,r.runtimeThreadId,r.loopIndex,r.toolCallId,r.argumentsDigest)

def getToolInvocationByExecutionIdentity (identity : TaskId × ThreadId × Int × String × String) :
    StoreTxn (Option ToolInvocationRecord) :=
  select (·.toolInvocations.rows.find? fun r =>
    ToolInvocationRecord.executionIdentity r = identity)

/-- `ORDER BY created_at DESC, invocation_id DESC`: whether `a` comes before `b`. -/
def laterInvocation (a b : ToolInvocationRecord) : Bool :=
  b.createdAt < a.createdAt || (a.createdAt = b.createdAt && b.invocationId < a.invocationId)

/-- The first row in that order. -/
def latestInvocation : List ToolInvocationRecord → Option ToolInvocationRecord
  | [] => none
  | r::rows =>
    match latestInvocation rows with
    | none => some r
    | some r' => if laterInvocation r r' then some r else some r'

def findLatestToolInvocationForEffect (taskId : TaskId) (toolName argumentsDigest : String) :
    StoreTxn (Option ToolInvocationRecord) :=
  select fun db => latestInvocation (db.toolInvocations.rows.filter fun r =>
    r.taskId = taskId ∧ r.toolName = toolName ∧ r.argumentsDigest = argumentsDigest)

/-- The arguments of `create_or_get_tool_invocation`. -/
structure NewToolInvocation where
  invocationId : InvocationId
  taskId : TaskId
  contextId : ContextId
  runtimeThreadId : ThreadId
  loopIndex : Int
  toolCallId : String
  toolName : String
  normalizedArguments : Json
  argumentsDigest : String
  capability : Json
  sideEffectLevel : String
  idempotencyKey : Option String
  approvalRequired : Bool

/-- The row that is inserted for a new invocation. -/
def NewToolInvocation.record (new : NewToolInvocation) (now : Nat) : ToolInvocationRecord where
  invocationId := new.invocationId
  taskId := new.taskId
  contextId := new.contextId
  runtimeThreadId := new.runtimeThreadId
  loopIndex := new.loopIndex
  toolCallId := new.toolCallId
  toolName := new.toolName
  normalizedArguments := new.normalizedArguments
  argumentsDigest := new.argumentsDigest
  capability := new.capability
  sideEffectLevel := new.sideEffectLevel
  idempotencyKey := new.idempotencyKey
  approvalRequired := new.approvalRequired
  approvalStatus := if new.approvalRequired then .pending else .notRequired
  approvalReason := none
  status := .prepared
  resultArtifactId := none
  errorCode := none
  errorMessage := none
  errorRetryable := false
  createdAt := now

/-- `_validate_tool_invocation_identity`. -/
def validateToolInvocationIdentity (record : ToolInvocationRecord) (new : NewToolInvocation) :
    StoreTxn Unit :=
  require (record.taskId = new.taskId ∧ record.contextId = new.contextId ∧
      record.runtimeThreadId = new.runtimeThreadId ∧ record.loopIndex = new.loopIndex ∧
      record.toolCallId = new.toolCallId ∧ record.toolName = new.toolName ∧
      record.argumentsDigest = new.argumentsDigest)
    (.valueError ("tool invocation identity conflict: " ++ record.invocationId))

/-- The task that owns the effect: local, with the same context and runtime thread. -/
def requireInvocationOwner (new : NewToolInvocation) : StoreTxn Unit := do
  let task ← requireTask new.taskId
  require (task.contextId = new.contextId)
    (.valueError ("tool invocation context mismatch: " ++ new.taskId))
  require (task.runtimeThreadId = new.runtimeThreadId)
    (.valueError ("tool invocation runtime thread mismatch: " ++ new.taskId))
  require (task.assignedAgentId = none)
    (.valueError ("remote proxy task cannot own a local tool invocation: " ++ new.taskId))

def insertToolInvocation (record : ToolInvocationRecord) : StoreTxn Unit := statement do
  let rows ← select (·.toolInvocations.rows)
  uniqueConstraint (∀ r ∈ rows, ToolInvocationRecord.executionIdentity r ≠
      ToolInvocationRecord.executionIdentity record)
    "main_agent_tool_invocations.task_id, runtime_thread_id, loop_index, tool_call_id, arguments_digest"
  write? (fun db => (db.toolInvocations.insert? record).map
    fun toolInvocations => {db with toolInvocations})
    (.integrityError "UNIQUE constraint failed: main_agent_tool_invocations.invocation_id")

/-- One durable identity for the effect; a replay loads the row that exists. -/
def createOrGetToolInvocation (new : NewToolInvocation) (now : Nat) :
    StoreTxn ToolInvocationRecord := do
  require (1 ≤ new.loopIndex) (.valueError "tool invocation loop_index must be positive")
  require (new.invocationId ≠ "" ∧ new.toolCallId ≠ "" ∧ new.toolName ≠ "" ∧
    new.argumentsDigest ≠ "") (.valueError "tool invocation identity fields are required")
  requireInvocationOwner new
  match ← getToolInvocation new.invocationId with
  | some existing =>
    validateToolInvocationIdentity existing new
    return existing
  | none =>
    match ← getToolInvocationByExecutionIdentity (new.taskId,new.runtimeThreadId,new.loopIndex,
        new.toolCallId,new.argumentsDigest) with
    | some identityMatch =>
      validateToolInvocationIdentity identityMatch new
      return identityMatch
    | none =>
      insertToolInvocation (new.record now)
      orFail (← getToolInvocation new.invocationId)
        (.runtimeError ("failed to create tool invocation: " ++ new.invocationId))

/-- `UPDATE main_agent_tool_invocations … WHERE p`. -/
def updateToolInvocations (p : ToolInvocationRecord → Bool)
    (f : ToolInvocationRecord → ToolInvocationRecord)
    (hf : ∀ r, (f r).invocationId = r.invocationId) : StoreTxn Unit :=
  write fun db => {db with toolInvocations := db.toolInvocations.update p f hf}

/-- Move a prepared effect to running; anything else comes back as it is. -/
def beginToolInvocation (invocationId : InvocationId) : StoreTxn ToolInvocationRecord := do
  let record ← requireToolInvocation invocationId
  if record.status ≠ .prepared then
    return record
  else if record.approvalRequired ∧ record.approvalStatus ≠ .approved then
    return record
  else
    updateToolInvocations (fun r => r.invocationId = invocationId ∧ r.status = .prepared)
      (fun r => {r with status := .running}) fun _ => rfl
    orFail (← getToolInvocation invocationId)
      (.runtimeError ("failed to start tool invocation: " ++ invocationId))

/-- `target_approval`. -/
def ToolInvocationApprovalStatus.ofDecision (approved : Bool) : ToolInvocationApprovalStatus :=
  if approved then .approved else .rejected

/-- The columns that an operator decision writes; a rejection ends the effect. -/
def decideToolInvocationApproval (invocationId : InvocationId) (approved : Bool)
    (reason : Option String) : StoreTxn Unit :=
  if approved then
    updateToolInvocations (fun r => r.invocationId = invocationId)
      (fun r => {r with approvalStatus := .approved, approvalReason := reason}) fun _ => rfl
  else
    updateToolInvocations (fun r => r.invocationId = invocationId)
      (fun r => {r with
        approvalStatus := .rejected
        approvalReason := reason
        status := .canceled}) fun _ => rfl

/-- Bind an operator decision to the prepared effect that it was asked for. -/
def resolveToolInvocationApproval (taskId : TaskId) (invocationId : InvocationId)
    (toolName argumentsDigest : String) (approved : Bool) (reason : Option String) :
    StoreTxn ToolInvocationRecord := do
  let record ← requireToolInvocation invocationId
  require (record.taskId = taskId ∧ record.toolName = toolName ∧
      record.argumentsDigest = argumentsDigest)
    (.valueError ("approval does not match tool invocation: " ++ invocationId))
  require (record.approvalRequired = true)
    (.valueError ("tool invocation does not require approval: " ++ invocationId))
  if record.approvalStatus = ToolInvocationApprovalStatus.ofDecision approved then
    return record
  else
    require (record.approvalStatus = .pending)
      (.valueError ("tool invocation approval is already resolved: " ++ invocationId))
    require (record.status = .prepared)
      (.valueError ("tool invocation is no longer awaiting approval: " ++ invocationId))
    decideToolInvocationApproval invocationId approved reason
    orFail (← getToolInvocation invocationId)
      (.runtimeError ("failed to resolve tool invocation approval: " ++ invocationId))

/-- Resolve the invocation that a runtime interrupt is bound to, if it is bound to one. -/
def resolvePendingToolInvocationApproval (taskId : TaskId) (inputRequest : Json)
    (approved : Bool) (reason : Option String) : StoreTxn (Option ToolInvocationRecord) := do
  match inputRequest.member "invocationId",inputRequest.member "toolName",
      inputRequest.member "argumentsDigest" with
  | .null,.null,.null => return none
  | .str invocationId,.str toolName,.str argumentsDigest =>
    require (invocationId ≠ "" ∧ toolName ≠ "" ∧ argumentsDigest ≠ "")
      (.valueError "approval request has an invalid tool invocation binding")
    some <$> resolveToolInvocationApproval taskId invocationId toolName argumentsDigest approved
      reason
  | _,_,_ => fail (.valueError "approval request has an invalid tool invocation binding")

/-- The result artifact and the succeeded effect fact, together. -/
def completeToolInvocationSuccess (invocationId : InvocationId) (artifactParts : List Json)
    (artifactMetadata : Json) : StoreTxn ToolInvocationRecord := do
  let record ← requireToolInvocation invocationId
  if record.status = .succeeded then
    return record
  else
    require (record.status = .running)
      (.valueError ("tool invocation is not running: " ++ invocationId))
    let artifact ← upsertArtifact (invocationId ++ ":result") record.taskId record.contextId
      artifactParts artifactMetadata
    let _ ← appendTaskEvent record.taskId "task_artifact_created" none (.obj
      [("artifact_id",.str artifact.artifactId),("kind",.str "tool_invocation_result"),
        ("invocation_id",.str invocationId)])
    updateToolInvocations (fun r => r.invocationId = invocationId)
      (fun r => {r with
        status := .succeeded
        resultArtifactId := some artifact.artifactId
        errorCode := none
        errorMessage := none
        errorRetryable := false}) fun _ => rfl
    orFail (← getToolInvocation invocationId)
      (.runtimeError ("failed to complete tool invocation: " ++ invocationId))

def markToolInvocationUncertain (invocationId : InvocationId) (errorCode errorMessage : String)
    (retryable : Bool) : StoreTxn ToolInvocationRecord := do
  let record ← requireToolInvocation invocationId
  if record.status = .uncertain then
    return record
  else if record.status ∈ [.succeeded,.failed,.canceled] then
    return record
  else
    updateToolInvocations (fun r => r.invocationId = invocationId)
      (fun r => {r with
        status := .uncertain
        errorCode := some errorCode
        errorMessage := some errorMessage
        errorRetryable := retryable}) fun _ => rfl
    orFail (← getToolInvocation invocationId)
      (.runtimeError ("failed to mark tool invocation uncertain: " ++ invocationId))

/-- What a cancellation writes into a prepared row. -/
def ToolInvocationRecord.cancel (reason : String) (r : ToolInvocationRecord) :
    ToolInvocationRecord :=
  {r with
    status := .canceled
    errorCode := some "tool_invocation_canceled"
    errorMessage := some reason}

@[simp] theorem ToolInvocationRecord.cancel_invocationId (reason : String)
    (r : ToolInvocationRecord) :
    (ToolInvocationRecord.cancel reason r).invocationId = r.invocationId := rfl

def cancelToolInvocation (invocationId : InvocationId) (reason : String) :
    StoreTxn ToolInvocationRecord := do
  let record ← requireToolInvocation invocationId
  if record.status = .canceled then
    return record
  else if record.status ≠ .prepared then
    return record
  else
    updateToolInvocations (fun r => r.invocationId = invocationId)
      (ToolInvocationRecord.cancel reason) (ToolInvocationRecord.cancel_invocationId reason)
    orFail (← getToolInvocation invocationId)
      (.runtimeError ("failed to cancel tool invocation: " ++ invocationId))

def cancelPreparedToolInvocations (taskId : TaskId) (reason : String) : StoreTxn Nat := statement do
  let rowcount ← select fun db => (db.toolInvocations.rows.filter fun r =>
    r.taskId = taskId ∧ r.status = .prepared).length
  updateToolInvocations (fun r => r.taskId = taskId ∧ r.status = .prepared)
    (ToolInvocationRecord.cancel reason) (ToolInvocationRecord.cancel_invocationId reason)
  return rowcount

def markRunningToolInvocationsUncertain (taskId : TaskId) (errorCode errorMessage : String)
    (retryable : Bool) : StoreTxn Nat := statement do
  let rowcount ← select fun db => (db.toolInvocations.rows.filter fun r =>
    r.taskId = taskId ∧ r.status = .running).length
  updateToolInvocations (fun r => r.taskId = taskId ∧ r.status = .running)
    (fun r => {r with
      status := .uncertain
      errorCode := some errorCode
      errorMessage := some errorMessage
      errorRetryable := retryable}) fun _ => rfl
  return rowcount

def hasPotentiallySideEffectingToolInvocation (taskId : TaskId) : StoreTxn Bool :=
  select (·.toolInvocations.rows.any fun r => r.taskId = taskId ∧ r.sideEffectLevel ≠ "none")

end MainAgentStore
end VermayAgent
