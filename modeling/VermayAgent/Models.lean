import VermayAgent.Errors

/-! The durable records of the main agent.
Timestamps are left out, except for the creation time of a tool invocation, by which
the ledger orders the rows of one effect. A queued execution is stored as raw columns
and decoded when it is read. -/
namespace VermayAgent
open Library

abbrev ContextId := String
abbrev MessageId := String
abbrev TaskId := String
abbrev ThreadId := String
abbrev InvocationId := String
abbrev ArtifactId := String
abbrev AgentId := String

inductive MessageRole where
  | user | agent | system
deriving DecidableEq, Repr

inductive RouteDecisionKind where
  | localMessage | localTask | remoteAgent
deriving DecidableEq, Repr

def RouteDecisionKind.value : RouteDecisionKind → String
  | localMessage => "local_message"
  | localTask => "local_task"
  | remoteAgent => "remote_agent"

inductive MessageIngressState where
  | inProgress | resolved | failed
deriving DecidableEq, Repr

inductive MessageIngressOutcomeKind where
  | message | task | delegation
deriving DecidableEq, Repr

inductive TaskStatus where
  | created | queued | running | cancelRequested | inputRequired | authRequired
  | completed | canceled | failed
deriving DecidableEq, Repr

def TaskStatus.value : TaskStatus → String
  | created => "created"
  | queued => "queued"
  | running => "running"
  | cancelRequested => "cancel_requested"
  | inputRequired => "input_required"
  | authRequired => "auth_required"
  | completed => "completed"
  | canceled => "canceled"
  | failed => "failed"

def isTerminalTaskStatus : TaskStatus → Bool
  | .completed | .canceled | .failed => true
  | _ => false

inductive QueuedTaskExecutionKind where
  | initial | approval | userInput
deriving DecidableEq, Repr

def QueuedTaskExecutionKind.value : QueuedTaskExecutionKind → String
  | initial => "initial"
  | approval => "approval"
  | userInput => "user_input"

def QueuedTaskExecutionKind.ofValue? : String → Option QueuedTaskExecutionKind
  | "initial" => some initial
  | "approval" => some approval
  | "user_input" => some userInput
  | _ => none

def localExecutionCommandVersion : Int := 1

inductive QueuedTaskExecutionPayload where
  | initial
  | approval (approved : Bool) (reason : Option String)
  | userInput (parts : List Json) (metadata : Option Json)
deriving DecidableEq

inductive ToolInvocationStatus where
  | prepared | running | succeeded | failed | uncertain | canceled
deriving DecidableEq, Repr

def ToolInvocationStatus.value : ToolInvocationStatus → String
  | prepared => "prepared"
  | running => "running"
  | succeeded => "succeeded"
  | failed => "failed"
  | uncertain => "uncertain"
  | canceled => "canceled"

inductive ToolInvocationApprovalStatus where
  | notRequired | pending | approved | rejected
deriving DecidableEq, Repr

/-- `str` on JSON values: the identity on strings. -/
structure TextEnv where
  str : Json → String
  str_str : ∀ s, str (.str s) = s

structure MainAgentRequest where
  contextId : Option ContextId
  messageId : Option MessageId
  role : MessageRole
  parts : List Json
  metadata : Json
deriving DecidableEq

/-- A row of `contexts`, with its message counter. -/
structure ContextRecord where
  contextId : ContextId
  title : Option String
  metadata : Json
  nextMessageSequence : Nat
deriving DecidableEq

structure MessageRecord where
  messageId : MessageId
  contextId : ContextId
  contextSequence : Nat
  role : MessageRole
  parts : List Json
  taskId : Option TaskId
  metadata : Json
deriving DecidableEq

structure MessageIngressRecord where
  messageId : MessageId
  contextId : ContextId
  requestFingerprint : String
  state : MessageIngressState
  routeDecisionId : Option String
  outcomeKind : Option MessageIngressOutcomeKind
  outcomeId : Option String
  errorCode : Option String
  errorMessage : Option String
  errorHttpStatus : Option Nat
  errorRetryable : Bool
deriving DecidableEq

structure RouteDecisionRecord where
  decisionId : String
  contextId : ContextId
  messageId : MessageId
  kind : RouteDecisionKind
  targetAgentId : Option AgentId
  reason : String
  confidence : Option ℚ
  metadata : Json
deriving DecidableEq

structure TaskRecord where
  taskId : TaskId
  contextId : ContextId
  status : TaskStatus
  inputMessageId : MessageId
  inputContextSequence : Nat
  outputMessageId : Option MessageId
  runtimeThreadId : ThreadId
  assignedAgentId : Option AgentId
  retryOfTaskId : Option TaskId
  attempt : Nat
  errorCode : Option String
  errorMessage : Option String
  errorRetryable : Bool
  lifecycleRevision : Nat
deriving DecidableEq

structure PendingContinuationRecord where
  taskId : TaskId
  kind : String
  inputRequest : Json
deriving DecidableEq

/-- A row of `main_agent_queued_executions` as stored. -/
structure QueuedExecutionRow where
  taskId : TaskId
  kind : String
  runtimeThreadId : ThreadId
  commandVersion : Int
  payload : Json
deriving DecidableEq

/-- The typed command that a stored row decodes to. -/
structure QueuedTaskExecutionRecord where
  taskId : TaskId
  kind : QueuedTaskExecutionKind
  runtimeThreadId : ThreadId
  commandVersion : Int
  payload : QueuedTaskExecutionPayload
deriving DecidableEq

structure TaskEventRecord where
  eventId : Nat
  taskId : TaskId
  type : String
  status : Option TaskStatus
  lifecycleRevision : Nat
  payload : Json
deriving DecidableEq

structure ArtifactRecord where
  artifactId : ArtifactId
  taskId : TaskId
  contextId : ContextId
  parts : List Json
  metadata : Json
deriving DecidableEq

structure ToolInvocationRecord where
  invocationId : InvocationId
  taskId : TaskId
  contextId : ContextId
  runtimeThreadId : ThreadId
  loopIndex : Int
  toolCallId : String
  toolName : String
  normalizedArguments : Json
  argumentsDigest : String
  capability : Json
  sideEffectLevel : String
  idempotencyKey : Option String
  approvalRequired : Bool
  approvalStatus : ToolInvocationApprovalStatus
  approvalReason : Option String
  status : ToolInvocationStatus
  resultArtifactId : Option ArtifactId
  errorCode : Option String
  errorMessage : Option String
  errorRetryable : Bool
  createdAt : Nat
deriving DecidableEq

structure RegisteredAgentRecord where
  agentId : AgentId
  name : String
  cardUrl : String
  cardJson : Json
  enabled : Bool
  metadata : Json
deriving DecidableEq

structure DelegatedTaskRecord where
  delegationId : String
  contextId : ContextId
  inputMessageId : MessageId
  routeDecisionId : String
  remoteAgentId : AgentId
  localTaskId : Option TaskId
  remoteTaskId : Option String
  remoteContextId : Option String
  remoteMessageId : Option String
  resultKind : String
  status : String
  metadata : Json
deriving DecidableEq

namespace QueuedTaskExecutionPayload

/-- The command payload read back at the durable boundary. -/
def fromDict (kind : QueuedTaskExecutionKind) (commandVersion : Int) (payload : Json) :
    Except PyException QueuedTaskExecutionPayload :=
  if commandVersion ≠ localExecutionCommandVersion then
    .error (.valueError ("unsupported local execution command version: " ++
      toString commandVersion))
  else
    match kind with
    | .initial =>
      if payload.truthy then .error (.valueError "queued initial command payload must be empty")
      else .ok .initial
    | .approval =>
      if !payload.fields.all fun f => f.1 == "approved" || f.1 == "reason" then
        .error (.valueError "queued approval command contains unsupported fields")
      else
        match payload.member "approved",payload.member "reason" with
        | .bool approved,.null => .ok (.approval approved none)
        | .bool approved,.str reason => .ok (.approval approved (some reason))
        | _,_ => .error (.valueError "queued approval command is invalid")
    | .userInput =>
      if !payload.fields.all fun f => f.1 == "parts" || f.1 == "metadata" then
        .error (.valueError "queued input command contains unsupported fields")
      else
        match payload.member "parts",payload.member "metadata" with
        | .arr parts,.null =>
          if !parts.all Json.isObject then .error (.valueError "queued input command is invalid")
          else if parts.isEmpty then .error (.valueError "queued input command parts are required")
          else .ok (.userInput parts none)
        | .arr parts,.obj metadata =>
          if !parts.all Json.isObject then .error (.valueError "queued input command is invalid")
          else if parts.isEmpty then .error (.valueError "queued input command parts are required")
          else .ok (.userInput parts (some (.obj metadata)))
        | _,_ => .error (.valueError "queued input command is invalid")

/-- The command payload as it is stored; its type has to match the command's kind. -/
def toDict (kind : QueuedTaskExecutionKind) (payload : QueuedTaskExecutionPayload) :
    Except PyException Json :=
  match kind,payload with
  | .initial,.initial => .ok (.obj [])
  | .approval,.approval approved reason =>
    .ok (.ofOptions [("approved",some (.bool approved)),("reason",reason.map .str)])
  | .userInput,.userInput parts metadata =>
    .ok (.obj [("parts",.arr parts),("metadata",metadata.getD .null)])
  | kind,_ => .error (.valueError ("queued execution payload does not match kind: " ++ kind.value))

end QueuedTaskExecutionPayload

/-- A row whose payload column is NULL holds the empty object. -/
def QueuedExecutionRow.payloadObject (row : QueuedExecutionRow) : Json :=
  if row.payload = .null then .obj [] else row.payload

/-- `_queued_task_execution_from_row`. -/
def QueuedExecutionRow.decode (row : QueuedExecutionRow) :
    Except PyException QueuedTaskExecutionRecord :=
  if row.payloadObject.isObject = false then
    .error (.valueError ("queued execution payload must be an object: " ++ row.taskId))
  else
    match QueuedTaskExecutionKind.ofValue? row.kind with
    | none => .error (.valueError ("'" ++ row.kind ++
        "' is not a valid QueuedTaskExecutionKind"))
    | some kind =>
      (QueuedTaskExecutionPayload.fromDict kind row.commandVersion row.payloadObject).map
        fun payload => ⟨row.taskId,kind,row.runtimeThreadId,row.commandVersion,payload⟩

theorem QueuedTaskExecutionKind.value_of_ofValue? {s : String} {kind : QueuedTaskExecutionKind}
    (h : ofValue? s = some kind) : kind.value = s := by
  unfold ofValue? at h
  split at h <;> cases h <;> rfl

/-- Decoding leaves the columns beside the payload as they are. -/
theorem QueuedExecutionRow.decode_columns {row : QueuedExecutionRow}
    {command : QueuedTaskExecutionRecord} (h : row.decode = .ok command) :
    command.taskId = row.taskId ∧ command.runtimeThreadId = row.runtimeThreadId ∧
      command.kind.value = row.kind ∧ command.commandVersion = row.commandVersion := by
  unfold decode at h
  split at h
  · cases h
  · split at h
    · cases h
    · rename_i kind hkind
      generalize QueuedTaskExecutionPayload.fromDict _ _ _ = payload at h
      cases payload with
      | error e => cases h
      | ok payload =>
        cases h
        exact ⟨rfl,rfl,QueuedTaskExecutionKind.value_of_ofValue? hkind,rfl⟩

end VermayAgent
