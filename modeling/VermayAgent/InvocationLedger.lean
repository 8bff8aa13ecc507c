import VermayAgent.ToolInvocationStore

/-! The durable side-effect boundary that the graph runtime calls around a tool body.
Hashing and JSON text are the environment's; the digest of an argument value stands for
the hash of its canonical text. -/
namespace VermayAgent
open Library Txn MainAgentStore

/-- What the ledger takes from the standard library. -/
structure LedgerEnv where
  sha256 : String → String
  argumentsDigest : Json → String
  jsonLoads : String → Option Json
  jsonDumps : Json → String

/-- The normalised metadata of a tool, as far as the ledger reads it. -/
structure ToolMetadata where
  source : String
  category : String
  executionScope : String
  readOnly : Bool
  sideEffectLevel : String
  destructive : Bool
  credentialSensitive : Bool
deriving DecidableEq, Repr

/-- A tool call of a model response. -/
structure ToolCall where
  name : String
  args : Json
  id : Option String
deriving DecidableEq

structure ToolInvocationReference where
  invocationId : InvocationId
  argumentsDigest : String
  status : String
  executionBlocked : Bool
  blockedReason : Option String
deriving DecidableEq, Repr

structure ToolInvocationExecution where
  invocationId : InvocationId
  execute : Bool
  message : Option String
deriving DecidableEq, Repr

/-- A `ToolMessage` as `ToolNode` returns it. -/
structure ToolResponse where
  status : String
  content : Json

section Arguments

def sensitiveArgumentKeys : List String :=
  ["api_key","apikey","authorization","credential","credentials","password","secret","token"]

/-- Case folding, exact on every character whose folding stands in a sensitive key. -/
def casefoldChar (c : Char) : List Char :=
  if c = '\u212A' then ['k']
  else if c = '\u017F' then ['s']
  else if c = '\u00DF' ∨ c = '\u1E9E' then ['s','s']
  else [c.toLower]

def casefold (s : String) : String := String.ofList (s.toList.flatMap casefoldChar)

mutual

/-- `_redact_value` on JSON values. -/
def redactValue : Json → Json
  | .arr items => .arr (redactItems items)
  | .obj fields => .obj (redactFields fields)
  | value => value

def redactItems : List Json → List Json
  | [] => []
  | item::items => redactValue item::redactItems items

def redactFields : List (String × Json) → List (String × Json)
  | [] => []
  | (key,value)::fields =>
    (key,if casefold key ∈ sensitiveArgumentKeys then .str "[REDACTED]" else redactValue value)
      ::redactFields fields

end

def normalizedArguments (args : Json) : Json :=
  redactValue (if args.isObject then args else .obj [("value",args)])

def firstChars (n : Nat) (s : String) : String := String.ofList (s.toList.take n)

def toolCallFallbackId (loopIndex : Int) (toolName argumentsDigest : String) : String :=
  toString loopIndex ++ ":" ++ toolName ++ ":" ++ firstChars 16 argumentsDigest

end Arguments

namespace LedgerEnv

variable (env : LedgerEnv)

def invocationId (taskId : TaskId) (runtimeThreadId : ThreadId) (loopIndex : Int)
    (toolCallId toolName argumentsDigest : String) : InvocationId :=
  "inv-" ++ firstChars 32 (env.sha256 (String.intercalate "|"
    [taskId,runtimeThreadId,toString loopIndex,toolCallId,toolName,argumentsDigest]))

/-- `str(tool_call.get("id") or _tool_call_fallback_id(…))`. -/
def toolCallId (loopIndex : Int) (toolCall : ToolCall) : String :=
  match toolCall.id with
  | some "" | none =>
    toolCallFallbackId loopIndex toolCall.name (env.argumentsDigest toolCall.args)
  | some id => id

end LedgerEnv

def capabilityPayload (metadata : ToolMetadata) : Json :=
  .obj [("source",.str metadata.source),("category",.str metadata.category),
    ("executionScope",.str metadata.executionScope),("readOnly",.bool metadata.readOnly),
    ("sideEffectLevel",.str metadata.sideEffectLevel),("destructive",.bool metadata.destructive),
    ("credentialSensitive",.bool metadata.credentialSensitive),
    ("idempotencySupported",.bool false)]

def blockedReference (record : ToolInvocationRecord) : ToolInvocationReference :=
  ⟨record.invocationId,record.argumentsDigest,record.status.value,true,
    some ("A matching side-effect invocation is already " ++ record.status.value ++
      "; the runtime will not repeat it automatically.")⟩

/-- The statuses that block a further execution of the effect. -/
def blocksReplay (status : ToolInvocationStatus) : Bool :=
  status ∈ [.running,.succeeded,.uncertain]

namespace MainAgentToolInvocationLedger

variable (env : LedgerEnv)

/-- What `prepare` asks the store to create for a call of `task`. -/
def newInvocation (task : TaskRecord) (runtimeThreadId : ThreadId) (loopIndex : Int)
    (toolCall : ToolCall) (metadata : ToolMetadata) (approvalRequired : Bool) :
    NewToolInvocation where
  invocationId := env.invocationId task.taskId runtimeThreadId loopIndex
    (env.toolCallId loopIndex toolCall) toolCall.name (env.argumentsDigest toolCall.args)
  taskId := task.taskId
  contextId := task.contextId
  runtimeThreadId := runtimeThreadId
  loopIndex := loopIndex
  toolCallId := env.toolCallId loopIndex toolCall
  toolName := toolCall.name
  normalizedArguments := normalizedArguments toolCall.args
  argumentsDigest := env.argumentsDigest toolCall.args
  capability := capabilityPayload metadata
  sideEffectLevel := metadata.sideEffectLevel
  idempotencyKey := none
  approvalRequired := approvalRequired

/-- The latest row of the same effect, unless the call's own row exists already. -/
def priorInvocation (new : NewToolInvocation) : StoreTxn (Option ToolInvocationRecord) := do
  match ← getToolInvocation new.invocationId with
  | some _ => return none
  | none => findLatestToolInvocationForEffect new.taskId new.toolName new.argumentsDigest

/-- The reference for a row that exists now. -/
def referenceOf (record : ToolInvocationRecord) : ToolInvocationReference :=
  if blocksReplay record.status then blockedReference record
  else ⟨record.invocationId,record.argumentsDigest,record.status.value,false,none⟩

/-- Create or load the row of a new effect, unless an earlier one blocks it. -/
def prepareNew (new : NewToolInvocation) (now : Nat) :
    StoreTxn (Option ToolInvocationReference) := do
  match (← priorInvocation new).filter fun r => blocksReplay r.status with
  | some prior => return some (blockedReference prior)
  | none => (fun record => some (referenceOf record)) <$> createOrGetToolInvocation new now

/-- What is asked of the store for a call made on behalf of `task`: nothing unless the task is
local, the tool not read-only and named. -/
def invocationRequest (task : Option TaskRecord) (runtimeThreadId : ThreadId) (loopIndex : Int)
    (toolCall : ToolCall) (metadata : ToolMetadata) (approvalRequired : Bool) :
    Option NewToolInvocation :=
  match task with
  | none => none
  | some task =>
    if task.assignedAgentId ≠ none ∨ metadata.readOnly ∨ toolCall.name = "" then none
    else some (newInvocation env task runtimeThreadId loopIndex toolCall metadata approvalRequired)

def prepare (runtimeThreadId : Option ThreadId) (loopIndex : Int) (toolCall : ToolCall)
    (metadata : ToolMetadata) (approvalRequired : Bool) (now : Nat) :
    StoreTxn (Option ToolInvocationReference) := do
  match runtimeThreadId with
  | none => return none
  | some runtimeThreadId =>
    if runtimeThreadId = "" then return none
    else
      let task ← getTaskByRuntimeThreadId runtimeThreadId
      match invocationRequest env task runtimeThreadId loopIndex toolCall metadata
          approvalRequired with
      | none => return none
      | some new => prepareNew new now

/-- The answer to a begin, derived from the status that is read back. -/
def executionOf (invocationId : InvocationId) (record : ToolInvocationRecord) :
    ToolInvocationExecution :=
  if record.status = .running then ⟨invocationId,true,none⟩
  else if record.status = .prepared ∧ record.approvalRequired then
    ⟨invocationId,false,some "Tool invocation is still waiting for its bound approval."⟩
  else ⟨invocationId,false,some ("Tool invocation is already " ++ record.status.value ++
    "; it will not be replayed automatically.")⟩

def beginExecution (invocationId : InvocationId) : StoreTxn ToolInvocationExecution :=
  executionOf invocationId <$> beginToolInvocation invocationId

/-- `_tool_response_text`. -/
def toolResponseText (response : ToolResponse) : String :=
  match response.content with
  | .str text => text
  | content => env.jsonDumps content

def structuredToolResponse (content : Json) : Json :=
  match content with
  | .obj fields => .obj fields
  | .str text => (env.jsonLoads text).getD .null
  | _ => .null

/-- The first member value that is a non-empty string. -/
def firstText (values : List Json) (default : String) : String :=
  ((values.filterMap Json.asString).find? fun s => s ≠ "").getD default

/-- Error code and text of a response that reports a failure. -/
def failedToolResponse (response : ToolResponse) : Option (String × String) :=
  if response.status = "error" then
    some ("tool_execution_result_uncertain",toolResponseText env response)
  else
    let structured := structuredToolResponse env response.content
    if structured.isObject = false ∨ structured.member "ok" ≠ .bool false then none
    else
      let error := structured.member "error"
      some (firstText [structured.member "error_code",structured.member "errorCode",
          structured.member "code",error.member "code"] "tool_execution_result_uncertain",
        firstText [structured.member "error_message",structured.member "message",
          structured.member "stderr",error.member "message"] (toolResponseText env response))

def finishExecution (invocationId : InvocationId) (response : ToolResponse) :
    StoreTxn ToolInvocationRecord :=
  match failedToolResponse env response with
  | some (errorCode,errorMessage) =>
    markToolInvocationUncertain invocationId errorCode errorMessage false
  | none =>
    completeToolInvocationSuccess invocationId
      [.obj [("kind",.str "text"),("text",.str (toolResponseText env response))]]
      (.obj [("kind",.str "tool_invocation_result"),("invocationId",.str invocationId),
        ("toolResultStatus",.str response.status)])

def markExecutionUncertain (invocationId : InvocationId) (errorCode errorMessage : String) :
    StoreTxn ToolInvocationRecord :=
  markToolInvocationUncertain invocationId errorCode errorMessage false

def cancel (invocationId : InvocationId) (reason : String) : StoreTxn ToolInvocationRecord :=
  cancelToolInvocation invocationId reason

end MainAgentToolInvocationLedger

/-- The operations that the graph, the control plane and recovery perform on the ledger. -/
inductive LedgerOp where
  | prepare (runtimeThreadId : Option ThreadId) (loopIndex : Int) (toolCall : ToolCall)
      (metadata : ToolMetadata) (approvalRequired : Bool) (now : Nat)
  | createOrGet (new : NewToolInvocation) (now : Nat)
  | resolveApproval (taskId : TaskId) (invocationId : InvocationId)
      (toolName argumentsDigest : String) (approved : Bool) (reason : Option String)
  | begin (invocationId : InvocationId)
  | finish (invocationId : InvocationId) (response : ToolResponse)
  | complete (invocationId : InvocationId) (artifactParts : List Json) (artifactMetadata : Json)
  | markUncertain (invocationId : InvocationId) (errorCode errorMessage : String) (retryable : Bool)
  | cancel (invocationId : InvocationId) (reason : String)
  | cancelPrepared (taskId : TaskId) (reason : String)
  | markRunningUncertain (taskId : TaskId) (errorCode errorMessage : String) (retryable : Bool)

namespace LedgerOp

open MainAgentToolInvocationLedger in
/-- The transaction of an operation, its answer left out. -/
def txn (env : LedgerEnv) : LedgerOp → StoreTxn Unit
  | prepare thread loopIndex call metadata approvalRequired now =>
    (fun _ => ()) <$> MainAgentToolInvocationLedger.prepare env thread loopIndex call metadata
      approvalRequired now
  | createOrGet new now => (fun _ => ()) <$> createOrGetToolInvocation new now
  | resolveApproval taskId invocationId toolName argumentsDigest approved reason =>
    (fun _ => ()) <$> resolveToolInvocationApproval taskId invocationId toolName argumentsDigest
      approved reason
  | begin invocationId => (fun _ => ()) <$> beginExecution invocationId
  | finish invocationId response => (fun _ => ()) <$> finishExecution env invocationId response
  | complete invocationId parts metadata =>
    (fun _ => ()) <$> completeToolInvocationSuccess invocationId parts metadata
  | markUncertain invocationId errorCode errorMessage retryable =>
    (fun _ => ()) <$> markToolInvocationUncertain invocationId errorCode errorMessage retryable
  | cancel invocationId reason => (fun _ => ()) <$> cancelToolInvocation invocationId reason
  | cancelPrepared taskId reason => (fun _ => ()) <$> cancelPreparedToolInvocations taskId reason
  | markRunningUncertain taskId errorCode errorMessage retryable =>
    (fun _ => ()) <$> markRunningToolInvocationsUncertain taskId errorCode errorMessage retryable

/-- One operation on the committed state; an operation that raises changes nothing. -/
def apply (env : LedgerEnv) (op : LedgerOp) (db : AgentDb) : AgentDb := (op.txn env).commit db

/-- A history of operations. -/
def history (env : LedgerEnv) (ops : List LedgerOp) (db : AgentDb) : AgentDb :=
  ops.foldl (fun db op => op.apply env db) db

/-- The row that the operation asks the store for. -/
def requested (env : LedgerEnv) (db : AgentDb) : LedgerOp → Option NewToolInvocation
  | prepare (some thread) loopIndex call metadata approvalRequired _ =>
    if thread = "" then none
    else MainAgentToolInvocationLedger.invocationRequest env
      (db.tasks.rows.find? fun r => r.runtimeThreadId = thread) thread loopIndex call metadata
      approvalRequired
  | createOrGet new _ => some new
  | _ => none

/-- Whether the operation is a begin of `invocationId` that lets the body run. -/
def executes (op : LedgerOp) (invocationId : InvocationId) (db : AgentDb) : Bool :=
  match op with
  | begin id =>
    match (MainAgentToolInvocationLedger.beginExecution id).run db with
    | .ok (execution,_) => id = invocationId && execution.execute
    | .error _ => false
  | _ => false

end LedgerOp
end VermayAgent
