import VermayAgent.Library.Json

/-! The browser's task records and how two projections of one task are merged.
A member of a record that may be left out is `absent`, `null` or a value; the members that no merge
looks at (the input, the attempt, the model) are left out. -/
namespace VermayAgent.Web
open Library

/-- An optional member of an object. -/
inductive Field (α : Type) where
  | absent
  | null
  | value (a : α)
deriving DecidableEq

namespace Field

variable {α : Type}

/-- The member after `{...current, ...incoming}`. -/
def spread (current incoming : Field α) : Field α :=
  match incoming with
  | absent => current
  | _ => incoming

/-- `a ?? b`. -/
def orElse (a b : Field α) : Field α :=
  match a with
  | value _ => a
  | _ => b

def ofOption : Option α → Field α
  | some a => value a
  | none => null

def toOption : Field α → Option α
  | value a => some a
  | _ => none

end Field

inductive AgentTaskStatus where
  | active | created | queued | running | interrupted | cancelRequest | cancelRequested
  | canceled | cancelled | completed | stopped | failed | unknown
deriving DecidableEq, Repr

structure AgentTaskError where
  code : String
  message : String
  retryable : Bool
deriving DecidableEq

structure AgentTask where
  taskId : String
  sessionId : String
  threadId : String
  lifecycleRevision : Field ℚ
  a2aState : Field String
  localProcessStatus : Field String
  status : AgentTaskStatus
  finalAnswer : Field String
  error : Field AgentTaskError
  streamError : Field AgentTaskError
  metadata : Json
  updatedAt : String

structure AgentTaskEvent where
  eventId : ℚ
  taskId : String
  sessionId : String
  lifecycleRevision : Option ℚ
  threadId : String
  a2aState : Option String
  localProcessStatus : Option String
  eventType : String
  status : Option AgentTaskStatus
  payload : Json
  createdAt : String

/-- A task snapshot as the client reads it. -/
structure AgentA2ATask where
  id : String
  contextId : String
  state : String
  timestamp : Option String
  metadata : Json

/-- `Date.parse`, where it gives a finite number. -/
structure Clock where
  parse : String → Option ℤ

def isTerminalStatus : AgentTaskStatus → Bool
  | .completed | .stopped | .failed | .canceled | .cancelled => true
  | _ => false

def normalizeStatus : String → AgentTaskStatus
  | "submitted" => .queued
  | "working" => .running
  | "input-required" | "input_required" => .interrupted
  | "auth-required" | "auth_required" => .interrupted
  | "completed" => .completed
  | "canceled" => .canceled
  | "cancelled" => .cancelled
  | "failed" => .failed
  | "stopped" => .stopped
  | "active" => .active
  | "created" => .created
  | "queued" => .queued
  | "running" => .running
  | "interrupted" => .interrupted
  | "cancel_request" => .cancelRequest
  | "cancel_requested" => .cancelRequested
  | _ => .unknown

/-- `a || b` on strings, where a missing one is empty. -/
def firstText (a b : String) : String := if a = "" then b else a

def metadataString (metadata : Json) (key : String) : String :=
  ((metadata.member key).asString).getD ""

/-- The number, if it is an integer that is at least one. -/
def asRevision (n : ℚ) : Option ℕ := if n.den = 1 ∧ 1 ≤ n.num then some n.num.toNat else none

def lifecycleRevisionFromMetadata (metadata : Json) : Option ℕ :=
  match metadata.member "lifecycleRevision" with
  | .num n => asRevision n
  | _ => none

def taskLifecycleRevision (task : AgentTask) : Option ℕ :=
  match task.lifecycleRevision with
  | .value n => (asRevision n).or (lifecycleRevisionFromMetadata task.metadata)
  | _ => lifecycleRevisionFromMetadata task.metadata

def a2aStateFromLocalProcessStatus : String → String
  | "created" | "queued" => "submitted"
  | "running" | "cancel_request" | "cancel_requested" => "working"
  | "input_required" => "input-required"
  | "auth_required" => "auth-required"
  | "completed" => "completed"
  | "canceled" => "canceled"
  | "failed" => "failed"
  | _ => ""

def localProcessStatusFromA2AState : String → String
  | "submitted" => "queued"
  | "working" => "running"
  | "input-required" => "input_required"
  | "auth-required" => "auth_required"
  | "completed" => "completed"
  | "canceled" => "canceled"
  | "failed" => "failed"
  | _ => ""

/-- `a || null`. -/
def textOrNull (s : String) : Option String := if s = "" then none else some s

structure StateProjection where
  a2aState : Option String
  localProcessStatus : Option String

def taskStateProjection (a2aState : Option String) (metadata : Json)
    (fallbackLocalProcessStatus : Option String) : StateProjection :=
  let localProcessStatus := firstText (metadataString metadata "localStatus")
    (firstText (fallbackLocalProcessStatus.getD "")
      (localProcessStatusFromA2AState (a2aState.getD "")))
  let projectedA2AState :=
    firstText (a2aState.getD "") (a2aStateFromLocalProcessStatus localProcessStatus)
  ⟨textOrNull projectedA2AState,textOrNull localProcessStatus⟩

def taskStatusFromA2A (status : String) (metadata : Json) : AgentTaskStatus :=
  normalizeStatus (firstText (metadataString metadata "localStatus") status)

def taskErrorFromA2AMetadata (metadata : Json) : Option AgentTaskError :=
  let code := metadataString metadata "localErrorCode"
  let message := metadataString metadata "localErrorMessage"
  if code = "" ∧ message = "" then none
  else some ⟨firstText code "task_failed",firstText message "Agent execution failed.",
    decide (metadata.member "localErrorRetryable" = .bool true)⟩

def taskErrorFromA2AEvent (event : AgentTaskEvent) : Option AgentTaskError :=
  match event.payload.member "metadata" with
  | .obj fields => taskErrorFromA2AMetadata (.obj fields)
  | _ => none

def threadIdFromMetadata (metadata : Json) : String :=
  firstText (metadataString metadata "runtimeThreadId")
    (firstText (metadataString metadata "localThreadId") (metadataString metadata "threadId"))

/-- `delete metadata[key]` for each of the keys. -/
def withoutKeys (keys : List String) (metadata : Json) : Json :=
  .obj (metadata.fields.filter fun f => f.1 ∉ keys)

/-- `metadata ?? {}`. -/
def objectOrEmpty (metadata : Json) : Json := .obj metadata.fields

def mergeAcceptedTaskProjection (current incoming : AgentTask) : AgentTask :=
  let metadata := current.metadata.merge incoming.metadata
  {
    taskId := incoming.taskId
    sessionId := incoming.sessionId
    threadId := firstText incoming.threadId current.threadId
    lifecycleRevision := current.lifecycleRevision.spread incoming.lifecycleRevision
    a2aState := current.a2aState.spread incoming.a2aState
    localProcessStatus := current.localProcessStatus.spread incoming.localProcessStatus
    status := incoming.status
    finalAnswer := incoming.finalAnswer.orElse current.finalAnswer
    error := current.error.spread incoming.error
    streamError :=
      match incoming.streamError with
      | .absent => if isTerminalStatus incoming.status then .null else current.streamError
      | error => error
    metadata :=
      if incoming.status ≠ .interrupted then withoutKeys ["inputRequest"] metadata else metadata
    updatedAt := incoming.updatedAt}

/-- `!incoming || incoming === current`. -/
def absentOrSame (incoming current : Field String) : Bool :=
  match incoming with
  | .value s => s = "" ∨ current = .value s
  | _ => true

def mergeEqualTaskProjection (current incoming : AgentTask) : AgentTask :=
  let sameLifecycle := decide (incoming.status = current.status) &&
    absentOrSame incoming.a2aState current.a2aState &&
    absentOrSame incoming.localProcessStatus current.localProcessStatus
  let incomingMetadata :=
    if sameLifecycle then objectOrEmpty incoming.metadata
    else withoutKeys ["localStatus","inputRequest","inputRequestKind","outputMessageId",
      "localErrorCode","localErrorMessage","localErrorRetryable","remoteStatus"] incoming.metadata
  let metadata := incomingMetadata.merge current.metadata
  let metadata :=
    if current.status ≠ .interrupted then withoutKeys ["inputRequest","inputRequestKind"] metadata
    else metadata
  {current with
    threadId := firstText current.threadId incoming.threadId
    finalAnswer := current.finalAnswer.orElse incoming.finalAnswer
    error := if sameLifecycle then current.error.orElse incoming.error else current.error
    streamError :=
      if sameLifecycle then current.streamError.orElse incoming.streamError
      else current.streamError
    metadata :=
      if current.status ≠ .failed then
        withoutKeys ["localErrorCode","localErrorMessage","localErrorRetryable"] metadata
      else metadata}

/-- The revisions decide where both records have one; else the timestamps do. -/
def mergeTaskProjection (clock : Clock) (current incoming : AgentTask) : AgentTask :=
  match taskLifecycleRevision current,taskLifecycleRevision incoming with
  | some currentRevision,some incomingRevision =>
    if incomingRevision < currentRevision then current
    else if incomingRevision = currentRevision then mergeEqualTaskProjection current incoming
    else mergeAcceptedTaskProjection current incoming
  | _,_ =>
    match clock.parse current.updatedAt,clock.parse incoming.updatedAt with
    | some currentTimestamp,some incomingTimestamp =>
      if incomingTimestamp < currentTimestamp then current
      else mergeAcceptedTaskProjection current incoming
    | _,_ => mergeAcceptedTaskProjection current incoming

def mergeTaskWithA2ASnapshot (clock : Clock) (current : AgentTask) (snapshot : AgentA2ATask) :
    AgentTask :=
  let status := taskStatusFromA2A snapshot.state snapshot.metadata
  let stateProjection := taskStateProjection (some snapshot.state) snapshot.metadata
    current.localProcessStatus.toOption
  let candidate := {current with
    lifecycleRevision := .ofOption ((lifecycleRevisionFromMetadata snapshot.metadata).map (↑))
    threadId := firstText (threadIdFromMetadata snapshot.metadata) current.threadId
    a2aState := .ofOption stateProjection.a2aState
    localProcessStatus := .ofOption stateProjection.localProcessStatus
    status
    updatedAt := firstText (snapshot.timestamp.getD "") current.updatedAt
    error :=
      if status = .failed then
        (Field.ofOption (taskErrorFromA2AMetadata snapshot.metadata)).orElse current.error
      else .null
    streamError := if isTerminalStatus status then .null else current.streamError
    metadata := objectOrEmpty snapshot.metadata}
  mergeTaskProjection clock current candidate

end VermayAgent.Web
