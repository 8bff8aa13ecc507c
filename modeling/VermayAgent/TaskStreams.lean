import VermayAgent.Projection
import VermayAgent.Library.Transition

/-! The two SSE streams of a task: `message/stream` and `tasks/resubscribe`.
A step is one call of the backend, one yield, or a commit of anyone else; a read sees the store
as it stands when the step is taken. The snapshot that the refresh of a remote proxy records is
one of the commits. Any call may raise. A client that goes away between two steps leaves the
stream where it is. -/
namespace VermayAgent
open Library Txn MainAgentStore

namespace PyException

def isTaskEventProjectionError : PyException → Bool
  | .agentError info => info.code = "task_event_projection_error"
  | _ => false

end PyException

section Envelopes

def jsonrpcSuccess (requestId result : Json) : Json :=
  .obj [("jsonrpc",.str "2.0"),("id",requestId),("result",result)]

/-- `jsonrpc_success_payload`: an envelope keeps its result and gets the id of the request. -/
def jsonrpcSuccessPayload (requestId payload : Json) : Json :=
  if payload.member "jsonrpc" = .str "2.0" ∧ ((payload.fields.lookup "result").isSome = true ∨
      (payload.fields.lookup "error").isSome = true) then
    .obj (Json.set "id" requestId payload.fields)
  else jsonrpcSuccess requestId payload

def jsonrpcErrorCode (code : String) : ℤ :=
  if code = "invalid_request" then -32602
  else if code ∈ ["session_not_found","task_not_found","artifact_not_found"] then -32004
  else if code = "invalid_session_state" then -32009
  else if code = "permission_error" then -32003
  else -32000

def jsonrpcErrorData (localCode : String) (retryable : Bool) : Json :=
  .obj [("localCode",.str localCode),("retryable",.bool retryable),
    ("errorInfo",.obj [("reason",.str localCode),("domain",.str "vermay"),
      ("metadata",.obj [("localCode",.str localCode)])])]

def jsonrpcErrorPayload (requestId : Json) (error : PyException) : Json :=
  let info := errorInfoFromException error
  .obj [("jsonrpc",.str "2.0"),("id",requestId),
    ("error",.obj [("code",.num (jsonrpcErrorCode info.code)),("message",.str info.publicMessage),
      ("data",jsonrpcErrorData info.code info.retryable)])]

def metadataEventId (body : Json) : Option ℤ :=
  ((body.member "metadata").member "localEventId").asInt

/-- `_event_id`. -/
def eventId (event : Json) : Option ℤ :=
  (if event.member "jsonrpc" = .str "2.0" then metadataEventId (event.member "result") else none)
    <|> metadataEventId event <|> event.fields.head?.bind fun f => metadataEventId f.2

/-- `_task_state`. -/
def taskState (task : Json) : Json :=
  if task.member "jsonrpc" = .str "2.0" ∧ (task.member "result").isObject = true then
    ((task.member "result").member "status").member "state"
  else if task.member "kind" = .str "task" ∧ (task.member "status").isObject = true then
    (task.member "status").member "state"
  else .null

/-- `state.strip().lower()`: the identity on the states of tasks. -/
structure StreamEnv extends TextEnv where
  stripLower : String → String
  stripLower_value : ∀ state : A2ATaskState, stripLower state.value = state.value

def streamEndStates : List String :=
  ["completed","failed","canceled","rejected","input-required","auth-required"]

/-- The end states that a task does not leave. -/
def terminalStates : List String := ["completed","failed","canceled","rejected"]

def StreamEnv.isIn (stream : StreamEnv) (states : List String) : Json → Bool
  | .str state => stream.stripLower state ∈ states
  | _ => false

def isStreamEndState (stream : StreamEnv) (state : Json) : Bool := stream.isIn streamEndStates state

end Envelopes

/-- What the iterator of `message/stream` yields: a part of a direct answer or its whole, or
the task that a message was made. -/
inductive MessageResult where
  | message (messageId : MessageId) (contextId : ContextId) (parts : List Json) (metadata : Json)
  | task (task : TaskRecord) (inputRequest : Option Json) (metadata : Json)

def MessageResult.payload (text : TextEnv) : MessageResult → Json
  | .message messageId contextId parts metadata =>
    .obj [("kind",.str "message"),("role",.str "agent"),("messageId",.str messageId),
      ("contextId",.str contextId),("parts",.arr parts),("metadata",metadata)]
  | .task record inputRequest metadata =>
    let payload := taskToA2aPayload text record inputRequest
    .obj (Json.set "metadata" ((payload.member "metadata").merge metadata) payload.fields)

/-- `_task_id_from_message_result`, where it is not empty. -/
def MessageResult.taskId : MessageResult → Option TaskId
  | .message _ _ _ _ => none
  | .task record _ _ => if record.taskId = "" then none else some record.taskId

inductive StreamMethod where
  | messageStream | resubscribe
deriving DecidableEq

inductive StreamEnd where
  | disconnected | exhausted | endState | raised
deriving DecidableEq

/-- Where the generator of a stream is. -/
inductive StreamPhase where
  | opening
  | looping
  | refreshing
  | listing (task : TaskRecord)
  | projecting (task : TaskRecord) (todo : List TaskEventRecord) (projected : List Json) (last : Nat)
  | delivering (batch : List Json)
  | checking
  | ended (how : StreamEnd)

/-- One event of the stream. -/
inductive Emission where
  | event (payload : Json)
  | error (error : PyException)

def Emission.data (requestId : Json) : Emission → Json
  | .event payload => payload
  | .error e => jsonrpcErrorPayload requestId e

/-- The number that the `id:` line of the event carries. -/
def Emission.eventId : Emission → Option ℤ
  | .event payload => VermayAgent.eventId payload
  | .error _ => none

structure TaskStream where
  db : AgentDb
  taskId : TaskId
  lastEventId : Nat
  phase : StreamPhase
  /-- The task in the end state in which it was seen: what is read now is the trailing batch. -/
  seen : Option TaskRecord
  reachedEndState : Bool
  emitted : List Emission
  /-- The events of the task that have been committed, and the one that had put the task into
  the state in which it was seen. -/
  committed : List TaskEventRecord
  entered : Option TaskEventRecord

inductive StreamStep where
  | commit (txn : AgentTxn)
  | result (result : MessageResult)
  | exhausted
  | openTask
  | loop (disconnected : Bool)
  | refresh
  | list (expired : Bool)
  | project
  | deliver
  | check
  | raises (error : PyException)

namespace TaskStream

/-- `_last_main_event_id`. -/
def lastMainEventId (events : List TaskEventRecord) (fallback : Nat) : Nat :=
  ((events.map (·.eventId)).max?).getD fallback

/-- The event that put the task into its present state. -/
def lastStatusEvent (events : List TaskEventRecord) : Option TaskEventRecord :=
  (events.filter fun e => e.status.isSome).getLast?

/-- The events that a commit has added to the log of the task. -/
def appended (s : TaskStream) (db : AgentDb) : List TaskEventRecord :=
  (db.eventsOf s.taskId).filter fun e => s.db.nextEventId ≤ e.eventId

/-- The task has been deleted with its context. -/
def deleted (s : TaskStream) : Prop := s.committed ≠ [] ∧ s.db.tasks.get s.taskId = none

variable (stream : StreamEnv)

def emit (s : TaskStream) (event : Json) : TaskStream :=
  {s with
    emitted := s.emitted++[.event event]
    reachedEndState := s.reachedEndState || isStreamEndState stream (taskState event)}

/-- `adapter.get_task`: the task, and what `_task_state` says of its payload. -/
def getTask (s : TaskStream) : Except PyException (TaskRecord × Json) :=
  match s.db.tasks.get s.taskId with
  | none => .error (.taskNotFound s.taskId)
  | some task => .ok (task,taskState (jsonrpcSuccess (.str ("task-get-" ++ s.taskId))
      (taskToA2aPayload stream.toTextEnv task
        ((s.db.pendingContinuations.get s.taskId).map (·.inputRequest)))))

/-- The loop starts on a task with an empty history of its own. -/
def follow (s : TaskStream) (taskId : TaskId) : TaskStream :=
  {s with
    taskId
    lastEventId := 0
    phase := .looping
    seen := none
    committed := s.db.eventsOf taskId
    entered := none}

end TaskStream

namespace StreamStep
open TaskStream

variable (core : CoreEnv) (env : LedgerEnv) (stream : StreamEnv) (method : StreamMethod)
  (requestId : Json)

/-- A commit of anyone. Task ids are drawn anew: one that was deleted does not come back. -/
def commits (txn : AgentTxn) (s : TaskStream) : Option TaskStream :=
  let db := txn.commit core env s.db
  if s.committed ≠ [] ∧ s.db.tasks.get s.taskId = none ∧ (db.tasks.get s.taskId).isSome = true then
    none
  else some {s with
    db
    committed := s.committed++s.appended db}

/-- The next result of `message/stream`; a task starts the loop over its events. -/
def emitResult (result : MessageResult) (s : TaskStream) : TaskStream :=
  let s := s.emit stream (jsonrpcSuccess requestId (result.payload stream.toTextEnv))
  match result.taskId with
  | none => s
  | some taskId => s.follow taskId

/-- One read of `store.wait_for_task_events`: it returns what there is, and nothing only when
the time is up, which it is from the start for a trailing batch. -/
def listEvents (expired : Bool) (task : TaskRecord) (s : TaskStream) : TaskStream :=
  let events := (s.db.eventsOf s.taskId).filter fun e => s.lastEventId < e.eventId
  if events = [] ∧ s.seen = none ∧ expired = false then s
  else {s with phase := .projecting task events [] (lastMainEventId events s.lastEventId)}

/-- The projection of the next event of the batch. -/
def projectNext (event : TaskEventRecord) (task : TaskRecord) (todo : List TaskEventRecord)
    (projected : List Json) (last : Nat) (s : TaskStream) : Except PyException TaskStream :=
  match (projectClassifiedMainAgentTaskEvent stream.toTextEnv event task).run s.db with
  | .error error => .error error
  | .ok (none,_) => .ok {s with phase := .projecting task todo projected last}
  | .ok (some payload,_) =>
    let event := jsonrpcSuccess (.str ("event-" ++ toString event.eventId)) payload
    .ok {s with phase := .projecting task todo (projected++[event]) last}

/-- The batch is through: after a trailing one the loop ends. -/
def afterBatch (s : TaskStream) : TaskStream :=
  {s with phase :=
    if s.seen.isSome = true then
      match method with
      | .resubscribe => .ended .endState
      | .messageStream => .opening
    else .checking}

/-- What `tasks/get` says of the task: in an end state it is followed by the trailing batch. -/
def checkTask (s : TaskStream) : Except PyException TaskStream :=
  match s.getTask stream with
  | .error error => .error error
  | .ok (task,state) =>
    if isStreamEndState stream state = true then
      .ok {s with
        phase := .refreshing
        seen := some task
        entered := lastStatusEvent (s.db.eventsOf s.taskId)}
    else .ok {s with phase := .looping}

/-- One step, with the exception that it raises; a step that the phase does not offer is not
enabled. -/
def call (a : StreamStep) (s : TaskStream) : Option (Except PyException TaskStream) :=
  match a with
  | commit txn => (commits core env txn s).map .ok
  | result r =>
    match method,s.phase with
    | .messageStream,.opening => some (.ok (emitResult stream requestId r s))
    | _,_ => none
  | exhausted =>
    match method,s.phase with
    | .messageStream,.opening => some (.ok {s with phase := .ended .exhausted})
    | _,_ => none
  | openTask =>
    match method,s.phase with
    | .resubscribe,.opening =>
      match s.getTask stream with
      | .error error => some (.error error)
      | .ok _ => some (.ok {s with phase := .looping})
    | _,_ => none
  | loop disconnected =>
    match s.phase with
    | .looping =>
      if disconnected = false then some (.ok {s with phase := .refreshing})
      else match method with
        | .resubscribe => some (.ok {s with phase := .ended .disconnected})
        | .messageStream => none
    | _ => none
  | refresh =>
    match s.phase with
    | .refreshing =>
      match s.db.tasks.get s.taskId with
      | none => some (.error (.taskNotFound s.taskId))
      | some task => some (.ok {s with phase := .listing task})
    | _ => none
  | list expired =>
    match s.phase with
    | .listing task => some (.ok (listEvents expired task s))
    | _ => none
  | project =>
    match s.phase with
    | .projecting task (event::todo) projected last =>
      some (projectNext stream event task todo projected last s)
    | .projecting _ [] projected last =>
      some (.ok {s with
        lastEventId := max s.lastEventId last
        phase := .delivering projected})
    | _ => none
  | deliver =>
    match s.phase with
    | .delivering (event::batch) =>
      some (.ok {s.emit stream (jsonrpcSuccessPayload requestId event) with
        phase := .delivering batch})
    | .delivering [] => some (.ok (afterBatch method s))
    | _ => none
  | check =>
    match s.phase with
    | .checking => some (checkTask stream s)
    | _ => none
  | raises error =>
    match s.phase with
    | .delivering _ | .ended _ => none
    | _ => some (.error error)

/-- The handlers of the two generators: `message/stream` is silent about an error that follows
an end state, unless an event could not be projected. -/
def handle (s : TaskStream) (error : PyException) : TaskStream :=
  match method with
  | .messageStream =>
    if s.reachedEndState = true ∧ error.isTaskEventProjectionError = false then
      {s with phase := .ended .raised}
    else {s with
      phase := .ended .raised
      emitted := s.emitted++[.error error]}
  | .resubscribe =>
    {s with
      phase := .ended .raised
      emitted := s.emitted++[.error error]}

def step (a : StreamStep) (s : TaskStream) : Option TaskStream :=
  match call core env stream method requestId a s with
  | none => none
  | some (.ok s') => some s'
  | some (.error error) => some (handle method s error)

end StreamStep

/-- A stream that is asked for: `tasks/resubscribe` names the task and the cursor. -/
def TaskStream.start (db : AgentDb) (taskId : TaskId) (afterEventId : Nat) : TaskStream where
  db := db
  taskId := taskId
  lastEventId := afterEventId
  phase := .opening
  seen := none
  reachedEndState := false
  emitted := []
  committed := db.eventsOf taskId
  entered := none

def sampleStream : StreamEnv where
  toTextEnv := sampleText
  stripLower s := s
  stripLower_value _ := rfl

end VermayAgent
