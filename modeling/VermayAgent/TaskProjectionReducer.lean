import VermayAgent.TaskPresentation
import Mathlib.Logic.Function.Basic

/-! The reducer of the browser's task projections, and the records that feed it. -/
namespace VermayAgent.Web
open Library

abbrev TaskProjectionState := String → Option AgentTask

inductive TaskProjectionAction where
  | upsert (task : AgentTask)
  | upsertMany (tasks : List AgentTask)
  | replace (removeTaskId : String) (task : AgentTask)
  | snapshot (snapshot : AgentA2ATask)
  | event (event : AgentTaskEvent) (finalAnswer : Option String)
  | streamError (taskId : String) (error : AgentTaskError)
  | remove (taskIds : List String)

section Reducer

variable (clock : Clock)

def upsertTask (state : TaskProjectionState) (task : AgentTask) : TaskProjectionState :=
  match state task.taskId with
  | some current => Function.update state task.taskId (some (mergeTaskProjection clock current task))
  | none => Function.update state task.taskId (some task)

def metadataFromEvent (event : AgentTaskEvent) : Json :=
  objectOrEmpty (event.payload.member "metadata")

/-- The projection of the task that the event describes. -/
def eventCandidate (current : AgentTask) (event : AgentTaskEvent) (finalAnswer : Option String) :
    AgentTask :=
  let eventMetadata := metadataFromEvent event
  let status := event.status.getD current.status
  let stateProjection := taskStateProjection event.a2aState eventMetadata
    (event.localProcessStatus.or current.localProcessStatus.toOption)
  {current with
    lifecycleRevision := .ofOption event.lifecycleRevision
    a2aState := .ofOption stateProjection.a2aState
    localProcessStatus := .ofOption stateProjection.localProcessStatus
    status
    finalAnswer := (Field.ofOption finalAnswer).orElse current.finalAnswer
    updatedAt := event.createdAt
    error :=
      if event.status = some .failed then
        (Field.ofOption (taskErrorFromA2AEvent event)).orElse current.error
      else if event.status.isSome then .null
      else current.error
    streamError := if isTerminalStatus status then .null else current.streamError
    metadata := current.metadata.merge eventMetadata}

def applyTaskEvent (state : TaskProjectionState) (event : AgentTaskEvent)
    (finalAnswer : Option String) : TaskProjectionState :=
  match state event.taskId with
  | none => state
  | some current => Function.update state event.taskId
      (some (mergeTaskProjection clock current (eventCandidate current event finalAnswer)))

/-- The identity test that spares a render is left out: it returns the same records. -/
def taskProjectionReducer (state : TaskProjectionState) :
    TaskProjectionAction → TaskProjectionState
  | .upsert task => upsertTask clock state task
  | .upsertMany tasks => tasks.foldl (upsertTask clock) state
  | .replace removeTaskId task => upsertTask clock (Function.update state removeTaskId none) task
  | .snapshot snapshot =>
    match state snapshot.id with
    | none => state
    | some current => Function.update state snapshot.id
        (some (mergeTaskWithA2ASnapshot clock current snapshot))
  | .event event finalAnswer => applyTaskEvent clock state event finalAnswer
  | .streamError taskId error =>
    match state taskId with
    | none => state
    | some current => Function.update state taskId (some {current with streamError := .value error})
  | .remove taskIds => fun taskId => if taskId ∈ taskIds then none else state taskId

end Reducer

section Inputs

/-- The result of a stream envelope, with the timestamp of its status where it has one. -/
structure A2AStreamResult where
  payload : Json
  timestamp : Option String

/-- `a2aEnvelopeToTaskEvent`; `now` is the time at which the envelope is read. -/
def a2aEnvelopeToTaskEvent (now : String) (result : A2AStreamResult) : Option AgentTaskEvent :=
  let kind := result.payload.member "kind"
  let metadata := objectOrEmpty (result.payload.member "metadata")
  if kind ≠ .str "status-update" ∧ kind ≠ .str "artifact-update" then none
  else
    match metadata.member "localEventId" with
    | .num localEventId =>
      let state := ((result.payload.member "status").member "state").asString.getD ""
      let a2aState := if kind = .str "status-update" then some state else none
      let stateProjection := taskStateProjection a2aState metadata none
      some {
        eventId := localEventId
        taskId := (result.payload.member "taskId").asString.getD ""
        sessionId := (result.payload.member "contextId").asString.getD ""
        lifecycleRevision := (lifecycleRevisionFromMetadata metadata).map (↑)
        threadId := threadIdFromMetadata metadata
        a2aState := stateProjection.a2aState
        localProcessStatus := stateProjection.localProcessStatus
        eventType :=
          match metadata.member "localEventType" with
          | .str eventType => eventType
          | _ => (kind.asString).getD ""
        status :=
          if kind = .str "status-update" then some (taskStatusFromA2A state metadata) else none
        payload := result.payload
        createdAt :=
          match result.timestamp with
          | some timestamp =>
            if kind = .str "status-update" ∧ timestamp ≠ "" then timestamp
            else ((metadata.member "localEventCreatedAt").asString).getD now
          | none => ((metadata.member "localEventCreatedAt").asString).getD now}
    | _ => none

def eventWithTaskThreadId (event : AgentTaskEvent) (task : Option AgentTask) : AgentTaskEvent :=
  match task with
  | some task =>
    if event.threadId ≠ "" ∨ task.threadId = "" then event else {event with threadId := task.threadId}
  | none => event

/-- A task of the payload that `tasks/get` answers. -/
def a2aTaskOfPayload (payload : Json) (timestamp : Option String) : AgentA2ATask where
  id := (payload.member "id").asString.getD ""
  contextId := (payload.member "contextId").asString.getD ""
  state := ((payload.member "status").member "state").asString.getD ""
  timestamp
  metadata := objectOrEmpty (payload.member "metadata")

/-- The members of a stored task that its first projection is built from. -/
structure AgentContextTaskRecord where
  taskId : String
  contextId : String
  runtimeThreadId : String
  status : String
  errorCode : Option String
  errorMessage : Option String
  errorRetryable : Bool
  lifecycleRevision : Option ℚ
  updatedAt : String

/-- `storedTaskToAgentTask`; the answer is the text of the output message, where it was found. -/
def storedTaskToAgentTask (task : AgentContextTaskRecord) (answer : Option String)
    (snapshot : Option AgentA2ATask) : AgentTask :=
  let metadata := (snapshot.map fun s => objectOrEmpty s.metadata).getD (.obj [])
  let stateProjection := taskStateProjection (snapshot.map (·.state)) metadata (some task.status)
  {
    taskId := task.taskId
    sessionId := task.contextId
    threadId := task.runtimeThreadId
    lifecycleRevision := .ofOption
      ((((snapshot.bind fun s => lifecycleRevisionFromMetadata s.metadata).map (↑)).or
        task.lifecycleRevision))
    a2aState := .ofOption stateProjection.a2aState
    localProcessStatus := .ofOption stateProjection.localProcessStatus
    status :=
      match snapshot with
      | some s => taskStatusFromA2A s.state s.metadata
      | none => normalizeStatus task.status
    finalAnswer := .ofOption answer
    error :=
      match task.errorCode with
      | some code =>
        if code = "" then .null
        else .value ⟨code,firstText (task.errorMessage.getD "") code,task.errorRetryable⟩
      | none => .null
    streamError := .absent
    metadata
    updatedAt := firstText ((snapshot.bind (·.timestamp)).getD "") task.updatedAt}

/-- The projection of a task that a message stream starts with. -/
def streamedTaskToAgentTask (now : String) (result : AgentA2ATask) : AgentTask :=
  let stateProjection := taskStateProjection (some result.state) result.metadata none
  {
    taskId := result.id
    sessionId := result.contextId
    threadId := threadIdFromMetadata result.metadata
    lifecycleRevision := .ofOption ((lifecycleRevisionFromMetadata result.metadata).map (↑))
    a2aState := .ofOption stateProjection.a2aState
    localProcessStatus := .ofOption stateProjection.localProcessStatus
    status := taskStatusFromA2A result.state result.metadata
    finalAnswer := .null
    error := .absent
    streamError := .absent
    metadata := objectOrEmpty result.metadata
    updatedAt := firstText (result.timestamp.getD "") now}

end Inputs

end VermayAgent.Web
