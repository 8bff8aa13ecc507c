import VermayAgent.EventLogs

/-! The A2A projection of task events; timestamps are left out of the payloads.
An event becomes an artifact update or a status update, or it is one of the audit facts that
intentionally have no envelope; anything else is an error that stops the subscriber. -/
namespace VermayAgent
open Library Txn MainAgentStore

inductive A2ATaskState where
  | submitted | working | inputRequired | authRequired | completed | canceled | failed
deriving DecidableEq, Repr

def A2ATaskState.value : A2ATaskState → String
  | submitted => "submitted"
  | working => "working"
  | inputRequired => "input-required"
  | authRequired => "auth-required"
  | completed => "completed"
  | canceled => "canceled"
  | failed => "failed"

def taskStatusToA2aState : TaskStatus → A2ATaskState
  | .created | .queued => .submitted
  | .running | .cancelRequested => .working
  | .inputRequired => .inputRequired
  | .authRequired => .authRequired
  | .completed => .completed
  | .canceled => .canceled
  | .failed => .failed

def PyException.taskEventProjection (taskId : TaskId) (eventId : Nat) (eventType : String) :
    PyException :=
  .agentError ⟨"task_event_projection_error","cannot project task event " ++ toString eventId ++
    " (" ++ eventType ++ ") for task " ++ taskId,500,
    "A persisted Task event could not be projected to A2A.",false⟩

section Payloads

variable (text : TextEnv)

/-- `a or b`. -/
def Json.orElse (a b : Json) : Json := if a.truthy then a else b

def threadMetadata (threadId : ThreadId) : List (String × Option Json) :=
  [("localThreadId",some (.str threadId)),("runtimeThreadId",some (.str threadId))]

/-- `_add_task_failure_metadata`: the members that it adds. -/
def taskFailureMetadata (errorCode errorMessage retryable : Json) : List (String × Option Json) :=
  match errorCode with
  | .str code =>
    if code = "" then []
    else [("localErrorCode",some (.str code)),
      ("localErrorMessage",some (match errorMessage with
        | .str message => if message = "" then .str "Agent execution failed." else .str message
        | _ => .str "Agent execution failed.")),
      ("localErrorRetryable",match retryable with
        | .bool b => some (.bool b)
        | _ => none)]
  | _ => []

def inputRequestMessage (taskId : TaskId) (contextId : ContextId) (inputRequest : Json)
    (messageId : String) : Json :=
  let prompt := text.str (Json.orElse (inputRequest.member "prompt")
    (Json.orElse (inputRequest.member "message") (.str "Additional input is required.")))
  .obj [("kind",.str "message"),("role",.str "agent"),("messageId",.str messageId),
    ("taskId",.str taskId),("contextId",.str contextId),
    ("parts",.arr [.obj [("kind",.str "text"),("text",.str prompt)]]),
    ("metadata",.obj [("inputRequest",inputRequest)])]

def ofOptionString (s : Option String) : Json := (s.map .str).getD .null

/-- The input request of an event, where its payload has one. -/
def eventInputRequest (event : TaskEventRecord) : Option Json :=
  (some (event.payload.member "input_request")).filter Json.isObject

def statusUpdate (event : TaskEventRecord) (task : TaskRecord) (status : TaskStatus) : Json :=
  Json.ofOptions [
    ("kind",some (.str "status-update")),
    ("taskId",some (.str event.taskId)),
    ("contextId",some (.str task.contextId)),
    ("status",some (Json.ofOptions [("state",some (.str (taskStatusToA2aState status).value)),
      ("message",(eventInputRequest event).map fun inputRequest =>
        inputRequestMessage text task.taskId task.contextId inputRequest
          ("input-event-" ++ toString event.eventId))])),
    ("final",some (.bool (taskStatusToA2aState status ∈
      [A2ATaskState.completed,.canceled,.failed]))),
    ("metadata",some (Json.ofOptions ([("localEventId",some (.num event.eventId)),
      ("localEventType",some (.str event.type)),
      ("lifecycleRevision",some (.num event.lifecycleRevision))] ++
      threadMetadata task.runtimeThreadId ++ [("localStatus",some (.str status.value)),
      ("inputRequest",eventInputRequest event)] ++
      (if status = .failed then
        taskFailureMetadata
          (Json.orElse (event.payload.member "error_code") (ofOptionString task.errorCode))
          (Json.orElse (event.payload.member "error_message") (ofOptionString task.errorMessage))
          ((event.payload.fields.lookup "retryable").getD (.bool task.errorRetryable))
      else []))))]

def taskToA2aPayload (task : TaskRecord) (inputRequest : Option Json) : Json :=
  Json.ofOptions [
    ("kind",some (.str "task")),
    ("id",some (.str task.taskId)),
    ("contextId",some (.str task.contextId)),
    ("status",some (Json.ofOptions [
      ("state",some (.str (taskStatusToA2aState task.status).value)),
      ("message",inputRequest.map fun inputRequest =>
        inputRequestMessage text task.taskId task.contextId inputRequest
          ("input-" ++ task.taskId))])),
    ("metadata",some (Json.ofOptions ([("localContextId",some (.str task.contextId)),
      ("localTaskId",some (.str task.taskId))] ++ threadMetadata task.runtimeThreadId ++
      [("inputMessageId",some (.str task.inputMessageId)),
      ("outputMessageId",some (ofOptionString task.outputMessageId)),
      ("localStatus",some (.str task.status.value)),
      ("localAttempt",some (.num task.attempt)),
      ("lifecycleRevision",some (.num task.lifecycleRevision)),
      ("inputRequest",inputRequest)] ++
      taskFailureMetadata (ofOptionString task.errorCode) (ofOptionString task.errorMessage)
        (.bool task.errorRetryable))))]

def taskEventToA2aStatusUpdate (event : TaskEventRecord) (task : TaskRecord) : Option Json :=
  event.status.map (statusUpdate text event task)

def artifactUpdate (event : TaskEventRecord) (task : TaskRecord) (artifact : ArtifactRecord) :
    Json :=
  Json.ofOptions [
    ("kind",some (.str "artifact-update")),
    ("taskId",some (.str event.taskId)),
    ("contextId",some (.str task.contextId)),
    ("artifact",some (.obj [("artifactId",.str (text.str
        (Json.orElse (artifact.metadata.member "kind") (.str artifact.artifactId)))),
      ("parts",.arr artifact.parts),("metadata",artifact.metadata)])),
    ("append",some (.bool false)),
    ("lastChunk",some (.bool true)),
    ("metadata",some (Json.ofOptions ([("localEventId",some (.num event.eventId)),
      ("localEventType",some (.str event.type)),
      ("lifecycleRevision",some (.num event.lifecycleRevision)),
      ("localArtifactId",some (.str artifact.artifactId))] ++
      threadMetadata task.runtimeThreadId)))]

def taskEventToA2aArtifactUpdate (event : TaskEventRecord) (task : TaskRecord)
    (artifact : Option ArtifactRecord) : Option Json :=
  if event.type ∉ artifactEventTypes then none else artifact.map (artifactUpdate text event task)

def isA2aInternalTaskEvent (event : TaskEventRecord) : Bool :=
  event.status = none ∧ event.type ∈ a2aInternalAuditEventTypes

/-- The artifact that the event's payload names. -/
def eventArtifact (event : TaskEventRecord) : StoreTxn (Option ArtifactRecord) :=
  let artifactId := event.payload.member "artifact_id"
  if artifactId.truthy then getArtifact (text.str artifactId) else pure none

/-- `_project_classified_main_agent_task_event`. -/
def projectClassifiedMainAgentTaskEvent (event : TaskEventRecord) (task : TaskRecord) :
    StoreTxn (Option Json) := do
  let artifact ← eventArtifact text event
  let payload := (taskEventToA2aArtifactUpdate text event task artifact).or
    (taskEventToA2aStatusUpdate text event task)
  if payload = none ∧ isA2aInternalTaskEvent event = true then
    return none
  else if payload = none then
    fail (.taskEventProjection event.taskId event.eventId event.type)
  else
    return payload

end Payloads

/-- The event tells of an artifact that there is. -/
def TaskEventRecord.HasLiveArtifact (event : TaskEventRecord) (db : AgentDb) : Prop :=
  ∃ a, a ≠ "" ∧ event.payload.member "artifact_id" = .str a ∧ (db.artifacts.get a).isSome = true

section Main

variable {text : TextEnv} {db : AgentDb} {event : TaskEventRecord} {task : TaskRecord}

theorem eventArtifact_run : (eventArtifact text event).run db = .ok
    (if (event.payload.member "artifact_id").truthy then
      db.artifacts.get (text.str (event.payload.member "artifact_id")) else none,db) := by
  unfold eventArtifact
  by_cases htruthy : (event.payload.member "artifact_id").truthy = true
  · simp [htruthy,getArtifact]
  · simp [htruthy]

/-- An event with a status is always delivered. -/
theorem project_status (hstatus : event.status.isSome = true) :
    ∃ payload, (projectClassifiedMainAgentTaskEvent text event task).run db =
        .ok (some payload,db) ∧
      (payload.member "kind" = .str "artifact-update" ∨
        payload.member "kind" = .str "status-update") := by
  obtain ⟨status,hstatus⟩ := Option.isSome_iff_exists.mp hstatus
  simp only [projectClassifiedMainAgentTaskEvent,run_bind,eventArtifact_run]
  generalize (if (event.payload.member "artifact_id").truthy then
    db.artifacts.get (text.str (event.payload.member "artifact_id")) else none) = artifact
  cases hupdate : taskEventToA2aArtifactUpdate text event task artifact with
  | some payload =>
    refine ⟨payload,by simp,.inl ?_⟩
    unfold taskEventToA2aArtifactUpdate at hupdate
    split at hupdate
    · cases hupdate
    · obtain ⟨_,_,rfl⟩ := Option.map_eq_some_iff.mp hupdate
      rfl
  | none =>
    refine ⟨statusUpdate text event task status,?_,.inr rfl⟩
    simp [taskEventToA2aStatusUpdate,hstatus]

/-- An event without a status is delivered when it tells of an artifact that there is, passed
over when it is an audit fact, and an error otherwise. -/
theorem project_noted {c : ContextId} (hstatus : event.status = none)
    (hnoted : Noted db.history.artifacts c event.type event.payload) :
    ∃ payload, (projectClassifiedMainAgentTaskEvent text event task).run db = .ok (payload,db) ∧
      (event.HasLiveArtifact db ∧
          (∃ p, payload = some p ∧ p.member "kind" = .str "artifact-update") ∨
        ¬ event.HasLiveArtifact db ∧ isA2aInternalTaskEvent event = true ∧ payload = none) := by
  have hnone : taskEventToA2aStatusUpdate text event task = none := by
    simp [taskEventToA2aStatusUpdate,hstatus]
  simp only [projectClassifiedMainAgentTaskEvent,run_bind,eventArtifact_run,hnone]
  rcases hnoted with ⟨htype,hpayload⟩ | ⟨htype,a,ha,hpayload,hlive⟩
  · have hinternal : isA2aInternalTaskEvent event = true := by
      simp [isA2aInternalTaskEvent,hstatus,htype]
    have hdead : ¬ event.HasLiveArtifact db := by
      rintro ⟨a,_,hmember,_⟩
      rw [hpayload] at hmember
      cases hmember
    have hother : event.type ∉ artifactEventTypes := by
      intro hmem
      have hdisjoint : ∀ type ∈ a2aInternalAuditEventTypes, type ∉ artifactEventTypes := by decide
      exact hdisjoint _ htype hmem
    refine ⟨none,?_,.inr ⟨hdead,hinternal,rfl⟩⟩
    simp [taskEventToA2aArtifactUpdate,hother,hinternal]
  · obtain ⟨artifact,hartifact,_⟩ := Option.map_eq_some_iff.mp hlive
    have hfound : event.HasLiveArtifact db := ⟨a,ha,hpayload,by rw [hartifact]; rfl⟩
    have htruthy : (event.payload.member "artifact_id").truthy = true := by
      rw [hpayload]
      simpa [Json.truthy] using ha
    refine ⟨some (artifactUpdate text event task artifact),?_,.inl ⟨hfound,_,rfl,rfl⟩⟩
    rw [if_pos htruthy,hpayload,text.str_str,hartifact]
    simp [taskEventToA2aArtifactUpdate,htype]

/-- Every event in the log of a task projects to an artifact update, a status update or the
marker of an audit fact; the delivered ones are those with a status or a live artifact. -/
theorem every_event_projects (core : CoreEnv) (env : LedgerEnv) (text : TextEnv)
    (as : List AgentTxn) {db : AgentDb} {task seen : TaskRecord} {t : TaskId}
    {event : TaskEventRecord} (hdb : db = AgentTxn.history core env as AgentDb.empty)
    (ht : db.tasks.get t = some task) (he : event ∈ db.eventsOf t) :
    ∃ payload, (projectClassifiedMainAgentTaskEvent text event seen).run db = .ok (payload,db) ∧
      (payload = none → isA2aInternalTaskEvent event = true) ∧
      (∀ p, payload = some p → p.member "kind" = .str "artifact-update" ∨
        p.member "kind" = .str "status-update") ∧
      (payload.isSome = true ↔ event.status.isSome = true ∨ event.HasLiveArtifact db) := by
  have hsound : db.Sound := hdb ▸ AgentTxn.sound_history core env as AgentDb.sound_empty
  have hhead : (db.history.log t).head = some task.lifecycle := history_head ht
  cases hstatus : event.status with
  | some status =>
    obtain ⟨payload,hrun,hkind⟩ := @project_status text db event seen (by rw [hstatus]; rfl)
    refine ⟨some payload,hrun,fun hnone => (nomatch hnone),?_,by simp⟩
    rintro _ ⟨⟩
    exact hkind
  | none =>
    have hnoted := (hsound.lawful t).noted _ hhead event he hstatus
    obtain ⟨payload,hrun,⟨hlive,p,rfl,hkind⟩ | ⟨hdead,hinternal,rfl⟩⟩ :=
      @project_noted text db event seen _ hstatus hnoted
    · refine ⟨some p,hrun,fun hnone => (nomatch hnone),?_,by simp [hlive]⟩
      rintro _ ⟨⟩
      exact .inl hkind
    · exact ⟨none,hrun,fun _ => hinternal,fun _ hsome => (nomatch hsome),by simp [hdead]⟩

end Main

/-- A slice that ends with an answer and an observation. -/
def sampleResult : LocalTaskRunResult where
  status := .completed
  parts := [.obj [("kind",.str "text"),("text",.str "The report is written.")]]
  artifactParts := []
  errorCode := none
  errorMessage := none
  errorRetryable := false
  inputRequest := none
  observations := [.obj [("tool",.str "read_file")]]
  execution := .obj []

/-- The sample task as its worker claims it and records the result. -/
def sampleCompletion : List CoreTxn :=
  sampleAdmission ++ [.claimLocalExecution "task",.recordLocalTaskResult "task" sampleResult
    (.obj []) "answer" {sampleTask with status := .running}]

def sampleText : TextEnv where
  str
    | .str s => s
    | _ => "value"
  str_str _ := rfl

def sampleEvent : TaskEventRecord :=
  ⟨5,"task","task_artifact_created",none,5,
    .obj [("artifact_id",.str "task:final_answer"),("kind",.str "final_answer")]⟩

theorem every_event_projects_sample :
    ((projectClassifiedMainAgentTaskEvent sampleText sampleEvent sampleTask).run
      (AgentTxn.history sampleCore sampleEnv (sampleCompletion.map .core) AgentDb.empty)).isOk =
      true := by
  obtain ⟨task,htask⟩ : ∃ task, (AgentTxn.history sampleCore sampleEnv
      (sampleCompletion.map .core) AgentDb.empty).tasks.get "task" = some task :=
    Option.isSome_iff_exists.mp (by decide +kernel)
  have hevent : sampleEvent ∈ (AgentTxn.history sampleCore sampleEnv
      (sampleCompletion.map .core) AgentDb.empty).eventsOf "task" := by decide +kernel
  obtain ⟨payload,hrun,_⟩ := @every_event_projects sampleCore sampleEnv sampleText
    (sampleCompletion.map .core) _ _ sampleTask _ _ rfl htask hevent
  rw [hrun]
  rfl

end VermayAgent
