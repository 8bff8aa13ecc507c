import VermayAgent.TaskLives
import VermayAgent.Projection
import VermayAgent.TaskProjectionReducer
import VermayAgent.Library.Transition

/-! The browser's projection of a task follows the task on the server.
Every merge accepts a newer revision and keeps its own otherwise, so the browser's record is a copy
that agrees with the event log of the task. -/
namespace VermayAgent.Web
open Library MainAgentStore

section Merge

variable {current incoming task : AgentTask} {c : Versioned AgentTaskStatus}

/-- The record shows a status at a revision. -/
structure AgentTask.Shows (task : AgentTask) (c : Versioned AgentTaskStatus) : Prop where
  revision : task.lifecycleRevision = .value (c.revision : ℚ)
  started : 1 ≤ c.revision
  status : task.status = c.value

theorem asRevision_natCast {r : ℕ} (hr : 1 ≤ r) : asRevision (r : ℚ) = some r := by
  have hint : (1 : ℤ) ≤ r := by omega
  simp [asRevision,hint]

theorem AgentTask.Shows.lifecycleRevision (h : task.Shows c) :
    taskLifecycleRevision task = some c.revision := by
  simp [taskLifecycleRevision,h.revision,asRevision_natCast h.started]

/-- The merge of two records accepts the newer one. -/
theorem mergeTaskProjection_shows (clock : Clock) {r : ℕ} {s : AgentTaskStatus} (hcurrent : current.Shows c)
    (hincoming : incoming.Shows ⟨r,s⟩) :
    (mergeTaskProjection clock current incoming).Shows (c.accept r (some s)) := by
  have hr : taskLifecycleRevision incoming = some r := hincoming.lifecycleRevision
  simp only [mergeTaskProjection,hcurrent.lifecycleRevision,hr,Versioned.accept]
  by_cases hlt : r < c.revision
  · rw [if_pos hlt,if_neg (by omega)]
    exact hcurrent
  · rw [if_neg hlt]
    by_cases heq : r = c.revision
    · rw [if_pos heq,if_neg (by omega)]
      exact ⟨hcurrent.revision,hcurrent.started,hcurrent.status⟩
    · rw [if_neg heq,if_pos (by omega)]
      refine ⟨?_,hincoming.started,hincoming.status⟩
      simp [mergeAcceptedTaskProjection,hincoming.revision,Field.spread]

theorem mergeTaskWithA2ASnapshot_shows (clock : Clock) {snapshot : AgentA2ATask} {r : ℕ}
    (hcurrent : current.Shows c)
    (hrevision : lifecycleRevisionFromMetadata snapshot.metadata = some r) (hr : 1 ≤ r) :
    (mergeTaskWithA2ASnapshot clock current snapshot).Shows
      (c.accept r (some (taskStatusFromA2A snapshot.state snapshot.metadata))) := by
  refine mergeTaskProjection_shows clock hcurrent ⟨?_,hr,rfl⟩
  simp [hrevision,Field.ofOption]

/-- An event without a status brings its revision alone. -/
theorem mergeEvent_shows (clock : Clock) {event : AgentTaskEvent} {r : ℕ} (finalAnswer : Option String)
    (hcurrent : current.Shows c) (hrevision : event.lifecycleRevision = some (r : ℚ)) (hr : 1 ≤ r) :
    (mergeTaskProjection clock current (eventCandidate current event finalAnswer)).Shows
      (c.accept r event.status) := by
  have hincoming : (eventCandidate current event finalAnswer).Shows
      ⟨r,event.status.getD current.status⟩ :=
    ⟨by simp [eventCandidate,hrevision,Field.ofOption],hr,rfl⟩
  have hmerged := mergeTaskProjection_shows clock hcurrent hincoming
  have haccept : c.accept r (some (event.status.getD current.status)) = c.accept r event.status := by
    simp [Versioned.accept,hcurrent.status]
  rwa [haccept] at hmerged

end Merge

section Payloads

variable {text : TextEnv} {event : TaskEventRecord} {task : TaskRecord}

/-- The browser's status for a status of the server. -/
def displayStatus (status : TaskStatus) : AgentTaskStatus := normalizeStatus status.value

theorem statusValue_ne_empty (status : TaskStatus) : status.value ≠ "" := by
  cases status <;> decide

theorem taskStatusFromA2A_localStatus {metadata : Json} {state : String} {status : TaskStatus}
    (h : metadata.member "localStatus" = .str status.value) :
    taskStatusFromA2A state metadata = displayStatus status := by
  simp [taskStatusFromA2A,metadataString,h,Json.asString,firstText,statusValue_ne_empty,
    displayStatus]

theorem member_objectOrEmpty (metadata : Json) (key : String) :
    (objectOrEmpty metadata).member key = metadata.member key := rfl

theorem lifecycleRevision_of_member {metadata : Json} {r : ℕ} (hr : 1 ≤ r)
    (h : metadata.member "lifecycleRevision" = .num r) :
    lifecycleRevisionFromMetadata metadata = some r := by
  simp [lifecycleRevisionFromMetadata,h,asRevision_natCast hr]

theorem snapshot_members (inputRequest : Option Json) :
    ((taskToA2aPayload text task inputRequest).member "metadata").member "localStatus" =
        .str task.status.value ∧
      ((taskToA2aPayload text task inputRequest).member "metadata").member "lifecycleRevision" =
        .num task.lifecycleRevision ∧
      (taskToA2aPayload text task inputRequest).member "id" = .str task.taskId := by
  refine ⟨?_,?_,?_⟩ <;>
    simp (disch := decide) only [taskToA2aPayload,threadMetadata,List.cons_append,List.nil_append,
      Json.member_ofOptions_of_ne,Json.member_ofOptions_some_self]

theorem statusUpdate_members (status : TaskStatus) :
    ((statusUpdate text event task status).member "metadata").member "localStatus" =
        .str status.value ∧
      ((statusUpdate text event task status).member "metadata").member "lifecycleRevision" =
        .num event.lifecycleRevision ∧
      ((statusUpdate text event task status).member "metadata").member "localEventId" =
        .num event.eventId ∧
      (statusUpdate text event task status).member "taskId" = .str event.taskId ∧
      (statusUpdate text event task status).member "kind" = .str "status-update" := by
  refine ⟨?_,?_,?_,?_,?_⟩ <;>
    simp (disch := decide) only [statusUpdate,threadMetadata,List.cons_append,List.nil_append,
      Json.member_ofOptions_of_ne,Json.member_ofOptions_some_self]

theorem artifactUpdate_members (artifact : ArtifactRecord) :
    ((artifactUpdate text event task artifact).member "metadata").member "lifecycleRevision" =
        .num event.lifecycleRevision ∧
      ((artifactUpdate text event task artifact).member "metadata").member "localEventId" =
        .num event.eventId ∧
      (artifactUpdate text event task artifact).member "taskId" = .str event.taskId ∧
      (artifactUpdate text event task artifact).member "kind" = .str "artifact-update" := by
  refine ⟨?_,?_,?_,?_⟩ <;>
    simp (disch := decide) only [artifactUpdate,threadMetadata,List.cons_append,List.nil_append,
      Json.member_ofOptions_of_ne,Json.member_ofOptions_some_self]

/-- What a delivered event tells the browser. -/
structure Tells (update : AgentTaskEvent) (event : TaskEventRecord) : Prop where
  taskId : update.taskId = event.taskId
  revision : update.lifecycleRevision = some (event.lifecycleRevision : ℚ)
  status : update.status = event.status.map displayStatus

/-- The projected payload of an event is read back as its revision and its status. -/
theorem tells_of_project {db db' : AgentDb} {payload : Json} {now : String}
    {timestamp : Option String} {update : AgentTaskEvent} (hr : 1 ≤ event.lifecycleRevision)
    (htype : event.status.isSome = true → event.type ∉ artifactEventTypes)
    (hproject : (projectClassifiedMainAgentTaskEvent text event task).run db =
      .ok (some payload,db'))
    (hupdate : a2aEnvelopeToTaskEvent now ⟨payload,timestamp⟩ = some update) :
    Tells update event := by
  have hpayload : (∃ status, event.status = some status ∧
      payload = statusUpdate text event task status) ∨
      event.status = none ∧ ∃ artifact, payload = artifactUpdate text event task artifact := by
    simp only [projectClassifiedMainAgentTaskEvent,Txn.run_bind,eventArtifact_run] at hproject
    generalize (if (event.payload.member "artifact_id").truthy then
      db.artifacts.get (text.str (event.payload.member "artifact_id")) else none) = artifact
      at hproject
    cases hstatus : event.status with
    | some status =>
      have hnone : taskEventToA2aArtifactUpdate text event task artifact = none :=
        if_pos (htype (by rw [hstatus]; rfl))
      rw [hnone,taskEventToA2aStatusUpdate,hstatus] at hproject
      simp at hproject
      exact .inl ⟨status,rfl,hproject.1.symm⟩
    | none =>
      have hnone : taskEventToA2aStatusUpdate text event task = none := by
        simp [taskEventToA2aStatusUpdate,hstatus]
      refine .inr ⟨rfl,?_⟩
      cases hartifact : taskEventToA2aArtifactUpdate text event task artifact with
      | none =>
        rw [hnone,hartifact] at hproject
        simp only [Option.or_none,true_and,Txn.ite_run] at hproject
        split at hproject <;> cases hproject
      | some p =>
        rw [hartifact] at hproject
        simp at hproject
        unfold taskEventToA2aArtifactUpdate at hartifact
        split at hartifact
        · cases hartifact
        · obtain ⟨stored,_,rfl⟩ := Option.map_eq_some_iff.mp hartifact
          exact ⟨stored,hproject.1.symm⟩
  rcases hpayload with ⟨status,hstatus,rfl⟩ | ⟨hstatus,artifact,rfl⟩
  · obtain ⟨hlocal,hrevision,hid,htask,hkind⟩ := @statusUpdate_members text event task status
    simp only [a2aEnvelopeToTaskEvent,hkind,member_objectOrEmpty,hid,htask] at hupdate
    simp only [ne_eq,not_true,false_and,if_false,Option.some.injEq] at hupdate
    subst hupdate
    have hstamp : lifecycleRevisionFromMetadata (objectOrEmpty ((statusUpdate text event task
        status).member "metadata")) = some event.lifecycleRevision :=
      lifecycleRevision_of_member hr hrevision
    refine ⟨rfl,?_,?_⟩
    · simp only [hstamp,Option.map_some]
    · rw [hstatus]
      exact congrArg some (taskStatusFromA2A_localStatus hlocal)
  · obtain ⟨hrevision,hid,htask,hkind⟩ := @artifactUpdate_members text event task artifact
    have hother : ¬ Json.str "artifact-update" = .str "status-update" := by decide
    simp only [a2aEnvelopeToTaskEvent,hkind,member_objectOrEmpty,hid,htask] at hupdate
    simp only [ne_eq,hother,not_true,and_false,if_false,Option.some.injEq] at hupdate
    subst hupdate
    have hstamp : lifecycleRevisionFromMetadata (objectOrEmpty ((artifactUpdate text event task
        artifact).member "metadata")) = some event.lifecycleRevision :=
      lifecycleRevision_of_member hr hrevision
    refine ⟨rfl,?_,?_⟩
    · simp only [hstamp,Option.map_some]
    · rw [hstatus]
      rfl

end Payloads
section Delivery

variable {core : CoreEnv} {env : LedgerEnv} {t : TaskId}

/-- A snapshot taken in one of the committed states. -/
structure SnapshotRead where
  state : Nat
  inputRequest : Option Json
  timestamp : Option String

/-- Where the browser has a whole record of the task from: the tasks of a context, the latest of
them refreshed by a snapshot, or the first result of a message stream. -/
inductive Fetched where
  | stored (state : Nat) (updatedAt : String) (answer : Option String)
      (snapshot : Option SnapshotRead)
  | streamed (snapshot : SnapshotRead) (now : String)

inductive Delivery where
  | event (index read seen : Nat) (now : String) (timestamp : Option String)
      (shown : Option AgentTask) (finalAnswer : Option String)
  | snapshot (read : SnapshotRead)
  | upsert (fetched : Fetched)
  | streamError (error : AgentTaskError)

/-- The browser's tasks, and how many of the delivered events of the task it has had. -/
structure Browser where
  tasks : TaskProjectionState
  next : Nat

/-- `_task_to_dict`, as far as the browser's projection reads it. -/
def contextTaskRecord (task : TaskRecord) (updatedAt : String) : AgentContextTaskRecord where
  taskId := task.taskId
  contextId := task.contextId
  runtimeThreadId := task.runtimeThreadId
  status := task.status.value
  errorCode := task.errorCode
  errorMessage := task.errorMessage
  errorRetryable := task.errorRetryable
  lifecycleRevision := some task.lifecycleRevision
  updatedAt

variable (life : TaskLife core env t) (text : TextEnv) (clock : Clock)

def readSnapshot (read : SnapshotRead) : Option AgentA2ATask :=
  ((life.state read.state).tasks.get t).map fun task =>
    a2aTaskOfPayload (taskToA2aPayload text task read.inputRequest) read.timestamp

def fetchTask : Fetched → Option AgentTask
  | .stored state updatedAt answer none => ((life.state state).tasks.get t).map fun task =>
    storedTaskToAgentTask (contextTaskRecord task updatedAt) answer none
  | .stored state updatedAt answer (some read) => ((life.state state).tasks.get t).bind fun task =>
    (readSnapshot life text read).map fun snapshot =>
      storedTaskToAgentTask (contextTaskRecord task updatedAt) answer (some snapshot)
  | .streamed read now => (readSnapshot life text read).map (streamedTaskToAgentTask now)

/-- The events of the task that have an envelope, in the order of their ids. -/
def publishedEvents : List TaskEventRecord := life.events.filter fun e => !isA2aInternalTaskEvent e

/-- A delivery to the reducer: the next event or one that arrived before, as it is projected in
some state with the record of some state, or a record or snapshot of any state. -/
def deliver : Delivery → Browser → Option Browser
  | .event index read seen now timestamp shown finalAnswer,b =>
    match (publishedEvents life)[index]?,(life.state seen).tasks.get t with
    | some event,some task =>
      match (projectClassifiedMainAgentTaskEvent text event task).run (life.state read) with
      | .ok (some payload,_) =>
        match a2aEnvelopeToTaskEvent now ⟨payload,timestamp⟩ with
        | some update =>
          if index ≤ b.next then
            some ⟨taskProjectionReducer clock b.tasks
              (.event (eventWithTaskThreadId update shown) finalAnswer),max b.next (index+1)⟩
          else none
        | none => none
      | _ => none
    | _,_ => none
  | .snapshot read,b => (readSnapshot life text read).map fun snapshot =>
    {b with tasks := taskProjectionReducer clock b.tasks (.snapshot snapshot)}
  | .upsert fetched,b => (fetchTask life text fetched).map fun task =>
    {b with tasks := taskProjectionReducer clock b.tasks (.upsert task)}
  | .streamError error,b =>
    some {b with tasks := taskProjectionReducer clock b.tasks (.streamError t error)}

/-- The browser once it has a first record of the task. -/
def openBrowser (fetched : Fetched) : Option Browser :=
  (fetchTask life text fetched).map fun task => ⟨Function.update (fun _ => none) t (some task),0⟩

variable {life text clock}

theorem taskId_of_get {n : Nat} {r : TaskRecord} (hr : (life.state n).tasks.get t = some r) :
    r.taskId = t := Table.key_of_get hr

theorem readSnapshot_tells {read : SnapshotRead} {snapshot : AgentA2ATask}
    (h : readSnapshot life text read = some snapshot) :
    ∃ r, (life.state read.state).tasks.get t = some r ∧ snapshot.id = t ∧
      lifecycleRevisionFromMetadata snapshot.metadata = some r.lifecycleRevision ∧
      taskStatusFromA2A snapshot.state snapshot.metadata = displayStatus r.status := by
  obtain ⟨r,hr,rfl⟩ := Option.map_eq_some_iff.mp h
  obtain ⟨hstatus,hrevision,hid⟩ := @snapshot_members text r read.inputRequest
  refine ⟨r,hr,?_,lifecycleRevision_of_member (life.statusAt_record hr).2 hrevision,
    taskStatusFromA2A_localStatus hstatus⟩
  simp [a2aTaskOfPayload,hid,Json.asString,taskId_of_get hr]

/-- A fetched record shows what some committed record shows. -/
theorem fetchTask_shows {fetched : Fetched} {task : AgentTask}
    (h : fetchTask life text fetched = some task) :
    ∃ n r, (life.state n).tasks.get t = some r ∧ task.taskId = t ∧
      task.Shows ⟨r.lifecycleRevision,displayStatus r.status⟩ := by
  cases fetched with
  | stored state updatedAt answer snapshot =>
    cases snapshot with
    | none =>
      obtain ⟨r,hr,rfl⟩ := Option.map_eq_some_iff.mp h
      exact ⟨state,r,hr,taskId_of_get hr,rfl,(life.statusAt_record hr).2,rfl⟩
    | some read =>
      obtain ⟨stored,hstored,h⟩ := Option.bind_eq_some_iff.mp h
      obtain ⟨snapshot,hread,rfl⟩ := Option.map_eq_some_iff.mp h
      obtain ⟨r,hr,_,hrevision,hstatus⟩ := readSnapshot_tells hread
      refine ⟨read.state,r,hr,taskId_of_get hstored,?_,(life.statusAt_record hr).2,hstatus⟩
      have hmetadata : lifecycleRevisionFromMetadata snapshot.metadata = some r.lifecycleRevision :=
        hrevision
      simp [storedTaskToAgentTask,hmetadata,Field.ofOption]
  | streamed read now =>
    obtain ⟨snapshot,hread,rfl⟩ := Option.map_eq_some_iff.mp h
    obtain ⟨r,hr,hid,hrevision,hstatus⟩ := readSnapshot_tells hread
    refine ⟨read.state,r,hr,hid,?_,(life.statusAt_record hr).2,hstatus⟩
    simp [streamedTaskToAgentTask,hrevision,Field.ofOption]

theorem eventWithTaskThreadId_tells {update : AgentTaskEvent} {event : TaskEventRecord}
    (h : Tells update event) (shown : Option AgentTask) :
    Tells (eventWithTaskThreadId update shown) event := by
  cases shown with
  | none => exact h
  | some task =>
    simp only [eventWithTaskThreadId]
    split
    · exact h
    · exact ⟨h.taskId,h.revision,h.status⟩

/-- What an event shows in the browser. -/
def shownStatus (event : TaskEventRecord) : Option AgentTaskStatus := event.status.map displayStatus

theorem published_ordered (life : TaskLife core env t) :
    Ordered (·.lifecycleRevision) shownStatus (publishedEvents life) := by
  have hsub : (publishedEvents life).Sublist life.events := List.filter_sublist
  refine ⟨life.ordered.revisions.sublist hsub,(life.ordered.advances.sublist hsub).imp ?_⟩
  intro e f hadvance hsome
  exact hadvance (by simpa [shownStatus] using hsome)

theorem published_of_status {event : TaskEventRecord} (h : event.status.isSome = true) :
    (!isA2aInternalTaskEvent event) = true := by
  cases hstatus : event.status with
  | none =>
    rw [hstatus] at h
    cases h
  | some status => simp [isA2aInternalTaskEvent,hstatus]

/-- The audit events that are not delivered carry no status. -/
theorem valueAt_published (life : TaskLife core env t) (r : Nat) :
    Library.valueAt (·.lifecycleRevision) shownStatus (publishedEvents life) r =
      (life.statusAt r).map displayStatus := by
  have hmap : Library.valueAt (·.lifecycleRevision) shownStatus (publishedEvents life) r =
      (Library.valueAt (·.lifecycleRevision) (·.status) (publishedEvents life) r).map displayStatus :=
    valueAt_map displayStatus _ r
  rw [hmap]
  exact congrArg _ (valueAt_filter fun _ _ hsome => published_of_status hsome)

/-- The browser's record of the task is a copy that agrees with the log, and that knows the
revision of every event that has arrived. -/
structure Follows (life : TaskLife core env t) (b : Browser) (task : AgentTask)
    (c : Versioned AgentTaskStatus) : Prop where
  shown : b.tasks t = some task
  shows : task.Shows c
  agrees : c.Agrees (·.lifecycleRevision) shownStatus (publishedEvents life)
  arrived : ∀ e ∈ (publishedEvents life).take b.next, e.lifecycleRevision ≤ c.revision

theorem agrees_of_record {n : Nat} {r : TaskRecord} {c : Versioned AgentTaskStatus}
    (hr : (life.state n).tasks.get t = some r)
    (h : c.Agrees (·.lifecycleRevision) shownStatus (publishedEvents life)) :
    (c.accept r.lifecycleRevision (some (displayStatus r.status))).Agrees (·.lifecycleRevision)
      shownStatus (publishedEvents life) := by
  refine h.accept_fact ?_
  rw [valueAt_published,(life.statusAt_record hr).1]
  rfl

theorem arrived_accept {b : Browser} {c : Versioned AgentTaskStatus} {r : Nat}
    {s : Option AgentTaskStatus}
    (h : ∀ e ∈ (publishedEvents life).take b.next, e.lifecycleRevision ≤ c.revision) :
    ∀ e ∈ (publishedEvents life).take b.next, e.lifecycleRevision ≤ (c.accept r s).revision := by
  intro e he
  rw [Versioned.revision_accept]
  exact (h e he).trans (Nat.le_max_left _ _)

theorem open_follows {fetched : Fetched} {b : Browser}
    (h : openBrowser life text fetched = some b) : ∃ task c, Follows life b task c := by
  obtain ⟨task,hfetch,rfl⟩ := Option.map_eq_some_iff.mp h
  obtain ⟨n,r,hr,_,hshows⟩ := fetchTask_shows hfetch
  refine ⟨task,_,by simp,hshows,?_,by simp⟩
  rw [Versioned.Agrees,valueAt_published,(life.statusAt_record hr).1]
  rfl

/-- A published event is one of the log, so it is stamped and its type says what it is. -/
theorem published_event {event : TaskEventRecord} (h : event ∈ publishedEvents life) :
    event.taskId = t ∧ 1 ≤ event.lifecycleRevision ∧
      (event.status.isSome = true → event.type ∉ artifactEventTypes) := by
  have hmem : event ∈ life.final.eventsOf t := List.mem_of_mem_filter h
  obtain ⟨r,hr⟩ := Option.isSome_iff_exists.mp (life.alive life.during.length)
  have hlawful := (life.sound life.during.length).lawful t
  refine ⟨?_,(hlawful.started _ (history_head hr)).2 event hmem,hlawful.typed event hmem⟩
  simpa [AgentDb.eventsOf] using (List.mem_filter.mp hmem).2

/-- The event delivered is known afterwards, and so are those that were known before. -/
theorem arrived_event {b : Browser} {c : Versioned AgentTaskStatus} {index : Nat}
    {event : TaskEventRecord} {s : Option AgentTaskStatus}
    (hevent : (publishedEvents life)[index]? = some event) (hindex : index ≤ b.next)
    (h : ∀ e ∈ (publishedEvents life).take b.next, e.lifecycleRevision ≤ c.revision) :
    ∀ e ∈ (publishedEvents life).take (max b.next (index+1)),
      e.lifecycleRevision ≤ (c.accept event.lifecycleRevision s).revision := by
  intro e he
  rcases Nat.lt_or_eq_of_le hindex with hlt | rfl
  · rw [Nat.max_eq_left (by omega)] at he
    exact arrived_accept h e he
  · rw [Nat.max_eq_right (Nat.le_succ _),List.take_add_one,hevent] at he
    rcases List.mem_append.mp he with he | he
    · exact arrived_accept h e he
    · have heq : e = event := by simpa using he
      rw [heq,Versioned.revision_accept]
      exact Nat.le_max_right _ _

/-- What a delivered event is: a projection of a published event that is the next one or older. -/
theorem deliver_event {index source seen : Nat} {now : String} {timestamp finalAnswer : Option String}
    {shown : Option AgentTask} {b b' : Browser}
    (h : deliver life text clock (.event index source seen now timestamp shown finalAnswer) b =
      some b') :
    ∃ event update, (publishedEvents life)[index]? = some event ∧ index ≤ b.next ∧
      Tells update event ∧ b' = ⟨taskProjectionReducer clock b.tasks
        (.event (eventWithTaskThreadId update shown) finalAnswer),max b.next (index+1)⟩ := by
  simp only [deliver] at h
  split at h
  · rename_i event task hevent _
    split at h
    · rename_i payload _ hproject
      split at h
      · rename_i update hupdate
        split at h
        · obtain ⟨_,hone,htype⟩ := published_event (List.mem_of_getElem? hevent)
          exact ⟨event,update,hevent,‹_›,tells_of_project hone htype hproject hupdate,
            (Option.some.inj h).symm⟩
        · cases h
      · cases h
    · cases h
  · cases h

/-- The next event, or one that arrived before, leaves the copy in agreement. -/
theorem agrees_of_event {b : Browser} {task : AgentTask} {c : Versioned AgentTaskStatus} {index : Nat}
    {event : TaskEventRecord} (h : Follows life b task c)
    (hevent : (publishedEvents life)[index]? = some event) (hindex : index ≤ b.next) :
    (c.accept event.lifecycleRevision (shownStatus event)).Agrees (·.lifecycleRevision)
      shownStatus (publishedEvents life) := by
  have hsplit : publishedEvents life = (publishedEvents life).take index ++
      event::(publishedEvents life).drop (index+1) := by
    obtain ⟨hlt,heq⟩ := List.getElem?_eq_some_iff.mp hevent
    rw [← heq,List.getElem_cons_drop,List.take_append_drop]
  have hordered := published_ordered life
  have hbefore := h.agrees
  rw [hsplit] at hordered hbefore ⊢
  refine hbefore.accept_entry hordered fun x hx _ => h.arrived x ?_
  exact List.take_subset_take_left _ hindex hx

/-- One delivery: the record goes on agreeing, and its revision does not decrease. -/
theorem deliver_follows {d : Delivery} {b b' : Browser} {task : AgentTask}
    {c : Versioned AgentTaskStatus} (h : Follows life b task c)
    (hd : deliver life text clock d b = some b') :
    ∃ task' c', Follows life b' task' c' ∧ c.revision ≤ c'.revision := by
  have hgrows : ∀ r s, c.revision ≤ (c.accept r s).revision := fun r s => by
    rw [Versioned.revision_accept]
    exact Nat.le_max_left _ _
  cases d with
  | snapshot source =>
    obtain ⟨snapshot,hread,rfl⟩ := Option.map_eq_some_iff.mp hd
    obtain ⟨r,hr,hid,hrevision,hstatus⟩ := readSnapshot_tells hread
    have hshows := mergeTaskWithA2ASnapshot_shows clock h.shows hrevision
      (life.statusAt_record hr).2
    rw [hstatus] at hshows
    refine ⟨_,_,⟨?_,hshows,agrees_of_record hr h.agrees,arrived_accept h.arrived⟩,hgrows _ _⟩
    simp [taskProjectionReducer,hid,h.shown]
  | upsert fetched =>
    obtain ⟨incoming,hfetch,rfl⟩ := Option.map_eq_some_iff.mp hd
    obtain ⟨n,r,hr,hid,hincoming⟩ := fetchTask_shows hfetch
    have hshows := mergeTaskProjection_shows clock h.shows hincoming
    refine ⟨_,_,⟨?_,hshows,agrees_of_record hr h.agrees,arrived_accept h.arrived⟩,hgrows _ _⟩
    simp [taskProjectionReducer,upsertTask,hid,h.shown]
  | streamError error =>
    cases hd
    refine ⟨{task with streamError := .value error},c,⟨?_,?_,h.agrees,h.arrived⟩,Nat.le_refl _⟩
    · simp [taskProjectionReducer,h.shown]
    · exact ⟨h.shows.revision,h.shows.started,h.shows.status⟩
  | event index source seen now timestamp shown finalAnswer =>
    obtain ⟨entry,update,hentry,hindex,hupdate,rfl⟩ := deliver_event hd
    obtain ⟨hid,hone,_⟩ := published_event (List.mem_of_getElem? hentry)
    have htells := eventWithTaskThreadId_tells hupdate shown
    have hshows := mergeEvent_shows clock finalAnswer h.shows htells.revision hone
    rw [htells.status] at hshows
    refine ⟨_,_,⟨?_,hshows,agrees_of_event h hentry hindex,arrived_event hentry hindex h.arrived⟩,
      hgrows _ _⟩
    simp [taskProjectionReducer,applyTaskEvent,htells.taskId,hid,h.shown]

/-- After every delivery the browser shows the status that the server had at the revision shown;
the next delivery does not lower the revision, and once every event has arrived the status is the
server's own. -/
theorem web_projection_converges (life : TaskLife core env t) (text : TextEnv) (clock : Clock)
    (fetched : Fetched) (ds : List Delivery) {b₀ b : Browser}
    (hopen : openBrowser life text fetched = some b₀)
    (hrun : exec (deliver life text clock) ds b₀ = some b) :
    ∃ task revision status, b.tasks t = some task ∧ taskLifecycleRevision task = some revision ∧
      life.statusAt revision = some status ∧ task.status = displayStatus status ∧
      (∀ d b', deliver life text clock d b = some b' → ∃ task' revision', b'.tasks t = some task' ∧
        taskLifecycleRevision task' = some revision' ∧ revision ≤ revision') ∧
      ((publishedEvents life).length ≤ b.next →
        ∀ r, life.final.tasks.get t = some r → task.status = displayStatus r.status) := by
  obtain ⟨task,c,h⟩ : ∃ task c, Follows life b task c :=
    exec_invariant (I := fun b => ∃ task c, Follows life b task c) (fun d s s' ⟨_,_,hs⟩ hd => by
      obtain ⟨task',c',hs',_⟩ := deliver_follows hs hd
      exact ⟨task',c',hs'⟩) (open_follows hopen) hrun
  have hvalue := h.agrees
  rw [Versioned.Agrees,valueAt_published] at hvalue
  obtain ⟨status,hstatus,hshown⟩ := Option.map_eq_some_iff.mp hvalue
  refine ⟨task,c.revision,status,h.shown,h.shows.lifecycleRevision,hstatus,
    h.shows.status.trans hshown.symm,fun d b' hd => ?_,fun hall r hr => ?_⟩
  · obtain ⟨task',c',hs',hle⟩ := deliver_follows h hd
    exact ⟨task',c'.revision,hs'.shown,hs'.shows.lifecycleRevision,hle⟩
  · have harrived := h.arrived
    rw [List.take_of_length_le hall] at harrived
    have hlast : Library.valueAt (·.lifecycleRevision) (·.status) life.events c.revision =
        (life.events.filterMap (·.status)).getLast? :=
      valueAt_last fun e he hsome =>
        harrived e (List.mem_filter.mpr ⟨he,published_of_status hsome⟩)
    have hcurrent : life.statusAt c.revision = some r.status :=
      hlast.trans (life.last_status hr)
    rw [hcurrent,Option.some.injEq] at hstatus
    rw [h.shows.status,← hshown,hstatus]

end Delivery

section Sample

/-- The sample task from its admission to its completion. -/
def sampleLife : TaskLife sampleCore sampleEnv "task" where
  before := sampleAdmission.map .core
  during := (sampleCompletion.drop 2).map .core
  alive n := by
    match n with
    | 0 => decide +kernel
    | 1 => decide +kernel
    | n+2 =>
      have htake : ((sampleCompletion.drop 2).map AgentTxn.core).take (n+2) =
          (sampleCompletion.drop 2).map .core := List.take_of_length_le (Nat.le_add_left 2 n)
      rw [htake]
      decide +kernel

def sampleClock : Clock := ⟨fun _ => none⟩

def sampleUpdate (index : Nat) : Delivery := .event index 2 2 "now" none none none

/-- All events in order, one of them again, and two snapshots of the queued task. -/
def sampleDeliveries : List Delivery :=
  [sampleUpdate 0,sampleUpdate 1,sampleUpdate 2,.snapshot ⟨0,none,none⟩,sampleUpdate 1,
    sampleUpdate 3,sampleUpdate 4,sampleUpdate 5,.snapshot ⟨0,none,none⟩]

theorem web_projection_converges_sample :
    ∃ b₀ b task, openBrowser sampleLife sampleText (.stored 0 "then" none none) = some b₀ ∧
      exec (deliver sampleLife sampleText sampleClock) sampleDeliveries b₀ = some b ∧
      b.tasks "task" = some task ∧ task.status = .completed := by
  obtain ⟨b₀,hopen⟩ : ∃ b₀, openBrowser sampleLife sampleText (.stored 0 "then" none none) =
      some b₀ := Option.isSome_iff_exists.mp (by decide +kernel)
  have hnext : ((openBrowser sampleLife sampleText (.stored 0 "then" none none)).bind
      (exec (deliver sampleLife sampleText sampleClock) sampleDeliveries)).map (·.next) =
      some 6 := by decide +kernel
  rw [hopen,Option.bind_some] at hnext
  obtain ⟨b,hrun,hall⟩ := Option.map_eq_some_iff.mp hnext
  obtain ⟨r,hr,hcompleted⟩ : ∃ r, sampleLife.final.tasks.get "task" = some r ∧
      r.status = .completed := by
    have hstatus : (sampleLife.final.tasks.get "task").map (·.status) = some .completed := by
      decide +kernel
    exact Option.map_eq_some_iff.mp hstatus
  obtain ⟨task,_,_,htask,_,_,_,_,hlast⟩ :=
    web_projection_converges sampleLife sampleText sampleClock _ _ hopen hrun
  refine ⟨b₀,b,task,hopen,hrun,htask,?_⟩
  rw [hlast (by rw [hall]; decide +kernel) r hr,hcompleted]
  rfl

end Sample
end VermayAgent.Web
