import VermayAgent.TaskRows
import VermayAgent.LedgerFacts

/-! The lifecycle history of a task: its head, its event log and the artifacts there are.
`AgentDb.history` forgets everything else; each store operation moves what is left by the
steps below, or not at all. -/
namespace VermayAgent
open Library Txn MainAgentStore

/-- The columns of a task record that its events are stamped with or have to agree with. -/
structure LifecycleHead where
  status : TaskStatus
  contextId : ContextId
  assignedAgentId : Option AgentId
  revision : Nat
deriving DecidableEq

def TaskRecord.lifecycle (r : TaskRecord) : LifecycleHead :=
  ⟨r.status,r.contextId,r.assignedAgentId,r.lifecycleRevision⟩

structure TaskLog where
  head : Option LifecycleHead
  events : List TaskEventRecord

/-- The logs of all tasks, the context of each artifact, the task and the context of each tool
invocation, and the number of the next event. -/
structure History where
  log : TaskId → TaskLog
  artifacts : ArtifactId → Option ContextId
  invocations : InvocationId → Option (TaskId × ContextId)
  nextEventId : Nat

/-- `SELECT … WHERE task_id=? ORDER BY event_id`: the events are stored in that order. -/
def AgentDb.eventsOf (db : AgentDb) (taskId : TaskId) : List TaskEventRecord :=
  db.taskEvents.filter fun e => e.taskId = taskId

def AgentDb.history (db : AgentDb) : History where
  log taskId := ⟨(db.tasks.get taskId).map TaskRecord.lifecycle,db.eventsOf taskId⟩
  artifacts artifactId := (db.artifacts.get artifactId).map (·.contextId)
  invocations id := (db.toolInvocations.get id).map fun r => (r.taskId,r.contextId)
  nextEventId := db.nextEventId

namespace History

def setHead (h : History) (t : TaskId) (head : LifecycleHead) : History :=
  {h with log := Function.update h.log t {h.log t with head := some head}}

/-- Append an event, stamped with a revision. -/
def note (h : History) (t : TaskId) (type : String) (status : Option TaskStatus) (revision : Nat)
    (payload : Json) : History :=
  {h with
    log := Function.update h.log t {h.log t with
      events := (h.log t).events++[⟨h.nextEventId,t,type,status,revision,payload⟩]}
    nextEventId := h.nextEventId+1}

def store (h : History) (a : ArtifactId) (c : ContextId) : History :=
  {h with artifacts := Function.update h.artifacts a (some c)}

def invoke (h : History) (id : InvocationId) (t : TaskId) (c : ContextId) : History :=
  {h with invocations := Function.update h.invocations id (some (t,c))}

/-- The context of a task. -/
def contextOf (h : History) (t : TaskId) : Option ContextId := (h.log t).head.map (·.contextId)

variable {h : History} {t t' : TaskId} {head : LifecycleHead} {type : String}
  {status : Option TaskStatus} {revision : Nat} {payload : Json}

@[simp] theorem setHead_log_self :
    (h.setHead t head).log t = ⟨some head,(h.log t).events⟩ := by
  simp [setHead]

theorem setHead_log_of_ne (ht : t' ≠ t) : (h.setHead t head).log t' = h.log t' := by
  simp [setHead,ht]

@[simp] theorem note_log_self : (h.note t type status revision payload).log t =
    ⟨(h.log t).head,(h.log t).events++[⟨h.nextEventId,t,type,status,revision,payload⟩]⟩ := by
  simp [note]

theorem note_log_of_ne (ht : t' ≠ t) :
    (h.note t type status revision payload).log t' = h.log t' := by
  simp [note,ht]

@[simp] theorem setHead_nextEventId : (h.setHead t head).nextEventId = h.nextEventId := rfl

@[simp] theorem note_nextEventId :
    (h.note t type status revision payload).nextEventId = h.nextEventId+1 := rfl

@[simp] theorem setHead_artifacts : (h.setHead t head).artifacts = h.artifacts := rfl

@[simp] theorem note_artifacts :
    (h.note t type status revision payload).artifacts = h.artifacts := rfl

@[simp] theorem setHead_invocations : (h.setHead t head).invocations = h.invocations := rfl

@[simp] theorem note_invocations :
    (h.note t type status revision payload).invocations = h.invocations := rfl

@[simp] theorem note_head (t' : TaskId) :
    ((h.note t type status revision payload).log t').head = (h.log t').head := by
  by_cases ht : t' = t
  · subst ht
    rw [note_log_self]
  · rw [note_log_of_ne ht]

@[simp] theorem store_log (a : ArtifactId) (c : ContextId) : (h.store a c).log = h.log := rfl

@[simp] theorem invoke_log (id : InvocationId) (c : ContextId) : (h.invoke id t c).log = h.log := rfl

@[simp] theorem store_artifacts_self (a : ArtifactId) (c : ContextId) :
    (h.store a c).artifacts a = some c := by
  simp [store]

theorem ext_log {h h' : History} (hlog : ∀ t, h.log t = h'.log t)
    (hartifacts : h.artifacts = h'.artifacts) (hinvocations : h.invocations = h'.invocations)
    (hnext : h.nextEventId = h'.nextEventId) : h = h' := by
  have hlog := funext hlog
  cases h
  cases h'
  simp_all

end History

/-- The types of the audit events that carry neither a status nor an artifact. -/
def a2aInternalAuditEventTypes : List String :=
  ["task_input_submitted","task_resumed","task_retry_requested","task_retried"]

def artifactEventTypes : List String := ["task_artifact_created","task_artifact_updated"]

/-- What the events without a status are: an audit fact, or the change of an artifact that
there is in the context. -/
def Noted (artifacts : ArtifactId → Option ContextId) (c : ContextId) (type : String)
    (payload : Json) : Prop :=
  (type ∈ a2aInternalAuditEventTypes ∧ payload.member "artifact_id" = .null) ∨
    type ∈ artifactEventTypes ∧
      ∃ a, a ≠ "" ∧ payload.member "artifact_id" = .str a ∧ artifacts a = some c

/-- The status changes of a local task or of a remote proxy. -/
def StatusEdge (agent : Option AgentId) (current target : TaskStatus) : Prop :=
  if agent = none then target ∈ localTaskTransitions current
  else target ∈ remoteProxySnapshotTransitions current

abbrev AdvancesTo (head : LifecycleHead) (target : TaskStatus) : Prop :=
  StatusEdge head.assignedAgentId head.status target

/-- The type of the event that a task's log starts with. -/
def creationEventType (agent : Option AgentId) : String :=
  if agent = none then "task_created" else "task_delegated"

/-- One change of the history; `allow` restricts the status changes. -/
inductive HistoryStep (allow : TaskId → LifecycleHead → TaskStatus → Prop) :
    History → History → Prop
  | opened {h t status c agent payload} (hnone : (h.log t).head = none)
      (hlocal : agent = none → status = .created) :
      HistoryStep allow h ((h.setHead t ⟨status,c,agent,1⟩).note t (creationEventType agent)
        (some status) 1 payload)
  | moved {h t head target type payload} (hhead : (h.log t).head = some head)
      (hmove : AdvancesTo head target) (hallow : allow t head target)
      (htype : type ∉ artifactEventTypes) :
      HistoryStep allow h
        ((h.setHead t {head with status := target, revision := head.revision+1}).note t type
          (some target) (head.revision+1) payload)
  | bumped {h t head} (hhead : (h.log t).head = some head) :
      HistoryStep allow h (h.setHead t {head with revision := head.revision+1})
  | noted {h t head type payload} (hhead : (h.log t).head = some head)
      (hnoted : Noted h.artifacts head.contextId type payload) :
      HistoryStep allow h (h.note t type none head.revision payload)
  | stored {h a c} (ha : ∀ c', h.artifacts a = some c' → c' = c) : HistoryStep allow h (h.store a c)
  | invoked {h id t head} (hhead : (h.log t).head = some head) :
      HistoryStep allow h (h.invoke id t head.contextId)

abbrev HistoryMoves (allow : TaskId → LifecycleHead → TaskStatus → Prop) : History → History → Prop :=
  Relation.ReflTransGen (HistoryStep allow)

section Steps

variable {allow allow' : TaskId → LifecycleHead → TaskStatus → Prop} {h h' : History} {t : TaskId}

theorem HistoryMoves.mono (hallow : ∀ t a b, allow t a b → allow' t a b)
    (hm : HistoryMoves allow h h') : HistoryMoves allow' h h' := by
  refine Relation.ReflTransGen.mono (fun a b hs => ?_) _ _ hm
  cases hs with
  | opened hnone hlocal => exact .opened hnone hlocal
  | moved hhead hmove ha htype => exact .moved hhead hmove (hallow _ _ _ ha) htype
  | bumped hhead => exact .bumped hhead
  | noted hhead hnoted => exact .noted hhead hnoted
  | stored ha => exact .stored ha
  | invoked hhead => exact .invoked hhead

/-- What a step makes of a task: nothing, a revision, or an allowed change of its status. -/
theorem HistoryStep.next (hs : HistoryStep allow h h') {head : LifecycleHead}
    (hhead : (h.log t).head = some head) :
    ∃ head', (h'.log t).head = some head' ∧ (head' = head ∨
      head' = {head with revision := head.revision+1} ∨
      ∃ target, AdvancesTo head target ∧ allow t head target ∧
        head' = {head with status := target, revision := head.revision+1}) := by
  have hset : ∀ {t' : TaskId} {next : LifecycleHead}, (t' = t →
      next = {head with revision := head.revision+1} ∨
      ∃ target, AdvancesTo head target ∧ allow t head target ∧
        next = {head with status := target, revision := head.revision+1}) →
      ∃ head', ((h.setHead t' next).log t).head = some head' ∧ (head' = head ∨
        head' = {head with revision := head.revision+1} ∨
        ∃ target, AdvancesTo head target ∧ allow t head target ∧
          head' = {head with status := target, revision := head.revision+1}) := by
    intro t' next hnext
    by_cases ht : t = t'
    · subst ht
      exact ⟨next,by simp,.inr (hnext rfl)⟩
    · rw [History.setHead_log_of_ne ht]
      exact ⟨head,hhead,.inl rfl⟩
  cases hs with
  | opened hnone hlocal =>
    simp only [History.note_head]
    refine hset fun ht => ?_
    rw [ht,hhead] at hnone
    cases hnone
  | moved hhead' hmove hallow _ =>
    simp only [History.note_head]
    refine hset fun ht => ?_
    subst ht
    rw [hhead,Option.some.injEq] at hhead'
    subst hhead'
    exact .inr ⟨_,hmove,hallow,rfl⟩
  | bumped hhead' =>
    refine hset fun ht => ?_
    rw [ht,hhead,Option.some.injEq] at hhead'
    subst hhead'
    exact .inl rfl
  | noted hhead' hnoted =>
    simp only [History.note_head]
    exact ⟨head,hhead,.inl rfl⟩
  | stored ha => exact ⟨head,hhead,.inl rfl⟩
  | invoked hhead' => exact ⟨head,hhead,.inl rfl⟩

/-- A step keeps the context and the owner of a task, and its revision does not decrease. -/
theorem HistoryStep.head (hs : HistoryStep allow h h') {head : LifecycleHead}
    (hhead : (h.log t).head = some head) :
    ∃ head', (h'.log t).head = some head' ∧ head'.contextId = head.contextId ∧
      head'.assignedAgentId = head.assignedAgentId ∧ head.revision ≤ head'.revision := by
  obtain ⟨head',hhead',rfl | rfl | ⟨target,_,_,rfl⟩⟩ := hs.next hhead
  · exact ⟨_,hhead',rfl,rfl,Nat.le_refl _⟩
  · exact ⟨_,hhead',rfl,rfl,Nat.le_succ _⟩
  · exact ⟨_,hhead',rfl,rfl,Nat.le_succ _⟩

theorem HistoryMoves.head (hm : HistoryMoves allow h h') {head : LifecycleHead}
    (hhead : (h.log t).head = some head) :
    ∃ head', (h'.log t).head = some head' ∧ head'.contextId = head.contextId ∧
      head'.assignedAgentId = head.assignedAgentId ∧ head.revision ≤ head'.revision := by
  induction hm with
  | refl => exact ⟨head,hhead,rfl,rfl,Nat.le_refl _⟩
  | tail hm hs ih =>
    obtain ⟨mid,hmid,hc,ha,hr⟩ := ih
    obtain ⟨head',hhead',hc',ha',hr'⟩ := hs.head hmid
    exact ⟨head',hhead',hc'.trans hc,ha'.trans ha,hr.trans hr'⟩

/-- A set of statuses that no allowed change leaves is not left. -/
theorem HistoryMoves.settled {S : TaskStatus → Prop} {head : LifecycleHead}
    (hS : ∀ current target, current.assignedAgentId = head.assignedAgentId → S current.status →
      AdvancesTo current target → allow t current target → S target)
    (hm : HistoryMoves allow h h') (hhead : (h.log t).head = some head) (hs : S head.status) :
    ∃ head', (h'.log t).head = some head' ∧ head'.assignedAgentId = head.assignedAgentId ∧
      S head'.status := by
  induction hm with
  | refl => exact ⟨head,hhead,rfl,hs⟩
  | tail hm hstep ih =>
    obtain ⟨mid,hmid,hagent,hs⟩ := ih
    obtain ⟨head',hhead',rfl | rfl | ⟨target,hmove,hallow,rfl⟩⟩ := hstep.next hmid
    · exact ⟨_,hhead',hagent,hs⟩
    · exact ⟨_,hhead',hagent,hs⟩
    · exact ⟨_,hhead',hagent,hS mid target hagent hs hmove hallow⟩

theorem HistoryMoves.contextOf (hm : HistoryMoves allow h h') {c : ContextId}
    (hc : h.contextOf t = some c) : h'.contextOf t = some c := by
  obtain ⟨head,hhead,rfl⟩ := Option.map_eq_some_iff.mp hc
  obtain ⟨head',hhead',hcontext,_⟩ := hm.head hhead
  simp [History.contextOf,hhead',hcontext]

end Steps

section Operations

variable {allow : TaskId → LifecycleHead → TaskStatus → Prop} {db db' : AgentDb} {t : TaskId}

theorem history_head {r : TaskRecord} (hr : db.tasks.get t = some r) :
    (db.history.log t).head = some r.lifecycle := by
  simp [AgentDb.history,hr]

theorem history_contextOf {r : TaskRecord} (hr : db.tasks.get t = some r) :
    db.history.contextOf t = some r.contextId := by
  simp [History.contextOf,history_head hr,TaskRecord.lifecycle]

/-- An update of one task's row sets its head. -/
theorem history_updateTasks {f : TaskRecord → TaskRecord} {hf : ∀ r, (f r).taskId = r.taskId}
    {r : TaskRecord} (hr : db.tasks.get t = some r) :
    ({db with tasks := db.tasks.update (fun r => r.taskId = t) f hf} : AgentDb).history =
      db.history.setHead t (f r).lifecycle := by
  refine History.ext_log (fun t' => ?_) rfl rfl rfl
  by_cases ht : t' = t
  · subst ht
    have hkey : r.taskId = t' := Table.key_of_get hr
    rw [History.setHead_log_self]
    simp [AgentDb.history,AgentDb.eventsOf,Table.get_update,hr,hkey]
  · rw [History.setHead_log_of_ne ht]
    simp only [AgentDb.history,AgentDb.eventsOf,Table.get_update]
    cases hg : db.tasks.get t' with
    | none => rfl
    | some r' =>
      have hkey : r'.taskId = t' := Table.key_of_get hg
      simp [hkey,ht]

/-- The events are stored in the order of their ids, and the next one gets the next id. -/
theorem insertTaskEvent_history {type : String} {status : Option TaskStatus} {revision : Nat}
    {payload : Json} {e : TaskEventRecord}
    (h : (insertTaskEvent t type status revision payload).run db = .ok (e,db')) :
    db'.history = db.history.note t type status revision payload := by
  simp only [insertTaskEvent,run_statement,bind_ok,run_select,Except.ok.injEq,Prod.mk.injEq,
    run_write,pure_ok] at h
  obtain ⟨_,_,⟨rfl,rfl⟩,_,_,⟨_,rfl⟩,_,rfl⟩ := h
  refine History.ext_log (fun t' => ?_) rfl rfl rfl
  by_cases ht : t' = t
  · subst ht
    simp [AgentDb.history,AgentDb.eventsOf]
  · rw [History.note_log_of_ne ht]
    have ht' : t ≠ t' := fun h => ht h.symm
    simp [AgentDb.history,AgentDb.eventsOf,ht']

theorem appendTaskEvent_ok {type : String} {status : Option TaskStatus} {payload : Json}
    {e : TaskEventRecord} (h : (appendTaskEvent t type status payload).run db = .ok (e,db')) :
    ∃ r, db.tasks.get t = some r ∧
      db'.history = db.history.note t type status r.lifecycleRevision payload := by
  simp only [appendTaskEvent,bind_ok,requireTask_ok] at h
  obtain ⟨r,_,⟨hr,rfl⟩,h⟩ := h
  exact ⟨r,hr,insertTaskEvent_history h⟩

/-- An event without a status. -/
theorem appendTaskEvent_history {type : String} {payload : Json} {e : TaskEventRecord}
    (hnoted : ∀ c, db.history.contextOf t = some c → Noted db.history.artifacts c type payload)
    (h : (appendTaskEvent t type none payload).run db = .ok (e,db')) :
    HistoryMoves allow db.history db'.history := by
  obtain ⟨r,hr,hh⟩ := appendTaskEvent_ok h
  rw [hh]
  exact .single (.noted (history_head hr) (hnoted _ (history_contextOf hr)))

/-- An audit event. -/
theorem appendAuditEvent_history {type : String} {payload : Json} {e : TaskEventRecord}
    (htype : type ∈ a2aInternalAuditEventTypes) (hpayload : payload.member "artifact_id" = .null)
    (h : (appendTaskEvent t type none payload).run db = .ok (e,db')) :
    HistoryMoves allow db.history db'.history :=
  appendTaskEvent_history (fun _ _ => .inl ⟨htype,hpayload⟩) h

theorem lifecycleEventType_not_artifact {status : TaskStatus} {type : String}
    (h : lifecycleEventTypeForStatus status = .ok type) : type ∉ artifactEventTypes := by
  cases status <;> cases h <;> decide

/-- A validated transition is one status change with its event, or none. -/
theorem transitionLocalTask_history {target : TaskStatus} {payload : Json} {error : TaskError}
    {task : TaskRecord}
    (hallow : ∀ r, db.tasks.get t = some r → r.status ≠ target → allow t r.lifecycle target)
    (h : (transitionLocalTask t target payload error).run db = .ok (task,db')) :
    HistoryMoves allow db.history db'.history := by
  simp only [transitionLocalTask,bind_ok,requireTask_ok,require_ok,ofExcept_ok,ite_run] at h
  obtain ⟨r,_,⟨hr,rfl⟩,_,_,⟨hlocal,rfl⟩,real,_,⟨hreal,rfl⟩,h⟩ := h
  rcases validateLocalTaskTransition_ok_iff.mp hreal with ⟨_,rfl⟩ | ⟨hne,hmem,rfl⟩
  · rw [if_pos rfl] at h
    rw [(pure_ok.mp h).2]
  · simp only [bind_ok,ofExcept_ok,updateTask,run_write,getTask,run_select,orFail_ok,
      Except.ok.injEq,Prod.mk.injEq,true_and,Bool.true_eq_false,if_false] at h
    obtain ⟨type,_,⟨htype,rfl⟩,_,_,rfl,_,_,⟨rfl,rfl⟩,_,_,⟨_,rfl⟩,_,_,hevent,_,rfl⟩ := h
    obtain ⟨r',hr',hh⟩ := appendTaskEvent_ok hevent
    have hkey : r.taskId = t := Table.key_of_get hr
    rw [Table.get_update,hr] at hr'
    simp only [Option.map_some,hkey,decide_true,if_true,Option.some.injEq] at hr'
    rw [hh,history_updateTasks hr,← hr']
    refine .single (@HistoryStep.moved _ _ _ r.lifecycle _ _ _ (history_head hr) ?_
      (hallow r hr hne) (lifecycleEventType_not_artifact htype))
    simpa [AdvancesTo,StatusEdge,TaskRecord.lifecycle,hlocal] using hmem

theorem setTaskOutputMessage_history {messageId : MessageId} {task : TaskRecord}
    (h : (setTaskOutputMessage t messageId).run db = .ok (task,db')) :
    HistoryMoves allow db.history db'.history := by
  simp only [setTaskOutputMessage,getMessage,bind_ok,run_select,Except.ok.injEq,Prod.mk.injEq,
    orFail_ok,requireTask_ok,ite_run] at h
  obtain ⟨_,_,⟨_,rfl⟩,_,_,⟨_,rfl⟩,r,_,⟨hr,rfl⟩,h⟩ := h
  split at h
  · rw [(pure_ok.mp h).2]
  · simp only [bind_ok,updateTask,run_write,Except.ok.injEq,Prod.mk.injEq,getTask,run_select,
      orFail_ok,true_and] at h
    obtain ⟨_,_,rfl,_,_,⟨_,rfl⟩,_,rfl⟩ := h
    rw [history_updateTasks hr]
    exact .single (.bumped (history_head hr))

/-- The artifact is there afterwards, in the context that it has kept. -/
theorem putArtifact_history {record : ArtifactRecord} {u : Unit}
    (hown : ∀ current, db.artifacts.get record.artifactId = some current →
      current.contextId = record.contextId)
    (h : (putArtifact record).run db = .ok (u,db')) :
    db'.history = db.history.store record.artifactId record.contextId ∧ db'.tasks = db.tasks := by
  simp only [putArtifact,getArtifact,run_statement,bind_ok,run_select,Except.ok.injEq,
    Prod.mk.injEq] at h
  obtain ⟨o,_,⟨ho,rfl⟩,h⟩ := h
  cases o with
  | some current =>
    simp only [run_write,Except.ok.injEq,Prod.mk.injEq,true_and] at h
    subst h
    refine ⟨History.ext_log (fun _ => rfl) (funext fun a => ?_) rfl rfl,rfl⟩
    by_cases ha : a = record.artifactId
    · subst ha
      have hkey : current.artifactId = record.artifactId := Table.key_of_get ho
      simp [AgentDb.history,Table.get_update,ho,hkey,hown current ho]
    · simp only [AgentDb.history,Table.get_update,History.store,Function.update_of_ne ha]
      cases hg : db.artifacts.get a with
      | none => rfl
      | some r =>
        have hkey : r.artifactId = a := Table.key_of_get hg
        simp [hkey,ha]
  | none =>
    simp only [foreignKey,getContext,bind_ok,run_select,require_ok,write?_ok,
      Option.map_eq_some_iff,Except.ok.injEq,Prod.mk.injEq] at h
    obtain ⟨_,_,⟨_,rfl⟩,_,_,⟨_,rfl⟩,artifacts,hartifacts,rfl⟩ := h
    have hget := Table.get_insert? hartifacts
    refine ⟨History.ext_log (fun _ => rfl) (funext fun a => ?_) rfl rfl,rfl⟩
    by_cases ha : a = record.artifactId
    · subst ha
      simp [AgentDb.history,hget]
    · have ha' : record.artifactId ≠ a := fun h => ha h.symm
      simp [AgentDb.history,History.store,hget,ha,ha']

theorem storeArtifact_history {record artifact : ArtifactRecord} {r : TaskRecord}
    (hr : db.tasks.get record.taskId = some r)
    (hown : ∀ current, db.artifacts.get record.artifactId = some current →
      current.contextId = record.contextId)
    (h : (storeArtifact record).run db = .ok (artifact,db')) :
    HistoryMoves allow db.history db'.history ∧
      db'.history.artifacts record.artifactId = some record.contextId ∧
      artifact.artifactId = record.artifactId := by
  simp only [storeArtifact,bind_ok,bumpRevision,updateTask,run_write,Except.ok.injEq,
    Prod.mk.injEq,getArtifact,run_select,orFail_ok,true_and] at h
  obtain ⟨_,db₁,hput,_,_,rfl,_,_,⟨rfl,rfl⟩,hget,rfl⟩ := h
  obtain ⟨hstore,htasks⟩ := putArtifact_history hown hput
  have hr₁ : db₁.tasks.get record.taskId = some r := by rw [htasks,hr]
  have hhistory := @history_updateTasks db₁ record.taskId (fun r => {r with
    lifecycleRevision := r.lifecycleRevision+1}) (fun _ => rfl) r hr₁
  rw [hhistory]
  refine ⟨?_,?_,Table.key_of_get hget⟩
  · have hput : HistoryStep allow db.history (db.history.store record.artifactId record.contextId) := by
      refine .stored fun c' hc => ?_
      obtain ⟨current,hcurrent,rfl⟩ := Option.map_eq_some_iff.mp hc
      exact hown current hcurrent
    rw [← hstore] at hput
    exact (Relation.ReflTransGen.single hput).tail
      (@HistoryStep.bumped _ _ _ r.lifecycle (history_head hr₁))
  · rw [History.setHead_artifacts,hstore,History.store_artifacts_self]

/-- An upserted artifact is there afterwards, in the context that the caller names. -/
theorem upsertArtifact_history {artifactId : ArtifactId} {contextId : ContextId}
    {parts : List Json} {metadata : Json} {artifact : ArtifactRecord}
    (h : (upsertArtifact artifactId t contextId parts metadata).run db = .ok (artifact,db')) :
    HistoryMoves allow db.history db'.history ∧
      db'.history.artifacts artifactId = some contextId ∧ artifact.artifactId = artifactId := by
  simp only [upsertArtifact,bind_ok,requireTask_ok,getArtifact,run_select,Except.ok.injEq,
    Prod.mk.injEq] at h
  obtain ⟨r,_,⟨hr,rfl⟩,o,_,⟨ho,rfl⟩,h⟩ := h
  cases o with
  | some current =>
    simp only [bind_ok,require_ok,ite_run] at h
    obtain ⟨_,_,⟨⟨_,hcontext⟩,rfl⟩,h⟩ := h
    split at h
    · obtain ⟨rfl,rfl⟩ := pure_ok.mp h
      exact ⟨.refl,by simp [AgentDb.history,ho,hcontext],Table.key_of_get ho⟩
    · refine @storeArtifact_history allow _ _ ⟨artifactId,t,contextId,parts,metadata⟩ _ _ hr
        (fun c hc => ?_) h
      cases ho.symm.trans hc
      exact hcontext
  | none =>
    refine @storeArtifact_history allow _ _ ⟨artifactId,t,contextId,parts,metadata⟩ _ _ hr
      (fun c hc => ?_) h
    cases ho.symm.trans hc

/-- An artifact of the task's own context and the event that tells of it. -/
theorem upsertArtifact_noted {db₁ : AgentDb} {artifactId : ArtifactId} {contextId : ContextId}
    {parts : List Json} {metadata : Json} {artifact : ArtifactRecord} {type : String}
    {payload : Json} {e : TaskEventRecord} (hcontext : db.history.contextOf t = some contextId)
    (hid : artifactId ≠ "") (htype : type ∈ artifactEventTypes)
    (hpayload : payload.member "artifact_id" = .str artifact.artifactId)
    (h : (upsertArtifact artifactId t contextId parts metadata).run db = .ok (artifact,db₁))
    (h' : (appendTaskEvent t type none payload).run db₁ = .ok (e,db')) :
    HistoryMoves allow db.history db'.history := by
  obtain ⟨hm,hlive,hkey⟩ : HistoryMoves allow db.history db₁.history ∧ _ := upsertArtifact_history h
  refine hm.trans (appendTaskEvent_history (fun c hc => ?_) h')
  rw [hm.contextOf hcontext,Option.some.injEq] at hc
  subst hc
  exact .inr ⟨htype,artifactId,hid,hkey ▸ hpayload,hlive⟩

/-- A created task with its first event. -/
theorem createTask_history {db₁ : AgentDb} {new : NewTask} {task : TaskRecord} {payload : Json}
    {e : TaskEventRecord} (hlocal : new.assignedAgentId = none → new.status = .created)
    (h : (createTask new).run db = .ok (task,db₁))
    (h' : (appendTaskEvent task.taskId (creationEventType new.assignedAgentId) (some task.status)
      payload).run db₁ = .ok (e,db')) :
    HistoryMoves allow db.history db'.history ∧
      db'.history.contextOf new.taskId = some new.contextId := by
  simp only [createTask,insertTask,foreignKey,uniqueConstraint,getMessage,getContext,getTask,
    run_statement,bind_ok,run_select,orFail_ok,require_ok,write?_ok,Option.map_eq_some_iff,
    Except.ok.injEq,Prod.mk.injEq] at h
  obtain ⟨_,_,⟨rfl,rfl⟩,m,_,⟨_,rfl⟩,_,_,⟨_,rfl⟩,_,_,⟨_,rfl⟩,_,_,⟨_,_,⟨rfl,rfl⟩,_,_,⟨_,rfl⟩,
    _,_,⟨rfl,rfl⟩,_,_,⟨_,rfl⟩,_,_,⟨_,rfl⟩,tasks,htasks,rfl⟩,_,_,⟨rfl,rfl⟩,hg,rfl⟩ := h
  have hget := Table.get_insert? htasks
  have hfresh := Table.insert?_fresh htasks
  rw [hget] at hg
  simp only [if_true,Option.some.injEq] at hg
  subst hg
  obtain ⟨r,hr,hh⟩ := appendTaskEvent_ok h'
  rw [hget] at hr
  simp only [if_true,Option.some.injEq] at hr
  subst hr
  have hopen : ({db with tasks} : AgentDb).history =
      db.history.setHead new.taskId ⟨new.status,new.contextId,new.assignedAgentId,1⟩ := by
    refine History.ext_log (fun t' => ?_) rfl rfl rfl
    by_cases ht : t' = new.taskId
    · subst ht
      simp [AgentDb.history,AgentDb.eventsOf,hget,TaskRecord.lifecycle]
    · rw [History.setHead_log_of_ne ht]
      have ht' : new.taskId ≠ t' := fun h => ht h.symm
      simp [AgentDb.history,AgentDb.eventsOf,hget,ht']
  rw [hh,hopen]
  refine ⟨.single (.opened ?_ hlocal),by simp [History.contextOf]⟩
  simp only [AgentDb.history]
  exact Option.map_eq_none_iff.mpr hfresh

theorem createLocalTask_history {contextId : ContextId} {messageId : MessageId}
    {threadId : ThreadId} {source : Option TaskId} {attempt : Nat} {task : TaskRecord}
    (h : (createLocalTask t contextId messageId threadId source attempt).run db = .ok (task,db')) :
    HistoryMoves allow db.history db'.history := by
  simp only [createLocalTask,bind_ok,pure_ok] at h
  obtain ⟨created,_,hcreate,_,_,hevent,rfl,rfl⟩ := h
  have hstatus : created.status = .created := (createTask_rows hcreate).2.2.2.1
  rw [← hstatus] at hevent
  exact (createTask_history (fun _ => rfl) hcreate hevent).1

/-- The unvalidated status change of a remote proxy, where the caller has validated it. -/
theorem updateTaskStatus_history {db₁ : AgentDb} {r task : TaskRecord} {status : TaskStatus}
    {type : String} {payload : Json} {e : TaskEventRecord} (hr : db.tasks.get t = some r)
    (hne : r.status ≠ status) (hmove : AdvancesTo r.lifecycle status)
    (hallow : allow t r.lifecycle status) (htype : type ∉ artifactEventTypes)
    (h : (updateTaskStatus t status .none).run db = .ok (task,db₁))
    (h' : (appendTaskEvent t type (some status) payload).run db₁ = .ok (e,db')) :
    HistoryMoves allow db.history db'.history := by
  simp only [updateTaskStatus,bind_ok,requireTask_ok,ite_run] at h
  obtain ⟨r₀,_,⟨hr₀,rfl⟩,h⟩ := h
  cases hr.symm.trans hr₀
  split at h
  · rename_i hsame
    exact absurd hsame.1 hne
  · simp only [bind_ok,updateTask,run_write,getTask,run_select,orFail_ok,Except.ok.injEq,
      Prod.mk.injEq,true_and] at h
    obtain ⟨_,_,rfl,_,_,⟨_,rfl⟩,_,rfl⟩ := h
    obtain ⟨r',hr',hh⟩ := appendTaskEvent_ok h'
    have hkey : r.taskId = t := Table.key_of_get hr
    rw [Table.get_update,hr] at hr'
    simp only [Option.map_some,hkey,decide_true,if_true,Option.some.injEq] at hr'
    rw [hh,history_updateTasks hr,← hr']
    exact .single (@HistoryStep.moved _ _ _ r.lifecycle _ _ _ (history_head hr) hmove hallow htype)

/-- An operation on the ledger alone that creates no row. -/
theorem history_of_moves {begun : Option InvocationId}
    (hkeeps : ({db' with toolInvocations := .empty} : AgentDb) =
      {db with toolInvocations := .empty})
    (hm : Moves begun none db db') : db'.history = db.history := by
  have htables : db' = {db with toolInvocations := db'.toolInvocations} := by
    cases db
    cases db'
    simp_all
  have hinvocations : db'.history.invocations = db.history.invocations := by
    funext id
    rcases hm.row id with heq | ⟨_,new,now,hnew,_⟩ | ⟨r,r',hr,hr',hmove⟩
    · simp only [AgentDb.invocation] at heq
      simp [AgentDb.history,heq]
    · cases hnew
    · have hidentity := hmove.advances.identity
      have htask : r'.taskId = r.taskId := congrArg NewToolInvocation.taskId hidentity
      have hcontext : r'.contextId = r.contextId := congrArg NewToolInvocation.contextId hidentity
      simp only [AgentDb.invocation] at hr hr'
      simp [AgentDb.history,hr,hr',htask,hcontext]
  refine History.ext_log (fun t => ?_) ?_ hinvocations ?_
  · rw [htables]
    rfl
  · rw [htables]
    rfl
  · rw [htables]
    rfl

end Operations
end VermayAgent
