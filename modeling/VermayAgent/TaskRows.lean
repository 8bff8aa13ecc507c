import VermayAgent.Core
import VermayAgent.StoreFrames
import Mathlib.Logic.Function.Basic

/-! The rows of a task: its record, its queued execution, its pending request and whether
it has a delegation. `AgentDb.rows` forgets everything else, and each store operation acts
on what is left by rewriting the rows of one task, or not at all. -/
namespace VermayAgent
open Library Txn MainAgentStore

/-- The columns of a task record that decide which other rows it may have. -/
structure TaskHead where
  status : TaskStatus
  assignedAgentId : Option AgentId
  runtimeThreadId : ThreadId
  inputContextSequence : Nat
deriving DecidableEq

def TaskRecord.head (r : TaskRecord) : TaskHead :=
  ⟨r.status,r.assignedAgentId,r.runtimeThreadId,r.inputContextSequence⟩

/-- The record, the queued execution and the kind of the pending request. -/
structure TaskRows where
  task : Option TaskHead
  queued : Option QueuedExecutionRow
  pending : Option String
  delegated : Bool
deriving DecidableEq

abbrev Rows := TaskId → TaskRows

def AgentDb.rows (db : AgentDb) : Rows := fun taskId =>
  ⟨(db.tasks.get taskId).map TaskRecord.head,db.queuedExecutions.get taskId,
    (db.pendingContinuations.get taskId).map (·.kind),
    db.delegatedTasks.rows.any fun d => d.localTaskId = some taskId⟩

/-- Rewrite the rows of one task. -/
def Rows.modify (rows : Rows) (taskId : TaskId) (f : TaskRows → TaskRows) : Rows :=
  Function.update rows taskId (f (rows taskId))

namespace TaskRows

def setTask (head : TaskHead) (r : TaskRows) : TaskRows := {r with task := some head}

def setStatus (status : TaskStatus) (r : TaskRows) : TaskRows :=
  {r with task := r.task.map fun head => {head with status}}

def setQueued (row : Option QueuedExecutionRow) (r : TaskRows) : TaskRows :=
  {r with queued := row}

def setPending (kind : Option String) (r : TaskRows) : TaskRows := {r with pending := kind}

def setDelegated (r : TaskRows) : TaskRows := {r with delegated := true}

end TaskRows

namespace Rows

variable {rows : Rows} {taskId : TaskId} {f g : TaskRows → TaskRows}

@[simp] theorem modify_self : rows.modify taskId f taskId = f (rows taskId) := by simp [modify]

theorem modify_of_ne {t : TaskId} (h : t ≠ taskId) : rows.modify taskId f t = rows t := by
  simp [modify,h]

theorem modify_modify : (rows.modify taskId f).modify taskId g = rows.modify taskId (g ∘ f) := by
  simp [modify]

theorem modify_eq_self (h : f (rows taskId) = rows taskId) : rows.modify taskId f = rows := by
  simp [modify,h]

theorem ext_modify {rows' : Rows} (h : rows' taskId = f (rows taskId))
    (hne : ∀ t, t ≠ taskId → rows' t = rows t) : rows' = rows.modify taskId f := by
  funext t
  by_cases ht : t = taskId
  · subst ht
    rw [h,modify_self]
  · rw [hne t ht,modify_of_ne ht]

end Rows

section Operations

variable {db db' : AgentDb} {taskId : TaskId}

/-- Rewriting task records acts on the heads alone. -/
theorem rows_updateTasks (f : TaskRecord → TaskRecord) (hf : ∀ r, (f r).taskId = r.taskId)
    (g : TaskHead → TaskHead) (hg : ∀ r, (f r).head = g r.head) :
    ({db with tasks := db.tasks.update (fun r => r.taskId = taskId) f hf} : AgentDb).rows
      = db.rows.modify taskId fun r => {r with task := r.task.map g} := by
  refine Rows.ext_modify ?_ fun t ht => ?_
  · simp only [AgentDb.rows,Table.get_update,Option.map_map]
    congr 1
    cases hr : db.tasks.get taskId with
    | none => rfl
    | some r => simp [Table.key_of_get hr,hg]
  · simp only [AgentDb.rows,Table.get_update]
    congr 1
    cases hr : db.tasks.get t with
    | none => rfl
    | some r => simp [Table.key_of_get hr,ht]

theorem rows_updateTasks_head (f : TaskRecord → TaskRecord) (hf : ∀ r, (f r).taskId = r.taskId)
    (hg : ∀ r, (f r).head = r.head) :
    ({db with tasks := db.tasks.update (fun r => r.taskId = taskId) f hf} : AgentDb).rows
      = db.rows := by
  rw [rows_updateTasks f hf id hg]
  exact Rows.modify_eq_self (by simp)

theorem requireTask_ok {task : TaskRecord} :
    (requireTask taskId).run db = .ok (task,db') ↔ db.tasks.get taskId = some task ∧ db = db' := by
  simp [requireTask,getTask]

theorem rows_task_of_get {task : TaskRecord} (h : db.tasks.get taskId = some task) :
    (db.rows taskId).task = some task.head := by
  simp [AgentDb.rows,h]

theorem appendTaskEvent_rows (type : String) (status : Option TaskStatus) (payload : Json) :
    Keeps AgentDb.rows (appendTaskEvent taskId type status payload) :=
  appendTaskEvent_keeps (fun _ _ _ => rfl) _ _ _ _

theorem appendMessage_rows (messageId : MessageId) (contextId : ContextId) (role : MessageRole)
    (parts : List Json) (task : Option TaskId) (metadata : Json) :
    Keeps AgentDb.rows (appendMessage messageId contextId role parts task metadata) :=
  appendMessage_keeps (fun _ _ => rfl) (fun _ _ => rfl) _ _ _ _ _ _

theorem upsertArtifact_rows (artifactId : ArtifactId) (contextId : ContextId) (parts : List Json)
    (metadata : Json) :
    Keeps AgentDb.rows (upsertArtifact artifactId taskId contextId parts metadata) :=
  upsertArtifact_keeps (fun _ _ _ => rfl) (fun _ _ => rows_updateTasks_head _ _ fun _ => rfl)
    _ _ _ _

theorem setTaskOutputMessage_rows (messageId : MessageId) :
    Keeps AgentDb.rows (setTaskOutputMessage taskId messageId) :=
  .bind (.select _) fun _ => .bind (.orFail _ _) fun _ => .bind (requireTask_keeps _) fun _ =>
    .ite (.pure _) (.bind (.write fun _ => rows_updateTasks_head _ _ fun _ => rfl) fun _ =>
    .bind (.select _) fun _ => .orFail _ _)

/-- A transition: the status changes as the table allows, or is the target already. -/
theorem transitionLocalTask_rows {target : TaskStatus} {payload : Json} {error : TaskError}
    {task : TaskRecord}
    (h : (transitionLocalTask taskId target payload error).run db = .ok (task,db')) :
    (∃ head, (db.rows taskId).task = some head ∧ head.assignedAgentId = none ∧
      (head.status = target ∨ target ∈ localTaskTransitions head.status) ∧
      task.head = {head with status := target} ∧ task.taskId = taskId) ∧
    db'.rows = db.rows.modify taskId (TaskRows.setStatus target) := by
  simp only [transitionLocalTask,bind_ok,requireTask_ok,require_ok,ofExcept_ok] at h
  obtain ⟨r,_,⟨hr,rfl⟩,_,_,⟨ha,rfl⟩,real,_,⟨hreal,rfl⟩,h⟩ := h
  have hid : r.taskId = taskId := Table.key_of_get hr
  rcases validateLocalTaskTransition_ok_iff.mp hreal with ⟨hs,rfl⟩ | ⟨hs,ht,rfl⟩
  · obtain ⟨rfl,rfl⟩ := pure_ok.mp h
    refine ⟨⟨r.head,rows_task_of_get hr,ha,.inl hs,?_,hid⟩,?_⟩
    · rw [← hs]
      rfl
    · refine (Rows.modify_eq_self ?_).symm
      simp [TaskRows.setStatus,AgentDb.rows,hr,← hs,TaskRecord.head]
  · simp only [bind_ok,ofExcept_ok,updateTask,run_write,getTask,run_select,orFail_ok,
      Except.ok.injEq,Prod.mk.injEq,true_and,Bool.true_eq_false,if_false] at h
    obtain ⟨type,_,⟨_,rfl⟩,_,_,rfl,_,_,⟨rfl,rfl⟩,_,_,⟨hg,rfl⟩,_,_,he,rfl,rfl⟩ := h
    rw [Table.get_update,hr] at hg
    simp only [Option.map_some,hid,decide_true,if_true,Option.some.injEq] at hg
    refine ⟨⟨r.head,rows_task_of_get hr,ha,.inr ht,by rw [← hg]; rfl,by rw [← hg]⟩,?_⟩
    rw [appendTaskEvent_rows _ _ _ _ _ _ he]
    exact rows_updateTasks _ _ (fun head => {head with status := target}) fun _ => rfl

/-- The record that a transition returns is the one it leaves stored. -/
theorem transitionLocalTask_head {target : TaskStatus} {payload : Json} {error : TaskError}
    {task : TaskRecord}
    (h : (transitionLocalTask taskId target payload error).run db = .ok (task,db')) :
    (db'.rows taskId).task = some task.head := by
  obtain ⟨⟨head,htask,_,_,hhead,_⟩,hrows⟩ := transitionLocalTask_rows h
  rw [hrows,Rows.modify_self,TaskRows.setStatus,htask,hhead]
  rfl

theorem clearQueuedTaskExecution_rows {u : Unit}
    (h : (clearQueuedTaskExecution taskId).run db = .ok (u,db')) :
    db'.rows = db.rows.modify taskId (TaskRows.setQueued none) := by
  cases h
  refine Rows.ext_modify ?_ fun t ht => ?_
  · simp only [AgentDb.rows,Table.get_delete,TaskRows.setQueued]
    congr 1
    cases hr : db.queuedExecutions.get taskId with
    | none => rfl
    | some r => simp [Option.filter,Table.key_of_get hr]
  · simp only [AgentDb.rows,Table.get_delete]
    congr 2
    cases hr : db.queuedExecutions.get t with
    | none => rfl
    | some r => simp [Option.filter,Table.key_of_get hr,ht]

/-- A claim's `DELETE` counts the row that it takes. -/
theorem deleteQueuedTaskExecution_rows {n : Nat}
    (h : (deleteQueuedTaskExecution taskId).run db = .ok (n,db')) :
    (n = 1 ↔ (db.rows taskId).queued.isSome) ∧
      db'.rows = db.rows.modify taskId (TaskRows.setQueued none) := by
  simp only [deleteQueuedTaskExecution,run_statement,bind_ok,run_select,pure_ok,Except.ok.injEq,
    Prod.mk.injEq] at h
  obtain ⟨_,_,⟨rfl,rfl⟩,_,_,h,rfl,rfl⟩ := h
  exact ⟨Table.length_filter_eq_one_iff,clearQueuedTaskExecution_rows h⟩

theorem clearPendingContinuation_rows {u : Unit}
    (h : (clearPendingContinuation taskId).run db = .ok (u,db')) :
    db'.rows = db.rows.modify taskId (TaskRows.setPending none) := by
  cases h
  refine Rows.ext_modify ?_ fun t ht => ?_
  · simp only [AgentDb.rows,Table.get_delete,TaskRows.setPending]
    congr 1
    cases hr : db.pendingContinuations.get taskId with
    | none => rfl
    | some r => simp [Option.filter,Table.key_of_get hr]
  · simp only [AgentDb.rows,Table.get_delete]
    congr 2
    cases hr : db.pendingContinuations.get t with
    | none => rfl
    | some r => simp [Option.filter,Table.key_of_get hr,ht]

theorem upsertPendingContinuation_rows {record : PendingContinuationRecord} {u : Unit}
    (h : (upsertPendingContinuation record).run db = .ok (u,db')) :
    db'.rows = db.rows.modify record.taskId (TaskRows.setPending (some record.kind)) := by
  simp only [upsertPendingContinuation,getPendingContinuation,run_statement,bind_ok,run_select,
    Except.ok.injEq,Prod.mk.injEq] at h
  obtain ⟨o,_,⟨ho,rfl⟩,h⟩ := h
  cases o with
  | some r =>
    cases h
    refine Rows.ext_modify ?_ fun t ht => ?_
    · simp [AgentDb.rows,Table.get_update,ho,Table.key_of_get ho,TaskRows.setPending]
    · simp only [AgentDb.rows,Table.get_update]
      congr 1
      cases hr : db.pendingContinuations.get t with
      | none => rfl
      | some r => simp [Table.key_of_get hr,ht]
  | none =>
    simp only [write?_ok,Option.map_eq_some_iff] at h
    obtain ⟨pending,hp,rfl⟩ := h
    have hget := Table.get_insert? hp
    refine Rows.ext_modify ?_ fun t ht => ?_
    · simp [AgentDb.rows,hget,TaskRows.setPending]
    · simp [AgentDb.rows,hget,Ne.symm ht]

theorem setPendingContinuation_rows {kind : String} {inputRequest : Json}
    {r : PendingContinuationRecord}
    (h : (setPendingContinuation taskId kind inputRequest).run db = .ok (r,db')) :
    db'.rows = db.rows.modify taskId (TaskRows.setPending (some kind)) := by
  simp only [setPendingContinuation,getPendingContinuation,bind_ok,requireTask_ok,require_ok,
    run_select,orFail_ok,Except.ok.injEq,Prod.mk.injEq] at h
  obtain ⟨_,_,⟨_,rfl⟩,_,_,⟨_,rfl⟩,_,_,hu,_,_,⟨rfl,rfl⟩,_,rfl⟩ := h
  exact upsertPendingContinuation_rows hu

theorem requirePending_ok {kind : String} {r : PendingContinuationRecord} :
    (requirePending taskId kind).run db = .ok (r,db') ↔
      db.pendingContinuations.get taskId = some r ∧ r.kind = kind ∧ db = db' := by
  simp only [requirePending,getPendingContinuation,bind_ok,run_select,orFail_ok,require_ok,pure_ok,
    Except.ok.injEq,Prod.mk.injEq]
  constructor
  · rintro ⟨_,_,⟨rfl,rfl⟩,_,_,⟨hr,rfl⟩,_,_,⟨hk,rfl⟩,rfl,rfl⟩
    exact ⟨hr,hk,rfl⟩
  · rintro ⟨hr,hk,rfl⟩
    exact ⟨_,_,⟨rfl,rfl⟩,_,_,⟨hr,rfl⟩,(),_,⟨hk,rfl⟩,rfl,rfl⟩

theorem consumePendingContinuation_rows {kind : String} {r : PendingContinuationRecord}
    (h : (consumePendingContinuation taskId kind).run db = .ok (r,db')) :
    db.pendingContinuations.get taskId = some r ∧ r.kind = kind ∧
      db'.rows = db.rows.modify taskId (TaskRows.setPending none) := by
  simp only [consumePendingContinuation,deletePendingContinuation,run_statement,bind_ok,
    requirePending_ok,run_select,run_write,require_ok,pure_ok,Except.ok.injEq,Prod.mk.injEq,
    true_and] at h
  obtain ⟨_,_,⟨hr,hk,rfl⟩,_,_,⟨_,_,⟨rfl,rfl⟩,_,_,rfl,rfl,rfl⟩,_,_,⟨_,rfl⟩,rfl,rfl⟩ := h
  refine ⟨hr,hk,Rows.ext_modify ?_ fun t ht => ?_⟩
  · simp [AgentDb.rows,Table.get_delete,hr,TaskRows.setPending,Option.filter,
      Table.key_of_get hr,hk]
  · simp only [AgentDb.rows,Table.get_delete]
    congr 2
    cases ho : db.pendingContinuations.get t with
    | none => rfl
    | some r => simp [Option.filter,Table.key_of_get ho,ht]

theorem getQueuedTaskExecution_some {c : QueuedTaskExecutionRecord}
    (h : (getQueuedTaskExecution taskId).run db = .ok (some c,db')) :
    ∃ row, (db.rows taskId).queued = some row ∧ row.decode = .ok c ∧ db = db' := by
  simp only [getQueuedTaskExecution,bind_ok,run_select,Except.ok.injEq,Prod.mk.injEq] at h
  obtain ⟨row,_,⟨hrow,rfl⟩,h⟩ := h
  cases row with
  | none =>
    have hn := (pure_ok.mp h).1
    cases hn
  | some row =>
    simp only [map_ok,ofExcept_ok,Option.some.injEq] at h
    obtain ⟨c,⟨hc,rfl⟩,rfl⟩ := h
    exact ⟨row,hrow,hc,rfl⟩

theorem getQueuedTaskExecution_none
    (h : (getQueuedTaskExecution taskId).run db = .ok (none,db')) :
    (db.rows taskId).queued = none ∧ db = db' := by
  simp only [getQueuedTaskExecution,bind_ok,run_select,Except.ok.injEq,Prod.mk.injEq] at h
  obtain ⟨row,_,⟨hrow,rfl⟩,h⟩ := h
  cases row with
  | none => exact ⟨hrow,(pure_ok.mp h).2⟩
  | some row => simp at h

theorem normalizedPayload_keeps {γ : Type} {v : AgentDb → γ} (kind : QueuedTaskExecutionKind)
    (payload : Option QueuedTaskExecutionPayload) :
    Keeps v (normalizedPayload taskId kind payload) := by
  cases payload with
  | some payload => exact .pure _
  | none => exact .bind (.require _ _) fun _ => .pure _

/-- An enqueued command: the task is local, queued and on this thread, and has the row now. -/
theorem enqueueTaskExecution_rows {kind : QueuedTaskExecutionKind} {thread : ThreadId}
    {payload : Option QueuedTaskExecutionPayload} {version : Int} {c : QueuedTaskExecutionRecord}
    (h : (enqueueTaskExecution taskId kind thread payload version).run db = .ok (c,db')) :
    ∃ row, row.decode = .ok c ∧ row.runtimeThreadId = thread ∧
      db'.rows = db.rows.modify taskId (TaskRows.setQueued (some row)) := by
  simp only [enqueueTaskExecution,bind_ok,requireTask_ok,require_ok,ofExcept_ok] at h
  obtain ⟨task,_,⟨_,rfl⟩,_,_,⟨_,rfl⟩,_,_,⟨_,rfl⟩,_,_,⟨_,rfl⟩,_,_,⟨_,rfl⟩,_,_,hn,_,_,⟨_,rfl⟩,
    o,_,hq,h⟩ := h
  cases normalizedPayload_keeps (v := fun db => db) _ _ _ _ _ hn
  cases o with
  | some existing =>
    obtain ⟨row,hrow,hdec,rfl⟩ := getQueuedTaskExecution_some hq
    simp only [bind_ok,require_ok,pure_ok] at h
    obtain ⟨_,_,⟨⟨_,hthread,_⟩,rfl⟩,rfl,rfl⟩ := h
    have ht := (QueuedExecutionRow.decode_columns hdec).2.1
    refine ⟨row,hdec,ht.symm.trans hthread,(Rows.modify_eq_self ?_).symm⟩
    simp [TaskRows.setQueued,← hrow]
  | none =>
    obtain ⟨_,rfl⟩ := getQueuedTaskExecution_none hq
    simp only [bind_ok,write?_ok,Option.map_eq_some_iff,orFail_ok] at h
    obtain ⟨_,_,⟨queued,hqueued,rfl⟩,o,_,hget,rfl,rfl⟩ := h
    obtain ⟨row,hrow,hdec,hdb⟩ := getQueuedTaskExecution_some hget
    have hget := Table.get_insert? hqueued
    simp only [AgentDb.rows,hget,if_true,Option.some.injEq] at hrow
    refine ⟨row,hdec,by rw [← hrow],?_⟩
    rw [← hdb]
    refine Rows.ext_modify ?_ fun t ht => ?_
    · simp [AgentDb.rows,hget,TaskRows.setQueued,hrow]
    · simp [AgentDb.rows,hget,Ne.symm ht]

/-- A created task: its key and its thread were unused. -/
theorem createTask_rows {new : NewTask} {task : TaskRecord}
    (h : (createTask new).run db = .ok (task,db')) :
    (db.rows new.taskId).task = none ∧
      (∀ t head, (db.rows t).task = some head → head.runtimeThreadId ≠ new.runtimeThreadId) ∧
      task.taskId = new.taskId ∧ task.status = new.status ∧
      task.assignedAgentId = new.assignedAgentId ∧ task.runtimeThreadId = new.runtimeThreadId ∧
      0 < task.inputContextSequence ∧
      db'.rows = db.rows.modify new.taskId (TaskRows.setTask task.head) := by
  simp only [createTask,insertTask,foreignKey,uniqueConstraint,getMessage,getContext,getTask,
    run_statement,bind_ok,run_select,orFail_ok,require_ok,write?_ok,Option.map_eq_some_iff,Except.ok.injEq,
    Prod.mk.injEq] at h
  obtain ⟨_,_,⟨rfl,rfl⟩,m,_,⟨_,rfl⟩,_,_,⟨_,rfl⟩,_,_,⟨hseq,rfl⟩,_,_,⟨_,_,⟨rfl,rfl⟩,_,_,⟨_,rfl⟩,
    _,_,⟨rfl,rfl⟩,_,_,⟨huniq,rfl⟩,_,_,⟨_,rfl⟩,tasks,htasks,rfl⟩,_,_,⟨rfl,rfl⟩,hg,rfl⟩ := h
  have hget := Table.get_insert? htasks
  rw [hget] at hg
  simp only [if_true,Option.some.injEq] at hg
  subst hg
  refine ⟨?_,fun t head ht => ?_,rfl,rfl,rfl,rfl,hseq,Rows.ext_modify ?_ fun t ht => ?_⟩
  · simpa [AgentDb.rows] using Table.insert?_fresh htasks
  · obtain ⟨r,hr,rfl⟩ := Option.map_eq_some_iff.mp ht
    exact huniq r (Table.mem_of_get hr)
  · simp [AgentDb.rows,hget,TaskRows.setTask]
  · simp [AgentDb.rows,hget,Ne.symm ht]

/-- A recorded delegation marks the task that it names, if it names one. -/
theorem createDelegatedTask_rows {record r : DelegatedTaskRecord}
    (h : (createDelegatedTask record).run db = .ok (r,db')) :
    db'.rows = (record.localTaskId.elim db.rows fun t => db.rows.modify t TaskRows.setDelegated) := by
  simp only [createDelegatedTask,getContext,getMessage,getRouteDecision,getRegisteredAgent,
    getDelegatedTask,bind_ok,run_select,orFail_ok,write?_ok,Option.map_eq_some_iff,Except.ok.injEq,
    Prod.mk.injEq] at h
  obtain ⟨_,_,⟨rfl,rfl⟩,_,_,⟨_,rfl⟩,_,_,⟨rfl,rfl⟩,_,_,⟨_,rfl⟩,_,_,⟨rfl,rfl⟩,_,_,⟨_,rfl⟩,
    _,_,⟨rfl,rfl⟩,_,_,⟨_,rfl⟩,_,_,⟨delegated,hdelegated,rfl⟩,_,_,⟨rfl,rfl⟩,_,rfl⟩ := h
  have hany : ∀ t, (delegated.rows.any fun d => d.localTaskId = some t) =
      ((db.delegatedTasks.rows.any fun d => d.localTaskId = some t) ||
        decide (record.localTaskId = some t)) := by
    intro t
    rw [Bool.eq_iff_iff]
    simp only [List.any_eq_true,Table.mem_insert? hdelegated,decide_eq_true_eq,Bool.or_eq_true]
    constructor
    · rintro ⟨d,hd | rfl,ht⟩
      · exact .inl ⟨d,hd,ht⟩
      · exact .inr ht
    · rintro (⟨d,hd,ht⟩ | ht)
      · exact ⟨d,.inl hd,ht⟩
      · exact ⟨record,.inr rfl,ht⟩
  cases hl : record.localTaskId with
  | none =>
    funext t
    simp [AgentDb.rows,hany,hl]
  | some taskId =>
    refine Rows.ext_modify ?_ fun t ht => ?_
    · simp [AgentDb.rows,hany,hl,TaskRows.setDelegated]
    · simp [AgentDb.rows,hany,hl,Ne.symm ht]

theorem updateDelegatedTaskStatus_rows (delegationId : String) (status : String)
    (metadata : Json) :
    Keeps AgentDb.rows (updateDelegatedTaskStatus delegationId status metadata) := by
  refine .bind (.select _) fun _ => .bind (.orFail _ _) fun _ => .bind (.write fun db => ?_)
    fun _ => .bind (.select _) fun _ => .orFail _ _
  have hid : ∀ (d : DelegatedTaskRecord) (p : Prop) [Decidable p],
      (if p then {d with status, metadata} else d).localTaskId = d.localTaskId := by
    intro d p _
    split <;> rfl
  funext t
  simp [AgentDb.rows,Table.update,List.any_map,Function.comp_def,hid]

end Operations
end VermayAgent
