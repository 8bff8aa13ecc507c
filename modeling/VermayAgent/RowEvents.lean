import VermayAgent.TaskRows

/-! What a transaction can do to the rows of a task.
Each lifecycle transaction leaves all rows as they are or is one of the events below; the
lemmas say which, so that every later argument is a case analysis over events. -/
namespace VermayAgent
open Library Txn MainAgentStore

inductive RowEvent where
  | accepted (head : TaskHead) (row : QueuedExecutionRow)
  | delegated (head : TaskHead)
  | synced (status : TaskStatus)
  | claimed
  | interrupted (status : TaskStatus) (kind : String)
  | resumed (kind : String) (row : QueuedExecutionRow)
  | cancelRequested
  | ended (status : TaskStatus)
deriving DecidableEq

namespace RowEvent

def apply : RowEvent → TaskRows → TaskRows
  | accepted head row, r => (r.setTask head).setQueued (some row)
  | delegated head, r => (r.setTask head).setDelegated
  | synced status, r => r.setStatus status
  | claimed, r => (r.setQueued none).setStatus .running
  | interrupted status kind, r =>
    ((r.setPending (some kind)).setStatus status).setQueued none
  | resumed _ row, r => ((r.setPending none).setStatus .queued).setQueued (some row)
  | cancelRequested, r => r.setStatus .cancelRequested
  | ended status, r => ((r.setStatus status).setPending none).setQueued none

/-- The status in which a task waits for a request of this kind. -/
def waitsFor (status : TaskStatus) (kind : String) : Prop :=
  (status = .authRequired ∧ kind = "approval_required") ∨
    (status = .inputRequired ∧ kind = "user_input_required")

/-- A row that a worker of the task can be given. -/
def Fits (head : TaskHead) (row : QueuedExecutionRow) : Prop :=
  row.runtimeThreadId = head.runtimeThreadId ∧ ∃ command, row.decode = .ok command

def Fresh (rows : Rows) (taskId : TaskId) (thread : ThreadId) : Prop :=
  (rows taskId).task = none ∧
    ∀ t head, (rows t).task = some head → head.runtimeThreadId ≠ thread

/-- When the event can take place. -/
def Enabled (rows : Rows) (taskId : TaskId) : RowEvent → Prop
  | accepted head row => Fresh rows taskId head.runtimeThreadId ∧ head.status = .queued ∧
      head.assignedAgentId = none ∧ 0 < head.inputContextSequence ∧ Fits head row
  | delegated head => Fresh rows taskId head.runtimeThreadId ∧ head.assignedAgentId ≠ none
  | synced status => (rows taskId).delegated = true ∧ ∃ head, (rows taskId).task = some head ∧
      acceptsRemoteProxySnapshot head.status status = true
  | claimed => ∃ head row, (rows taskId).task = some head ∧ head.assignedAgentId = none ∧
      head.status = .queued ∧ (rows taskId).queued = some row
  | interrupted status kind => ∃ head, (rows taskId).task = some head ∧
      head.assignedAgentId = none ∧ (head.status = status ∨ head.status = .running) ∧
      waitsFor status kind
  | resumed kind row => ∃ head, (rows taskId).task = some head ∧ head.assignedAgentId = none ∧
      (head.status = .inputRequired ∨ head.status = .authRequired) ∧
      (rows taskId).pending = some kind ∧ Fits head row
  | cancelRequested => ∃ head, (rows taskId).task = some head ∧ head.assignedAgentId = none ∧
      head.status = .running
  | ended status => ∃ head, (rows taskId).task = some head ∧ head.assignedAgentId = none ∧
      isTerminalTaskStatus head.status = false ∧ isTerminalTaskStatus status = true

end RowEvent

/-- All rows are kept, or one of the events that `E` names takes place. -/
def RowsMove (E : TaskId → RowEvent → Prop) (rows rows' : Rows) : Prop :=
  rows' = rows ∨ ∃ taskId e, E taskId e ∧ e.Enabled rows taskId ∧
    rows' = rows.modify taskId e.apply

namespace RowsMove

variable {E F : TaskId → RowEvent → Prop} {rows rows' : Rows}

theorem event {taskId : TaskId} {e : RowEvent} (hE : E taskId e) (h : e.Enabled rows taskId)
    (hrows : rows' = rows.modify taskId e.apply) : RowsMove E rows rows' :=
  .inr ⟨taskId,e,hE,h,hrows⟩

theorem mono (hEF : ∀ t e, E t e → F t e) (h : RowsMove E rows rows') : RowsMove F rows rows' := by
  rcases h with h | ⟨t,e,hE,h⟩
  · exact .inl h
  · exact .inr ⟨t,e,hEF t e hE,h⟩

end RowsMove

/-- The events by which a task ends. -/
def Ends (taskId : TaskId) (t : TaskId) (e : RowEvent) : Prop :=
  t = taskId ∧ ∃ status, e = .ended status

namespace TaskOutcomeRecorder
open RowEvent

variable {db db' : AgentDb} {taskId : TaskId}

theorem cancelPrepared_rows (reason : String) :
    Keeps AgentDb.rows (cancelPreparedToolInvocations taskId reason) :=
  cancelPreparedToolInvocations_keeps (fun _ _ => rfl) _ _

theorem closeUnresolvedExecution_rows {errorCode errorMessage preparedReason : String}
    {retryable : Bool} {u : Unit}
    (h : (closeUnresolvedExecution taskId errorCode errorMessage retryable preparedReason).run db
      = .ok (u,db')) :
    db'.rows = db.rows.modify taskId fun r => (r.setPending none).setQueued none := by
  simp only [closeUnresolvedExecution,bind_ok] at h
  obtain ⟨_,db₁,h₁,_,db₂,h₂,_,db₃,h₃,h₄⟩ := h
  have hk₁ := markRunningToolInvocationsUncertain_keeps (v := AgentDb.rows) (fun _ _ => rfl)
    _ _ _ _ _ _ _ h₁
  have hk₂ := cancelPrepared_rows _ _ _ _ h₂
  rw [clearQueuedTaskExecution_rows h₄,clearPendingContinuation_rows h₃,hk₂,hk₁,
    Rows.modify_modify]
  rfl

/-- A transition that ends the task, once its other rows are cleared. -/
theorem ended_of_transition {status : TaskStatus} {payload : Json} {error : TaskError}
    {task : TaskRecord} {db₁ : AgentDb} (hstatus : isTerminalTaskStatus status = true)
    (hopen : ∀ head, (db.rows taskId).task = some head → isTerminalTaskStatus head.status = false)
    (h : (transitionLocalTask taskId status payload error).run db = .ok (task,db₁))
    (hclear : db'.rows = db₁.rows.modify taskId fun r => (r.setPending none).setQueued none) :
    RowsMove (Ends taskId) db.rows db'.rows := by
  obtain ⟨⟨head,htask,hlocal,_⟩,hrows⟩ := transitionLocalTask_rows h
  refine .event ⟨rfl,status,rfl⟩ ⟨head,htask,hlocal,hopen head htask,hstatus⟩ ?_
  rw [hclear,hrows,Rows.modify_modify]
  rfl

theorem head_open {r : TaskRecord} (hr : db.tasks.get taskId = some r)
    (hopen : isTerminalTaskStatus r.status = false) :
    ∀ head, (db.rows taskId).task = some head → isTerminalTaskStatus head.status = false := by
  intro head hhead
  rw [rows_task_of_get hr] at hhead
  cases hhead
  exact hopen

theorem recordCancellation_rows {task : TaskRecord}
    (h : (recordCancellation taskId).run db = .ok (task,db')) :
    RowsMove (Ends taskId) db.rows db'.rows := by
  simp only [recordCancellation,bind_ok,requireTask_ok,ite_run] at h
  obtain ⟨r,_,⟨hr,rfl⟩,h⟩ := h
  split at h
  · obtain ⟨_,rfl⟩ := pure_ok.mp h
    exact .inl rfl
  · rename_i hopen
    simp only [bind_ok,pure_ok] at h
    obtain ⟨_,db₁,h₁,_,db₂,h₂,_,rfl⟩ := h
    exact ended_of_transition rfl (head_open hr (by simpa using fun ht => hopen (.inr ht))) h₁
      (closeUnresolvedExecution_rows h₂)

/-- A recorder is skipped when the task has ended, and replaced where a cancellation of it was
requested. -/
theorem unlessEnded_ok {record : TaskRecord → StoreTxn TaskRecord} {task : TaskRecord}
    (h : (unlessEnded taskId record).run db = .ok (task,db')) :
    ∃ r, db.tasks.get taskId = some r ∧ (isTerminalTaskStatus r.status = true ∧ db' = db ∨
      r.status = .cancelRequested ∧ (recordCancellation taskId).run db = .ok (task,db') ∨
      isTerminalTaskStatus r.status = false ∧ r.status ≠ .cancelRequested ∧
        (record r).run db = .ok (task,db')) := by
  simp only [unlessEnded,bind_ok,requireTask_ok,ite_run] at h
  obtain ⟨r,_,⟨hr,rfl⟩,h⟩ := h
  refine ⟨r,hr,?_⟩
  split at h
  · exact .inl ⟨‹_›,(pure_ok.mp h).2.symm⟩
  · rename_i hopen
    split at h
    · exact .inr (.inl ⟨‹_›,h⟩)
    · exact .inr (.inr ⟨by simpa using hopen,‹_›,h⟩)

/-- What a recorder does to the rows of open tasks, or an ending in its place. -/
theorem unlessEnded_rows {E : TaskId → RowEvent → Prop} {record : TaskRecord → StoreTxn TaskRecord}
    {task : TaskRecord} (hE : ∀ t e, Ends taskId t e → E t e)
    (hrecord : ∀ r, db.tasks.get taskId = some r → isTerminalTaskStatus r.status = false →
      (record r).run db = .ok (task,db') → RowsMove E db.rows db'.rows)
    (h : (unlessEnded taskId record).run db = .ok (task,db')) : RowsMove E db.rows db'.rows := by
  obtain ⟨r,hr,⟨_,rfl⟩ | ⟨_,h⟩ | ⟨hopen,_,h⟩⟩ := unlessEnded_ok h
  · exact .inl rfl
  · exact (recordCancellation_rows h).mono hE
  · exact hrecord r hr hopen h

theorem recordFailure_rows {error : PyException} {task : TaskRecord}
    (h : (recordFailure taskId error).run db = .ok (task,db')) :
    RowsMove (Ends taskId) db.rows db'.rows := by
  refine unlessEnded_rows (fun _ _ h => h) (fun r hr hopen h => ?_) h
  simp only [bind_ok,pure_ok] at h
  obtain ⟨_,db₁,h₁,_,db₂,h₂,_,rfl⟩ := h
  exact ended_of_transition rfl (head_open hr hopen) h₁ (closeUnresolvedExecution_rows h₂)

theorem recordRuntimeRecoveryFailure_rows {errorCode errorMessage : String} {task : TaskRecord}
    (h : (recordRuntimeRecoveryFailure taskId errorCode errorMessage).run db = .ok (task,db')) :
    RowsMove (Ends taskId) db.rows db'.rows := by
  simp only [recordRuntimeRecoveryFailure,bind_ok,requireTask_ok,ite_run] at h
  obtain ⟨r,_,⟨hr,rfl⟩,h⟩ := h
  split at h
  · obtain ⟨_,rfl⟩ := pure_ok.mp h
    exact .inl rfl
  · rename_i hopen
    simp only [bind_ok,pure_ok] at h
    obtain ⟨_,db₁,h₁,_,db₂,h₂,_,rfl⟩ := h
    exact ended_of_transition rfl (head_open hr (by simpa using hopen)) h₁
      (closeUnresolvedExecution_rows h₂)

theorem persistObservations_rows (task : TaskRecord) (result : LocalTaskRunResult) :
    Keeps AgentDb.rows (persistObservations task result) :=
  .ite (.pure _) (.bind (.select _) fun _ => .bind (upsertArtifact_rows _ _ _ _) fun _ =>
    .bind (appendTaskEvent_rows _ _ _) fun _ => .pure _)

theorem recordCompletedResult_rows {result : LocalTaskRunResult} {metadata : Json}
    {newMessageId : MessageId} {task : TaskRecord}
    (h : (recordCompletedResult taskId result metadata newMessageId).run db = .ok (task,db')) :
    RowsMove (Ends taskId) db.rows db'.rows := by
  refine unlessEnded_rows (fun _ _ h => h) (fun r hr hopen h => ?_) h
  simp only [bind_ok,pure_ok] at h
  obtain ⟨_,db₁,h₁,_,db₂,h₂,_,db₃,h₃,_,db₄,h₄,_,db₅,h₅,_,db₆,h₆,_,db₇,h₇,_,db₈,h₈,_,rfl⟩ := h
  have hkeep : db₅.rows = db.rows := by
    rw [setTaskOutputMessage_rows _ _ _ _ h₅,appendTaskEvent_rows _ _ _ _ _ _ h₄,
      upsertArtifact_rows _ _ _ _ _ _ _ h₃,appendMessage_rows _ _ _ _ _ _ _ _ _ h₂,
      persistObservations_rows _ _ _ _ _ h₁]
  rw [← hkeep]
  refine ended_of_transition rfl (by rw [hkeep]; exact head_open hr hopen) h₆ ?_
  rw [clearQueuedTaskExecution_rows h₈,clearPendingContinuation_rows h₇,Rows.modify_modify]
  rfl

theorem recordFailedResult_rows {result : LocalTaskRunResult} {status : TaskStatus}
    {task : TaskRecord} (h : (recordFailedResult taskId result status).run db = .ok (task,db')) :
    RowsMove (Ends taskId) db.rows db'.rows := by
  refine unlessEnded_rows (fun _ _ h => h) (fun r hr hopen h => ?_) h
  simp only [bind_ok,pure_ok] at h
  obtain ⟨_,db₁,h₁,_,db₂,h₂,_,db₃,h₃,_,rfl⟩ := h
  have hkeep := persistObservations_rows _ _ _ _ _ h₁
  rw [← hkeep]
  exact ended_of_transition rfl (by rw [hkeep]; exact head_open hr hopen) h₂
    (closeUnresolvedExecution_rows h₃)

theorem appendInputRequestMessage_rows (task active : TaskRecord) (inputRequest : Json) :
    Keeps AgentDb.rows (appendInputRequestMessage task active inputRequest) :=
  .ite (.bind (appendMessage_rows _ _ _ _ _ _) fun _ => .pure _) (.pure _)

/-- The event of an interruption, or of the ending that takes its place. -/
def Interrupts (taskId : TaskId) (t : TaskId) (e : RowEvent) : Prop :=
  Ends taskId t e ∨ t = taskId ∧ ∃ status kind, e = .interrupted status kind

theorem recordInterruptedResult_rows {result : LocalTaskRunResult} {status : TaskStatus}
    {inputRequest : Json} {task : TaskRecord}
    (hwaits : waitsFor status (((inputRequest.member "kind").asString).getD ""))
    (h : (recordInterruptedResult taskId result status inputRequest).run db = .ok (task,db')) :
    RowsMove (Interrupts taskId) db.rows db'.rows := by
  refine unlessEnded_rows (fun _ _ h => .inl h) (fun r hr hopen h => ?_) h
  simp only [bind_ok,pure_ok] at h
  obtain ⟨_,db₁,h₁,_,db₂,h₂,_,db₃,h₃,_,db₄,h₄,_,db₅,h₅,_,rfl⟩ := h
  have hrows₂ := setPendingContinuation_rows h₂
  rw [persistObservations_rows _ _ _ _ _ h₁] at hrows₂
  obtain ⟨⟨head,htask,hlocal,hstatus,_⟩,hrows₃⟩ := transitionLocalTask_rows h₃
  simp only [hrows₂,Rows.modify_self,TaskRows.setPending] at htask
  refine .event (.inr ⟨rfl,_,_,rfl⟩) ⟨head,htask,hlocal,?_,hwaits⟩ ?_
  · refine hstatus.imp_right fun hmem => ?_
    rcases hwaits with ⟨rfl,_⟩ | ⟨rfl,_⟩ <;> cases hs : head.status <;>
      simp_all [localTaskTransitions]
  · rw [clearQueuedTaskExecution_rows h₅,appendInputRequestMessage_rows _ _ _ _ _ _ h₄,hrows₃,
      hrows₂,Rows.modify_modify,Rows.modify_modify]
    rfl

/-- A supported input request decides the status that its result is stored with. -/
theorem waitsFor_of_inputRequest {result : LocalTaskRunResult} {inputRequest : Json}
    (h : continuationInputRequest result = some inputRequest)
    (hstatus : localProcessStatus result = .inputRequired ∨
      localProcessStatus result = .authRequired) :
    waitsFor (localProcessStatus result) (((inputRequest.member "kind").asString).getD "") := by
  have hwaiting : ¬ (result.status ≠ .inputRequired ∧ result.status ≠ .authRequired) := by
    intro hne
    simp [localProcessStatus,hne] at hstatus
  have hkind : inputRequest.member "kind" = .str "approval_required" ∨
      inputRequest.member "kind" = .str "user_input_required" := by
    unfold continuationInputRequest at h
    split at h
    · simp only at h
      split at h
      · cases h
        assumption
      · cases h
    · cases h
  simp only [localProcessStatus,hwaiting,if_false,h]
  rcases hkind with hk | hk <;> simp [hk,waitsFor,Json.asString]

theorem recordLocalResult_rows {result : LocalTaskRunResult} {metadata : Json}
    {newMessageId : MessageId} {seen task : TaskRecord}
    (h : (recordLocalResult taskId result metadata newMessageId seen).run db = .ok (task,db')) :
    RowsMove (Interrupts taskId) db.rows db'.rows := by
  have hinterrupted : localProcessStatus result = .inputRequired ∨
      localProcessStatus result = .authRequired →
      (recordInterruption taskId result).run db = .ok (task,db') →
      RowsMove (Interrupts taskId) db.rows db'.rows := by
    intro hstatus h
    unfold recordInterruption at h
    split at h
    · exact (recordFailure_rows h).mono fun _ _ h => .inl h
    · rename_i inputRequest hrequest
      exact recordInterruptedResult_rows (waitsFor_of_inputRequest hrequest hstatus) h
  unfold recordLocalResult at h
  split at h
  · obtain ⟨_,rfl⟩ := pure_ok.mp h
    exact .inl rfl
  · split at h
    · exact (recordCancellation_rows h).mono fun _ _ h => .inl h
    · simp only [bind_ok,ofExcept_ok] at h
      obtain ⟨_,_,⟨_,rfl⟩,h⟩ := h
      split at h
      · exact (recordCompletedResult_rows h).mono fun _ _ h => .inl h
      · obtain ⟨_,rfl⟩ := pure_ok.mp h
        exact .inl rfl
      · rename_i hs
        exact hinterrupted (.inl hs) h
      · rename_i hs
        exact hinterrupted (.inr hs) h
      · exact (recordFailedResult_rows h).mono fun _ _ h => .inl h

end TaskOutcomeRecorder

section Totality

open TaskOutcomeRecorder

variable {db : AgentDb} {t : TaskId} {r : TaskRecord}

/-- A transition that the table lists does take place. -/
theorem transitionLocalTask_total {target : TaskStatus} (payload : Json) (error : TaskError)
    (hr : db.tasks.get t = some r) (hlocal : r.assignedAgentId = none)
    (hmem : target ∈ localTaskTransitions r.status) :
    ∃ task db', (transitionLocalTask t target payload error).run db = .ok (task,db') := by
  obtain ⟨type,htype⟩ := lifecycleEventTypeForStatus_of_mem hmem
  have hne : r.status ≠ target := by
    rintro rfl
    cases hs : r.status <;> simp [hs,localTaskTransitions] at hmem
  have hvalid : validateLocalTaskTransition r.status target = .ok true :=
    validateLocalTaskTransition_ok_iff.mpr (.inr ⟨hne,hmem,rfl⟩)
  have hid : r.taskId = t := Table.key_of_get hr
  simp [transitionLocalTask,requireTask,getTask,updateTask,appendTaskEvent,insertTaskEvent,hr,hlocal,
    hvalid,htype,Table.get_update,hid]

theorem closeUnresolvedExecution_total (db : AgentDb) (t : TaskId)
    (errorCode errorMessage preparedReason : String) (retryable : Bool) :
    ∃ db', (closeUnresolvedExecution t errorCode errorMessage retryable
      preparedReason).run db = .ok ((),db') := by
  simp [closeUnresolvedExecution,markRunningToolInvocationsUncertain,
    cancelPreparedToolInvocations,updateToolInvocations,clearPendingContinuation,
    clearQueuedTaskExecution]

/-- A task is ended in any status from which the table lists the end. -/
theorem endTask_total {target : TaskStatus} (payload : Json) (error : TaskError)
    (code message reason : String) (retryable : Bool) (hr : db.tasks.get t = some r)
    (hlocal : r.assignedAgentId = none) (hmem : target ∈ localTaskTransitions r.status) :
    ∃ task db', (do
      let ended ← transitionLocalTask t target payload error
      closeUnresolvedExecution t code message retryable reason
      return ended : StoreTxn TaskRecord).run db = .ok (task,db') := by
  obtain ⟨task,db₁,h₁⟩ := transitionLocalTask_total payload error hr hlocal hmem
  obtain ⟨db₂,h₂⟩ := closeUnresolvedExecution_total db₁ t code message reason retryable
  exact ⟨task,db₂,by rw [run_bind_of h₁,run_bind_of h₂]; rfl⟩

/-- Every status that is not terminal can fail. -/
theorem failed_mem_transitions {status : TaskStatus} (h : isTerminalTaskStatus status = false) :
    TaskStatus.failed ∈ localTaskTransitions status := by
  cases status <;> simp_all [isTerminalTaskStatus,localTaskTransitions]

theorem recordFailure_total (error : PyException) (hr : db.tasks.get t = some r)
    (hlocal : r.assignedAgentId = none) :
    ∃ task db', (recordFailure t error).run db = .ok (task,db') := by
  have hrequire := requireTask_ok.mpr ⟨hr,rfl⟩
  simp only [recordFailure,unlessEnded,run_bind_of hrequire,ite_run]
  split
  · exact ⟨r,db,rfl⟩
  · rename_i hopen
    split
    · rename_i hrequested
      have hmem : TaskStatus.canceled ∈ localTaskTransitions r.status := by
        rw [hrequested]
        decide
      simp only [recordCancellation,run_bind_of hrequire,ite_run]
      rw [if_neg (by rw [hrequested]; decide)]
      exact endTask_total _ _ _ _ _ _ hr hlocal hmem
    · exact endTask_total _ _ _ _ _ _ hr hlocal (failed_mem_transitions (by simpa using hopen))

theorem recordRuntimeRecoveryFailure_total (errorCode errorMessage : String)
    (hr : db.tasks.get t = some r) (hlocal : r.assignedAgentId = none) :
    ∃ task db', (recordRuntimeRecoveryFailure t errorCode errorMessage).run db
      = .ok (task,db') := by
  simp only [recordRuntimeRecoveryFailure,run_bind_of (requireTask_ok.mpr ⟨hr,rfl⟩),ite_run]
  split
  · exact ⟨r,db,rfl⟩
  · rename_i hopen
    exact endTask_total _ _ _ _ _ _ hr hlocal (failed_mem_transitions (by simpa using hopen))

end Totality
end VermayAgent
