import VermayAgent.TaskHistory
import VermayAgent.RowCoupling

/-! What the transactions of the main agent do to the history of the tasks. -/
namespace VermayAgent
open Library Txn MainAgentStore

/-- The statuses into which a local task is put by the command or the recorder made for it. -/
def specialStatuses : List TaskStatus := [.cancelRequested,.completed,.inputRequired,.authRequired]

/-- A cancellation that was requested of a local task ends in nothing but the cancellation, and
the special statuses are those that `special` names. -/
def Orderly (special : TaskId → TaskStatus → Prop) (t : TaskId) (head : LifecycleHead)
    (target : TaskStatus) : Prop :=
  head.assignedAgentId = none → (head.status = .cancelRequested → target ≠ .failed) ∧
    (target ∈ specialStatuses → special t target)

abbrev Plain : TaskId → LifecycleHead → TaskStatus → Prop := Orderly fun _ _ => False

/-- What a cancel command does to its task, and what the recorder of a result does. -/
def Requests (taskId t : TaskId) (target : TaskStatus) : Prop :=
  t = taskId ∧ target = .cancelRequested

def Outcomes (taskId t : TaskId) (target : TaskStatus) : Prop :=
  t = taskId ∧ target ≠ .cancelRequested

/-- Each tool invocation is of a task that there is, in the context of that task. -/
def History.Owned (h : History) : Prop :=
  ∀ id t c, h.invocations id = some (t,c) → h.contextOf t = some c

variable {db db' : AgentDb} {t : TaskId}

section Outcomes

open TaskOutcomeRecorder

variable {special : TaskId → TaskStatus → Prop}

theorem HistoryMoves.orderly {h h' : History} (hm : HistoryMoves Plain h h') :
    HistoryMoves (Orderly special) h h' :=
  hm.mono fun _ _ _ hplain hlocal =>
    ⟨(hplain hlocal).1,fun hmem => ((hplain hlocal).2 hmem).elim⟩

theorem transition_orderly {target : TaskStatus} {payload : Json} {error : TaskError}
    {task : TaskRecord} (htarget : target ≠ .failed)
    (hspecial : target ∈ specialStatuses → special t target)
    (h : (transitionLocalTask t target payload error).run db = .ok (task,db')) :
    HistoryMoves (Orderly special) db.history db'.history :=
  transitionLocalTask_history (fun _ _ _ _ => ⟨fun _ => htarget,hspecial⟩) h

theorem transition_plain {target : TaskStatus} {payload : Json} {error : TaskError}
    {task : TaskRecord} (htarget : target ∈ [TaskStatus.queued,.running,.canceled])
    (h : (transitionLocalTask t target payload error).run db = .ok (task,db')) :
    HistoryMoves Plain db.history db'.history := by
  have hplain : ∀ target ∈ [TaskStatus.queued,.running,.canceled],
      target ≠ .failed ∧ target ∉ specialStatuses := by decide
  exact transition_orderly (hplain _ htarget).1 (fun hmem => (hplain _ htarget).2 hmem) h

/-- A failure of a task whose cancellation was not requested. -/
theorem transition_failed {payload : Json} {error : TaskError} {task r : TaskRecord}
    (hhead : (db.rows t).task = some r.head) (hrequested : r.status ≠ .cancelRequested)
    (h : (transitionLocalTask t .failed payload error).run db = .ok (task,db')) :
    HistoryMoves Plain db.history db'.history := by
  refine transitionLocalTask_history (fun r' hr' _ _ =>
    ⟨fun hstatus => ?_,fun hmem => absurd hmem (by decide)⟩) h
  have heq : r'.head = r.head := by
    rw [rows_task_of_get hr'] at hhead
    exact Option.some.inj hhead
  have hstatus' : r.status = .cancelRequested := by
    rw [← show r'.status = r.status from congrArg TaskHead.status heq]
    exact hstatus
  exact absurd hstatus' hrequested

theorem appendMessage_history (messageId : MessageId) (contextId : ContextId) (role : MessageRole)
    (parts : List Json) (task : Option TaskId) (metadata : Json) :
    Keeps AgentDb.history (appendMessage messageId contextId role parts task metadata) :=
  appendMessage_keeps (fun _ _ => rfl) (fun _ _ => rfl) _ _ _ _ _ _

theorem clearPendingContinuation_history : Keeps AgentDb.history (clearPendingContinuation t) :=
  .write fun _ => rfl

theorem clearQueuedTaskExecution_history : Keeps AgentDb.history (clearQueuedTaskExecution t) :=
  .write fun _ => rfl

theorem cancelPreparedToolInvocations_history (reason : String) :
    Keeps AgentDb.history (cancelPreparedToolInvocations t reason) := by
  intro db n db' h
  refine @history_of_moves _ _ none ?_ (cancelPreparedToolInvocations_moves h)
  exact cancelPreparedToolInvocations_keeps (v := fun db => {db with toolInvocations := .empty})
    (fun _ _ => rfl) _ _ _ _ _ h

theorem markRunningToolInvocationsUncertain_history (errorCode errorMessage : String)
    (retryable : Bool) :
    Keeps AgentDb.history (markRunningToolInvocationsUncertain t errorCode errorMessage
      retryable) := by
  intro db n db' h
  refine @history_of_moves _ _ none ?_ (markRunningToolInvocationsUncertain_moves h)
  exact markRunningToolInvocationsUncertain_keeps
    (v := fun db => {db with toolInvocations := .empty}) (fun _ _ => rfl) _ _ _ _ _ _ _ h

theorem closeUnresolvedExecution_history (errorCode errorMessage preparedReason : String)
    (retryable : Bool) :
    Keeps AgentDb.history (closeUnresolvedExecution t errorCode errorMessage retryable
      preparedReason) :=
  .bind (markRunningToolInvocationsUncertain_history _ _ _) fun _ =>
    .bind (cancelPreparedToolInvocations_history _) fun _ =>
    .bind clearPendingContinuation_history fun _ => clearQueuedTaskExecution_history

theorem recordCancellation_history {task : TaskRecord}
    (h : (recordCancellation t).run db = .ok (task,db')) :
    HistoryMoves Plain db.history db'.history := by
  simp only [recordCancellation,bind_ok,requireTask_ok,ite_run] at h
  obtain ⟨r,_,⟨hr,rfl⟩,h⟩ := h
  split at h
  · rw [(pure_ok.mp h).2]
  · simp only [bind_ok,pure_ok] at h
    obtain ⟨_,db₁,h₁,_,db₂,h₂,_,rfl⟩ := h
    rw [closeUnresolvedExecution_history _ _ _ _ _ _ _ h₂]
    exact transition_plain (by decide) h₁

/-- A recorder that is skipped on ended tasks, and replaced where a cancellation was requested. -/
theorem unlessEnded_history {record : TaskRecord → StoreTxn TaskRecord} {task : TaskRecord}
    (hrecord : ∀ r, db.tasks.get t = some r → isTerminalTaskStatus r.status = false →
      r.status ≠ .cancelRequested → (record r).run db = .ok (task,db') →
      HistoryMoves (Orderly special) db.history db'.history)
    (h : (unlessEnded t record).run db = .ok (task,db')) :
    HistoryMoves (Orderly special) db.history db'.history := by
  obtain ⟨r,hr,⟨_,rfl⟩ | ⟨_,h⟩ | ⟨hopen,hrequested,h⟩⟩ := unlessEnded_ok h
  · exact .refl
  · exact (recordCancellation_history h).orderly
  · exact hrecord r hr hopen hrequested h

theorem recordFailure_history {error : PyException} {task : TaskRecord}
    (h : (recordFailure t error).run db = .ok (task,db')) :
    HistoryMoves Plain db.history db'.history := by
  refine unlessEnded_history (fun r hr _ hrequested h => ?_) h
  simp only [bind_ok,pure_ok] at h
  obtain ⟨_,db₁,h₁,_,db₂,h₂,_,rfl⟩ := h
  rw [closeUnresolvedExecution_history _ _ _ _ _ _ _ h₂]
  exact transition_failed (rows_task_of_get hr) hrequested h₁

/-- Recovery may fail any task that is not terminal. -/
theorem recordRuntimeRecoveryFailure_history {errorCode errorMessage : String} {task : TaskRecord}
    (h : (recordRuntimeRecoveryFailure t errorCode errorMessage).run db = .ok (task,db')) :
    HistoryMoves (fun t' head target => t' = t ∧ target = .failed ∨ Plain t' head target) db.history
      db'.history := by
  simp only [recordRuntimeRecoveryFailure,bind_ok,requireTask_ok,ite_run] at h
  obtain ⟨r,_,⟨hr,rfl⟩,h⟩ := h
  split at h
  · rw [(pure_ok.mp h).2]
  · simp only [bind_ok,pure_ok] at h
    obtain ⟨_,db₁,h₁,_,db₂,h₂,_,rfl⟩ := h
    rw [closeUnresolvedExecution_history _ _ _ _ _ _ _ h₂]
    exact transitionLocalTask_history (fun _ _ _ => .inl ⟨rfl,rfl⟩) h₁

theorem persistObservations_history {allow : TaskId → LifecycleHead → TaskStatus → Prop}
    {task : TaskRecord} {result : LocalTaskRunResult}
    {o : Option ArtifactId} (hcontext : db.history.contextOf task.taskId = some task.contextId)
    (h : (persistObservations task result).run db = .ok (o,db')) :
    HistoryMoves allow db.history db'.history := by
  unfold persistObservations at h
  simp only [ite_run] at h
  split at h
  · rw [(pure_ok.mp h).2]
  · simp only [bind_ok,getArtifact,run_select,Except.ok.injEq,Prod.mk.injEq,pure_ok] at h
    obtain ⟨existing,_,⟨_,rfl⟩,artifact,db₁,h₁,_,db₂,h₂,_,rfl⟩ := h
    refine upsertArtifact_noted hcontext ?_ ?_ ?_ h₁ h₂
    · simp
    · split <;> simp [artifactEventTypes]
    · rfl

theorem recordCompletedResult_history {result : LocalTaskRunResult} {metadata : Json}
    {newMessageId : MessageId} {task : TaskRecord}
    (h : (recordCompletedResult t result metadata newMessageId).run db = .ok (task,db')) :
    HistoryMoves (Orderly (Outcomes t)) db.history db'.history := by
  refine unlessEnded_history (fun r hr _ _ h => ?_) h
  simp only [bind_ok,pure_ok] at h
  obtain ⟨_,db₁,h₁,_,db₂,h₂,_,db₃,h₃,_,db₄,h₄,_,db₅,h₅,_,db₆,h₆,_,db₇,h₇,_,db₈,h₈,_,rfl⟩ := h
  have hkey : r.taskId = t := Table.key_of_get hr
  have hcontext : db.history.contextOf r.taskId = some r.contextId := by
    rw [hkey]
    exact history_contextOf hr
  have hm₁ : HistoryMoves (Orderly (Outcomes t)) db.history db₁.history :=
    persistObservations_history hcontext h₁
  have hk₂ := appendMessage_history _ _ _ _ _ _ _ _ _ h₂
  have hm₂ : HistoryMoves (Orderly (Outcomes t)) db.history db₂.history := by rwa [hk₂]
  have hcontext₂ : db₂.history.contextOf t = some r.contextId := by
    rw [← hkey]
    exact hm₂.contextOf hcontext
  have hm₄ : HistoryMoves (Orderly (Outcomes t)) db₂.history db₄.history :=
    upsertArtifact_noted hcontext₂ (by simp) (by simp [artifactEventTypes]) rfl h₃ h₄
  have hm₅ : HistoryMoves (Orderly (Outcomes t)) db₄.history db₅.history :=
    setTaskOutputMessage_history h₅
  have hm₆ : HistoryMoves (Orderly (Outcomes t)) db₅.history db₆.history :=
    transition_orderly (by decide) (fun _ => ⟨rfl,by decide⟩) h₆
  rw [clearQueuedTaskExecution_history _ _ _ h₈,clearPendingContinuation_history _ _ _ h₇]
  exact ((hm₂.trans hm₄).trans hm₅).trans hm₆

theorem recordFailedResult_history {result : LocalTaskRunResult} {status : TaskStatus}
    {task : TaskRecord} (h : (recordFailedResult t result status).run db = .ok (task,db')) :
    HistoryMoves Plain db.history db'.history := by
  refine unlessEnded_history (fun r hr _ hrequested h => ?_) h
  simp only [bind_ok,pure_ok] at h
  obtain ⟨_,db₁,h₁,_,db₂,h₂,_,db₃,h₃,_,rfl⟩ := h
  have hkey : r.taskId = t := Table.key_of_get hr
  have hm₁ : HistoryMoves Plain db.history db₁.history :=
    persistObservations_history (by rw [hkey]; exact history_contextOf hr) h₁
  have hhead : (db₁.rows t).task = some r.head := by
    rw [persistObservations_rows _ _ _ _ _ h₁]
    exact rows_task_of_get hr
  rw [closeUnresolvedExecution_history _ _ _ _ _ _ _ h₃]
  exact hm₁.trans (transition_failed hhead hrequested h₂)

theorem setPendingContinuation_history (kind : String) (inputRequest : Json) :
    Keeps AgentDb.history (setPendingContinuation t kind inputRequest) := by
  refine .bind (requireTask_keeps _) fun _ => .bind (.require _ _) fun _ =>
    .bind (.statement (.bind (.select _) fun o => ?_)) fun _ => .bind (.select _) fun _ =>
    .orFail _ _
  cases o with
  | some current => exact .write fun _ => rfl
  | none =>
    refine .write? fun db db' h => ?_
    obtain ⟨_,_,rfl⟩ := Option.map_eq_some_iff.mp h
    rfl

theorem recordInterruptedResult_history {result : LocalTaskRunResult} {status : TaskStatus}
    {inputRequest : Json} {task : TaskRecord} (hstatus : status ∈ [TaskStatus.inputRequired,.authRequired])
    (h : (recordInterruptedResult t result status inputRequest).run db = .ok (task,db')) :
    HistoryMoves (Orderly (Outcomes t)) db.history db'.history := by
  refine unlessEnded_history (fun r hr _ _ h => ?_) h
  simp only [bind_ok,pure_ok] at h
  obtain ⟨_,db₁,h₁,_,db₂,h₂,_,db₃,h₃,_,db₄,h₄,_,db₅,h₅,_,rfl⟩ := h
  have hkey : r.taskId = t := Table.key_of_get hr
  have hm₁ : HistoryMoves (Orderly (Outcomes t)) db.history db₁.history :=
    persistObservations_history (by rw [hkey]; exact history_contextOf hr) h₁
  have hk₂ := setPendingContinuation_history _ _ _ _ _ h₂
  have hm₂ : HistoryMoves (Orderly (Outcomes t)) db.history db₂.history := by rwa [hk₂]
  have hk₄ : ∀ active, Keeps AgentDb.history (appendInputRequestMessage r active inputRequest) :=
    fun _ => .ite (.bind (appendMessage_history _ _ _ _ _ _) fun _ => .pure _) (.pure _)
  rw [clearQueuedTaskExecution_history _ _ _ h₅,hk₄ _ _ _ _ h₄]
  have houtcome : ∀ status ∈ [TaskStatus.inputRequired,.authRequired],
      status ≠ .failed ∧ status ≠ .cancelRequested := by decide
  exact hm₂.trans (transition_orderly (houtcome _ hstatus).1
    (fun _ => ⟨rfl,(houtcome _ hstatus).2⟩) h₃)

theorem recordLocalResult_history {result : LocalTaskRunResult} {metadata : Json}
    {newMessageId : MessageId} {seen task : TaskRecord}
    (h : (recordLocalResult t result metadata newMessageId seen).run db = .ok (task,db')) :
    HistoryMoves (Orderly (Outcomes t)) db.history db'.history := by
  have hinterrupted : localProcessStatus result ∈ [TaskStatus.inputRequired,.authRequired] →
      (recordInterruption t result).run db = .ok (task,db') →
      HistoryMoves (Orderly (Outcomes t)) db.history db'.history := by
    intro hstatus h
    unfold recordInterruption at h
    split at h
    · exact (recordFailure_history h).orderly
    · exact recordInterruptedResult_history hstatus h
  unfold recordLocalResult at h
  split at h
  · rw [(pure_ok.mp h).2]
  · split at h
    · exact (recordCancellation_history h).orderly
    · simp only [bind_ok,ofExcept_ok] at h
      obtain ⟨_,_,⟨_,rfl⟩,h⟩ := h
      split at h
      · exact recordCompletedResult_history h
      · rw [(pure_ok.mp h).2]
      · rename_i hs
        exact hinterrupted (by rw [hs]; decide) h
      · rename_i hs
        exact hinterrupted (by rw [hs]; decide) h
      · exact (recordFailedResult_history h).orderly

end Outcomes

section Commands

open MainAgentCore

theorem enqueueTaskExecution_history (kind : QueuedTaskExecutionKind) (thread : ThreadId)
    (payload : Option QueuedTaskExecutionPayload) (version : Int) :
    Keeps AgentDb.history (enqueueTaskExecution t kind thread payload version) := by
  have hget : ∀ t, Keeps AgentDb.history (getQueuedTaskExecution t) := by
    refine fun t => .bind (.select _) fun o => ?_
    cases o with
    | none => exact .pure _
    | some row => exact .map _ (.ofExcept _)
  refine .bind (requireTask_keeps _) fun _ => .bind (.require _ _) fun _ => .bind (.require _ _)
    fun _ => .bind (.require _ _) fun _ => .bind (.require _ _) fun _ =>
    .bind (normalizedPayload_keeps _ _) fun _ => .bind (.ofExcept _) fun _ => .bind (hget _)
    fun o => ?_
  cases o with
  | some existing => exact .bind (.require _ _) fun _ => .pure _
  | none =>
    refine .bind (.write? fun db db' h => ?_) fun _ => .bind (hget _) fun _ => .orFail _ _
    obtain ⟨_,_,rfl⟩ := Option.map_eq_some_iff.mp h
    rfl

theorem resolveMessageIngress_history (messageId : MessageId) (kind : MessageIngressOutcomeKind)
    (outcomeId : String) : Keeps AgentDb.history (resolveMessageIngress messageId kind outcomeId) :=
  resolveMessageIngress_keeps (fun _ _ => rfl) _ _ _

theorem acceptLocalTaskFromMessage_history {a : LocalTaskAcceptance}
    {r : RouteDecisionRecord × TaskRecord}
    (h : (acceptLocalTaskFromMessage a).run db = .ok (r,db')) :
    HistoryMoves Plain db.history db'.history := by
  simp only [acceptLocalTaskFromMessage,bind_ok,require_ok,ite_run] at h
  obtain ⟨_,_,⟨_,rfl⟩,_,db₁,h₁,_,db₂,h₂,created,db₃,h₃,_,db₄,h₄,h⟩ := h
  have hk₁ := recordRouteDecision_keeps (v := AgentDb.history) (fun _ _ => rfl) _ _ _ _ h₁
  have hk₂ := setMessageIngressRouteDecision_keeps (v := AgentDb.history) (fun _ _ => rfl)
    _ _ _ _ _ h₂
  have hm₃ : HistoryMoves Plain db₂.history db₃.history := createLocalTask_history h₃
  have hk₄ := resolveMessageIngress_history _ _ _ _ _ _ h₄
  rw [hk₂,hk₁,← hk₄] at hm₃
  split at h
  · simp only [bind_ok,pure_ok] at h
    obtain ⟨queued,db₅,h₅,_,db₆,h₆,_,rfl⟩ := h
    rw [enqueueTaskExecution_history _ _ _ _ _ _ _ h₆]
    exact hm₃.trans (transition_plain (by decide) h₅)
  · rw [← (pure_ok.mp h).2]
    exact hm₃

theorem resolvePendingToolInvocationApproval_history (inputRequest : Json) (approved : Bool)
    (reason : Option String) :
    Keeps AgentDb.history (resolvePendingToolInvocationApproval t inputRequest approved
      reason) := by
  have hresolve : ∀ id toolName digest, Keeps AgentDb.history
      (resolveToolInvocationApproval t id toolName digest approved reason) := by
    intro id toolName digest db r db' h
    refine @history_of_moves _ _ none ?_ (resolveToolInvocationApproval_moves h)
    exact resolveToolInvocationApproval_keeps (v := fun db => {db with toolInvocations := .empty})
      (fun _ _ => rfl) _ _ _ _ _ _ _ _ _ h
  unfold resolvePendingToolInvocationApproval
  split
  · exact .pure _
  · exact .bind (.require _ _) fun _ => .map _ (hresolve _ _ _)
  · exact .fail _

theorem acceptPendingContinuation_history {expectedKind operation : String} {resumePayload : Json}
    {kind : QueuedTaskExecutionKind} {payload : QueuedTaskExecutionPayload} {task : TaskRecord}
    (hpayload : resumePayload.member "artifact_id" = .null)
    (h : (acceptPendingContinuation t expectedKind operation resumePayload kind payload).run db
      = .ok (task,db')) : HistoryMoves Plain db.history db'.history := by
  simp only [acceptPendingContinuation,bind_ok,pure_ok] at h
  obtain ⟨_,_,h₀,pending,db₁,h₁,_,db₂,h₂,_,db₃,h₃,queued,db₄,h₄,_,db₅,h₅,_,rfl⟩ := h
  obtain ⟨_,_,rfl⟩ := validatePendingContinuation_ok h₀
  have hconsume : Keeps AgentDb.history (consumePendingContinuation t expectedKind) :=
    .bind (.bind (.select _) fun _ => .bind (.orFail _ _) fun _ => .bind (.require _ _) fun _ =>
      .pure _) fun _ => .bind (.statement (.bind (.select _) fun _ => .bind (.write fun _ => rfl)
      fun _ => .pure _)) fun _ => .bind (.require _ _) fun _ => .pure _
  have hresolve : Keeps AgentDb.history (resolveBoundApproval t expectedKind pending
      resumePayload) :=
    .ite (.bind (resolvePendingToolInvocationApproval_history _ _ _) fun _ => .pure _) (.pure _)
  have hm₃ : HistoryMoves Plain db₂.history db₃.history :=
    appendAuditEvent_history (by decide) hpayload h₃
  rw [hresolve _ _ _ h₂,hconsume _ _ _ h₁] at hm₃
  rw [enqueueTaskExecution_history _ _ _ _ _ _ _ h₅]
  exact hm₃.trans (transition_plain (by decide) h₄)

theorem submitTaskInput_history {request : MainAgentRequest} {newMessageId : MessageId}
    {task : TaskRecord} (h : (submitTaskInput t request newMessageId).run db = .ok (task,db')) :
    HistoryMoves Plain db.history db'.history := by
  simp only [submitTaskInput,bind_ok,require_ok] at h
  obtain ⟨_,_,⟨_,rfl⟩,_,_,⟨_,rfl⟩,_,_,h₁,_,_,⟨_,rfl⟩,_,db₂,h₂,_,db₃,h₃,h₄⟩ := h
  obtain ⟨_,_,rfl⟩ := validatePendingContinuation_ok h₁
  have hm₃ : HistoryMoves Plain db₂.history db₃.history :=
    appendAuditEvent_history (by decide) rfl h₃
  rw [appendMessage_history _ _ _ _ _ _ _ _ _ h₂] at hm₃
  exact hm₃.trans (acceptPendingContinuation_history rfl h₄)

theorem cancelDirectly_history {reason : Option String} {payload : Json}
    {c : CommittedCancellation} (h : (cancelDirectly t reason payload).run db = .ok (c,db')) :
    HistoryMoves Plain db.history db'.history := by
  simp only [cancelDirectly,bind_ok,pure_ok] at h
  obtain ⟨_,db₁,h₁,_,db₂,h₂,_,db₃,h₃,_,db₄,h₄,_,rfl⟩ := h
  rw [clearQueuedTaskExecution_history _ _ _ h₄,clearPendingContinuation_history _ _ _ h₃,
    cancelPreparedToolInvocations_history _ _ _ _ h₂]
  exact transition_plain (by decide) h₁

theorem commitCancellation_history {reason : Option String} {active : Bool}
    {c : CommittedCancellation} (h : (commitCancellation t reason active).run db = .ok (c,db')) :
    HistoryMoves (Orderly (Requests t)) db.history db'.history := by
  simp only [commitCancellation,bind_ok,requireTask_ok,require_ok,ite_run] at h
  obtain ⟨r,_,⟨hr,rfl⟩,_,_,⟨_,rfl⟩,h⟩ := h
  split at h
  · rw [(pure_ok.mp h).2]
  · split at h
    · simp only [bind_ok,ite_run] at h
      obtain ⟨_,db₁,h₁,h⟩ := h
      have hm₁ : HistoryMoves (Orderly (Requests t)) db.history db₁.history :=
        transition_orderly (by decide) (fun _ => ⟨rfl,rfl⟩) h₁
      split at h
      · rw [← (pure_ok.mp h).2]
        exact hm₁
      · exact hm₁.trans (cancelDirectly_history h).orderly
    · exact (cancelDirectly_history h).orderly

theorem claimLocalExecution_history {o : Option ClaimedLocalExecution}
    (h : (claimLocalExecution t).run db = .ok (o,db')) :
    HistoryMoves Plain db.history db'.history := by
  have hget : Keeps AgentDb.history (getQueuedTaskExecution t) := by
    refine .bind (.select _) fun o => ?_
    cases o with
    | none => exact .pure _
    | some row => exact .map _ (.ofExcept _)
  simp only [claimLocalExecution,bind_ok] at h
  obtain ⟨_,_,h,hprepare⟩ := h
  obtain ⟨_,rfl⟩ := prepareClaimed_ok hprepare
  simp only [claimQueuedTaskExecution,bind_ok,requireTask_ok,ite_run] at h
  obtain ⟨r,_,⟨_,rfl⟩,h⟩ := h
  split at h
  · rw [(pure_ok.mp h).2]
  · simp only [bind_ok] at h
    obtain ⟨command,db₁,hq,h⟩ := h
    rw [← hget _ _ _ hq]
    cases command with
    | none => rw [(pure_ok.mp h).2]
    | some command =>
      simp only [bind_ok,require_ok,claimDelete,ite_run] at h
      obtain ⟨_,_,⟨_,rfl⟩,n,db₂,hdelete,h⟩ := h
      have hk₂ : Keeps AgentDb.history (deleteQueuedTaskExecution t) :=
        .statement (.bind (.select _) fun _ => .bind clearQueuedTaskExecution_history fun _ =>
          .pure _)
      rw [← hk₂ _ _ _ hdelete]
      split at h
      · rw [(pure_ok.mp h).2]
      · simp only [bind_ok,pure_ok] at h
        obtain ⟨_,_,h,_,rfl⟩ := h
        exact transition_plain (by decide) h

theorem acceptRetry_history {env : CoreEnv} {taskId : TaskId} {ids : RetryIds} {seen : TaskRecord}
    {inputMessage : MessageRecord} {r : TaskRecord × Bool}
    (h : (acceptRetry env taskId ids seen inputMessage).run db = .ok (r,db')) :
    HistoryMoves Plain db.history db'.history := by
  simp only [acceptRetry,getDirectTaskRetry,bind_ok,run_select,Except.ok.injEq,Prod.mk.injEq] at h
  obtain ⟨source,_,h₀,o,_,⟨_,rfl⟩,h⟩ := h
  cases retryableFailedLocalTask_ok h₀
  cases o with
  | some existing => rw [(pure_ok.mp h).2]
  | none =>
    simp only [bind_ok,pure_ok] at h
    obtain ⟨_,db₁,h₁,_,db₂,h₂,accepted,db₃,h₃,_,db₄,h₄,_,db₅,h₅,_,rfl⟩ := h
    have hm₃ := acceptLocalTaskFromMessage_history h₃
    rw [reserveMessageIngress_keeps (v := AgentDb.history) (fun _ _ => rfl) _ _ _ _ _ _ h₂,
      appendMessage_history _ _ _ _ _ _ _ _ _ h₁] at hm₃
    have hm₄ : HistoryMoves Plain db₃.history db₄.history :=
      appendAuditEvent_history (by decide) rfl h₄
    exact (hm₃.trans hm₄).trans (appendAuditEvent_history (by decide) rfl h₅)

theorem createDelegatedTask_history (record : DelegatedTaskRecord) :
    Keeps AgentDb.history (createDelegatedTask record) :=
  createDelegatedTask_keeps (fun _ _ => rfl) _

theorem completeRemoteTask_history {contextId : ContextId} {inputMessageId : MessageId}
    {decisionId delegationId : String} {targetAgentId : AgentId}
    {remote : RemoteAgentSendResult} {newTaskId : TaskId} {newThreadId : ThreadId}
    {task : TaskRecord}
    (h : (completeRemoteTask contextId inputMessageId decisionId delegationId targetAgentId remote
      newTaskId newThreadId).run db = .ok (task,db')) :
    HistoryMoves Plain db.history db'.history := by
  simp only [completeRemoteTask,bind_ok,orFail_ok,pure_ok] at h
  obtain ⟨_,_,⟨_,rfl⟩,created,db₁,h₁,_,db₂,h₂,_,db₃,h₃,_,db₄,h₄,_,rfl⟩ := h
  rw [resolveMessageIngress_history _ _ _ _ _ _ h₄,createDelegatedTask_history _ _ _ _ h₃]
  exact (createTask_history (fun hagent => absurd hagent (Option.some_ne_none _)) h₁ h₂).1

end Commands

section Remote

open TaskOutcomeRecorder

theorem setTaskOutputMessage_get {messageId : MessageId} {task : TaskRecord}
    (h : (setTaskOutputMessage t messageId).run db = .ok (task,db')) :
    db'.tasks.get t = some task := by
  simp only [setTaskOutputMessage,getMessage,bind_ok,run_select,orFail_ok,requireTask_ok,ite_run,
    Except.ok.injEq,Prod.mk.injEq] at h
  obtain ⟨_,_,⟨rfl,rfl⟩,_,_,⟨_,rfl⟩,r,_,⟨hr,rfl⟩,h⟩ := h
  split at h
  · obtain ⟨rfl,rfl⟩ := pure_ok.mp h
    exact hr
  · simp only [updateTask,getTask,bind_ok,run_write,run_select,orFail_ok,Except.ok.injEq,
      Prod.mk.injEq,true_and] at h
    obtain ⟨_,_,rfl,_,_,⟨rfl,rfl⟩,hg,rfl⟩ := h
    exact hg

/-- The final answer of a remote task: an artifact, its event and the output message. -/
theorem materializeRemoteFinalAnswer_history {task r : TaskRecord}
    {delegation : DelegatedTaskRecord} {snapshot : RemoteAgentTaskSnapshot}
    {newMessageId : MessageId} (hr : db.tasks.get task.taskId = some task)
    (h : (materializeRemoteFinalAnswer task delegation snapshot newMessageId).run db
      = .ok (r,db')) :
    HistoryMoves Plain db.history db'.history ∧ db'.tasks.get task.taskId = some r := by
  unfold materializeRemoteFinalAnswer at h
  simp only [ite_run] at h
  split at h
  · obtain ⟨rfl,rfl⟩ := pure_ok.mp h
    exact ⟨.refl,hr⟩
  · simp only [bind_ok,getArtifact,run_select,Except.ok.injEq,Prod.mk.injEq] at h
    obtain ⟨o,_,⟨_,rfl⟩,h⟩ := h
    cases o with
    | some artifact =>
      simp only [getTask,bind_ok,run_select,pure_ok,Except.ok.injEq,Prod.mk.injEq] at h
      obtain ⟨o,_,⟨ho,rfl⟩,rfl,rfl⟩ := h
      rw [← ho,hr]
      exact ⟨.refl,rfl⟩
    | none =>
      simp only [bind_ok] at h
      obtain ⟨_,db₁,h₁,_,db₂,h₂,_,db₃,h₃,h₄⟩ := h
      have hk₁ := appendMessage_history _ _ _ _ _ _ _ _ _ h₁
      have hcontext : db₁.history.contextOf task.taskId = some task.contextId := by
        rw [hk₁]
        exact history_contextOf hr
      have hm₃ : HistoryMoves Plain db₁.history db₃.history :=
        upsertArtifact_noted hcontext (by simp) (by simp [artifactEventTypes]) rfl h₂ h₃
      rw [hk₁] at hm₃
      exact ⟨hm₃.trans (setTaskOutputMessage_history h₄),setTaskOutputMessage_get h₄⟩

theorem recordRemoteSnapshot_history {snapshot : RemoteAgentTaskSnapshot}
    {newMessageId : MessageId} {task : TaskRecord} (hc : Coupled db.rows)
    (h : (recordRemoteSnapshot t snapshot newMessageId).run db = .ok (task,db')) :
    HistoryMoves Plain db.history db'.history := by
  have hmarked := recordRemoteSnapshot_delegated h
  simp only [recordRemoteSnapshot,getDelegatedTaskByLocalTaskId,bind_ok,requireTask_ok,run_select,
    orFail_ok,ite_run,Except.ok.injEq,Prod.mk.injEq] at h
  obtain ⟨r,_,⟨hr,rfl⟩,_,_,⟨rfl,rfl⟩,delegation,_,⟨hdelegation,rfl⟩,_,db₁,h₁,h⟩ := h
  have hvalid : Keeps (fun db => db) (validateRemoteProxySnapshot delegation snapshot) :=
    .bind (.orFail _ _) fun _ => .bind (.require _ _) fun _ => .require _ _
  cases hvalid _ _ _ h₁
  have hremote : r.assignedAgentId ≠ none := by
    obtain ⟨head,htask,hagent⟩ := (hc.coupledAt t).remote_of_delegated hmarked
    rw [rows_task_of_get hr] at htask
    cases htask
    exact hagent
  split at h
  · rw [(pure_ok.mp h).2]
  · rename_i haccepts
    simp only [bind_ok,ite_run] at h
    obtain ⟨_,db₂,h₂,r₃,db₃,h₃,h⟩ := h
    have hk₂ : (db₂.history,db₂.tasks) = (db.history,db.tasks) :=
      updateDelegatedTaskStatus_keeps (v := fun db => (db.history,db.tasks)) (fun _ _ => rfl)
        _ _ _ _ _ _ h₂
    have hk₂ := Prod.mk.inj hk₂
    have hkey : r.taskId = t := Table.key_of_get hr
    have hr₂ : db₂.tasks.get r.taskId = some r := by rw [hk₂.2,hkey,hr]
    have hm₃ : HistoryMoves Plain db.history db₃.history ∧
        db₃.tasks.get r.taskId = some r₃ ∧ db₃.rows = db₂.rows := by
      rw [← hk₂.1]
      unfold materializeIfCompleted at h₃
      split at h₃
      · have hm := materializeRemoteFinalAnswer_history hr₂ h₃
        exact ⟨hm.1,hm.2,(materializeRemoteFinalAnswer_rows h₃).2⟩
      · obtain ⟨rfl,rfl⟩ := pure_ok.mp h₃
        exact ⟨.refl,hr₂,rfl⟩
    obtain ⟨hm₃,hr₃,hrows₃⟩ := hm₃
    split at h
    · rw [← (pure_ok.mp h).2]
      exact hm₃
    · rename_i hne
      simp only [bind_ok,pure_ok] at h
      obtain ⟨_,db₄,h₄,_,db₅,h₅,_,rfl⟩ := h
      have hkey₃ : r₃.taskId = r.taskId := Table.key_of_get hr₃
      have hhead : r₃.head = r.head := by
        have htask := rows_task_of_get hr₃
        rw [hrows₃,rows_task_of_get hr₂] at htask
        exact (Option.some.inj htask).symm
      have hstatus : r₃.status = r.status := congrArg TaskHead.status hhead
      have hagent : r₃.assignedAgentId = r.assignedAgentId :=
        congrArg TaskHead.assignedAgentId hhead
      rw [hkey₃] at h₄ h₅
      refine hm₃.trans (updateTaskStatus_history hr₃ (fun heq => hne heq.symm) ?_ ?_ (by decide) h₄ h₅)
      · have hmem : remoteTaskStatus snapshot.status r.status ∈
            remoteProxySnapshotTransitions r.status := by
          have haccepts : acceptsRemoteProxySnapshot r.status
              (remoteTaskStatus snapshot.status r.status) = true := by simpa using haccepts
          rw [hstatus] at hne
          simpa [acceptsRemoteProxySnapshot,Ne.symm hne] using haccepts
        simpa [AdvancesTo,StatusEdge,TaskRecord.lifecycle,hagent,hremote,hstatus] using hmem
      · intro hlocal
        rw [TaskRecord.lifecycle,hagent] at hlocal
        exact absurd hlocal hremote

end Remote

section Ledger

open MainAgentToolInvocationLedger

/-- A created invocation is put beside its task, whose context it names. -/
theorem createOrGetToolInvocation_history {new : NewToolInvocation} {now : Nat}
    {r : ToolInvocationRecord} (h : (createOrGetToolInvocation new now).run db = .ok (r,db')) :
    HistoryMoves Plain db.history db'.history := by
  simp only [createOrGetToolInvocation,requireInvocationOwner,bind_ok,require_ok,requireTask_ok,
    getToolInvocation_ok] at h
  obtain ⟨_,_,⟨_,rfl⟩,_,_,⟨_,rfl⟩,_,_,⟨task,_,⟨htask,rfl⟩,_,_,⟨hcontext,rfl⟩,_,_,⟨_,rfl⟩,_,rfl⟩,
    _,_,⟨_,rfl⟩,h⟩ := h
  split at h
  · simp only [validateToolInvocationIdentity,bind_ok,require_ok,pure_ok] at h
    obtain ⟨_,_,⟨_,rfl⟩,_,rfl⟩ := h
    exact .refl
  · simp only [getToolInvocationByExecutionIdentity,bind_ok,run_select,Except.ok.injEq,
      Prod.mk.injEq] at h
    obtain ⟨_,_,⟨_,rfl⟩,h⟩ := h
    split at h
    · simp only [validateToolInvocationIdentity,bind_ok,require_ok,pure_ok] at h
      obtain ⟨_,_,⟨_,rfl⟩,_,rfl⟩ := h
      exact .refl
    · simp only [insertToolInvocation,uniqueConstraint,run_statement,bind_ok,run_select,require_ok,
        write?_ok,Except.ok.injEq,Prod.mk.injEq,Option.map_eq_some_iff,getToolInvocation_ok,
        orFail_ok] at h
      obtain ⟨_,_,⟨_,_,⟨rfl,rfl⟩,_,_,⟨_,rfl⟩,rows,hrows,rfl⟩,_,_,⟨_,rfl⟩,_,rfl⟩ := h
      have hget := Table.get_insert? hrows
      have hinvoke : ({db with toolInvocations := rows} : AgentDb).history =
          db.history.invoke new.invocationId new.taskId task.contextId := by
        refine History.ext_log (fun _ => rfl) rfl (funext fun id => ?_) rfl
        by_cases hid : id = new.invocationId
        · subst hid
          simp [AgentDb.history,History.invoke,hget,NewToolInvocation.record,hcontext]
        · have hid' : new.invocationId ≠ id := fun h => hid h.symm
          simp [AgentDb.history,History.invoke,hget,NewToolInvocation.record,hid,hid']
      rw [hinvoke]
      exact .single (@HistoryStep.invoked _ _ _ _ task.lifecycle (history_head htask))

theorem history_updateToolInvocations {p : ToolInvocationRecord → Bool}
    {f : ToolInvocationRecord → ToolInvocationRecord}
    {hf : ∀ r, (f r).invocationId = r.invocationId}
    (hown : ∀ r, (f r).taskId = r.taskId ∧ (f r).contextId = r.contextId) :
    ({db with toolInvocations := db.toolInvocations.update p f hf} : AgentDb).history =
      db.history := by
  refine History.ext_log (fun _ => rfl) rfl (funext fun id => ?_) rfl
  simp only [AgentDb.history,Table.get_update]
  cases db.toolInvocations.get id with
  | none => rfl
  | some r =>
    simp only [Option.map_some,Option.some.injEq]
    split
    · rw [(hown r).1,(hown r).2]
    · rfl

theorem completeToolInvocationSuccess_history {id : InvocationId} {parts : List Json}
    {metadata : Json} {r : ToolInvocationRecord} (ho : db.history.Owned)
    (h : (completeToolInvocationSuccess id parts metadata).run db = .ok (r,db')) :
    HistoryMoves Plain db.history db'.history := by
  obtain ⟨r₀,_,h₁,h⟩ := (bind_ok _ _).mp h
  obtain ⟨hr,rfl⟩ := requireToolInvocation_ok.mp h₁
  split at h
  · rw [(pure_ok.mp h).2]
  · simp only [bind_ok,require_ok,updateToolInvocations_ok,getToolInvocation_ok,orFail_ok] at h
    obtain ⟨_,_,⟨hrun,rfl⟩,a,db₁,hu,_,db₂,he,_,_,rfl,_,_,⟨_,rfl⟩,_,rfl⟩ := h
    have howner : db.history.contextOf r₀.taskId = some r₀.contextId := by
      refine ho id r₀.taskId r₀.contextId ?_
      rw [AgentDb.invocation] at hr
      simp [AgentDb.history,hr]
    have hm : HistoryMoves Plain db.history db₂.history :=
      upsertArtifact_noted howner (by simp) (by simp [artifactEventTypes]) rfl hu he
    rw [history_updateToolInvocations]
    · exact hm
    · exact fun _ => ⟨rfl,rfl⟩

theorem prepare_history {env : LedgerEnv} {thread : Option ThreadId} {loopIndex : Int}
    {call : ToolCall} {metadata : ToolMetadata} {approvalRequired : Bool} {now : Nat}
    {reference : Option ToolInvocationReference}
    (h : (prepare env thread loopIndex call metadata approvalRequired now).run db
      = .ok (reference,db')) : HistoryMoves Plain db.history db'.history := by
  unfold prepare at h
  split at h
  · rw [(pure_ok.mp h).2]
  · simp only [ite_run] at h
    split at h
    · rw [(pure_ok.mp h).2]
    · obtain ⟨_,_,hs,h⟩ := (bind_ok _ _).mp h
      cases hs
      split at h
      · rw [(pure_ok.mp h).2]
      · have hprior : ∀ new, Keeps (fun db => db) (priorInvocation new) :=
          fun new => .bind (.select _) fun o => by
            cases o with
            | none => exact .select _
            | some _ => exact .pure _
        obtain ⟨_,_,hp,h⟩ := (bind_ok _ _).mp h
        cases hprior _ _ _ _ hp
        split at h
        · rw [(pure_ok.mp h).2]
        · obtain ⟨_,h,_⟩ := (map_ok _ _).mp h
          exact createOrGetToolInvocation_history h

theorem LedgerOp.txn_history (env : LedgerEnv) {op : LedgerOp} {u : Unit} (ho : db.history.Owned)
    (h : (op.txn env).run db = .ok (u,db')) : HistoryMoves Plain db.history db'.history := by
  have hledger : op.requested env db = none →
      Keeps (fun db : AgentDb => {db with toolInvocations := .empty}) (op.txn env) →
      HistoryMoves Plain db.history db'.history := by
    intro hnone hkeeps
    have hm := op.txn_moves env h
    rw [hnone] at hm
    rw [history_of_moves (hkeeps _ _ _ h) hm]
  cases op with
  | prepare =>
    obtain ⟨_,h,_⟩ := (map_ok _ _).mp h
    exact prepare_history h
  | createOrGet =>
    obtain ⟨_,h,_⟩ := (map_ok _ _).mp h
    exact createOrGetToolInvocation_history h
  | resolveApproval =>
    exact hledger rfl (.map _ (resolveToolInvocationApproval_keeps (fun _ _ => rfl) _ _ _ _ _ _))
  | begin => exact hledger rfl (.map _ (.map _ (beginToolInvocation_keeps (fun _ _ => rfl) _)))
  | finish id response =>
    cases hfailed : failedToolResponse env response with
    | some failure =>
      refine hledger rfl (.map _ ?_)
      simp only [finishExecution,hfailed]
      exact markToolInvocationUncertain_keeps (fun _ _ => rfl) _ _ _ _
    | none =>
      obtain ⟨_,h,_⟩ := (map_ok _ _).mp h
      simp only [finishExecution,hfailed] at h
      exact completeToolInvocationSuccess_history ho h
  | complete =>
    obtain ⟨_,h,_⟩ := (map_ok _ _).mp h
    exact completeToolInvocationSuccess_history ho h
  | markUncertain =>
    exact hledger rfl (.map _ (markToolInvocationUncertain_keeps (fun _ _ => rfl) _ _ _ _))
  | cancel => exact hledger rfl (.map _ (cancelToolInvocation_keeps (fun _ _ => rfl) _ _))
  | cancelPrepared =>
    exact hledger rfl (.map _ (cancelPreparedToolInvocations_keeps (fun _ _ => rfl) _ _))
  | markRunningUncertain =>
    exact hledger rfl (.map _ (markRunningToolInvocationsUncertain_keeps (fun _ _ => rfl) _ _ _ _))

end Ledger

namespace CoreTxn

/-- Whether the transaction is the recovery failure of the task. -/
def recovers : CoreTxn → TaskId → Prop
  | recordRuntimeRecoveryFailure taskId _ _ => fun t => t = taskId
  | _ => fun _ => False

/-- The special statuses that the transaction puts a local task into. -/
def special : CoreTxn → TaskId → TaskStatus → Prop
  | cancelTask taskId _ _ => Requests taskId
  | recordLocalTaskResult taskId _ _ _ _ => Outcomes taskId
  | _ => fun _ _ => False

/-- The status changes that the transaction can make. -/
def allows (c : CoreTxn) (t : TaskId) (head : LifecycleHead) (target : TaskStatus) : Prop :=
  c.recovers t ∧ target = .failed ∨ Orderly c.special t head target

theorem history_of_keeps {α : Type} {x : StoreTxn α} {a : Option PostCommitAction}
    {R : History → History → Prop} (hx : Keeps AgentDb.history x)
    (h : ((fun _ => none) <$> x).run db = .ok (a,db')) :
    Relation.ReflTransGen R db.history db'.history := by
  obtain ⟨_,h,_⟩ := (map_ok _ _).mp h
  rw [hx _ _ _ h]

/-- Every transaction moves the history by the steps of its operations. -/
theorem txn_history (core : CoreEnv) (env : LedgerEnv) {c : CoreTxn} {a : Option PostCommitAction}
    (hc : Coupled db.rows) (ho : db.history.Owned) (h : (c.txn core env).run db = .ok (a,db')) :
    HistoryMoves c.allows db.history db'.history := by
  have horderly : HistoryMoves (Orderly c.special) db.history db'.history →
      HistoryMoves c.allows db.history db'.history := .mono fun _ _ _ => .inr
  cases c with
  | upsertRegisteredAgent =>
    exact history_of_keeps (upsertRegisteredAgent_keeps (fun _ _ => rfl) _) h
  | prepareMessage =>
    exact history_of_keeps (prepareMessage_keeps (fun _ _ => rfl)
      (fun _ _ _ _ _ => appendMessage_history _ _ _ _ _ _) (fun _ _ => rfl) _ _ _ _) h
  | recordMessageIngressFailure =>
    exact history_of_keeps (failMessageIngress_keeps (fun _ _ => rfl) _ _) h
  | recordMessageIngressRoute =>
    exact history_of_keeps (recordMessageIngressRoute_keeps (fun _ _ => rfl) (fun _ _ => rfl)
      _ _ _ _) h
  | completeLocalMessage =>
    exact history_of_keeps (completeLocalMessage_keeps
      (fun _ _ _ _ _ => appendMessage_history _ _ _ _ _ _) (fun _ _ => rfl) _ _ _ _ _) h
  | completeRemoteMessage =>
    exact history_of_keeps (completeRemoteMessage_keeps
      (fun _ _ _ _ _ => appendMessage_history _ _ _ _ _ _) (fun _ _ => rfl) _ _ _ _ _ _ _
      fun _ => createDelegatedTask_history _) h
  | failInProgressMessageIngresses =>
    exact history_of_keeps (failInProgressMessageIngresses_keeps (fun _ _ => rfl) _) h
  | ledger op =>
    obtain ⟨_,h,_⟩ := (map_ok _ _).mp h
    exact horderly (op.txn_history env ho h).orderly
  | acceptLocalTask =>
    obtain ⟨_,h,_⟩ := (map_ok _ _).mp h
    exact horderly (acceptLocalTaskFromMessage_history h).orderly
  | retryTask =>
    obtain ⟨_,h,_⟩ := (map_ok _ _).mp h
    exact horderly (acceptRetry_history h).orderly
  | resolveApproval taskId approved reason =>
    obtain ⟨_,h,_⟩ := (map_ok _ _).mp h
    refine horderly (acceptPendingContinuation_history ?_ h).orderly
    cases nonEmpty reason <;> rfl
  | submitTaskInput =>
    obtain ⟨_,h,_⟩ := (map_ok _ _).mp h
    exact horderly (submitTaskInput_history h).orderly
  | completeRemoteTask =>
    obtain ⟨_,h,_⟩ := (map_ok _ _).mp h
    exact horderly (completeRemoteTask_history h).orderly
  | recordRemoteSnapshot =>
    obtain ⟨_,h,_⟩ := (map_ok _ _).mp h
    exact horderly (recordRemoteSnapshot_history hc h).orderly
  | cancelTask =>
    obtain ⟨_,h,_⟩ := (map_ok _ _).mp h
    exact horderly (commitCancellation_history h)
  | claimLocalExecution =>
    obtain ⟨_,h,_⟩ := (map_ok _ _).mp h
    exact horderly (claimLocalExecution_history h).orderly
  | recordLocalTaskResult =>
    obtain ⟨_,h,_⟩ := (map_ok _ _).mp h
    exact horderly (recordLocalResult_history h)
  | recordLocalTaskFailure =>
    obtain ⟨_,h,_⟩ := (map_ok _ _).mp h
    exact horderly (recordFailure_history h).orderly
  | recordTaskCancellation =>
    obtain ⟨_,h,_⟩ := (map_ok _ _).mp h
    exact horderly (recordCancellation_history h).orderly
  | recordRuntimeRecoveryFailure =>
    obtain ⟨_,h,_⟩ := (map_ok _ _).mp h
    refine (recordRuntimeRecoveryFailure_history h).mono fun _ _ _ hallow => ?_
    exact hallow.imp_right fun hplain => hplain

end CoreTxn

end VermayAgent
