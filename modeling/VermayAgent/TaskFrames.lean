import VermayAgent.CoreTxns

/-! What the progress of tasks leaves alone.
An observation that looks neither at the changing columns of the tasks nor at their events,
requests, commands and invocations is kept by every operation that only moves a task on. -/
namespace VermayAgent
open Library Txn MainAgentStore

/-- The columns of a task that are written once. -/
structure TaskOrigin where
  taskId : TaskId
  contextId : ContextId
  inputMessageId : MessageId
  inputContextSequence : Nat
  runtimeThreadId : ThreadId
  assignedAgentId : Option AgentId
  retryOfTaskId : Option TaskId
  attempt : Nat
deriving DecidableEq

def TaskRecord.origin (r : TaskRecord) : TaskOrigin :=
  ⟨r.taskId,r.contextId,r.inputMessageId,r.inputContextSequence,r.runtimeThreadId,
    r.assignedAgentId,r.retryOfTaskId,r.attempt⟩

/-- Texts that end differently at the same distance from their ends are different. -/
theorem append_ne_append {a b : String} (i : Nat) (ha : i < a.toList.length)
    (hb : i < b.toList.length) (hne : a.toList.reverse[i]? ≠ b.toList.reverse[i]?)
    (s s' : String) : s ++ a ≠ s' ++ b := by
  intro h
  have hlist := congrArg (fun x => x.toList.reverse[i]?) h
  simp only [String.toList_append,List.reverse_append] at hlist
  rw [List.getElem?_append_left (by rwa [List.length_reverse]),
    List.getElem?_append_left (by rwa [List.length_reverse])] at hlist
  exact hne hlist

structure IgnoresProgress {γ : Type} (v : AgentDb → γ) : Prop where
  tasks : ∀ db p f hf, (∀ r, TaskRecord.origin (f r) = r.origin) →
    v {db with tasks := db.tasks.update p f hf} = v db
  taskEvents : ∀ db taskEvents nextEventId, v {db with taskEvents, nextEventId} = v db
  pendingContinuations : ∀ db pendingContinuations, v {db with pendingContinuations} = v db
  queuedExecutions : ∀ db queuedExecutions, v {db with queuedExecutions} = v db
  toolInvocations : ∀ db toolInvocations, v {db with toolInvocations} = v db

namespace IgnoresProgress

variable {γ : Type} {v : AgentDb → γ} {t : TaskId} (hv : IgnoresProgress v)
include hv

section Store

theorem updateTask (f : TaskRecord → TaskRecord) (hf : ∀ r, (f r).taskId = r.taskId)
    (horigin : ∀ r, (f r).origin = r.origin) : Keeps v (updateTask t f hf) :=
  .write fun db => hv.tasks db _ _ _ horigin

theorem appendTaskEvent (type : String) (status : Option TaskStatus) (payload : Json) :
    Keeps v (appendTaskEvent t type status payload) :=
  appendTaskEvent_keeps hv.taskEvents _ _ _ _

theorem upsertArtifact {artifactId : ArtifactId} (ha : ∀ db artifacts,
      (∀ id, id ≠ artifactId → artifacts.get id = db.artifacts.get id) →
      v {db with artifacts} = v db) (contextId : ContextId) (parts : List Json) (metadata : Json) :
    Keeps v (upsertArtifact artifactId t contextId parts metadata) :=
  upsertArtifact_keeps ha (fun db _ => hv.tasks db _ _ _ fun _ => rfl) _ _ _ _

theorem transitionLocalTask (target : TaskStatus) (payload : Json) (error : TaskError) :
    Keeps v (transitionLocalTask t target payload error) :=
  .bind (requireTask_keeps _) fun _ => .bind (.require _ _) fun _ => .bind (.ofExcept _) fun _ =>
    .ite (.pure _) (.bind (.ofExcept _) fun _ => .bind (hv.updateTask _ _ fun _ => rfl) fun _ =>
    .bind (.select _) fun _ => .bind (.orFail _ _) fun _ =>
    .bind (hv.appendTaskEvent _ _ _) fun _ => .pure _)

theorem updateTaskStatus (status : TaskStatus) (error : TaskError) :
    Keeps v (updateTaskStatus t status error) :=
  .bind (requireTask_keeps _) fun _ => .ite (.pure _) (.bind (hv.updateTask _ _ fun _ => rfl)
    fun _ => .bind (.select _) fun _ => .orFail _ _)

theorem setTaskOutputMessage (messageId : MessageId) :
    Keeps v (setTaskOutputMessage t messageId) :=
  .bind (.select _) fun _ => .bind (.orFail _ _) fun _ => .bind (requireTask_keeps _) fun _ =>
    .ite (.pure _) (.bind (hv.updateTask _ _ fun _ => rfl) fun _ => .bind (.select _) fun _ =>
    .orFail _ _)

theorem setPendingContinuation (kind : String) (inputRequest : Json) :
    Keeps v (setPendingContinuation t kind inputRequest) := by
  refine .bind (requireTask_keeps _) fun _ => .bind (.require _ _) fun _ =>
    .bind (.statement (.bind (.select _) fun o => ?_)) fun _ => .bind (.select _) fun _ =>
    .orFail _ _
  cases o with
  | some current => exact .write fun db => hv.pendingContinuations db _
  | none =>
    refine .write? fun db db' h => ?_
    obtain ⟨rows,_,rfl⟩ := Option.map_eq_some_iff.mp h
    exact hv.pendingContinuations db rows

theorem clearPendingContinuation : Keeps v (clearPendingContinuation t) :=
  .write fun db => hv.pendingContinuations db _

theorem clearQueuedTaskExecution : Keeps v (clearQueuedTaskExecution t) :=
  .write fun db => hv.queuedExecutions db _

omit hv in
theorem requirePending (kind : String) : Keeps v (requirePending t kind) :=
  .bind (.select _) fun _ => .bind (.orFail _ _) fun _ => .bind (.require _ _) fun _ => .pure _

theorem consumePendingContinuation (kind : String) :
    Keeps v (consumePendingContinuation t kind) :=
  .bind (requirePending _) fun _ => .bind (.statement (.bind (.select _) fun _ =>
    .bind (.write fun db => hv.pendingContinuations db _) fun _ => .pure _)) fun _ =>
    .bind (.require _ _) fun _ => .pure _

omit hv in
theorem getQueuedTaskExecution : Keeps v (getQueuedTaskExecution t) := by
  refine .bind (.select _) fun o => ?_
  cases o with
  | none => exact .pure _
  | some row => exact .map _ (.ofExcept _)

theorem enqueueTaskExecution (kind : QueuedTaskExecutionKind) (thread : ThreadId)
    (payload : Option QueuedTaskExecutionPayload) (version : Int) :
    Keeps v (enqueueTaskExecution t kind thread payload version) := by
  refine .bind (requireTask_keeps _) fun _ => .bind (.require _ _) fun _ => .bind (.require _ _)
    fun _ => .bind (.require _ _) fun _ => .bind (.require _ _) fun _ =>
    .bind (normalizedPayload_keeps _ _) fun _ => .bind (.ofExcept _) fun _ =>
    .bind getQueuedTaskExecution fun o => ?_
  cases o with
  | some existing => exact .bind (.require _ _) fun _ => .pure _
  | none =>
    refine .bind (.write? fun db db' h => ?_) fun _ => .bind getQueuedTaskExecution fun _ =>
      .orFail _ _
    obtain ⟨rows,_,rfl⟩ := Option.map_eq_some_iff.mp h
    exact hv.queuedExecutions db rows

theorem claimQueuedTaskExecution : Keeps v (claimQueuedTaskExecution t) := by
  refine .bind (requireTask_keeps _) fun _ => .ite (.pure _) (.bind getQueuedTaskExecution
    fun o => ?_)
  cases o with
  | none => exact .pure _
  | some command =>
    exact .bind (.require _ _) fun _ => .bind (.statement (.bind (.select _) fun _ =>
      .bind hv.clearQueuedTaskExecution fun _ => .pure _)) fun _ => .ite (.pure _)
      (.bind (hv.transitionLocalTask _ _ _) fun _ => .pure _)

end Store

section Recorders

open TaskOutcomeRecorder

theorem closeUnresolvedExecution (errorCode errorMessage preparedReason : String)
    (retryable : Bool) :
    Keeps v (closeUnresolvedExecution t errorCode errorMessage retryable preparedReason) :=
  .bind (markRunningToolInvocationsUncertain_keeps hv.toolInvocations _ _ _ _) fun _ =>
    .bind (cancelPreparedToolInvocations_keeps hv.toolInvocations _ _) fun _ =>
    .bind hv.clearPendingContinuation fun _ => hv.clearQueuedTaskExecution

theorem recordCancellation : Keeps v (recordCancellation t) :=
  .bind (requireTask_keeps _) fun _ => .ite (.pure _) (.bind (hv.transitionLocalTask _ _ _)
    fun _ => .bind (hv.closeUnresolvedExecution _ _ _ _) fun _ => .pure _)

theorem unlessEnded {record : TaskRecord → StoreTxn TaskRecord} (hr : ∀ r, Keeps v (record r)) :
    Keeps v (unlessEnded t record) :=
  .bind (requireTask_keeps _) fun _ => .ite (.pure _) (.ite hv.recordCancellation (hr _))

theorem recordFailure (error : PyException) : Keeps v (recordFailure t error) :=
  hv.unlessEnded fun _ => .bind (hv.transitionLocalTask _ _ _) fun _ =>
    .bind (hv.closeUnresolvedExecution _ _ _ _) fun _ => .pure _

theorem recordRuntimeRecoveryFailure (errorCode errorMessage : String) :
    Keeps v (recordRuntimeRecoveryFailure t errorCode errorMessage) :=
  .bind (requireTask_keeps _) fun _ => .ite (.pure _) (.bind (hv.transitionLocalTask _ _ _)
    fun _ => .bind (hv.closeUnresolvedExecution _ _ _ _) fun _ => .pure _)

end Recorders

section Commands

open MainAgentCore

omit hv in
theorem validatePendingContinuation (kind operation : String) :
    Keeps v (validatePendingContinuation t kind operation) :=
  .bind (requireTask_keeps _) fun _ => .bind (.require _ _) fun _ => .bind (requirePending _)
    fun _ => .pure _

theorem acceptPendingContinuation (expectedKind operation : String) (resumePayload : Json)
    (kind : QueuedTaskExecutionKind) (payload : QueuedTaskExecutionPayload) :
    Keeps v (acceptPendingContinuation t expectedKind operation resumePayload kind payload) := by
  have hresolve : ∀ pending, Keeps v
      (resolveBoundApproval t expectedKind pending resumePayload) := fun _ =>
    .ite (.bind (resolvePendingToolInvocationApproval_keeps hv.toolInvocations _ _ _ _) fun _ =>
      .pure _) (.pure _)
  exact .bind (validatePendingContinuation _ _) fun _ => .bind (hv.consumePendingContinuation _)
    fun _ => .bind (hresolve _) fun _ => .bind (hv.appendTaskEvent _ _ _) fun _ =>
    .bind (hv.transitionLocalTask _ _ _) fun _ => .bind (hv.enqueueTaskExecution _ _ _ _) fun _ =>
    .pure _

theorem submitTaskInput (hm : ∀ messageId contextId parts metadata,
      Keeps v (appendMessage messageId contextId .user parts (some t) metadata))
    (request : MainAgentRequest) (messageId : MessageId) :
    Keeps v (submitTaskInput t request messageId) :=
  .bind (.require _ _) fun _ => .bind (.require _ _) fun _ =>
    .bind (validatePendingContinuation _ _) fun _ => .bind (.require _ _) fun _ =>
    .bind (hm _ _ _ _) fun _ => .bind (hv.appendTaskEvent _ _ _) fun _ =>
    hv.acceptPendingContinuation _ _ _ _ _

theorem commitCancellation (reason : Option String) (active : Bool) :
    Keeps v (commitCancellation t reason active) := by
  have hdirect : ∀ payload, Keeps v (cancelDirectly t reason payload) := fun _ =>
    .bind (hv.transitionLocalTask _ _ _) fun _ =>
      .bind (cancelPreparedToolInvocations_keeps hv.toolInvocations _ _) fun _ =>
      .bind hv.clearPendingContinuation fun _ => .bind hv.clearQueuedTaskExecution fun _ => .pure _
  exact .bind (requireTask_keeps _) fun _ => .bind (.require _ _) fun _ => .ite (.pure _)
    (.ite (.bind (hv.transitionLocalTask _ _ _) fun _ => .ite (.pure _) (hdirect _)) (hdirect _))

theorem claimLocalExecution : Keeps v (claimLocalExecution t) := by
  refine .bind hv.claimQueuedTaskExecution fun o => ?_
  cases o with
  | none => exact .pure _
  | some claimed =>
    exact .ite (.bind (.require _ _) fun _ => .bind (.select _) fun _ => .pure _) (.pure _)

end Commands
end IgnoresProgress
end VermayAgent
