import VermayAgent.InvocationLedger
import VermayAgent.RowEvents

/-! The event of each lifecycle transaction: acceptance, continuation, cancellation, claim,
retry and the record of a remote snapshot. Ledger operations are none. -/
namespace VermayAgent
open Library Txn MainAgentStore RowEvent

variable {db db' : AgentDb}

section Ledger

/-- The operations that may store a result. -/
def LedgerOp.stores : LedgerOp → Bool
  | .finish _ _ | .complete _ _ _ => true
  | _ => false

section Keeps

variable {γ : Type} {v : AgentDb → γ}
  (hv : ∀ db toolInvocations, v {db with toolInvocations} = v db)
include hv

/-- The others write the rows of the ledger alone. -/
theorem LedgerOp.txn_keeps_rows (env : LedgerEnv) {op : LedgerOp} (hop : op.stores = false) :
    Keeps v (op.txn env) := by
  cases op with
  | prepare thread loopIndex call metadata approvalRequired now =>
    refine .map _ ?_
    cases thread with
    | none => exact .pure _
    | some thread =>
      refine .ite (.pure _) (.bind (.select _) fun task => ?_)
      cases MainAgentToolInvocationLedger.invocationRequest env task thread loopIndex call metadata
          approvalRequired with
      | none => exact .pure _
      | some new =>
        have hprior : Keeps v (MainAgentToolInvocationLedger.priorInvocation new) := by
          refine .bind (.select _) fun o => ?_
          cases o with
          | some r => exact .pure _
          | none => exact .select _
        refine .bind hprior fun prior => ?_
        cases prior.filter fun r => blocksReplay r.status with
        | some r => exact .pure _
        | none => exact .map _ (createOrGetToolInvocation_keeps hv _ _)
  | createOrGet new now => exact .map _ (createOrGetToolInvocation_keeps hv _ _)
  | resolveApproval => exact .map _ (resolveToolInvocationApproval_keeps hv _ _ _ _ _ _)
  | begin id => exact .map _ (.map _ (beginToolInvocation_keeps hv _))
  | finish | complete => cases hop
  | markUncertain => exact .map _ (markToolInvocationUncertain_keeps hv _ _ _ _)
  | cancel => exact .map _ (cancelToolInvocation_keeps hv _ _)
  | cancelPrepared => exact .map _ (cancelPreparedToolInvocations_keeps hv _ _)
  | markRunningUncertain => exact .map _ (markRunningToolInvocationsUncertain_keeps hv _ _ _ _)

theorem LedgerOp.txn_keeps (hartifact : ∀ id taskId contextId parts metadata,
      Keeps v (upsertArtifact (id ++ ":result") taskId contextId parts metadata))
    (hevent : ∀ taskId type status payload, Keeps v (appendTaskEvent taskId type status payload))
    (env : LedgerEnv) (op : LedgerOp) : Keeps v (op.txn env) := by
  have hcomplete : ∀ id parts metadata,
      Keeps v (completeToolInvocationSuccess id parts metadata) := by
    intro id parts metadata
    exact .bind (.bind (.select _) fun _ => .orFail _ _) fun _ => .ite (.pure _)
      (.bind (.require _ _) fun _ => .bind (hartifact _ _ _ _ _) fun _ =>
      .bind (hevent _ _ _ _) fun _ => .bind (updateToolInvocations_keeps hv _ _ _)
      fun _ => .bind (.select _) fun _ => .orFail _ _)
  cases op with
  | finish id response =>
    refine .map _ ?_
    unfold MainAgentToolInvocationLedger.finishExecution
    split
    · exact markToolInvocationUncertain_keeps hv _ _ _ _
    · exact hcomplete _ _ _
  | complete id parts metadata => exact .map _ (hcomplete _ _ _)
  | _ => exact LedgerOp.txn_keeps_rows hv env rfl

end Keeps

theorem LedgerOp.txn_rows (env : LedgerEnv) (op : LedgerOp) : Keeps AgentDb.rows (op.txn env) :=
  op.txn_keeps (fun _ _ => rfl) (fun _ _ _ _ _ => upsertArtifact_rows _ _ _ _)
    (fun _ _ _ _ => appendTaskEvent_rows _ _ _) env

end Ledger

section Acceptance

theorem createLocalTask_rows {taskId : TaskId} {contextId : ContextId} {messageId : MessageId}
    {thread : ThreadId} {retryOf : Option TaskId} {attempt : Nat} {task : TaskRecord}
    (h : (createLocalTask taskId contextId messageId thread retryOf attempt).run db
      = .ok (task,db')) :
    Fresh db.rows taskId task.head.runtimeThreadId ∧ task.taskId = taskId ∧
      task.head.assignedAgentId = none ∧ 0 < task.head.inputContextSequence ∧
      db'.rows = db.rows.modify taskId (TaskRows.setTask task.head) := by
  simp only [createLocalTask,bind_ok,pure_ok] at h
  obtain ⟨_,db₁,h₁,_,db₂,h₂,rfl,rfl⟩ := h
  obtain ⟨hnone,hthread,hid,_,hlocal,hthread',hseq,hrows⟩ := createTask_rows h₁
  have hkeep := appendTaskEvent_rows _ _ _ _ _ _ h₂
  refine ⟨⟨hnone,fun t head hhead => ?_⟩,hid,hlocal,hseq,hkeep.trans hrows⟩
  have hne := hthread t head hhead
  exact fun heq => hne (heq.trans hthread')

/-- A queued acceptance creates the task and its first command at once. -/
theorem acceptLocalTaskFromMessage_rows {a : LocalTaskAcceptance} {decision : RouteDecisionRecord}
    {task : TaskRecord} (hqueue : a.queueExecution = true)
    (h : (acceptLocalTaskFromMessage a).run db = .ok ((decision,task),db')) :
    task.taskId = a.taskId ∧ ∃ head row, (accepted head row).Enabled db.rows a.taskId ∧
      db'.rows = db.rows.modify a.taskId (accepted head row).apply := by
  simp only [acceptLocalTaskFromMessage,hqueue,if_true,bind_ok,require_ok,pure_ok,
    Prod.mk.injEq] at h
  obtain ⟨_,_,⟨_,rfl⟩,_,db₁,h₁,_,db₂,h₂,created,db₃,h₃,_,db₄,h₄,queued,db₅,h₅,_,db₆,h₆,⟨_,rfl⟩,
    rfl⟩ := h
  have hkeep₁ := recordRouteDecision_keeps (v := AgentDb.rows) (fun _ _ => rfl) _ _ _ _ h₁
  have hkeep₂ := setMessageIngressRouteDecision_keeps (v := AgentDb.rows) (fun _ _ => rfl)
    _ _ _ _ _ h₂
  have hkeep₄ := resolveMessageIngress_keeps (v := AgentDb.rows) (fun _ _ => rfl) _ _ _ _ _ _ h₄
  obtain ⟨hfresh,hid,hlocal,hseq,hrows₃⟩ := createLocalTask_rows h₃
  rw [hkeep₂,hkeep₁] at hfresh hrows₃
  obtain ⟨⟨head,htask,_,_,hqueued,hid'⟩,hrows₅⟩ := transitionLocalTask_rows h₅
  rw [hid] at htask hid' hrows₅
  simp only [hkeep₄,hrows₃,Rows.modify_self,TaskRows.setTask,Option.some.injEq] at htask
  obtain ⟨row,hdecode,hthread,hrows₆⟩ := enqueueTaskExecution_rows h₆
  rw [hid'] at hrows₆
  refine ⟨hid',queued.head,row,⟨?_,by rw [hqueued],?_,?_,?_,_,hdecode⟩,?_⟩
  · rw [hqueued,← htask]
    exact hfresh
  · rw [hqueued,← htask]
    exact hlocal
  · rw [hqueued,← htask]
    exact hseq
  · exact hthread
  · rw [hrows₆,hrows₅,hkeep₄,hrows₃,Rows.modify_modify,Rows.modify_modify,hqueued,htask]
    rfl

end Acceptance

section Continuation

variable {taskId : TaskId}

theorem resolveBoundApproval_rows (kind : String) (pending : PendingContinuationRecord)
    (payload : Json) :
    Keeps AgentDb.rows (MainAgentCore.resolveBoundApproval taskId kind pending payload) :=
  .ite (.bind (resolvePendingToolInvocationApproval_keeps (fun _ _ => rfl) _ _ _ _) fun _ =>
    .pure _) (.pure _)

theorem validatePendingContinuation_ok {kind operation : String} {task : TaskRecord}
    (h : (MainAgentCore.validatePendingContinuation taskId kind operation).run db
      = .ok (task,db')) :
    db.tasks.get taskId = some task ∧ (task.status = .inputRequired ∨ task.status = .authRequired) ∧
      db = db' := by
  simp only [MainAgentCore.validatePendingContinuation,bind_ok,requireTask_ok,require_ok,
    requirePending_ok,pure_ok] at h
  obtain ⟨_,_,⟨hr,rfl⟩,_,_,⟨hs,rfl⟩,_,_,⟨_,_,rfl⟩,rfl,rfl⟩ := h
  exact ⟨hr,hs,rfl⟩

/-- An accepted continuation consumes the pending request and queues the next command. -/
theorem acceptPendingContinuation_rows {expectedKind operation : String} {resumePayload : Json}
    {kind : QueuedTaskExecutionKind} {payload : QueuedTaskExecutionPayload} {task : TaskRecord}
    (h : (MainAgentCore.acceptPendingContinuation taskId expectedKind operation resumePayload kind
      payload).run db = .ok (task,db')) :
    task.taskId = taskId ∧ ∃ row, (resumed expectedKind row).Enabled db.rows taskId ∧
      db'.rows = db.rows.modify taskId (resumed expectedKind row).apply := by
  simp only [MainAgentCore.acceptPendingContinuation,bind_ok,pure_ok] at h
  obtain ⟨before,_,h₀,pending,db₁,h₁,_,db₂,h₂,_,db₃,h₃,queued,db₄,h₄,_,db₅,h₅,rfl,rfl⟩ := h
  obtain ⟨hbefore,hstatus,rfl⟩ := validatePendingContinuation_ok h₀
  obtain ⟨hpending,hkind,hrows₁⟩ := consumePendingContinuation_rows h₁
  have hkeep : db₃.rows = db₁.rows := by
    rw [appendTaskEvent_rows _ _ _ _ _ _ h₃,resolveBoundApproval_rows _ _ _ _ _ _ h₂]
  obtain ⟨⟨head,htask,hlocal,_,hqueued,hid⟩,hrows₄⟩ := transitionLocalTask_rows h₄
  simp only [hkeep,hrows₁,Rows.modify_self,TaskRows.setPending] at htask
  obtain ⟨row,hdecode,hthread,hrows₅⟩ := enqueueTaskExecution_rows h₅
  rw [hid] at hrows₅
  have hhead : head = before.head := by
    rw [rows_task_of_get hbefore] at htask
    exact (Option.some.inj htask).symm
  have hthread' : row.runtimeThreadId = head.runtimeThreadId :=
    hthread.trans (congrArg TaskHead.runtimeThreadId hqueued)
  refine ⟨hid,row,⟨head,htask,hlocal,?_,?_,hthread',_,hdecode⟩,?_⟩
  · rw [hhead]
    exact hstatus
  · simp [AgentDb.rows,hpending,hkind]
  · rw [hrows₅,hrows₄,hkeep,hrows₁,Rows.modify_modify,Rows.modify_modify]
    rfl

theorem submitTaskInput_rows {request : MainAgentRequest} {newMessageId : MessageId}
    {task : TaskRecord}
    (h : (MainAgentCore.submitTaskInput taskId request newMessageId).run db = .ok (task,db')) :
    task.taskId = taskId ∧ ∃ row, (resumed "user_input_required" row).Enabled db.rows taskId ∧
      db'.rows = db.rows.modify taskId (resumed "user_input_required" row).apply := by
  simp only [MainAgentCore.submitTaskInput,bind_ok,require_ok] at h
  obtain ⟨_,_,⟨_,rfl⟩,_,_,⟨_,rfl⟩,_,_,h₁,_,_,⟨_,rfl⟩,_,db₂,h₂,_,db₃,h₃,h₄⟩ := h
  obtain ⟨_,_,rfl⟩ := validatePendingContinuation_ok h₁
  have hkeep : db₃.rows = db.rows := by
    rw [appendTaskEvent_rows _ _ _ _ _ _ h₃,appendMessage_rows _ _ _ _ _ _ _ _ _ h₂]
  rw [← hkeep]
  exact acceptPendingContinuation_rows h₄

end Continuation

section Cancellation

variable {taskId : TaskId}

theorem cancelDirectly_rows {reason : Option String} {payload : Json}
    {c : MainAgentCore.CommittedCancellation}
    (hopen : ∀ head, (db.rows taskId).task = some head → isTerminalTaskStatus head.status = false)
    (h : (MainAgentCore.cancelDirectly taskId reason payload).run db = .ok (c,db')) :
    RowsMove (Ends taskId) db.rows db'.rows := by
  simp only [MainAgentCore.cancelDirectly,bind_ok,pure_ok] at h
  obtain ⟨_,db₁,h₁,_,db₂,h₂,_,db₃,h₃,_,db₄,h₄,_,rfl⟩ := h
  refine TaskOutcomeRecorder.ended_of_transition rfl hopen h₁ ?_
  rw [clearQueuedTaskExecution_rows h₄,clearPendingContinuation_rows h₃,
    TaskOutcomeRecorder.cancelPrepared_rows _ _ _ _ h₂,Rows.modify_modify]
  rfl

/-- The events of a cancellation command. -/
def Cancels (taskId : TaskId) (t : TaskId) (e : RowEvent) : Prop :=
  Ends taskId t e ∨ t = taskId ∧ e = .cancelRequested

theorem commitCancellation_rows {reason : Option String} {active : Bool}
    {c : MainAgentCore.CommittedCancellation}
    (h : (MainAgentCore.commitCancellation taskId reason active).run db = .ok (c,db')) :
    RowsMove (Cancels taskId) db.rows db'.rows := by
  simp only [MainAgentCore.commitCancellation,bind_ok,requireTask_ok,require_ok,ite_run] at h
  obtain ⟨r,_,⟨hr,rfl⟩,_,_,⟨hopen,rfl⟩,h⟩ := h
  have hhead := TaskOutcomeRecorder.head_open hr hopen
  split at h
  · obtain ⟨_,rfl⟩ := pure_ok.mp h
    exact .inl rfl
  · split at h
    · rename_i hrunning
      simp only [bind_ok,ite_run] at h
      obtain ⟨_,db₁,h₁,h⟩ := h
      obtain ⟨⟨head,htask,hlocal,_⟩,hrows₁⟩ := transitionLocalTask_rows h₁
      have hstatus : head.status = .running := by
        rw [rows_task_of_get hr] at htask
        cases htask
        exact hrunning
      split at h
      · obtain ⟨_,rfl⟩ := pure_ok.mp h
        exact .event (.inr ⟨rfl,rfl⟩) ⟨head,htask,hlocal,hstatus⟩ hrows₁
      · have hopen₁ : ∀ head, (db₁.rows taskId).task = some head →
            isTerminalTaskStatus head.status = false := by
          intro head₁ h₁
          rw [hrows₁,Rows.modify_self,TaskRows.setStatus,htask] at h₁
          cases h₁
          rfl
        -- two transitions in one transaction: the second one decides the rows
        rcases cancelDirectly_rows hopen₁ h with heq | ⟨t,e,⟨rfl,status,rfl⟩,hen,hrows⟩
        · exact .event (.inr ⟨rfl,rfl⟩) ⟨head,htask,hlocal,hstatus⟩ (heq.trans hrows₁)
        · obtain ⟨_,_,_,_,hterminal⟩ := hen
          refine .event (.inl ⟨rfl,status,rfl⟩) ⟨head,htask,hlocal,hhead head htask,hterminal⟩ ?_
          rw [hrows,hrows₁,Rows.modify_modify]
          refine congrArg (Rows.modify db.rows t) (funext fun r => ?_)
          cases r with
          | mk task queued pending delegated => cases task <;> rfl
    · exact (cancelDirectly_rows hhead h).mono fun _ _ h => .inl h

end Cancellation

section Claim

variable {taskId : TaskId}

/-- The write part of a claim, in whatever state it runs: it takes the row that it finds and
makes the task running, or finds none and changes nothing. -/
theorem claimDelete_rows {command : QueuedTaskExecutionRecord}
    {o : Option (TaskRecord × QueuedTaskExecutionRecord)}
    (h : (claimDelete taskId command).run db = .ok (o,db')) :
    (o = none ∧ (db.rows taskId).queued = none ∧ db'.rows = db.rows) ∨
      ∃ task, o = some (task,command) ∧ (db.rows taskId).queued.isSome ∧ task.taskId = taskId ∧
        (db'.rows taskId).task = some task.head ∧ db'.rows = db.rows.modify taskId claimed.apply := by
  simp only [claimDelete,bind_ok,ite_run] at h
  obtain ⟨n,db₁,h₁,h⟩ := h
  obtain ⟨hn,hrows₁⟩ := deleteQueuedTaskExecution_rows h₁
  split at h
  · rename_i hne
    obtain ⟨rfl,rfl⟩ := pure_ok.mp h
    have hnone : (db.rows taskId).queued = none := by
      rw [← Option.not_isSome_iff_eq_none,← hn]
      exact hne
    refine .inl ⟨rfl,hnone,?_⟩
    rw [hrows₁]
    exact Rows.modify_eq_self (by simp [TaskRows.setQueued,← hnone])
  · rename_i hone
    simp only [bind_ok,pure_ok] at h
    obtain ⟨task,_,h₂,rfl,rfl⟩ := h
    obtain ⟨⟨_,_,_,_,_,hid⟩,hrows₂⟩ := transitionLocalTask_rows h₂
    refine .inr ⟨task,rfl,hn.mp (not_not.mp hone),hid,transitionLocalTask_head h₂,?_⟩
    rw [hrows₂,hrows₁,Rows.modify_modify]
    rfl

theorem claimQueuedTaskExecution_none
    (h : (claimQueuedTaskExecution taskId).run db = .ok (none,db')) : db'.rows = db.rows := by
  simp only [claimQueuedTaskExecution,bind_ok,requireTask_ok,ite_run] at h
  obtain ⟨r,_,⟨_,rfl⟩,h⟩ := h
  split at h
  · obtain ⟨_,rfl⟩ := pure_ok.mp h
    rfl
  · simp only [bind_ok] at h
    obtain ⟨o,_,hq,h⟩ := h
    cases o with
    | none =>
      obtain ⟨_,rfl⟩ := getQueuedTaskExecution_none hq
      obtain ⟨_,rfl⟩ := pure_ok.mp h
      rfl
    | some command =>
      obtain ⟨row,hrow,_,rfl⟩ := getQueuedTaskExecution_some hq
      simp only [bind_ok,require_ok] at h
      obtain ⟨_,_,⟨_,rfl⟩,h⟩ := h
      rcases claimDelete_rows h with ⟨_,hnone,_⟩ | ⟨_,ho,_⟩
      · cases hnone.symm.trans hrow
      · cases ho

theorem claimQueuedTaskExecution_some {task : TaskRecord} {command : QueuedTaskExecutionRecord}
    (h : (claimQueuedTaskExecution taskId).run db = .ok (some (task,command),db')) :
    task.taskId = taskId ∧ claimed.Enabled db.rows taskId ∧
      (∃ row, (db.rows taskId).queued = some row ∧ row.decode = .ok command) ∧
      (db'.rows taskId).task = some task.head ∧
      db'.rows = db.rows.modify taskId claimed.apply := by
  simp only [claimQueuedTaskExecution,bind_ok,requireTask_ok,ite_run] at h
  obtain ⟨r,_,⟨hr,rfl⟩,h⟩ := h
  split at h
  · simp at h
  · rename_i hskip
    have hqueued : r.assignedAgentId = none ∧ r.status = .queued := by simpa using hskip
    simp only [bind_ok] at h
    obtain ⟨o,_,hq,h⟩ := h
    cases o with
    | none => simp at h
    | some c =>
      obtain ⟨row,hrow,hdecode,rfl⟩ := getQueuedTaskExecution_some hq
      simp only [bind_ok,require_ok] at h
      obtain ⟨_,_,⟨_,rfl⟩,h⟩ := h
      rcases claimDelete_rows h with ⟨ho,_⟩ | ⟨_,ho,_,hid,hhead,hrows⟩
      · cases ho
      · cases ho
        exact ⟨hid,⟨r.head,row,rows_task_of_get hr,hqueued.1,hqueued.2,hrow⟩,⟨row,hrow,hdecode⟩,
          hhead,hrows⟩

/-- What follows the claim of the command reads only. -/
theorem prepareClaimed_ok {o : Option (TaskRecord × QueuedTaskExecutionRecord)}
    {c : Option MainAgentCore.ClaimedLocalExecution}
    (h : (MainAgentCore.prepareClaimed taskId o).run db = .ok (c,db')) :
    o = c.map (fun c => (c.task,c.command)) ∧ db = db' := by
  cases o with
  | none =>
    obtain ⟨rfl,rfl⟩ := pure_ok.mp h
    exact ⟨rfl,rfl⟩
  | some p =>
    simp only [MainAgentCore.prepareClaimed,ite_run] at h
    split at h
    · simp only [getRouteDecisionByMessageId,bind_ok,require_ok,run_select,pure_ok,
        Except.ok.injEq,Prod.mk.injEq] at h
      obtain ⟨_,_,⟨_,rfl⟩,_,_,⟨_,rfl⟩,rfl,rfl⟩ := h
      exact ⟨rfl,rfl⟩
    · obtain ⟨rfl,rfl⟩ := pure_ok.mp h
      exact ⟨rfl,rfl⟩

theorem claimLocalExecution_none
    (h : (MainAgentCore.claimLocalExecution taskId).run db = .ok (none,db')) :
    db'.rows = db.rows := by
  simp only [MainAgentCore.claimLocalExecution,bind_ok] at h
  obtain ⟨o,db₁,h₁,h⟩ := h
  obtain ⟨rfl,rfl⟩ := prepareClaimed_ok h
  exact claimQueuedTaskExecution_none h₁

theorem claimLocalExecution_some {c : MainAgentCore.ClaimedLocalExecution}
    (h : (MainAgentCore.claimLocalExecution taskId).run db = .ok (some c,db')) :
    c.task.taskId = taskId ∧ claimed.Enabled db.rows taskId ∧
      (∃ row, (db.rows taskId).queued = some row ∧ row.decode = .ok c.command) ∧
      (db'.rows taskId).task = some c.task.head ∧
      db'.rows = db.rows.modify taskId claimed.apply := by
  simp only [MainAgentCore.claimLocalExecution,bind_ok] at h
  obtain ⟨o,db₁,h₁,h⟩ := h
  obtain ⟨rfl,rfl⟩ := prepareClaimed_ok h
  exact claimQueuedTaskExecution_some h₁

end Claim

section Retry

theorem retryableFailedLocalTask_ok {taskId : TaskId} {task : TaskRecord}
    (h : (MainAgentCore.retryableFailedLocalTask taskId).run db = .ok (task,db')) : db = db' := by
  simp only [MainAgentCore.retryableFailedLocalTask,getTask,
    hasPotentiallySideEffectingToolInvocation,bind_ok,run_select,orFail_ok,require_ok,pure_ok,
    Except.ok.injEq,Prod.mk.injEq] at h
  obtain ⟨_,_,⟨_,rfl⟩,_,_,⟨_,rfl⟩,_,_,⟨_,rfl⟩,_,_,⟨_,rfl⟩,_,_,⟨_,rfl⟩,_,_,⟨_,rfl⟩,_,_,⟨_,rfl⟩,_,
    rfl⟩ := h
  rfl

theorem acceptRetry_rows {env : CoreEnv} {taskId : TaskId}
    {ids : MainAgentCore.RetryIds} {seen task : TaskRecord} {inputMessage : MessageRecord}
    {created : Bool}
    (h : (MainAgentCore.acceptRetry env taskId ids seen inputMessage).run db
      = .ok ((task,created),db')) :
    (created = false ∧ db'.rows = db.rows) ∨
      created = true ∧ task.taskId = ids.taskId ∧ ∃ head row,
        (accepted head row).Enabled db.rows ids.taskId ∧
        db'.rows = db.rows.modify ids.taskId (accepted head row).apply := by
  simp only [MainAgentCore.acceptRetry,getDirectTaskRetry,bind_ok,run_select,Except.ok.injEq,
    Prod.mk.injEq] at h
  obtain ⟨source,_,h₀,o,_,⟨_,rfl⟩,h⟩ := h
  cases retryableFailedLocalTask_ok h₀
  cases o with
  | some existing =>
    simp only [pure_ok,Prod.mk.injEq] at h
    obtain ⟨⟨_,rfl⟩,rfl⟩ := h
    exact .inl ⟨rfl,rfl⟩
  | none =>
    simp only [bind_ok,pure_ok,Prod.mk.injEq] at h
    obtain ⟨_,db₁,h₁,_,db₂,h₂,⟨_,t⟩,db₃,h₃,_,db₄,h₄,_,db₅,h₅,⟨rfl,rfl⟩,rfl⟩ := h
    have hkeep : db₂.rows = db.rows := by
      rw [reserveMessageIngress_keeps (v := AgentDb.rows) (fun _ _ => rfl) _ _ _ _ _ _ h₂,
        appendMessage_rows _ _ _ _ _ _ _ _ _ h₁]
    have hkeep' : db₅.rows = db₃.rows := by
      rw [appendTaskEvent_rows _ _ _ _ _ _ h₅,appendTaskEvent_rows _ _ _ _ _ _ h₄]
    have hacc := acceptLocalTaskFromMessage_rows rfl h₃
    rw [hkeep] at hacc
    rw [hkeep']
    exact .inr ⟨rfl,hacc⟩

end Retry

section Remote

theorem completeRemoteTask_rows {contextId : ContextId} {inputMessageId : MessageId}
    {decisionId delegationId : String} {targetAgentId : AgentId}
    {remote : RemoteAgentSendResult} {newTaskId : TaskId} {newThreadId : ThreadId}
    {task : TaskRecord}
    (h : (MainAgentCore.completeRemoteTask contextId inputMessageId decisionId delegationId
      targetAgentId remote newTaskId newThreadId).run db = .ok (task,db')) :
    ∃ head, (delegated head).Enabled db.rows newTaskId ∧
      db'.rows = db.rows.modify newTaskId (delegated head).apply := by
  simp only [MainAgentCore.completeRemoteTask,bind_ok,orFail_ok,pure_ok] at h
  obtain ⟨_,_,⟨_,rfl⟩,created,db₁,h₁,_,db₂,h₂,_,db₃,h₃,_,db₄,h₄,rfl,rfl⟩ := h
  obtain ⟨hnone,hthread,hid,_,hassigned,hthread',_,hrows₁⟩ := createTask_rows h₁
  have hkeep₂ := appendTaskEvent_rows _ _ _ _ _ _ h₂
  have hrows₃ := createDelegatedTask_rows h₃
  have hkeep₄ := resolveMessageIngress_keeps (v := AgentDb.rows) (fun _ _ => rfl) _ _ _ _ _ _ h₄
  refine ⟨created.head,⟨⟨hnone,fun t head hhead heq => hthread t head hhead (heq.trans hthread')⟩,
    ?_⟩,?_⟩
  · change created.assignedAgentId ≠ none
    rw [hassigned]
    exact Option.some_ne_none _
  · simp only [Option.elim_some,hid] at hrows₃
    rw [hkeep₄,hrows₃,hkeep₂,hrows₁,Rows.modify_modify]
    rfl

theorem updateTaskStatus_rows {taskId : TaskId} {status : TaskStatus} {error : TaskError}
    {task : TaskRecord} (h : (updateTaskStatus taskId status error).run db = .ok (task,db')) :
    db'.rows = db.rows.modify taskId (TaskRows.setStatus status) := by
  simp only [updateTaskStatus,bind_ok,requireTask_ok,ite_run] at h
  obtain ⟨r,_,⟨hr,rfl⟩,h⟩ := h
  split at h
  · rename_i heq
    obtain ⟨_,rfl⟩ := pure_ok.mp h
    refine (Rows.modify_eq_self ?_).symm
    simp [TaskRows.setStatus,AgentDb.rows,hr,TaskRecord.head,heq.1]
  · simp only [updateTask,getTask,bind_ok,run_write,run_select,orFail_ok,Except.ok.injEq,
      Prod.mk.injEq,true_and] at h
    obtain ⟨_,_,rfl,_,_,⟨rfl,rfl⟩,_,rfl⟩ := h
    exact rows_updateTasks _ _ (fun head => {head with status}) fun _ => rfl

theorem setTaskOutputMessage_taskId {taskId : TaskId} {messageId : MessageId} {task : TaskRecord}
    (h : (setTaskOutputMessage taskId messageId).run db = .ok (task,db')) :
    task.taskId = taskId := by
  simp only [setTaskOutputMessage,getMessage,bind_ok,run_select,orFail_ok,requireTask_ok,ite_run,
    Except.ok.injEq,Prod.mk.injEq] at h
  obtain ⟨_,_,⟨rfl,rfl⟩,_,_,⟨_,rfl⟩,r,_,⟨hr,rfl⟩,h⟩ := h
  split at h
  · obtain ⟨rfl,_⟩ := pure_ok.mp h
    exact Table.key_of_get hr
  · simp only [updateTask,getTask,bind_ok,run_write,run_select,orFail_ok,Except.ok.injEq,
      Prod.mk.injEq,true_and] at h
    obtain ⟨_,_,rfl,_,_,⟨rfl,rfl⟩,hg,rfl⟩ := h
    exact Table.key_of_get hg

theorem materializeRemoteFinalAnswer_rows {task r : TaskRecord} {delegation : DelegatedTaskRecord}
    {snapshot : RemoteAgentTaskSnapshot} {newMessageId : MessageId}
    (h : (TaskOutcomeRecorder.materializeRemoteFinalAnswer task delegation snapshot
      newMessageId).run db = .ok (r,db')) : r.taskId = task.taskId ∧ db'.rows = db.rows := by
  unfold TaskOutcomeRecorder.materializeRemoteFinalAnswer at h
  simp only [ite_run] at h
  split at h
  · obtain ⟨rfl,rfl⟩ := pure_ok.mp h
    exact ⟨rfl,rfl⟩
  · simp only [bind_ok,getArtifact,run_select,Except.ok.injEq,Prod.mk.injEq] at h
    obtain ⟨o,_,⟨_,rfl⟩,h⟩ := h
    cases o with
    | some artifact =>
      simp only [getTask,bind_ok,run_select,pure_ok,Except.ok.injEq,Prod.mk.injEq] at h
      obtain ⟨o,_,⟨ho,rfl⟩,rfl,rfl⟩ := h
      refine ⟨?_,rfl⟩
      cases o with
      | none => rfl
      | some t => exact Table.key_of_get ho
    | none =>
      simp only [bind_ok] at h
      obtain ⟨_,db₁,h₁,_,db₂,h₂,_,db₃,h₃,h₄⟩ := h
      refine ⟨setTaskOutputMessage_taskId h₄,?_⟩
      rw [setTaskOutputMessage_rows _ _ _ _ h₄,appendTaskEvent_rows _ _ _ _ _ _ h₃,
        upsertArtifact_rows _ _ _ _ _ _ _ h₂,appendMessage_rows _ _ _ _ _ _ _ _ _ h₁]

/-- A snapshot is recorded for tasks that were delegated. -/
theorem recordRemoteSnapshot_delegated {taskId : TaskId} {snapshot : RemoteAgentTaskSnapshot}
    {newMessageId : MessageId} {task : TaskRecord}
    (h : (TaskOutcomeRecorder.recordRemoteSnapshot taskId snapshot newMessageId).run db
      = .ok (task,db')) : (db.rows taskId).delegated = true := by
  simp only [TaskOutcomeRecorder.recordRemoteSnapshot,getDelegatedTaskByLocalTaskId,bind_ok,
    requireTask_ok,run_select,orFail_ok,Except.ok.injEq,Prod.mk.injEq] at h
  obtain ⟨_,_,⟨_,rfl⟩,_,_,⟨rfl,rfl⟩,delegation,_,⟨hdelegation,rfl⟩,_⟩ := h
  have hfound := List.find?_some hdelegation
  exact List.any_eq_true.mpr ⟨delegation,List.mem_of_find?_eq_some hdelegation,hfound⟩

/-- A remote snapshot touches the status of a delegated task only. -/
theorem recordRemoteSnapshot_rows {taskId : TaskId} {snapshot : RemoteAgentTaskSnapshot}
    {newMessageId : MessageId} {task : TaskRecord}
    (h : (TaskOutcomeRecorder.recordRemoteSnapshot taskId snapshot newMessageId).run db
      = .ok (task,db')) :
    RowsMove (fun t e => t = taskId ∧ ∃ status, e = synced status) db.rows db'.rows := by
  have hmarked := recordRemoteSnapshot_delegated h
  simp only [TaskOutcomeRecorder.recordRemoteSnapshot,getDelegatedTaskByLocalTaskId,bind_ok,
    requireTask_ok,run_select,orFail_ok,ite_run,Except.ok.injEq,Prod.mk.injEq] at h
  obtain ⟨r,_,⟨hr,rfl⟩,_,_,⟨rfl,rfl⟩,delegation,_,⟨hdelegation,rfl⟩,_,db₁,h₁,h⟩ := h
  have hvalid : Keeps AgentDb.rows
      (TaskOutcomeRecorder.validateRemoteProxySnapshot delegation snapshot) :=
    .bind (.orFail _ _) fun _ => .bind (.require _ _) fun _ => .require _ _
  have hkeep₁ := hvalid _ _ _ h₁
  split at h
  · obtain ⟨_,rfl⟩ := pure_ok.mp h
    exact .inl hkeep₁
  · rename_i haccepts
    simp only [bind_ok,ite_run] at h
    obtain ⟨_,db₂,h₂,t,db₃,h₃,h⟩ := h
    have hkeep₂ := updateDelegatedTaskStatus_rows _ _ _ _ _ _ h₂
    have hsame : t.taskId = taskId ∧ db₃.rows = db.rows := by
      rw [← hkeep₁,← hkeep₂,← Table.key_of_get hr]
      unfold TaskOutcomeRecorder.materializeIfCompleted at h₃
      split at h₃
      · exact materializeRemoteFinalAnswer_rows h₃
      · obtain ⟨rfl,rfl⟩ := pure_ok.mp h₃
        exact ⟨rfl,rfl⟩
    split at h
    · obtain ⟨_,rfl⟩ := pure_ok.mp h
      exact .inl hsame.2
    · simp only [bind_ok,pure_ok] at h
      obtain ⟨_,db₄,h₄,_,db₅,h₅,_,rfl⟩ := h
      refine .event ⟨rfl,remoteTaskStatus snapshot.status r.status,rfl⟩
        ⟨hmarked,r.head,rows_task_of_get hr,(Bool.not_eq_false _).mp haccepts⟩ ?_
      rw [appendTaskEvent_rows _ _ _ _ _ _ h₅,updateTaskStatus_rows h₄,hsame.1,hsame.2]
      rfl

end Remote

end VermayAgent
