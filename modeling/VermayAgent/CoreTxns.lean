import VermayAgent.CoreEvents

/-! The transactions of the main agent as one labelled family.
Each label is a transaction together with the process-local action that follows its commit;
what it does to the rows of tasks is one of the events that the label names. -/
namespace VermayAgent
open Library Txn MainAgentStore RowEvent

variable {db db' : AgentDb}

/-- The process-local effect that follows a commit. -/
inductive PostCommitAction where
  | startLocalExecution (taskId : TaskId)
  | signalLocalCancellation (taskId : TaskId) (thread : ThreadId)
deriving DecidableEq

/-- The transactions of commands, workers and startup reconciliation. -/
inductive CoreTxn where
  | upsertRegisteredAgent (record : RegisteredAgentRecord)
  | prepareMessage (request : MainAgentRequest) (newMessageId : MessageId)
      (newContextId : ContextId)
  | recordMessageIngressFailure (messageId : MessageId) (error : PyException)
  | recordMessageIngressRoute (contextId : ContextId) (inputMessageId : MessageId)
      (route : MainAgentRouteDecision) (newDecisionId : String)
  | completeLocalMessage (contextId : ContextId) (inputMessageId newMessageId : MessageId)
      (decisionId : String) (parts : List Json)
  | acceptLocalTask (contextId : ContextId) (inputMessageId : MessageId)
      (route : MainAgentRouteDecision) (newDecisionId : String) (newTaskId : TaskId)
      (newThreadId : ThreadId)
  | completeRemoteMessage (contextId : ContextId) (inputMessageId newMessageId : MessageId)
      (decisionId newDelegationId : String) (targetAgentId : AgentId)
      (remote : RemoteAgentSendResult)
  | completeRemoteTask (contextId : ContextId) (inputMessageId : MessageId)
      (decisionId newDelegationId : String) (targetAgentId : AgentId)
      (remote : RemoteAgentSendResult) (newTaskId : TaskId) (newThreadId : ThreadId)
  | recordRemoteSnapshot (taskId : TaskId) (snapshot : RemoteAgentTaskSnapshot)
      (newMessageId : MessageId)
  | resolveApproval (taskId : TaskId) (approved : Bool) (reason : Option String)
  | submitTaskInput (taskId : TaskId) (request : MainAgentRequest) (newMessageId : MessageId)
  | cancelTask (taskId : TaskId) (reason : Option String) (active : Bool)
  | retryTask (taskId : TaskId) (ids : MainAgentCore.RetryIds) (seen : TaskRecord)
      (inputMessage : MessageRecord)
  | claimLocalExecution (taskId : TaskId)
  | recordLocalTaskResult (taskId : TaskId) (result : LocalTaskRunResult) (metadata : Json)
      (newMessageId : MessageId) (seen : TaskRecord)
  | recordLocalTaskFailure (taskId : TaskId) (error : PyException)
  | recordTaskCancellation (taskId : TaskId)
  | recordRuntimeRecoveryFailure (taskId : TaskId) (errorCode errorMessage : String)
  | failInProgressMessageIngresses (error : IngressError)
  | ledger (op : LedgerOp)

namespace CoreTxn

variable (core : CoreEnv) (env : LedgerEnv)

/-- The transaction, with the action that follows its commit. -/
def txn : CoreTxn → StoreTxn (Option PostCommitAction)
  | upsertRegisteredAgent record =>
    (fun _ => none) <$> MainAgentStore.upsertRegisteredAgent record
  | prepareMessage request messageId contextId =>
    (fun _ => none) <$> MainAgentCore.prepareMessage core request messageId contextId
  | recordMessageIngressFailure messageId error =>
    (fun _ => none) <$> MainAgentCore.recordMessageIngressFailure messageId error
  | recordMessageIngressRoute contextId messageId route decisionId =>
    (fun _ => none) <$> MainAgentCore.recordMessageIngressRoute contextId messageId route decisionId
  | completeLocalMessage contextId messageId newMessageId decisionId parts =>
    (fun _ => none) <$> MainAgentCore.completeLocalMessage contextId messageId newMessageId
      decisionId parts
  | acceptLocalTask contextId messageId route decisionId taskId threadId =>
    (fun accepted => some (.startLocalExecution accepted.2.taskId)) <$>
      MainAgentCore.acceptLocalTask contextId messageId route decisionId taskId threadId
  | completeRemoteMessage contextId messageId newMessageId decisionId delegationId agentId remote =>
    (fun _ => none) <$> MainAgentCore.completeRemoteMessage contextId messageId newMessageId
      decisionId delegationId agentId remote
  | completeRemoteTask contextId messageId decisionId delegationId agentId remote taskId threadId =>
    (fun _ => none) <$> MainAgentCore.completeRemoteTask contextId messageId decisionId
      delegationId agentId remote taskId threadId
  | recordRemoteSnapshot taskId snapshot messageId =>
    (fun _ => none) <$> TaskOutcomeRecorder.recordRemoteSnapshot taskId snapshot messageId
  | resolveApproval taskId approved reason =>
    (fun task => some (.startLocalExecution task.taskId)) <$>
      MainAgentCore.resolveApproval taskId approved reason
  | submitTaskInput taskId request messageId =>
    (fun task => some (.startLocalExecution task.taskId)) <$>
      MainAgentCore.submitTaskInput taskId request messageId
  | cancelTask taskId reason active =>
    (fun committed => committed.activeRuntimeThreadId.map
      (.signalLocalCancellation committed.task.taskId)) <$>
      MainAgentCore.commitCancellation taskId reason active
  | retryTask taskId ids seen message =>
    (fun accepted => if accepted.2 then some (.startLocalExecution accepted.1.taskId) else none) <$>
      MainAgentCore.acceptRetry core taskId ids seen message
  | claimLocalExecution taskId => (fun _ => none) <$> MainAgentCore.claimLocalExecution taskId
  | recordLocalTaskResult taskId result metadata messageId seen =>
    (fun _ => none) <$> TaskOutcomeRecorder.recordLocalResult taskId result metadata messageId seen
  | recordLocalTaskFailure taskId error =>
    (fun _ => none) <$> TaskOutcomeRecorder.recordFailure taskId error
  | recordTaskCancellation taskId =>
    (fun _ => none) <$> TaskOutcomeRecorder.recordCancellation taskId
  | recordRuntimeRecoveryFailure taskId errorCode errorMessage =>
    (fun _ => none) <$> TaskOutcomeRecorder.recordRuntimeRecoveryFailure taskId errorCode
      errorMessage
  | failInProgressMessageIngresses error =>
    (fun _ => none) <$> MainAgentStore.failInProgressMessageIngresses error
  | ledger op => (fun _ => none) <$> op.txn env

/-- The events that the transaction can be. -/
def events : CoreTxn → TaskId → RowEvent → Prop
  | acceptLocalTask _ _ _ _ taskId _ => fun t e => t = taskId ∧ ∃ head row, e = accepted head row
  | retryTask _ ids _ _ => fun t e => t = ids.taskId ∧ ∃ head row, e = accepted head row
  | completeRemoteTask _ _ _ _ _ _ taskId _ => fun t e => t = taskId ∧ ∃ head, e = delegated head
  | recordRemoteSnapshot taskId _ _ => fun t e => t = taskId ∧ ∃ status, e = synced status
  | resolveApproval taskId _ _ =>
    fun t e => t = taskId ∧ ∃ row, e = resumed "approval_required" row
  | submitTaskInput taskId _ _ =>
    fun t e => t = taskId ∧ ∃ row, e = resumed "user_input_required" row
  | cancelTask taskId _ _ => Cancels taskId
  | claimLocalExecution taskId => fun t e => t = taskId ∧ e = claimed
  | recordLocalTaskResult taskId _ _ _ _ => TaskOutcomeRecorder.Interrupts taskId
  | recordLocalTaskFailure taskId _ | recordTaskCancellation taskId
  | recordRuntimeRecoveryFailure taskId _ _ => Ends taskId
  | _ => fun _ _ => False

end CoreTxn

/-- The events that make a task queued. -/
def RowEvent.queues : RowEvent → Bool
  | accepted _ _ | resumed _ _ => true
  | _ => false

section Moves

/-- What a transaction with answer `a` did, as far as its post-commit action has to follow it. -/
def Follows (E : TaskId → RowEvent → Prop) (a : Option PostCommitAction) (t : TaskId)
    (e : RowEvent) : Prop :=
  E t e ∧ (e.queues = true → a = some (.startLocalExecution t))

variable {α : Type} {E : TaskId → RowEvent → Prop} {a : Option PostCommitAction}

theorem move_of_keeps {x : StoreTxn α} (hx : Keeps AgentDb.rows x)
    (h : ((fun _ => none) <$> x).run db = .ok (a,db')) : RowsMove (Follows E a) db.rows db'.rows := by
  obtain ⟨_,h,_⟩ := (map_ok _ _).mp h
  exact .inl (hx _ _ _ h)

/-- A transaction that queues nothing needs no action after it. -/
theorem move_of_quiet {x : StoreTxn α} (hquiet : ∀ t e, E t e → e.queues = false)
    (hx : ∀ r, x.run db = .ok (r,db') → RowsMove E db.rows db'.rows) {f : α → Option PostCommitAction}
    (h : (f <$> x).run db = .ok (a,db')) : RowsMove (Follows E a) db.rows db'.rows := by
  obtain ⟨r,h,_⟩ := (map_ok _ _).mp h
  refine (hx r h).mono fun t e he => ⟨he,fun hq => ?_⟩
  rw [hquiet t e he] at hq
  cases hq

theorem Ends.quiet {taskId t : TaskId} {e : RowEvent} (h : Ends taskId t e) :
    e.queues = false := by
  obtain ⟨_,_,rfl⟩ := h
  rfl

end Moves

section Admission

open MainAgentCore

variable {γ : Type} {v : AgentDb → γ}

theorem resultFromMessageIngress_keeps (ingress : MessageIngressRecord) :
    Keeps v (resultFromMessageIngress ingress) := by
  refine .bind (.orFail _ _) fun _ => .bind (.orFail _ _) fun _ => .bind (.orFail _ _) fun _ =>
    .bind (.select _) fun _ => .bind (.orFail _ _) fun decision => .bind (.require _ _) fun _ => ?_
  cases decision.kind with
  | localMessage =>
    exact .bind (.require _ _) fun _ => .bind (.select _) fun _ => .bind (.orFail _ _) fun _ =>
      .pure _
  | localTask =>
    exact .bind (.require _ _) fun _ => .bind (.select _) fun _ => .bind (.orFail _ _) fun _ =>
      .pure _
  | remoteAgent =>
    refine .bind (.require _ _) fun _ => .bind (.select _) fun _ => .bind (.orFail _ _)
      fun delegation => .ite ?_ (.bind (.orFail _ _) fun _ => .bind (.select _) fun _ =>
        .bind (.orFail _ _) fun _ => .pure _)
    have hmessage : Keeps v (delegatedMessage delegation) := by
      unfold delegatedMessage
      split
      · exact .ite (.pure _) (.select _)
      · exact .pure _
    exact .bind hmessage fun _ => .bind (.orFail _ _) fun _ => .pure _

theorem preparedExistingMessageIngress_keeps (request : MainAgentRequest) (fingerprint : String)
    (ingress : MessageIngressRecord) :
    Keeps v (preparedExistingMessageIngress request fingerprint ingress) := by
  refine .bind (.require _ _) fun _ => .bind (.require _ _) fun _ => .bind (.select _) fun _ =>
    .bind (.orFail _ _) fun _ => .bind (.require _ _) fun _ => ?_
  cases ingress.state with
  | resolved => exact .bind (resultFromMessageIngress_keeps ingress) fun _ => .pure _
  | failed => exact .fail _
  | inProgress => exact .fail _

section Writes

variable (hc : ∀ db contexts, v {db with contexts} = v db)
  (hm : ∀ messageId contextId role parts metadata,
    Keeps v (appendMessage messageId contextId role parts none metadata))
  (hi : ∀ db messageIngress, v {db with messageIngress} = v db)
include hi

theorem recordMessageIngressRoute_keeps
    (hr : ∀ db routeDecisions, v {db with routeDecisions} = v db) (contextId : ContextId)
    (inputMessageId : MessageId) (route : MainAgentRouteDecision) (decisionId : String) :
    Keeps v (recordMessageIngressRoute contextId inputMessageId route decisionId) :=
  .bind (recordRouteDecision_keeps hr _) fun _ =>
    .bind (setMessageIngressRouteDecision_keeps hi _ _) fun _ => .pure _

include hm

theorem completeLocalMessage_keeps (contextId : ContextId)
    (inputMessageId newMessageId : MessageId) (decisionId : String) (parts : List Json) :
    Keeps v (completeLocalMessage contextId inputMessageId newMessageId decisionId parts) :=
  .bind (hm _ _ _ _ _) fun _ =>
    .bind (resolveMessageIngress_keeps hi _ _ _) fun _ => .pure _

theorem completeRemoteMessage_keeps (contextId : ContextId)
    (inputMessageId newMessageId : MessageId) (decisionId delegationId : String)
    (targetAgentId : AgentId) (remote : RemoteAgentSendResult)
    (hd : ∀ assistantMessageId, Keeps v (createDelegatedTask ⟨delegationId,contextId,inputMessageId,
      decisionId,targetAgentId,none,none,remote.contextId,remote.messageId,"message","completed",
      .obj [("localMessageId",.str assistantMessageId)]⟩)) :
    Keeps v (completeRemoteMessage contextId inputMessageId newMessageId decisionId delegationId
      targetAgentId remote) :=
  .bind (hm _ _ _ _ _) fun _ => .bind (hd _) fun _ =>
    .bind (resolveMessageIngress_keeps hi _ _ _) fun _ => .pure _

include hc

theorem prepareMessage_keeps (core : CoreEnv) (request : MainAgentRequest) (messageId : MessageId)
    (contextId : ContextId) : Keeps v (prepareMessage core request messageId contextId) := by
  have hroute : Keeps v (validateExplicitRouteMetadata core request.metadata) :=
    .bind (.require _ _) fun _ => .ite (.pure _) (.bind (.orFail _ _) fun _ =>
      .bind (.select _) fun _ => .bind (.orFail _ _) fun _ => .bind (.require _ _) fun _ =>
      .require _ _)
  have hcontext : Keeps v
      (resolveContextId request.contextId contextId (titleFromParts request.parts)) := by
    cases request.contextId with
    | none => exact .bind (createContext_keeps hc _ _ _) fun _ => .pure _
    | some contextId => exact .bind (.select _) fun _ => .bind (.orFail _ _) fun _ => .pure _
  refine .bind (.require _ _) fun _ => .bind hroute fun _ => .bind (.select _) fun o => ?_
  cases o with
  | some ingress => exact preparedExistingMessageIngress_keeps _ _ _
  | none =>
    exact .bind (.select _) fun _ => .bind (.require _ _) fun _ => .bind hcontext fun _ =>
      .bind (hm _ _ _ _ _) fun _ =>
      .bind (reserveMessageIngress_keeps hi _ _ _) fun _ =>
      .ite (preparedExistingMessageIngress_keeps _ _ _) (.pure _)

end Writes

end Admission

namespace CoreTxn

/-- Every transaction leaves the rows alone or is one of its events, and one that makes a task
queued is followed by the start of that task. -/
theorem txn_rows (core : CoreEnv) (env : LedgerEnv) {c : CoreTxn} {a : Option PostCommitAction}
    (h : (c.txn core env).run db = .ok (a,db')) :
    RowsMove (Follows c.events a) db.rows db'.rows := by
  cases c with
  | upsertRegisteredAgent record =>
    exact move_of_keeps (upsertRegisteredAgent_keeps (fun _ _ => rfl) _) h
  | prepareMessage =>
    exact move_of_keeps (prepareMessage_keeps (fun _ _ => rfl)
      (fun _ _ _ _ _ => appendMessage_rows _ _ _ _ _ _) (fun _ _ => rfl) _ _ _ _) h
  | recordMessageIngressFailure =>
    exact move_of_keeps (failMessageIngress_keeps (fun _ _ => rfl) _ _) h
  | recordMessageIngressRoute =>
    exact move_of_keeps (recordMessageIngressRoute_keeps (fun _ _ => rfl) (fun _ _ => rfl) _ _ _ _) h
  | completeLocalMessage =>
    exact move_of_keeps (completeLocalMessage_keeps
      (fun _ _ _ _ _ => appendMessage_rows _ _ _ _ _ _) (fun _ _ => rfl) _ _ _ _ _) h
  | completeRemoteMessage =>
    exact move_of_keeps (completeRemoteMessage_keeps
      (fun _ _ _ _ _ => appendMessage_rows _ _ _ _ _ _) (fun _ _ => rfl) _ _ _ _ _ _ _
      fun _ _ _ _ h => createDelegatedTask_rows h) h
  | failInProgressMessageIngresses =>
    exact move_of_keeps (failInProgressMessageIngresses_keeps (fun _ _ => rfl) _) h
  | ledger op => exact move_of_keeps (op.txn_rows env) h
  | acceptLocalTask =>
    obtain ⟨⟨_,task⟩,hx,rfl⟩ := (map_ok _ _).mp h
    obtain ⟨hid,head,row,hen,hrows⟩ := acceptLocalTaskFromMessage_rows rfl hx
    exact .event ⟨⟨rfl,_,_,rfl⟩,fun _ => by rw [hid]⟩ hen hrows
  | retryTask =>
    obtain ⟨⟨task,created⟩,hx,rfl⟩ := (map_ok _ _).mp h
    rcases acceptRetry_rows hx with ⟨_,hrows⟩ | ⟨rfl,hid,head,row,hen,hrows⟩
    · exact .inl hrows
    · exact .event ⟨⟨rfl,_,_,rfl⟩,fun _ => by rw [← hid]; rfl⟩ hen hrows
  | resolveApproval =>
    obtain ⟨task,hx,rfl⟩ := (map_ok _ _).mp h
    obtain ⟨hid,row,hen,hrows⟩ := acceptPendingContinuation_rows hx
    exact .event ⟨⟨rfl,_,rfl⟩,fun _ => by rw [hid]⟩ hen hrows
  | submitTaskInput =>
    obtain ⟨task,hx,rfl⟩ := (map_ok _ _).mp h
    obtain ⟨hid,row,hen,hrows⟩ := submitTaskInput_rows hx
    exact .event ⟨⟨rfl,_,rfl⟩,fun _ => by rw [hid]⟩ hen hrows
  | completeRemoteTask =>
    refine move_of_quiet (fun t e ⟨_,head,he⟩ => he ▸ rfl) (fun task h => ?_) h
    obtain ⟨head,hen,hrows⟩ := completeRemoteTask_rows h
    exact .event ⟨rfl,_,rfl⟩ hen hrows
  | recordRemoteSnapshot =>
    exact move_of_quiet (fun t e ⟨_,_,he⟩ => he ▸ rfl) (fun task h => recordRemoteSnapshot_rows h) h
  | cancelTask =>
    refine move_of_quiet (fun t e he => ?_) (fun task h => commitCancellation_rows h) h
    rcases he with he | ⟨_,rfl⟩
    · exact he.quiet
    · rfl
  | claimLocalExecution taskId =>
    refine move_of_quiet (fun t e ⟨_,he⟩ => he ▸ rfl) (fun o h => ?_) h
    cases o with
    | none => exact .inl (claimLocalExecution_none h)
    | some claimed =>
      obtain ⟨_,hen,_,_,hrows⟩ := claimLocalExecution_some h
      exact .event ⟨rfl,rfl⟩ hen hrows
  | recordLocalTaskResult =>
    refine move_of_quiet (fun t e he => ?_)
      (fun task h => TaskOutcomeRecorder.recordLocalResult_rows h) h
    rcases he with he | ⟨_,_,_,rfl⟩
    · exact he.quiet
    · rfl
  | recordLocalTaskFailure =>
    exact move_of_quiet (fun _ _ h => h.quiet)
      (fun task h => TaskOutcomeRecorder.recordFailure_rows h) h
  | recordTaskCancellation =>
    exact move_of_quiet (fun _ _ h => h.quiet)
      (fun task h => TaskOutcomeRecorder.recordCancellation_rows h) h
  | recordRuntimeRecoveryFailure =>
    exact move_of_quiet (fun _ _ h => h.quiet)
      (fun task h => TaskOutcomeRecorder.recordRuntimeRecoveryFailure_rows h) h

end CoreTxn
end VermayAgent
