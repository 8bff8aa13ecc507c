import VermayAgent.TaskFrames
import VermayAgent.StatusLaws

/-! What a task has answered: the agent's messages of the task and its final answer.
For a local task nothing but the recorder of its results writes them, and that one writes
nothing once a cancellation was requested or the task has ended. -/
namespace VermayAgent
open Library Txn MainAgentStore

structure TaskAnswers where
  messages : List MessageRecord
  finalAnswer : Option ArtifactRecord

def AgentDb.answers (t : TaskId) (db : AgentDb) : TaskAnswers :=
  ⟨db.messages.rows.filter fun m => m.role = .agent ∧ m.taskId = some t,
    db.artifacts.get (t ++ ":final_answer")⟩

/-- Nothing is answered here that is not answered there. -/
structure TaskAnswers.Within (a b : TaskAnswers) : Prop where
  messages : a.messages ⊆ b.messages
  finalAnswer : ∀ r, a.finalAnswer = some r → b.finalAnswer = some r

theorem TaskAnswers.Within.refl (a : TaskAnswers) : a.Within a :=
  ⟨List.Subset.refl _,fun _ h => h⟩

theorem TaskAnswers.Within.trans {a b c : TaskAnswers} (hab : a.Within b) (hbc : b.Within c) :
    a.Within c :=
  ⟨List.Subset.trans hab.messages hbc.messages,fun r h => hbc.finalAnswer r (hab.finalAnswer r h)⟩

/-- The task takes no outcome any more: its cancellation was requested, or it has ended. -/
def TaskRecord.Closed (r : TaskRecord) : Prop :=
  r.status = .cancelRequested ∨ isTerminalTaskStatus r.status = true

variable {db db' : AgentDb} {t t' : TaskId}

section Operations

theorem answers_ignores : IgnoresProgress (AgentDb.answers t) := by
  constructor
  all_goals intros; rfl

theorem appendMessage_answers {messageId : MessageId} {contextId : ContextId} {role : MessageRole}
    {parts : List Json} {taskId : Option TaskId} {metadata : Json}
    (hother : role ≠ .agent ∨ taskId ≠ some t) :
    Keeps (AgentDb.answers t) (appendMessage messageId contextId role parts taskId metadata) := by
  refine appendMessage_inserts (fun _ _ => rfl) fun db sequence messages hinsert => ?_
  have hrows : messages.rows =
      db.messages.rows ++ [⟨messageId,contextId,sequence,role,parts,taskId,metadata⟩] :=
    Table.rows_insert? hinsert
  have hnot : ¬ (role = .agent ∧ taskId = some t) := fun h =>
    hother.elim (fun hne => hne h.1) fun hne => hne h.2
  simp [AgentDb.answers,hrows,hnot]

theorem upsertArtifact_answers {artifactId : ArtifactId} {contextId : ContextId}
    {parts : List Json} {metadata : Json} (hother : artifactId ≠ t ++ ":final_answer") :
    Keeps (AgentDb.answers t) (upsertArtifact artifactId t' contextId parts metadata) := by
  refine answers_ignores.upsertArtifact (fun db artifacts hsame => ?_) _ _ _
  simp [AgentDb.answers,hsame _ hother.symm]

end Operations

section Outcomes

open TaskOutcomeRecorder

variable {result : LocalTaskRunResult}

theorem persistObservations_answers (task : TaskRecord) :
    Keeps (AgentDb.answers t) (persistObservations task result) := by
  refine .ite (.pure _) (.bind (.select _) fun _ => .bind (upsertArtifact_answers ?_) fun _ =>
    .bind (answers_ignores.appendTaskEvent _ _ _) fun _ => .pure _)
  exact append_ne_append 0 (by decide) (by decide) (by decide) _ _

theorem recordCompletedResult_answers {metadata : Json} {newMessageId : MessageId} (hne : t' ≠ t) :
    Keeps (AgentDb.answers t) (recordCompletedResult t' result metadata newMessageId) := by
  refine answers_ignores.unlessEnded fun task => .bind (persistObservations_answers task) fun _ =>
    .bind (appendMessage_answers (.inr ?_)) fun _ => .bind (upsertArtifact_answers ?_) fun _ =>
    .bind (answers_ignores.appendTaskEvent _ _ _) fun _ =>
    .bind (answers_ignores.setTaskOutputMessage _) fun _ =>
    .bind (answers_ignores.transitionLocalTask _ _ _) fun _ =>
    .bind answers_ignores.clearPendingContinuation fun _ =>
    .bind answers_ignores.clearQueuedTaskExecution fun _ => .pure _
  · simpa using hne
  · exact fun heq => hne ((String.append_left_inj _).mp heq)

theorem recordInterruptedResult_answers {status : TaskStatus} {inputRequest : Json}
    (hne : t' ≠ t) :
    Keeps (AgentDb.answers t) (recordInterruptedResult t' result status inputRequest) := by
  intro db task db' h
  obtain ⟨r,hr,⟨_,rfl⟩ | ⟨_,h⟩ | ⟨_,_,h⟩⟩ := unlessEnded_ok h
  · rfl
  · exact answers_ignores.recordCancellation _ _ _ h
  have hkey : r.taskId ≠ t := by
    have hkey : r.taskId = t' := Table.key_of_get hr
    rwa [hkey]
  have happend : ∀ active, Keeps (AgentDb.answers t)
      (appendInputRequestMessage r active inputRequest) := fun _ =>
    .ite (.bind (appendMessage_answers (.inr (by simpa using hkey))) fun _ => .pure _) (.pure _)
  exact Keeps.bind (persistObservations_answers r) (fun _ =>
    .bind (answers_ignores.setPendingContinuation _ _) fun _ =>
    .bind (answers_ignores.transitionLocalTask _ _ _) fun _ => .bind (happend _) fun _ =>
    .bind answers_ignores.clearQueuedTaskExecution fun _ => .pure _) _ _ _ h

theorem recordFailedResult_answers {status : TaskStatus} :
    Keeps (AgentDb.answers t) (recordFailedResult t' result status) :=
  answers_ignores.unlessEnded fun task => .bind (persistObservations_answers task) fun _ =>
    .bind (answers_ignores.transitionLocalTask _ _ _) fun _ =>
    .bind (answers_ignores.closeUnresolvedExecution _ _ _ _) fun _ => .pure _

theorem recordLocalResult_answers {metadata : Json} {newMessageId : MessageId} {seen : TaskRecord}
    (hne : t' ≠ t) :
    Keeps (AgentDb.answers t) (recordLocalResult t' result metadata newMessageId seen) := by
  have hinterrupted : Keeps (AgentDb.answers t) (recordInterruption t' result) := by
    unfold recordInterruption
    cases continuationInputRequest result with
    | none => exact answers_ignores.recordFailure _
    | some inputRequest => exact recordInterruptedResult_answers hne
  refine .ite (.pure _) (.ite answers_ignores.recordCancellation (.bind (.ofExcept _) fun _ => ?_))
  split
  · exact recordCompletedResult_answers hne
  · exact .pure _
  · exact hinterrupted
  · exact hinterrupted
  · exact recordFailedResult_answers

/-- A closed task takes no outcome, so that its recorder answers nothing. -/
theorem unlessEnded_closed {record : TaskRecord → StoreTxn TaskRecord} {task : TaskRecord}
    (hclosed : ∀ r, db.tasks.get t' = some r → r.Closed)
    (h : (unlessEnded t' record).run db = .ok (task,db')) : db'.answers t = db.answers t := by
  obtain ⟨r,hr,⟨_,rfl⟩ | ⟨_,h⟩ | ⟨hopen,hrequested,_⟩⟩ := unlessEnded_ok h
  · rfl
  · exact answers_ignores.recordCancellation _ _ _ h
  · rcases hclosed r hr with heq | hended
    · exact absurd heq hrequested
    · rw [hopen] at hended
      cases hended

theorem recordLocalResult_closed {metadata : Json} {newMessageId : MessageId}
    {seen task : TaskRecord} (hclosed : ∀ r, db.tasks.get t' = some r → r.Closed)
    (h : (recordLocalResult t' result metadata newMessageId seen).run db = .ok (task,db')) :
    db'.answers t = db.answers t := by
  have hinterrupted : (recordInterruption t' result).run db = .ok (task,db') →
      db'.answers t = db.answers t := by
    intro h
    unfold recordInterruption at h
    split at h
    · exact unlessEnded_closed hclosed h
    · exact unlessEnded_closed hclosed h
  unfold recordLocalResult at h
  split at h
  · rw [(pure_ok.mp h).2]
  · split at h
    · exact answers_ignores.recordCancellation _ _ _ h
    · simp only [bind_ok,ofExcept_ok] at h
      obtain ⟨_,_,⟨_,rfl⟩,h⟩ := h
      split at h
      · exact unlessEnded_closed hclosed h
      · rw [(pure_ok.mp h).2]
      · exact hinterrupted h
      · exact hinterrupted h
      · exact unlessEnded_closed hclosed h

/-- The final answer of another, remote task. -/
theorem materializeRemoteFinalAnswer_answers {task : TaskRecord} {delegation : DelegatedTaskRecord}
    {snapshot : RemoteAgentTaskSnapshot} {newMessageId : MessageId} (hne : task.taskId ≠ t) :
    Keeps (AgentDb.answers t)
      (materializeRemoteFinalAnswer task delegation snapshot newMessageId) := by
  have hid : ∀ s s' : String, s ++ ":remote_final_answer" ≠ s' ++ ":final_answer" :=
    append_ne_append 12 (by decide) (by decide) (by decide)
  refine .ite (.pure _) (.bind (.select _) fun o => ?_)
  cases o with
  | some artifact => exact .bind (.select _) fun _ => .pure _
  | none =>
    exact .bind (appendMessage_answers (.inr (by simpa using hne))) fun _ =>
      .bind (upsertArtifact_answers (hid _ _)) fun _ =>
      .bind (answers_ignores.appendTaskEvent _ _ _) fun _ =>
      answers_ignores.setTaskOutputMessage _

theorem recordRemoteSnapshot_answers {snapshot : RemoteAgentTaskSnapshot}
    {newMessageId : MessageId} {task : TaskRecord} (hne : t' ≠ t)
    (h : (recordRemoteSnapshot t' snapshot newMessageId).run db = .ok (task,db')) :
    db'.answers t = db.answers t := by
  obtain ⟨r,_,h₁,h⟩ := (bind_ok _ _).mp h
  obtain ⟨hr,rfl⟩ := requireTask_ok.mp h₁
  have hkey : r.taskId ≠ t := by
    have hkey : r.taskId = t' := Table.key_of_get hr
    rwa [hkey]
  have hvalid : ∀ delegation, Keeps (AgentDb.answers t)
      (validateRemoteProxySnapshot delegation snapshot) :=
    fun _ => .bind (.orFail _ _) fun _ => .bind (.require _ _) fun _ => .require _ _
  have hfinal : ∀ status delegation, Keeps (AgentDb.answers t)
      (materializeIfCompleted status r delegation snapshot newMessageId) := fun _ _ =>
    .ite (materializeRemoteFinalAnswer_answers hkey) (.pure _)
  revert h
  refine Keeps.bind (.select _) (fun o => .bind (.orFail _ _) fun delegation =>
    .bind (hvalid delegation) fun _ => .ite (.pure _)
    (.bind (updateDelegatedTaskStatus_keeps (fun _ _ => rfl) _ _ _) fun _ =>
    .bind (hfinal _ _) fun _ => .ite (.pure _) (.bind (answers_ignores.updateTaskStatus _ _)
    fun _ => .bind (answers_ignores.appendTaskEvent _ _ _) fun _ => .pure _))) _ _ _

end Outcomes

section Acceptance

open MainAgentCore

theorem createTask_answers (new : NewTask) : Keeps (AgentDb.answers t) (createTask new) := by
  refine .bind (.select _) fun _ => .bind (.orFail _ _) fun _ => .bind (.require _ _) fun _ =>
    .bind (.require _ _) fun _ => .bind (.statement (.bind (.select _) fun _ =>
    .bind (.require _ _) fun _ => .bind (.select _) fun _ => .bind (.require _ _) fun _ =>
    .bind (.require _ _) fun _ => .write? fun db db' h => ?_)) fun _ => .bind (.select _) fun _ =>
    .orFail _ _
  obtain ⟨_,_,rfl⟩ := Option.map_eq_some_iff.mp h
  rfl

theorem acceptLocalTaskFromMessage_answers (a : LocalTaskAcceptance) :
    Keeps (AgentDb.answers t) (acceptLocalTaskFromMessage a) :=
  .bind (.require _ _) fun _ => .bind (recordRouteDecision_keeps (fun _ _ => rfl) _) fun _ =>
    .bind (setMessageIngressRouteDecision_keeps (fun _ _ => rfl) _ _) fun _ =>
    .bind (.bind (createTask_answers _) fun _ => .bind (answers_ignores.appendTaskEvent _ _ _)
      fun _ => .pure _) fun _ =>
    .bind (resolveMessageIngress_keeps (fun _ _ => rfl) _ _ _) fun _ =>
    .ite (.bind (answers_ignores.transitionLocalTask _ _ _) fun _ =>
      .bind (answers_ignores.enqueueTaskExecution _ _ _ _) fun _ => .pure _) (.pure _)

theorem acceptRetry_answers (env : CoreEnv) (ids : RetryIds) (seen : TaskRecord)
    (inputMessage : MessageRecord) :
    Keeps (AgentDb.answers t) (acceptRetry env t' ids seen inputMessage) := by
  have hfailed : Keeps (AgentDb.answers t) (retryableFailedLocalTask t') :=
    .bind (.select _) fun _ => .bind (.orFail _ _) fun _ => .bind (.require _ _) fun _ =>
      .bind (.require _ _) fun _ => .bind (.require _ _) fun _ => .bind (.select _) fun _ =>
      .bind (.require _ _) fun _ => .pure _
  refine .bind hfailed fun _ => .bind (.select _) fun o => ?_
  cases o with
  | some existing => exact .pure _
  | none =>
    exact .bind (appendMessage_answers (.inr (by simp))) fun _ =>
      .bind (reserveMessageIngress_keeps (fun _ _ => rfl) _ _ _) fun _ =>
      .bind (acceptLocalTaskFromMessage_answers _) fun _ =>
      .bind (answers_ignores.appendTaskEvent _ _ _) fun _ =>
      .bind (answers_ignores.appendTaskEvent _ _ _) fun _ => .pure _

theorem completeRemoteTask_answers (contextId : ContextId) (inputMessageId : MessageId)
    (decisionId delegationId : String) (targetAgentId : AgentId) (remote : RemoteAgentSendResult)
    (newTaskId : TaskId) (newThreadId : ThreadId) :
    Keeps (AgentDb.answers t) (completeRemoteTask contextId inputMessageId decisionId delegationId
      targetAgentId remote newTaskId newThreadId) :=
  .bind (.orFail _ _) fun _ => .bind (createTask_answers _) fun _ =>
    .bind (answers_ignores.appendTaskEvent _ _ _) fun _ =>
    .bind (createDelegatedTask_keeps (fun _ _ => rfl) _) fun _ =>
    .bind (resolveMessageIngress_keeps (fun _ _ => rfl) _ _ _) fun _ => .pure _

end Acceptance

/-- The transaction records a result of the task. -/
def CoreTxn.recordsResult (t : TaskId) : CoreTxn → Bool
  | .recordLocalTaskResult taskId _ _ _ _ => taskId = t
  | _ => false

section Transactions

variable (core : CoreEnv) (env : LedgerEnv)

theorem answers_of_keeps {α : Type} {x : StoreTxn α} {a : Option PostCommitAction}
    {f : α → Option PostCommitAction} (hx : Keeps (AgentDb.answers t) x)
    (h : (f <$> x).run db = .ok (a,db')) : db'.answers t = db.answers t :=
  Keeps.map f hx _ _ _ h

/-- What is answered for a local task, its recorder answers while the task is not closed. -/
theorem CoreTxn.txn_answers {c : CoreTxn} {a : Option PostCommitAction} (hc : Coupled db.rows)
    (hlocal : ∀ r, db.tasks.get t = some r → r.assignedAgentId = none)
    (hclosed : c.recordsResult t = true → ∀ r, db.tasks.get t = some r → r.Closed)
    (h : (c.txn core env).run db = .ok (a,db')) :
    db'.answers t = db.answers t := by
  have hnone : ∀ messageId contextId role parts metadata, Keeps (AgentDb.answers t)
      (appendMessage messageId contextId role parts none metadata) :=
    fun _ _ _ _ _ => appendMessage_answers (.inr (by simp))
  cases c with
  | upsertRegisteredAgent =>
    exact answers_of_keeps (upsertRegisteredAgent_keeps (fun _ _ => rfl) _) h
  | prepareMessage =>
    exact answers_of_keeps (prepareMessage_keeps (fun _ _ => rfl) hnone (fun _ _ => rfl)
      _ _ _ _) h
  | recordMessageIngressFailure =>
    exact answers_of_keeps (failMessageIngress_keeps (fun _ _ => rfl) _ _) h
  | recordMessageIngressRoute =>
    exact answers_of_keeps (recordMessageIngressRoute_keeps (fun _ _ => rfl) (fun _ _ => rfl)
      _ _ _ _) h
  | completeLocalMessage =>
    exact answers_of_keeps (completeLocalMessage_keeps hnone (fun _ _ => rfl) _ _ _ _ _) h
  | completeRemoteMessage =>
    exact answers_of_keeps (completeRemoteMessage_keeps hnone (fun _ _ => rfl) _ _ _ _ _ _ _
      fun _ => createDelegatedTask_keeps (fun _ _ => rfl) _) h
  | failInProgressMessageIngresses =>
    exact answers_of_keeps (failInProgressMessageIngresses_keeps (fun _ _ => rfl) _) h
  | ledger op =>
    refine answers_of_keeps (op.txn_keeps (fun _ _ => rfl)
      (fun _ _ _ _ _ => upsertArtifact_answers ?_)
      (fun _ _ _ _ => answers_ignores.appendTaskEvent _ _ _) env) h
    exact append_ne_append 0 (by decide) (by decide) (by decide) _ _
  | acceptLocalTask => exact answers_of_keeps (acceptLocalTaskFromMessage_answers _) h
  | retryTask => exact answers_of_keeps (acceptRetry_answers _ _ _ _) h
  | completeRemoteTask => exact answers_of_keeps (completeRemoteTask_answers _ _ _ _ _ _ _ _) h
  | resolveApproval =>
    exact answers_of_keeps (answers_ignores.acceptPendingContinuation _ _ _ _ _) h
  | submitTaskInput =>
    exact answers_of_keeps (answers_ignores.submitTaskInput
      (fun _ _ _ _ => appendMessage_answers (.inl (by decide))) _ _) h
  | cancelTask => exact answers_of_keeps (answers_ignores.commitCancellation _ _) h
  | claimLocalExecution => exact answers_of_keeps answers_ignores.claimLocalExecution h
  | recordLocalTaskFailure => exact answers_of_keeps (answers_ignores.recordFailure _) h
  | recordTaskCancellation => exact answers_of_keeps answers_ignores.recordCancellation h
  | recordRuntimeRecoveryFailure =>
    exact answers_of_keeps (answers_ignores.recordRuntimeRecoveryFailure _ _) h
  | recordLocalTaskResult taskId =>
    by_cases ht : taskId = t
    · obtain ⟨_,h,_⟩ := (map_ok _ _).mp h
      subst ht
      exact recordLocalResult_closed (hclosed (decide_eq_true rfl)) h
    · exact answers_of_keeps (recordLocalResult_answers ht) h
  | recordRemoteSnapshot taskId =>
    obtain ⟨_,h,_⟩ := (map_ok _ _).mp h
    refine recordRemoteSnapshot_answers (fun ht => ?_) h
    subst ht
    obtain ⟨head,hhead,hremote⟩ :=
      (hc.coupledAt taskId).remote_of_delegated (recordRemoteSnapshot_delegated h)
    obtain ⟨r,hr,rfl⟩ := Option.map_eq_some_iff.mp hhead
    exact hremote (hlocal r hr)

theorem within_of_moves {a b : TaskAnswers}
    (h : Relation.ReflTransGen (fun a b : TaskAnswers => b.Within a) a b) : b.Within a := by
  induction h with
  | refl => exact .refl _
  | tail _ hstep ih => exact hstep.trans ih

theorem deleteUnreferenced_within {keys referenced : AgentDb → List String}
    {delete : AgentDb → AgentDb} (h : ∀ db, ((delete db).answers t).Within (db.answers t)) :
    Txn.Moves (AgentDb.answers t) (fun a b => b.Within a)
      (deleteUnreferenced keys referenced delete) := by
  intro db u db' hrun
  rw [← (deleteUnreferenced_ok.mp hrun).2]
  exact .single (h db)

theorem deleteTerminalContext_within {contextId : ContextId} {listed : List TaskId} :
    Txn.Moves (AgentDb.answers t) (fun a b => b.Within a)
      (deleteTerminalContext contextId listed) := by
  have hrows : ∀ taskIds, Txn.Moves (AgentDb.answers t) (fun a b => b.Within a)
      (deleteTaskRows contextId taskIds) := by
    intro taskIds db u db' hrun
    simp only [deleteTaskRows,run_write,Except.ok.injEq,Prod.mk.injEq,true_and] at hrun
    rw [← hrun]
    refine .single ⟨List.Subset.refl _,fun r hr => ?_⟩
    have hr : (db.artifacts.delete fun r => r.contextId = contextId).get (t ++ ":final_answer")
        = some r := hr
    rw [Table.get_delete,Option.filter_eq_some_iff] at hr
    exact hr.1
  have hmessages : Txn.Moves (AgentDb.answers t) (fun a b => b.Within a)
      (deleteMessages contextId) := by
    refine deleteUnreferenced_within fun db => ⟨fun m hm => ?_,fun r hr => hr⟩
    have hm := List.mem_filter.mp hm
    exact List.mem_filter.mpr ⟨(List.mem_filter.mp hm.1).1,hm.2⟩
  have hother : ∀ {keys referenced : AgentDb → List String} {delete : AgentDb → AgentDb},
      (∀ db, (delete db).messages = db.messages ∧ (delete db).artifacts = db.artifacts) →
      Txn.Moves (AgentDb.answers t) (fun a b => b.Within a)
        (deleteUnreferenced keys referenced delete) := by
    intro keys referenced delete h
    refine deleteUnreferenced_within fun db => ?_
    rw [AgentDb.answers,(h db).1,(h db).2]
    exact .refl _
  exact (Keeps.select _).moves.bind fun _ => (Keeps.require _ _).moves.bind fun _ =>
    (hrows _).bind fun _ =>
    @Txn.Moves.bind _ _ _ _ _ _ _ (deleteTasks contextId) _ (hother fun _ => ⟨rfl,rfl⟩) fun _ =>
    @Txn.Moves.bind _ _ _ _ _ _ _ (deleteRouteDecisions contextId) _ (hother fun _ => ⟨rfl,rfl⟩)
      fun _ => hmessages.bind fun _ => hother fun _ => ⟨rfl,rfl⟩

theorem AgentTxn.answers_within {a : AgentTxn} (hc : Coupled db.rows)
    (hlocal : ∀ r, db.tasks.get t = some r → r.assignedAgentId = none)
    (hclosed : a.is (CoreTxn.recordsResult t) = true → ∀ r, db.tasks.get t = some r → r.Closed) :
    ((a.commit core env db).answers t).Within (db.answers t) := by
  rcases maintenance_keeps (v := AgentDb.answers t) core env (fun _ _ => rfl) (fun _ _ => rfl) a with
    ⟨c,rfl⟩ | ⟨c,listed,rfl⟩ | hk
  · have hcommit : AgentTxn.commit core env (.core c) db = c.commit core env db := commit_map _ _ _
    rw [hcommit]
    rcases commit_cases (c.txn core env) db with heq | ⟨action,hrun⟩
    · rw [CoreTxn.commit,heq]
      exact .refl _
    · rw [CoreTxn.commit,CoreTxn.txn_answers core env hc hlocal hclosed hrun]
      exact .refl _
  · rcases commit_cases (MainAgentStore.deleteTerminalContext c listed) db with heq | ⟨u,hu⟩
    · rw [AgentTxn.commit,AgentTxn.txn,heq]
      exact .refl _
    · exact within_of_moves (deleteTerminalContext_within _ _ _ hu)
  · rw [AgentTxn.commit,hk.commit]
    exact .refl _

end Transactions
end VermayAgent
