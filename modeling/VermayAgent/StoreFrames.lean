import VermayAgent.ToolInvocationStore

/-! Which tables an operation leaves alone.
Each rule takes an observation of the database that does not look at the tables written
by the operation and says that the operation keeps it. -/
namespace VermayAgent
open Library Txn

namespace MainAgentStore

variable {γ : Type} {v : AgentDb → γ}

theorem requireTask_keeps (taskId : TaskId) : Keeps v (requireTask taskId) :=
  .bind (.select _) fun _ => .orFail _ _

theorem createContext_keeps (hv : ∀ db contexts, v {db with contexts} = v db)
    (contextId : ContextId) (title : Option String) (metadata : Json) :
    Keeps v (createContext contextId title metadata) := by
  refine .bind (.write? fun db db' h => ?_) fun _ => .bind (.select _) fun _ => .orFail _ _
  obtain ⟨contexts,_,rfl⟩ := Option.map_eq_some_iff.mp h
  exact hv db contexts

theorem insertMessage_keeps {record : MessageRecord} (hv : ∀ db messages,
    db.messages.insert? record = some messages → v {db with messages} = v db) :
    Keeps v (insertMessage record) := by
  refine .statement (.bind (.select _) fun _ => .bind (.require _ _) fun _ =>
    .write? fun db db' h => ?_)
  obtain ⟨messages,hmessages,rfl⟩ := Option.map_eq_some_iff.mp h
  exact hv db messages hmessages

/-- What an appended message leaves alone, given the row that it inserts. -/
theorem appendMessage_inserts {messageId : MessageId} {contextId : ContextId} {role : MessageRole}
    {parts : List Json} {taskId : Option TaskId} {metadata : Json}
    (hc : ∀ db contexts, v {db with contexts} = v db) (hm : ∀ db sequence messages,
      db.messages.insert? ⟨messageId,contextId,sequence,role,parts,taskId,metadata⟩ =
        some messages → v {db with messages} = v db) :
    Keeps v (appendMessage messageId contextId role parts taskId metadata) := by
  refine .bind (.select _) fun _ => .bind (.orFail _ _) fun _ => .bind (.select _) fun o => ?_
  cases o with
  | some existing => exact .bind (.require _ _) fun _ => .pure _
  | none =>
    exact .bind (.write fun db => hc db _) fun _ => .bind (.select _) fun _ =>
      .bind (.orFail _ _) fun _ => .bind (insertMessage_keeps fun db => hm db _) fun _ =>
      .bind (.select _) fun _ => .orFail _ _

theorem appendMessage_keeps (hc : ∀ db contexts, v {db with contexts} = v db)
    (hm : ∀ db messages, v {db with messages} = v db) (messageId : MessageId)
    (contextId : ContextId) (role : MessageRole) (parts : List Json) (taskId : Option TaskId)
    (metadata : Json) :
    Keeps v (appendMessage messageId contextId role parts taskId metadata) :=
  appendMessage_inserts hc fun db _ messages _ => hm db messages

section Ingress

variable (hv : ∀ db messageIngress, v {db with messageIngress} = v db)
include hv

theorem updateInProgressIngress_keeps (p : MessageIngressRecord → Bool)
    (f : MessageIngressRecord → MessageIngressRecord) (hf : ∀ r, (f r).messageId = r.messageId) :
    Keeps v (updateInProgressIngress p f hf) := .write fun db => hv db _

theorem insertMessageIngress_keeps (record : MessageIngressRecord) :
    Keeps v (insertMessageIngress record) := by
  refine .statement (.bind (.select _) fun o => ?_)
  cases o with
  | some existing => exact .pure _
  | none =>
    refine .bind (.write? fun db db' h => ?_) fun _ => .pure _
    obtain ⟨messageIngress,_,rfl⟩ := Option.map_eq_some_iff.mp h
    exact hv db messageIngress

theorem updateOneInProgressIngress_keeps (messageId : MessageId)
    (f : MessageIngressRecord → MessageIngressRecord) (hf : ∀ r, (f r).messageId = r.messageId) :
    Keeps v (updateOneInProgressIngress messageId f hf) :=
  .statement (.bind (.select _) fun _ => .bind (.require _ _) fun _ =>
    updateInProgressIngress_keeps hv _ _ _)

theorem reserveMessageIngress_keeps (messageId : MessageId) (contextId : ContextId)
    (requestFingerprint : String) :
    Keeps v (reserveMessageIngress messageId contextId requestFingerprint) :=
  .bind (.select _) fun _ => .bind (.orFail _ _) fun _ => .bind (.select _) fun _ =>
    .bind (.orFail _ _) fun _ => .bind (.require _ _) fun _ =>
    .bind (insertMessageIngress_keeps hv _) fun _ => .bind (.select _) fun _ =>
    .bind (.orFail _ _) fun _ => .pure _

theorem failInProgressMessageIngresses_keeps (error : IngressError) :
    Keeps v (failInProgressMessageIngresses error) :=
  .bind (.select _) fun _ => .statement (.bind (.select _) fun _ =>
    .bind (updateInProgressIngress_keeps hv _ _ _) fun _ => .pure _)

theorem setMessageIngressRouteDecision_keeps (messageId : MessageId) (routeDecisionId : String) :
    Keeps v (setMessageIngressRouteDecision messageId routeDecisionId) :=
  .bind (.select _) fun _ => .bind (.orFail _ _) fun _ =>
    .bind (updateOneInProgressIngress_keeps hv _ _ _) fun _ => .bind (.select _) fun _ =>
    .orFail _ _

theorem resolveMessageIngress_keeps (messageId : MessageId)
    (outcomeKind : MessageIngressOutcomeKind) (outcomeId : String) :
    Keeps v (resolveMessageIngress messageId outcomeKind outcomeId) :=
  .bind (updateOneInProgressIngress_keeps hv _ _ _) fun _ => .bind (.select _) fun _ =>
    .orFail _ _

theorem failMessageIngress_keeps (messageId : MessageId) (error : IngressError) :
    Keeps v (failMessageIngress messageId error) :=
  .bind (updateInProgressIngress_keeps hv _ _ _) fun _ => .bind (.select _) fun _ => .orFail _ _

end Ingress

theorem recordRouteDecision_keeps (hv : ∀ db routeDecisions, v {db with routeDecisions} = v db)
    (record : RouteDecisionRecord) : Keeps v (recordRouteDecision record) := by
  have hinsert : Keeps v (insertRouteDecision record) := by
    refine .statement (.bind (.select _) fun _ => .bind (.require _ _) fun _ =>
      .write? fun db db' h => ?_)
    obtain ⟨routeDecisions,_,rfl⟩ := Option.map_eq_some_iff.mp h
    exact hv db routeDecisions
  exact .bind (.select _) fun _ => .bind (.orFail _ _) fun _ => .bind hinsert fun _ =>
    .bind (.select _) fun _ => .orFail _ _

theorem appendTaskEvent_keeps
    (hv : ∀ db taskEvents nextEventId, v {db with taskEvents, nextEventId} = v db)
    (taskId : TaskId) (type : String) (status : Option TaskStatus) (payload : Json) :
    Keeps v (appendTaskEvent taskId type status payload) :=
  .bind (requireTask_keeps taskId) fun _ => .statement (.bind (.select _) fun _ =>
    .bind (.write fun db => hv db _ _) fun _ => .pure _)

section Artifacts

variable {artifactId : ArtifactId} (ha : ∀ db artifacts,
  (∀ id, id ≠ artifactId → artifacts.get id = db.artifacts.get id) → v {db with artifacts} = v db)
include ha

theorem putArtifact_keeps (taskId : TaskId) (contextId : ContextId) (parts : List Json)
    (metadata : Json) : Keeps v (putArtifact ⟨artifactId,taskId,contextId,parts,metadata⟩) := by
  refine .statement (.bind (.select _) fun o => ?_)
  cases o with
  | some current =>
    refine .write fun db => ha db _ fun id hid => ?_
    rw [Table.get_update]
    cases hr : db.artifacts.get id with
    | none => rfl
    | some r =>
      have hkey : r.artifactId = id := Table.key_of_get hr
      simp [hkey,hid]
  | none =>
    refine .bind (.select _) fun _ => .bind (.require _ _) fun _ => .write? fun db db' h => ?_
    obtain ⟨artifacts,hinsert,rfl⟩ := Option.map_eq_some_iff.mp h
    refine ha db artifacts fun id hid => ?_
    have hne : artifactId ≠ id := fun heq => hid heq.symm
    rw [Table.get_insert? hinsert,if_neg hne]

variable (ht : ∀ db taskId, v {db with tasks := (db.tasks.update (fun r => r.taskId = taskId)
  fun r => {r with lifecycleRevision := r.lifecycleRevision+1})} = v db)
include ht

theorem storeArtifact_keeps (taskId : TaskId) (contextId : ContextId) (parts : List Json)
    (metadata : Json) : Keeps v (storeArtifact ⟨artifactId,taskId,contextId,parts,metadata⟩) :=
  .bind (putArtifact_keeps ha _ _ _ _) fun _ => .bind (.write fun db => ht db _) fun _ =>
    .bind (.select _) fun _ => .orFail _ _

theorem upsertArtifact_keeps (taskId : TaskId) (contextId : ContextId) (parts : List Json)
    (metadata : Json) :
    Keeps v (upsertArtifact artifactId taskId contextId parts metadata) := by
  refine .bind (requireTask_keeps taskId) fun _ => .bind (.select _) fun o => ?_
  cases o with
  | some current =>
    exact .bind (.require _ _) fun _ => .ite (.pure _) (storeArtifact_keeps ha ht _ _ _ _)
  | none => exact storeArtifact_keeps ha ht _ _ _ _

end Artifacts

theorem upsertRegisteredAgent_keeps
    (hv : ∀ db registeredAgents, v {db with registeredAgents} = v db)
    (record : RegisteredAgentRecord) : Keeps v (upsertRegisteredAgent record) := by
  refine .bind (.statement (.bind (.select _) fun o => ?_)) fun _ => .bind (.select _) fun _ =>
    .orFail _ _
  cases o with
  | some current => exact .write fun db => hv db _
  | none =>
    refine .write? fun db db' h => ?_
    obtain ⟨agents,_,rfl⟩ := Option.map_eq_some_iff.mp h
    exact hv db agents

theorem createDelegatedTask_keeps (hv : ∀ db delegatedTasks, v {db with delegatedTasks} = v db)
    (record : DelegatedTaskRecord) : Keeps v (createDelegatedTask record) := by
  refine .bind (.select _) fun _ => .bind (.orFail _ _) fun _ => .bind (.select _) fun _ =>
    .bind (.orFail _ _) fun _ => .bind (.select _) fun _ => .bind (.orFail _ _) fun _ =>
    .bind (.select _) fun _ => .bind (.orFail _ _) fun _ => .bind (.write? fun db db' h => ?_)
    fun _ => .bind (.select _) fun _ => .orFail _ _
  obtain ⟨delegatedTasks,_,rfl⟩ := Option.map_eq_some_iff.mp h
  exact hv db delegatedTasks

theorem updateDelegatedTaskStatus_keeps
    (hv : ∀ db delegatedTasks, v {db with delegatedTasks} = v db) (delegationId : String)
    (status : String) (metadata : Json) :
    Keeps v (updateDelegatedTaskStatus delegationId status metadata) :=
  .bind (.select _) fun _ => .bind (.orFail _ _) fun _ => .bind (.write fun db => hv db _) fun _ =>
    .bind (.select _) fun _ => .orFail _ _

theorem requireInvocationOwner_keeps (new : NewToolInvocation) :
    Keeps v (requireInvocationOwner new) :=
  .bind (requireTask_keeps _) fun _ => .bind (.require _ _) fun _ => .bind (.require _ _) fun _ =>
    .require _ _

section ToolInvocations

variable (hv : ∀ db toolInvocations, v {db with toolInvocations} = v db)
include hv

theorem updateToolInvocations_keeps (p : ToolInvocationRecord → Bool)
    (f : ToolInvocationRecord → ToolInvocationRecord)
    (hf : ∀ r, (f r).invocationId = r.invocationId) : Keeps v (updateToolInvocations p f hf) :=
  .write fun db => hv db _

theorem resolveToolInvocationApproval_keeps (taskId : TaskId) (invocationId : InvocationId)
    (toolName argumentsDigest : String) (approved : Bool) (reason : Option String) :
    Keeps v (resolveToolInvocationApproval taskId invocationId toolName argumentsDigest approved
      reason) :=
  .bind (.bind (.select _) fun _ => .orFail _ _) fun _ => .bind (.require _ _) fun _ =>
    .bind (.require _ _) fun _ => .ite (.pure _) (.bind (.require _ _) fun _ =>
    .bind (.require _ _) fun _ => .bind (.ite (updateToolInvocations_keeps hv _ _ _)
      (updateToolInvocations_keeps hv _ _ _)) fun _ =>
    .bind (.select _) fun _ => .orFail _ _)

theorem resolvePendingToolInvocationApproval_keeps (taskId : TaskId) (inputRequest : Json)
    (approved : Bool) (reason : Option String) :
    Keeps v (resolvePendingToolInvocationApproval taskId inputRequest approved reason) := by
  unfold resolvePendingToolInvocationApproval
  split
  · exact .pure _
  · exact .bind (.require _ _) fun _ => .bind
      (resolveToolInvocationApproval_keeps hv _ _ _ _ _ _) fun _ => .pure _
  · exact .fail _

theorem markRunningToolInvocationsUncertain_keeps (taskId : TaskId)
    (errorCode errorMessage : String) (retryable : Bool) :
    Keeps v (markRunningToolInvocationsUncertain taskId errorCode errorMessage retryable) :=
  .statement (.bind (.select _) fun _ => .bind (updateToolInvocations_keeps hv _ _ _) fun _ =>
    .pure _)

theorem cancelPreparedToolInvocations_keeps (taskId : TaskId) (reason : String) :
    Keeps v (cancelPreparedToolInvocations taskId reason) :=
  .statement (.bind (.select _) fun _ => .bind (updateToolInvocations_keeps hv _ _ _) fun _ =>
    .pure _)

theorem createOrGetToolInvocation_keeps (new : NewToolInvocation) (now : Nat) :
    Keeps v (createOrGetToolInvocation new now) := by
  have hvalid : ∀ r, Keeps v (validateToolInvocationIdentity r new) := fun r => .require _ _
  refine .bind (.require _ _) fun _ => .bind (.require _ _) fun _ =>
    .bind (requireInvocationOwner_keeps new) fun _ => .bind (.select _) fun o => ?_
  cases o with
  | some existing => exact .bind (hvalid _) fun _ => .pure _
  | none =>
    refine .bind (.select _) fun o => ?_
    cases o with
    | some identityMatch => exact .bind (hvalid _) fun _ => .pure _
    | none =>
      refine .bind (.statement (.bind (.select _) fun _ => .bind (.require _ _) fun _ =>
        .write? fun db db' h => ?_)) fun _ => .bind (.select _) fun _ => .orFail _ _
      obtain ⟨toolInvocations,_,rfl⟩ := Option.map_eq_some_iff.mp h
      exact hv db toolInvocations

theorem beginToolInvocation_keeps (invocationId : InvocationId) :
    Keeps v (beginToolInvocation invocationId) :=
  .bind (.bind (.select _) fun _ => .orFail _ _) fun _ => .ite (.pure _) (.ite (.pure _)
    (.bind (updateToolInvocations_keeps hv _ _ _) fun _ => .bind (.select _) fun _ =>
    .orFail _ _))

theorem markToolInvocationUncertain_keeps (invocationId : InvocationId)
    (errorCode errorMessage : String) (retryable : Bool) :
    Keeps v (markToolInvocationUncertain invocationId errorCode errorMessage retryable) :=
  .bind (.bind (.select _) fun _ => .orFail _ _) fun _ => .ite (.pure _) (.ite (.pure _)
    (.bind (updateToolInvocations_keeps hv _ _ _) fun _ => .bind (.select _) fun _ =>
    .orFail _ _))

theorem cancelToolInvocation_keeps (invocationId : InvocationId) (reason : String) :
    Keeps v (cancelToolInvocation invocationId reason) :=
  .bind (.bind (.select _) fun _ => .orFail _ _) fun _ => .ite (.pure _) (.ite (.pure _)
    (.bind (updateToolInvocations_keeps hv _ _ _) fun _ => .bind (.select _) fun _ =>
    .orFail _ _))

end ToolInvocations
end MainAgentStore
end VermayAgent
