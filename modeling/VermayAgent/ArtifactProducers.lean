import VermayAgent.RemoteProxies
import VermayAgent.Projection
import VermayAgent.ToolCallReferences

/-! The artifacts of a task and who writes them.
Four places store artifacts, each under its own kind; an artifact keeps the task that it was stored
for, and a final answer tells of the agent that the task was assigned to. -/
namespace VermayAgent
open Library Txn MainAgentStore

inductive ArtifactProducer where
  | toolResult | observations | finalAnswer | remoteFinalAnswer
deriving DecidableEq

namespace ArtifactProducer

/-- The kind that the producer writes into the metadata. -/
def kind : ArtifactProducer → String
  | toolResult => "tool_invocation_result"
  | observations => "tool_observations"
  | finalAnswer | remoteFinalAnswer => "final_answer"

/-- What follows the id of the invocation or the task in the id of the artifact. -/
def suffix : ArtifactProducer → String
  | toolResult => ":result"
  | observations => ":tool_observations"
  | finalAnswer => ":final_answer"
  | remoteFinalAnswer => ":remote_final_answer"

end ArtifactProducer

/-- An artifact as a producer writes it for a task with this agent. -/
structure ArtifactRecord.MadeBy (r : ArtifactRecord) (agent : Option AgentId)
    (p : ArtifactProducer) : Prop where
  kind : r.metadata.member "kind" = .str p.kind
  id : ∃ owner, r.artifactId = owner ++ p.suffix ∧ (p ≠ .toolResult → owner = r.taskId)
  local_ : p = .finalAnswer → agent = none
  remote : p = .remoteFinalAnswer → agent ≠ none
  data : p = .observations → ∀ part ∈ r.parts, part.member "text" = .null

/-- Two artifacts of a task with the same kind are one, unless they are results of tools. -/
theorem ArtifactRecord.MadeBy.id_inj {r r' : ArtifactRecord} {agent : Option AgentId}
    {p p' : ArtifactProducer} (h : r.MadeBy agent p) (h' : r'.MadeBy agent p')
    (htask : r.taskId = r'.taskId) (hkind : p.kind = p'.kind) :
    p = .toolResult ∧ p' = .toolResult ∨ r.artifactId = r'.artifactId := by
  have hp : p = p' := by
    cases p <;> cases p' <;> first
      | rfl
      | exact absurd (h.local_ rfl) (h'.remote rfl)
      | exact absurd (h'.local_ rfl) (h.remote rfl)
      | exact absurd hkind (by decide)
  subst hp
  by_cases hresult : p = .toolResult
  · exact .inl ⟨hresult,hresult⟩
  · obtain ⟨owner,hid,howner⟩ := h.id
    obtain ⟨owner',hid',howner'⟩ := h'.id
    right
    rw [hid,hid',howner hresult,howner' hresult,htask]

/-- The stored artifacts, and the agents that the stored tasks are assigned to. -/
structure ArtifactOwners where
  artifacts : Table ArtifactRecord.artifactId
  agents : TaskId → Option (Option AgentId)

def AgentDb.artifactOwners (db : AgentDb) : ArtifactOwners :=
  ⟨db.artifacts,fun t => (db.tasks.get t).map (·.assignedAgentId)⟩

inductive OwnersStep : ArtifactOwners → ArtifactOwners → Prop where
  | stored {s artifacts} {r : ArtifactRecord} {agent : Option AgentId} {p : ArtifactProducer}
      (hagent : s.agents r.taskId = some agent) (hmade : r.MadeBy agent p)
      (hget : ∀ id, artifacts.get id = if r.artifactId = id then some r else s.artifacts.get id) :
      OwnersStep s {s with artifacts}
  | created {s t} (agent : Option AgentId) (hnew : s.agents t = none) :
      OwnersStep s {s with agents := Function.update s.agents t (some agent)}

/-- Every artifact is one that some producer wrote for its task. -/
def ArtifactOwners.Produced (s : ArtifactOwners) : Prop :=
  ∀ id r, s.artifacts.get id = some r → ∃ agent p, s.agents r.taskId = some agent ∧
    r.MadeBy agent p

namespace ArtifactOwners

variable {s s' : ArtifactOwners} {t : TaskId} {agent : Option AgentId}

theorem agents_step (hs : OwnersStep s s') (h : s.agents t = some agent) :
    s'.agents t = some agent := by
  cases hs with
  | stored => exact h
  | @created t' _ hnew =>
    have hne : t ≠ t' := by
      rintro rfl
      cases hnew.symm.trans h
    simpa [Function.update_of_ne hne] using h

theorem Produced.step (hs : OwnersStep s s') (h : s.Produced) : s'.Produced := by
  cases hs with
  | stored hagent hmade hget =>
    intro id r hr
    rw [hget] at hr
    split at hr
    · cases hr
      exact ⟨_,_,hagent,hmade⟩
    · exact h id r hr
  | created agent hnew =>
    intro id r hr
    obtain ⟨agent',p,hagent,hmade⟩ := h id r hr
    exact ⟨agent',p,agents_step (.created agent hnew) hagent,hmade⟩

end ArtifactOwners

variable {db db' : AgentDb} {t : TaskId} {c : ContextId}

theorem owners_ignores : IgnoresProgress AgentDb.artifactOwners := by
  constructor
  · intro db p f hf horigin
    have hagents : ∀ t, ((db.tasks.update p f hf).get t).map (·.assignedAgentId) =
        (db.tasks.get t).map (·.assignedAgentId) :=
      fun t => (agent_ignores (t := t)).tasks db p f hf horigin
    simp only [AgentDb.artifactOwners]
    exact congrArg _ (funext hagents)
  all_goals intros; rfl

/-- The transaction stores artifacts and creates tasks only. -/
abbrev OwnersMove {α : Type} (x : StoreTxn α) : Prop :=
  x.Moves AgentDb.artifactOwners OwnersStep

/-- It does so where the task has this agent. -/
abbrev OwnersMoveFor {α : Type} (t : TaskId) (agent : Option AgentId) (x : StoreTxn α) : Prop :=
  x.MovesFrom AgentDb.artifactOwners (fun s => s.agents t = some agent) OwnersStep

namespace OwnersMoveFor

variable {agent : Option AgentId}

theorem bind {α β : Type} {x : StoreTxn α} {f : α → StoreTxn β} (hx : OwnersMoveFor t agent x)
    (hf : ∀ a, OwnersMoveFor t agent (f a)) : OwnersMoveFor t agent (x >>= f) :=
  MovesFrom.bind (fun _ _ hs h => ArtifactOwners.agents_step hs h) hx hf

end OwnersMoveFor

section Store

theorem putArtifact_owners {r : ArtifactRecord} {u : Unit}
    (hown : ∀ current, db.artifacts.get r.artifactId = some current →
      current.taskId = r.taskId ∧ current.contextId = r.contextId)
    (h : (putArtifact r).run db = .ok (u,db')) :
    db'.tasks = db.tasks ∧
      ∀ id, db'.artifacts.get id = if r.artifactId = id then some r else db.artifacts.get id := by
  simp only [putArtifact,getArtifact,run_statement,bind_ok,run_select,Except.ok.injEq,
    Prod.mk.injEq] at h
  obtain ⟨o,_,⟨rfl,rfl⟩,h⟩ := h
  cases ho : db.artifacts.get r.artifactId with
  | some current =>
    rw [ho] at h
    simp only [run_write,Except.ok.injEq,Prod.mk.injEq,true_and] at h
    subst h
    refine ⟨rfl,fun id => ?_⟩
    simp only [Table.get_update]
    split
    · rename_i hid
      subst hid
      obtain ⟨htask,hcontext⟩ := hown current ho
      have hkey : current.artifactId = r.artifactId := Table.key_of_get ho
      simp [ho,hkey,htask,hcontext]
    · rename_i hid
      cases hget : db.artifacts.get id with
      | none => rfl
      | some other =>
        have hkey : other.artifactId = id := Table.key_of_get hget
        have hne : id ≠ r.artifactId := fun heq => hid heq.symm
        simp [hkey,hne]
  | none =>
    rw [ho] at h
    simp only [foreignKey,getContext,bind_ok,run_select,require_ok,write?_ok,
      Option.map_eq_some_iff,Except.ok.injEq,Prod.mk.injEq] at h
    obtain ⟨_,_,⟨_,rfl⟩,_,_,⟨_,rfl⟩,artifacts,hinsert,rfl⟩ := h
    exact ⟨rfl,fun id => Table.get_insert? hinsert id⟩

/-- An upsert stores the artifact that it is asked for, unless that is what there is. -/
theorem upsertArtifact_owners {id : ArtifactId} {parts : List Json} {metadata : Json}
    {a : ArtifactRecord} (p : ArtifactProducer)
    (hmade : ∀ agent, db.artifactOwners.agents t = some agent →
      (⟨id,t,c,parts,metadata⟩ : ArtifactRecord).MadeBy agent p)
    (h : (upsertArtifact id t c parts metadata).run db = .ok (a,db')) :
    Relation.ReflTransGen OwnersStep db.artifactOwners db'.artifactOwners := by
  simp only [upsertArtifact,getArtifact,bind_ok,run_select,requireTask_ok,Except.ok.injEq,
    Prod.mk.injEq] at h
  obtain ⟨r,_,⟨hr,rfl⟩,o,_,⟨ho,rfl⟩,h⟩ := h
  have hagent : db.artifactOwners.agents t = some r.assignedAgentId := by
    simp [AgentDb.artifactOwners,hr]
  have hstore : (∀ current, db.artifacts.get id = some current →
      current.taskId = t ∧ current.contextId = c) →
      (storeArtifact ⟨id,t,c,parts,metadata⟩).run db = .ok (a,db') →
      Relation.ReflTransGen OwnersStep db.artifactOwners db'.artifactOwners := by
    intro hown h
    obtain ⟨_,db₁,hput,h⟩ := (bind_ok _ _).mp h
    obtain ⟨_,db₂,hbump,hread⟩ := (bind_ok _ _).mp h
    obtain ⟨htasks,hget⟩ := putArtifact_owners hown hput
    have hbumped : Keeps AgentDb.artifactOwners (bumpRevision t) :=
      owners_ignores.updateTask _ _ fun _ => rfl
    have hkeep : db'.artifactOwners = db₁.artifactOwners :=
      (Keeps.bind (.select _) (fun _ => .orFail _ _) _ _ _ hread).trans (hbumped _ _ _ hbump)
    rw [hkeep]
    have hstep := OwnersStep.stored (s := db.artifactOwners) hagent (hmade _ hagent) hget
    have hsame : db₁.artifactOwners = {db.artifactOwners with artifacts := db₁.artifacts} := by
      simp only [AgentDb.artifactOwners,htasks]
    rw [hsame]
    exact .single hstep
  cases o with
  | some current =>
    simp only [bind_ok,require_ok,ite_run] at h
    obtain ⟨_,_,⟨hcurrent,rfl⟩,h⟩ := h
    split at h
    · rw [(pure_ok.mp h).2]
    · refine hstore (fun current' hc => ?_) h
      cases ho.symm.trans hc
      exact hcurrent
  | none =>
    refine hstore (fun current' hc => ?_) h
    cases ho.symm.trans hc

theorem upsertArtifact_move {id : ArtifactId} {parts : List Json} {metadata : Json}
    (p : ArtifactProducer) (hmade : ∀ agent, (⟨id,t,c,parts,metadata⟩ : ArtifactRecord).MadeBy agent p) :
    OwnersMove (upsertArtifact id t c parts metadata) :=
  fun _ _ _ h => upsertArtifact_owners p (fun agent _ => hmade agent) h

theorem upsertArtifact_moveFor {id : ArtifactId} {parts : List Json} {metadata : Json}
    {agent : Option AgentId} (p : ArtifactProducer)
    (hmade : (⟨id,t,c,parts,metadata⟩ : ArtifactRecord).MadeBy agent p) :
    OwnersMoveFor t agent (upsertArtifact id t c parts metadata) := by
  intro db a db' hagent h
  refine upsertArtifact_owners p (fun agent' hagent' => ?_) h
  cases hagent.symm.trans hagent'
  exact hmade

/-- The new task is one that there was not. -/
theorem createTask_owners (new : NewTask) : OwnersMove (createTask new) := by
  intro db task db' h
  simp only [createTask,insertTask,foreignKey,uniqueConstraint,getMessage,getContext,getTask,
    run_statement,bind_ok,run_select,orFail_ok,require_ok,write?_ok,Option.map_eq_some_iff,
    Except.ok.injEq,Prod.mk.injEq] at h
  obtain ⟨_,_,⟨rfl,rfl⟩,m,_,⟨_,rfl⟩,_,_,⟨_,rfl⟩,_,_,⟨_,rfl⟩,_,_,⟨_,_,⟨rfl,rfl⟩,_,_,⟨_,rfl⟩,
    _,_,⟨rfl,rfl⟩,_,_,⟨_,rfl⟩,_,_,⟨_,rfl⟩,tasks,htasks,rfl⟩,_,_,⟨rfl,rfl⟩,_,rfl⟩ := h
  have hfresh : db.artifactOwners.agents new.taskId = none := by
    have hnone := Table.insert?_fresh htasks
    simpa [AgentDb.artifactOwners] using hnone
  refine Relation.ReflTransGen.single ?_
  have hagents : (fun t => (tasks.get t).map (·.assignedAgentId)) =
      Function.update db.artifactOwners.agents new.taskId (some new.assignedAgentId) := by
    funext t
    rw [Table.get_insert? htasks t]
    by_cases ht : t = new.taskId
    · subst ht
      simp
    · simp [Function.update_of_ne ht,Ne.symm ht,AgentDb.artifactOwners]
  have hstep := OwnersStep.created new.assignedAgentId hfresh
  rw [← hagents] at hstep
  exact hstep

end Store

section Recorders

open TaskOutcomeRecorder

variable {result : LocalTaskRunResult}

theorem kind_execution (k : String) (m : List (String × Json)) (o : Option ArtifactId) :
    ((Json.obj (("kind",.str k)::m)).merge (taskResultExecutionMetadata result o)).member "kind" =
      .str k := by
  rw [Json.member_merge_of_none]
  · rfl
  · simp only [taskResultExecutionMetadata,Json.ofOptions,Json.fields]
    cases o <;> split <;> simp

theorem persistObservations_owners (task : TaskRecord) :
    OwnersMove (persistObservations task result) := by
  refine .ite (Keeps.pure _).moves ((Keeps.select _).moves.bind fun _ =>
    (upsertArtifact_move .observations fun agent => ?_).bind fun _ =>
    (owners_ignores.appendTaskEvent _ _ _).moves.bind fun _ => (Keeps.pure _).moves)
  refine ⟨kind_execution _ _ _,⟨_,rfl,fun _ => rfl⟩,nofun,nofun,fun _ part hpart => ?_⟩
  rw [List.mem_singleton.mp hpart]
  rfl

theorem unlessEnded_owners {record : TaskRecord → StoreTxn TaskRecord}
    (hrecord : ∀ r : TaskRecord, r.taskId = t → OwnersMoveFor t r.assignedAgentId (record r)) :
    OwnersMove (unlessEnded t record) := by
  intro db task db' h
  obtain ⟨r,hr,⟨_,rfl⟩ | ⟨_,h⟩ | ⟨_,_,h⟩⟩ := unlessEnded_ok h
  · exact .refl
  · rw [owners_ignores.recordCancellation _ _ _ h]
  · exact hrecord r (Table.key_of_get hr) _ _ _ (by simp [AgentDb.artifactOwners,hr]) h

theorem recordCompletedResult_owners (metadata : Json) (id : MessageId)
    (hlocal : ∀ r, db.tasks.get t = some r → r.assignedAgentId = none) {task : TaskRecord}
    (h : (recordCompletedResult t result metadata id).run db = .ok (task,db')) :
    Relation.ReflTransGen OwnersStep db.artifactOwners db'.artifactOwners := by
  obtain ⟨r,hr,⟨_,rfl⟩ | ⟨_,h⟩ | ⟨_,_,h⟩⟩ := unlessEnded_ok h
  · exact .refl
  · rw [owners_ignores.recordCancellation _ _ _ h]
  · have hagent : db.artifactOwners.agents t = some none := by
      simp [AgentDb.artifactOwners,hr,hlocal r hr]
    refine OwnersMoveFor.bind (persistObservations_owners r).from (fun o =>
      .bind (appendMessage_keeps (fun _ _ => rfl) (fun _ _ => rfl) _ _ _ _ _ _).moves.from
        fun _ => .bind (upsertArtifact_moveFor .finalAnswer ?_) fun _ => (Keeps.moves ?_).from)
      _ _ _ hagent h
    · exact ⟨kind_execution _ _ _,⟨_,rfl,fun _ => rfl⟩,fun _ => rfl,nofun,nofun⟩
    · exact .bind (owners_ignores.appendTaskEvent _ _ _) fun _ =>
        .bind (owners_ignores.setTaskOutputMessage _) fun _ =>
        .bind (owners_ignores.transitionLocalTask _ _ _) fun _ =>
        .bind owners_ignores.clearPendingContinuation fun _ =>
        .bind owners_ignores.clearQueuedTaskExecution fun _ => .pure _

theorem recordInterruptedResult_owners (status : TaskStatus) (inputRequest : Json) :
    OwnersMove (recordInterruptedResult t result status inputRequest) := by
  have happend : ∀ task active, Keeps AgentDb.artifactOwners
      (appendInputRequestMessage task active inputRequest) := fun _ _ =>
    .ite (.bind (appendMessage_keeps (fun _ _ => rfl) (fun _ _ => rfl) _ _ _ _ _ _) fun _ =>
      .pure _) (.pure _)
  exact unlessEnded_owners fun task _ =>
    ((persistObservations_owners task).bind fun _ => Keeps.moves
      (.bind (owners_ignores.setPendingContinuation _ _) fun _ =>
      .bind (owners_ignores.transitionLocalTask _ _ _) fun _ => .bind (happend _ _) fun _ =>
      .bind owners_ignores.clearQueuedTaskExecution fun _ => .pure _)).from

theorem recordFailedResult_owners (status : TaskStatus) :
    OwnersMove (recordFailedResult t result status) :=
  unlessEnded_owners fun task _ => ((persistObservations_owners task).bind fun _ => Keeps.moves
    (.bind (owners_ignores.transitionLocalTask _ _ _) fun _ =>
    .bind (owners_ignores.closeUnresolvedExecution _ _ _ _) fun _ => .pure _)).from

/-- A result is recorded for a local task only. -/
theorem recordLocalResult_owners {metadata : Json} {id : MessageId} {seen task : TaskRecord}
    (h : (recordLocalResult t result metadata id seen).run db = .ok (task,db')) :
    Relation.ReflTransGen OwnersStep db.artifactOwners db'.artifactOwners := by
  rcases recordLocalResult_remote h with rfl | hlocal
  · exact .refl
  have hinterrupted : OwnersMove (recordInterruption t result) := by
    unfold recordInterruption
    cases continuationInputRequest result with
    | none => exact (owners_ignores.recordFailure _).moves
    | some inputRequest => exact recordInterruptedResult_owners _ _
  simp only [recordLocalResult,ite_run] at h
  split at h
  · rw [(pure_ok.mp h).2]
  · split at h
    · rw [owners_ignores.recordCancellation _ _ _ h]
    · simp only [bind_ok,ofExcept_ok] at h
      obtain ⟨_,_,⟨_,rfl⟩,h⟩ := h
      split at h
      · exact recordCompletedResult_owners _ _ hlocal h
      · rw [(pure_ok.mp h).2]
      · exact hinterrupted _ _ _ h
      · exact hinterrupted _ _ _ h
      · exact recordFailedResult_owners _ _ _ _ h

/-- A task that a snapshot is recorded for is a remote one. -/
theorem recordRemoteSnapshot_owners {snapshot : RemoteAgentTaskSnapshot} {id : MessageId}
    {task : TaskRecord} (hc : Coupled db.rows)
    (h : (recordRemoteSnapshot t snapshot id).run db = .ok (task,db')) :
    Relation.ReflTransGen OwnersStep db.artifactOwners db'.artifactOwners := by
  obtain ⟨head,hhead,hremote⟩ :=
    (hc.coupledAt t).remote_of_delegated (recordRemoteSnapshot_delegated h)
  obtain ⟨r,hr,rfl⟩ := Option.map_eq_some_iff.mp hhead
  have hagent : db.artifactOwners.agents t = some r.assignedAgentId := by
    simp [AgentDb.artifactOwners,hr]
  obtain ⟨r',_,h₁,h⟩ := (bind_ok _ _).mp h
  obtain ⟨hr',rfl⟩ := requireTask_ok.mp h₁
  cases hr.symm.trans hr'
  have hkey : r.taskId = t := Table.key_of_get hr
  have hvalid : ∀ delegation, Keeps AgentDb.artifactOwners
      (validateRemoteProxySnapshot delegation snapshot) :=
    fun _ => .bind (.orFail _ _) fun _ => .bind (.require _ _) fun _ => .require _ _
  have hfinal : ∀ status delegation, OwnersMoveFor t r.assignedAgentId
      (materializeIfCompleted status r delegation snapshot id) := by
    intro status delegation
    rw [← hkey]
    refine .ite (.ite (Keeps.pure _).moves.from
      (OwnersMoveFor.bind (Keeps.select _).moves.from fun o => ?_)) (Keeps.pure _).moves.from
    cases o with
    | some artifact =>
      exact OwnersMoveFor.bind (Keeps.select _).moves.from fun _ => (Keeps.pure _).moves.from
    | none =>
      refine OwnersMoveFor.bind
        (appendMessage_keeps (fun _ _ => rfl) (fun _ _ => rfl) _ _ _ _ _ _).moves.from fun _ =>
        OwnersMoveFor.bind (upsertArtifact_moveFor .remoteFinalAnswer ?_) fun _ => (Keeps.moves ?_).from
      · exact ⟨rfl,⟨_,rfl,fun _ => rfl⟩,nofun,fun _ => hremote,nofun⟩
      · exact .bind (owners_ignores.appendTaskEvent _ _ _) fun _ =>
          owners_ignores.setTaskOutputMessage _
  refine OwnersMoveFor.bind (Keeps.select _).moves.from (fun o =>
    .bind (Keeps.orFail _ _).moves.from fun delegation =>
    .bind (hvalid delegation).moves.from fun _ => .ite (Keeps.pure _).moves.from
    (OwnersMoveFor.bind (updateDelegatedTaskStatus_keeps (fun _ _ => rfl) _ _ _).moves.from
    fun _ => OwnersMoveFor.bind (hfinal _ _) fun _ => .ite (Keeps.pure _).moves.from (Keeps.moves
    (.bind (owners_ignores.updateTaskStatus _ _) fun _ =>
    .bind (owners_ignores.appendTaskEvent _ _ _) fun _ => .pure _)).from)) _ _ _ hagent h

end Recorders

section Transactions

open MainAgentCore

theorem acceptLocalTaskFromMessage_owners (a : LocalTaskAcceptance) :
    OwnersMove (acceptLocalTaskFromMessage a) :=
  (Keeps.require _ _).moves.bind fun _ =>
    (recordRouteDecision_keeps (fun _ _ => rfl) _).moves.bind fun _ =>
    (setMessageIngressRouteDecision_keeps (fun _ _ => rfl) _ _).moves.bind fun _ =>
    Txn.Moves.bind ((createTask_owners _).bind fun _ => Keeps.moves
      (.bind (owners_ignores.appendTaskEvent _ _ _) fun _ => .pure _)) fun _ =>
    Keeps.moves (.bind (resolveMessageIngress_keeps (fun _ _ => rfl) _ _ _) fun _ =>
    .ite (.bind (owners_ignores.transitionLocalTask _ _ _) fun _ =>
      .bind (owners_ignores.enqueueTaskExecution _ _ _ _) fun _ => .pure _) (.pure _))

theorem acceptRetry_owners (env : CoreEnv) (ids : RetryIds) (seen : TaskRecord)
    (inputMessage : MessageRecord) : OwnersMove (acceptRetry env t ids seen inputMessage) := by
  have hfailed : Keeps AgentDb.artifactOwners (retryableFailedLocalTask t) :=
    .bind (.select _) fun _ => .bind (.orFail _ _) fun _ => .bind (.require _ _) fun _ =>
      .bind (.require _ _) fun _ => .bind (.require _ _) fun _ => .bind (.select _) fun _ =>
      .bind (.require _ _) fun _ => .pure _
  refine hfailed.moves.bind fun _ => (Keeps.select _).moves.bind fun o => ?_
  cases o with
  | some existing => exact (Keeps.pure _).moves
  | none =>
    exact (appendMessage_keeps (fun _ _ => rfl) (fun _ _ => rfl) _ _ _ _ _ _).moves.bind fun _ =>
      (reserveMessageIngress_keeps (fun _ _ => rfl) _ _ _).moves.bind fun _ =>
      (acceptLocalTaskFromMessage_owners _).bind fun _ => Keeps.moves
      (.bind (owners_ignores.appendTaskEvent _ _ _) fun _ =>
      .bind (owners_ignores.appendTaskEvent _ _ _) fun _ => .pure _)

theorem completeRemoteTask_owners (contextId : ContextId) (inputMessageId : MessageId)
    (decisionId delegationId : String) (targetAgentId : AgentId) (remote : RemoteAgentSendResult)
    (newTaskId : TaskId) (newThreadId : ThreadId) :
    OwnersMove (completeRemoteTask contextId inputMessageId decisionId delegationId targetAgentId
      remote newTaskId newThreadId) :=
  (Keeps.orFail _ _).moves.bind fun _ => (createTask_owners _).bind fun _ => Keeps.moves
    (.bind (owners_ignores.appendTaskEvent _ _ _) fun _ =>
    .bind (createDelegatedTask_keeps (fun _ _ => rfl) _) fun _ =>
    .bind (resolveMessageIngress_keeps (fun _ _ => rfl) _ _ _) fun _ => .pure _)

/-- The operations that the ledger has; the store's `complete` is reached through `finish`. -/
def LedgerOp.offered : LedgerOp → Bool
  | .complete _ _ _ => false
  | _ => true

theorem LedgerOp.txn_owners (env : LedgerEnv) {op : LedgerOp} (hop : op.offered = true) :
    OwnersMove (op.txn env) := by
  have hcomplete : ∀ id parts fields, OwnersMove (completeToolInvocationSuccess id parts
      (.obj (("kind",.str "tool_invocation_result")::fields))) := fun id parts fields =>
    Txn.Moves.bind (Keeps.moves (.bind (.select _) fun _ => .orFail _ _)) fun record =>
      .ite (Keeps.pure _).moves ((Keeps.require _ _).moves.bind fun _ =>
      (upsertArtifact_move .toolResult fun _ => ⟨rfl,⟨_,rfl,fun h => absurd rfl h⟩,nofun,nofun,nofun⟩).bind
      fun _ => Keeps.moves (.bind (owners_ignores.appendTaskEvent _ _ _) fun _ =>
      .bind (updateToolInvocations_keeps (fun _ _ => rfl) _ _ _) fun _ => .bind (.select _) fun _ =>
      .orFail _ _))
  cases op with
  | finish id response =>
    refine Txn.Moves.map _ ?_
    unfold MainAgentToolInvocationLedger.finishExecution
    split
    · exact (markToolInvocationUncertain_keeps (fun _ _ => rfl) _ _ _ _).moves
    · exact hcomplete _ _ _
  | complete => cases hop
  | _ => exact (LedgerOp.txn_keeps_rows (fun _ _ => rfl) env rfl).moves

/-- The writes that the application makes, its ledger's among them. -/
def AgentTxn.offered : AgentTxn → Bool
  | .core (.ledger op) => op.offered
  | _ => true

variable (core : CoreEnv) (env : LedgerEnv)

theorem CoreTxn.txn_owners {x : CoreTxn} {a : Option PostCommitAction} (hc : Coupled db.rows)
    (hx : (AgentTxn.core x).offered = true) (h : (x.txn core env).run db = .ok (a,db')) :
    Relation.ReflTransGen OwnersStep db.artifactOwners db'.artifactOwners := by
  have hnone : ∀ messageId contextId role parts taskId metadata, Keeps AgentDb.artifactOwners
      (appendMessage messageId contextId role parts taskId metadata) :=
    fun _ _ _ _ _ _ => appendMessage_keeps (fun _ _ => rfl) (fun _ _ => rfl) _ _ _ _ _ _
  have hi := owners_ignores
  cases x with
  | upsertRegisteredAgent =>
    exact ((upsertRegisteredAgent_keeps (fun _ _ => rfl) _).moves.map _) _ _ _ h
  | prepareMessage =>
    exact ((prepareMessage_keeps (fun _ _ => rfl) (fun _ _ _ _ _ => hnone _ _ _ _ _ _)
      (fun _ _ => rfl) _ _ _ _).moves.map _) _ _ _ h
  | recordMessageIngressFailure =>
    exact ((failMessageIngress_keeps (fun _ _ => rfl) _ _).moves.map _) _ _ _ h
  | recordMessageIngressRoute =>
    exact ((recordMessageIngressRoute_keeps (fun _ _ => rfl) (fun _ _ => rfl)
      _ _ _ _).moves.map _) _ _ _ h
  | completeLocalMessage =>
    exact ((completeLocalMessage_keeps (fun _ _ _ _ _ => hnone _ _ _ _ _ _) (fun _ _ => rfl)
      _ _ _ _ _).moves.map _) _ _ _ h
  | completeRemoteMessage =>
    exact ((completeRemoteMessage_keeps (fun _ _ _ _ _ => hnone _ _ _ _ _ _) (fun _ _ => rfl)
      _ _ _ _ _ _ _ fun _ => createDelegatedTask_keeps (fun _ _ => rfl) _).moves.map _) _ _ _ h
  | failInProgressMessageIngresses =>
    exact ((failInProgressMessageIngresses_keeps (fun _ _ => rfl) _).moves.map _) _ _ _ h
  | ledger op => exact ((LedgerOp.txn_owners env hx).map _) _ _ _ h
  | acceptLocalTask => exact ((acceptLocalTaskFromMessage_owners _).map _) _ _ _ h
  | retryTask => exact ((acceptRetry_owners _ _ _ _).map _) _ _ _ h
  | completeRemoteTask => exact ((completeRemoteTask_owners _ _ _ _ _ _ _ _).map _) _ _ _ h
  | resolveApproval => exact ((hi.acceptPendingContinuation _ _ _ _ _).moves.map _) _ _ _ h
  | submitTaskInput =>
    exact ((hi.submitTaskInput (fun _ _ _ _ => hnone _ _ _ _ _ _) _ _).moves.map _) _ _ _ h
  | cancelTask => exact ((hi.commitCancellation _ _).moves.map _) _ _ _ h
  | claimLocalExecution => exact (hi.claimLocalExecution.moves.map _) _ _ _ h
  | recordLocalTaskFailure => exact ((hi.recordFailure _).moves.map _) _ _ _ h
  | recordTaskCancellation => exact (hi.recordCancellation.moves.map _) _ _ _ h
  | recordRuntimeRecoveryFailure =>
    exact ((hi.recordRuntimeRecoveryFailure _ _).moves.map _) _ _ _ h
  | recordLocalTaskResult =>
    obtain ⟨_,h,_⟩ := (map_ok _ _).mp h
    exact recordLocalResult_owners h
  | recordRemoteSnapshot =>
    obtain ⟨_,h,_⟩ := (map_ok _ _).mp h
    exact recordRemoteSnapshot_owners hc h

/-- A context is deleted with its artifacts; a task that an artifact is of is not deleted. -/
theorem deleteTerminalContext_produced {listed : List TaskId} {u : Unit}
    (hp : db.artifactOwners.Produced)
    (h : (deleteTerminalContext c listed).run db = .ok (u,db')) :
    db'.artifactOwners.Produced := by
  simp only [deleteTerminalContext,deleteTaskRows,deleteTasks,deleteRouteDecisions,deleteMessages,
    deleteContextRow,bind_ok,run_select,require_ok,run_write,deleteUnreferenced_ok,
    Except.ok.injEq,Prod.mk.injEq] at h
  obtain ⟨_,_,⟨_,rfl⟩,_,_,⟨_,rfl⟩,_,_,⟨_,rfl⟩,_,_,⟨hnamed,rfl⟩,_,_,⟨_,rfl⟩,_,_,⟨_,rfl⟩,_,rfl⟩ := h
  intro id r hr
  have hr : (db.artifacts.delete fun r => r.contextId = c).get id = some r := hr
  have hmem := Table.mem_of_get hr
  rw [Table.get_delete,Option.filter_eq_some_iff] at hr
  obtain ⟨agent,p,hagent,hmade⟩ := hp id r hr.1
  refine ⟨agent,p,?_,hmade⟩
  obtain ⟨task,htask,rfl⟩ := Option.map_eq_some_iff.mp hagent
  have hother : task.contextId ≠ c := by
    intro hc
    refine hnamed r.taskId ?_ ?_
    · exact List.mem_map.mpr ⟨task,List.mem_filter.mpr ⟨Table.mem_of_get htask,by simpa using hc⟩,
        Table.key_of_get htask⟩
    · simp only [List.mem_append]
      exact .inl (.inl (.inl (.inl (.inr (List.mem_map.mpr ⟨r,hmem,rfl⟩)))))
  have hkept : (db.tasks.delete fun r => r.contextId = c).get r.taskId = some task := by
    rw [Table.get_delete,htask]
    simp [hother]
  exact Option.map_eq_some_iff.mpr ⟨task,hkept,rfl⟩

theorem AgentTxn.commit_produced {a : AgentTxn} (ha : a.offered = true) (hc : Coupled db.rows)
    (hp : db.artifactOwners.Produced) : (a.commit core env db).artifactOwners.Produced := by
  rcases maintenance_keeps (v := AgentDb.artifactOwners) core env (fun _ _ => rfl) (fun _ _ => rfl)
    a with ⟨x,rfl⟩ | ⟨c,listed,rfl⟩ | hk
  · have hcommit : AgentTxn.commit core env (.core x) db = x.commit core env db := commit_map _ _ _
    rw [hcommit]
    rcases commit_cases (x.txn core env) db with heq | ⟨action,hrun⟩
    · rw [CoreTxn.commit,heq]
      exact hp
    · rw [CoreTxn.commit]
      exact reflTransGen_invariant (fun _ _ hs h => h.step hs)
        (CoreTxn.txn_owners core env hc ha hrun) hp
  · rcases commit_cases (MainAgentStore.deleteTerminalContext c listed) db with heq | ⟨u,hu⟩
    · rw [AgentTxn.commit,AgentTxn.txn,heq]
      exact hp
    · exact deleteTerminalContext_produced hp hu
  · rw [AgentTxn.commit,hk.commit]
    exact hp

/-- In every reachable state every artifact is one that a producer wrote. -/
theorem AgentTxn.produced_history (as : List AgentTxn) (has : ∀ a ∈ as, a.offered = true)
    (hc : Coupled db.rows) (hp : db.artifactOwners.Produced) :
    (AgentTxn.history core env as db).artifactOwners.Produced := by
  induction as generalizing db with
  | nil => exact hp
  | cons a as ih =>
    exact ih (fun b hb => has b (List.mem_cons_of_mem a hb)) (a.commit_coupled core env hc)
      (a.commit_produced core env (has a List.mem_cons_self) hc hp)

end Transactions

section Wire

/-- The artifact is the result of a tool invocation. -/
def ArtifactRecord.IsToolResult (r : ArtifactRecord) : Prop :=
  ∃ id : InvocationId, r.artifactId = id ++ ":result"

/-- The id under which an update tells of its artifact. -/
def wireArtifactId (update : Json) : Json := (update.member "artifact").member "artifactId"

theorem ArtifactRecord.MadeBy.isToolResult_iff {r : ArtifactRecord} {agent : Option AgentId}
    {p : ArtifactProducer} (h : r.MadeBy agent p) : r.IsToolResult ↔ p = .toolResult := by
  obtain ⟨owner,hid,_⟩ := h.id
  constructor
  · rintro ⟨id,hresult⟩
    have hsuffix : owner ++ p.suffix = id ++ ":result" := hid ▸ hresult
    cases p with
    | toolResult => rfl
    | observations =>
      exact absurd hsuffix (append_ne_append 0 (by decide) (by decide) (by decide) _ _)
    | finalAnswer | remoteFinalAnswer =>
      exact absurd hsuffix (append_ne_append 0 (by decide) (by decide) (by decide) _ _)
  · rintro rfl
    exact ⟨owner,hid⟩

/-- An artifact goes under its kind. -/
theorem ArtifactRecord.MadeBy.wireArtifactId {r : ArtifactRecord} {agent : Option AgentId}
    {p : ArtifactProducer} (h : r.MadeBy agent p) (text : TextEnv) (event : TaskEventRecord)
    (task : TaskRecord) :
    VermayAgent.wireArtifactId (artifactUpdate text event task r) = .str p.kind := by
  have hkind : p.kind ≠ "" := by cases p <;> decide
  have hid : Json.orElse (r.metadata.member "kind") (.str r.artifactId) = .str p.kind := by
    rw [h.kind]
    simp [Json.orElse,Json.truthy,hkind]
  have hmember : (artifactUpdate text event task r).member "artifact" =
      .obj [("artifactId",.str (text.str (.str p.kind))),("parts",.arr r.parts),
        ("metadata",r.metadata)] := by
    simp (disch := decide) only [artifactUpdate,hid,Json.member_ofOptions_of_ne,
      Json.member_ofOptions_some_self]
  rw [VermayAgent.wireArtifactId,hmember,text.str_str]
  rfl

/-- Whatever events and task records they are projected with, the updates of a task's artifacts
have different ids exactly while at most one of the artifacts is the result of a tool. -/
theorem artifact_ids_distinct_iff (core : CoreEnv) (env : LedgerEnv) (text : TextEnv)
    (as : List AgentTxn) (has : ∀ a ∈ as, a.offered = true) {db : AgentDb}
    (hdb : db = AgentTxn.history core env as AgentDb.empty) (t : TaskId)
    (event event' : TaskEventRecord) (seen seen' : TaskRecord) :
    (∀ r ∈ db.artifacts.rows, ∀ r' ∈ db.artifacts.rows, r.taskId = t → r'.taskId = t → r ≠ r' →
      wireArtifactId (artifactUpdate text event seen r) ≠
        wireArtifactId (artifactUpdate text event' seen' r')) ↔
    ∀ r ∈ db.artifacts.rows, ∀ r' ∈ db.artifacts.rows, r.taskId = t → r'.taskId = t →
      r.IsToolResult → r'.IsToolResult → r = r' := by
  have hp : db.artifactOwners.Produced := by
    rw [hdb]
    refine AgentTxn.produced_history core env as has coupled_empty fun id r hr => ?_
    cases hr
  have hmade : ∀ r ∈ db.artifacts.rows, ∃ agent p, db.artifactOwners.agents r.taskId = some agent ∧
      r.MadeBy agent p := fun r hr => hp r.artifactId r (Table.get_of_mem hr)
  constructor
  · intro hdistinct r hr r' hr' ht ht' hresult hresult'
    obtain ⟨agent,p,_,h⟩ := hmade r hr
    obtain ⟨agent',p',_,h'⟩ := hmade r' hr'
    by_contra hne
    refine hdistinct r hr r' hr' ht ht' hne ?_
    rw [h.wireArtifactId,h'.wireArtifactId,h.isToolResult_iff.mp hresult,
      h'.isToolResult_iff.mp hresult']
  · intro hone r hr r' hr' ht ht' hne heq
    obtain ⟨agent,p,hagent,h⟩ := hmade r hr
    obtain ⟨agent',p',hagent',h'⟩ := hmade r' hr'
    rw [ht] at hagent
    rw [ht'] at hagent'
    cases hagent.symm.trans hagent'
    rw [h.wireArtifactId,h'.wireArtifactId,Json.str.injEq] at heq
    rcases h.id_inj h' (ht.trans ht'.symm) heq with ⟨hresult,hresult'⟩ | hid
    · exact hne (hone r hr r' hr' ht ht' (h.isToolResult_iff.mpr hresult)
        (h'.isToolResult_iff.mpr hresult'))
    · exact hne (Option.some.inj ((Table.get_of_mem hr).symm.trans
        (hid ▸ Table.get_of_mem hr')))

end Wire

section Sample

/-- The ledger's part in a deployment that succeeds. -/
def deployment (environment callId : String) (id : InvocationId) : List CoreTxn :=
  [.ledger (.prepare (some "thread") 1 (deployCall environment callId) sampleMetadata false 5),
    .ledger (.begin id),.ledger (.finish id ⟨"success",.str ("deployed to " ++ environment)⟩)]

def stagingId : InvocationId := "inv-0d87ddfbd7e1459bd07af3a85241b18f"
def productionId : InvocationId := "inv-1c7931f693a855b3bda758250e2d0f8d"

/-- A task that deploys to the staging environment first. -/
def deploymentRun (later : List CoreTxn) : List AgentTxn :=
  (sampleAdmission ++ (.claimLocalExecution "task" ::
    (deployment "staging" "call-1" stagingId ++ later))).map .core

def oneDeployment : List AgentTxn :=
  deploymentRun [.recordLocalTaskResult "task" sampleResult (.obj []) "answer"
    {sampleTask with status := .running}]

def twoDeployments : List AgentTxn := deploymentRun (deployment "production" "call-2" productionId)

/-- The updates of a task's log, with the id of the stored artifact and the id of the update. -/
def artifactUpdates (text : TextEnv) (db : AgentDb) (t : TaskId) (seen : TaskRecord) :
    List (Json × Json) :=
  (db.eventsOf t).filterMap fun event =>
    match (projectClassifiedMainAgentTaskEvent text event seen).run db with
    | .ok (some update,_) =>
      if update.member "kind" = .str "artifact-update" then
        some ((update.member "metadata").member "localArtifactId",wireArtifactId update)
      else none
    | _ => none

theorem artifact_ids_distinct_iff_sample :
    ¬ ∃ r ∈ (AgentTxn.history sampleCore deployEnv oneDeployment AgentDb.empty).artifacts.rows,
      ∃ r' ∈ (AgentTxn.history sampleCore deployEnv oneDeployment AgentDb.empty).artifacts.rows,
      r.taskId = "task" ∧ r'.taskId = "task" ∧ r ≠ r' ∧
      wireArtifactId (artifactUpdate sampleText sampleEvent sampleTask r) =
        wireArtifactId (artifactUpdate sampleText sampleEvent sampleTask r') := by
  rintro ⟨r₀,hr₀,r₁,hr₁,ht₀,ht₁,hne,hsame⟩
  refine (artifact_ids_distinct_iff sampleCore deployEnv sampleText oneDeployment (by decide) rfl
    "task" sampleEvent sampleEvent sampleTask sampleTask).mpr ?_ r₀ hr₀ r₁ hr₁ ht₀ ht₁ hne hsame
  have hids : (AgentTxn.history sampleCore deployEnv oneDeployment
      AgentDb.empty).artifacts.rows.map (·.artifactId) =
      [stagingId ++ ":result","task" ++ ":tool_observations","task" ++ ":final_answer"] := by
    decide +kernel
  have hresult : ∀ r ∈ (AgentTxn.history sampleCore deployEnv oneDeployment
      AgentDb.empty).artifacts.rows, r.IsToolResult → r.artifactId = stagingId ++ ":result" := by
    rintro r hr ⟨id,hid⟩
    have hmem := hids ▸ List.mem_map_of_mem hr
    simp only [List.mem_cons,List.not_mem_nil,or_false] at hmem
    rcases hmem with heq | heq | heq
    · exact heq
    · exact absurd (heq.symm.trans hid)
        (append_ne_append 0 (by decide) (by decide) (by decide) _ _)
    · exact absurd (heq.symm.trans hid)
        (append_ne_append 0 (by decide) (by decide) (by decide) _ _)
  intro r hr r' hr' _ _ h h'
  exact Option.some.inj ((Table.get_of_mem hr).symm.trans
    ((hresult r hr h).trans (hresult r' hr' h').symm ▸ Table.get_of_mem hr'))

theorem tool_results_share_artifact_id :
    artifactUpdates sampleText (AgentTxn.history sampleCore deployEnv twoDeployments
      AgentDb.empty) "task" sampleTask =
    [(.str (stagingId ++ ":result"),.str "tool_invocation_result"),
      (.str (productionId ++ ":result"),.str "tool_invocation_result")] := by
  decide +kernel

end Sample
end VermayAgent
