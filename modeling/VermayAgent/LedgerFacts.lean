import VermayAgent.InvocationLedger
import VermayAgent.StoreFrames

/-! What the ledger never forgets.
A row advances by one of six moves; every fact about histories follows from them and
from the rule that no operation removes a row. -/
namespace VermayAgent
open Library Txn MainAgentStore MainAgentToolInvocationLedger

namespace AgentDb

def invocation (db : AgentDb) (id : InvocationId) : Option ToolInvocationRecord :=
  db.toolInvocations.get id

end AgentDb

/-- The columns that say which effect a row is about. -/
def ToolInvocationRecord.identity (r : ToolInvocationRecord) : NewToolInvocation where
  invocationId := r.invocationId
  taskId := r.taskId
  contextId := r.contextId
  runtimeThreadId := r.runtimeThreadId
  loopIndex := r.loopIndex
  toolCallId := r.toolCallId
  toolName := r.toolName
  normalizedArguments := r.normalizedArguments
  argumentsDigest := r.argumentsDigest
  capability := r.capability
  sideEffectLevel := r.sideEffectLevel
  idempotencyKey := r.idempotencyKey
  approvalRequired := r.approvalRequired

/-- The effect is over: its status is one of the four that end it. -/
def ToolInvocationStatus.ended (status : ToolInvocationStatus) : Prop :=
  status ∈ [succeeded,failed,uncertain,canceled]

def ToolInvocationApprovalStatus.decided (status : ToolInvocationApprovalStatus) : Prop :=
  status ∈ [approved,rejected]

section Moves

variable {begun : Option InvocationId} {created : Option NewToolInvocation} {db db' : AgentDb}

/-- An artifact with the given id exists and belongs to the task. -/
def HasArtifact (artifacts : Table ArtifactRecord.artifactId) (artifactId : ArtifactId)
    (taskId : TaskId) : Prop :=
  ∃ a, artifacts.get artifactId = some a ∧ a.taskId = taskId

/-- The moves of one row, with the artifacts that stand beside it after the move.
Only the row that `begun` names may start to run. -/
inductive RowMove (artifacts : Table ArtifactRecord.artifactId) (begun : Option InvocationId) :
    ToolInvocationRecord → ToolInvocationRecord → Prop
  | begin (r : ToolInvocationRecord) (hb : begun = some r.invocationId) (hp : r.status = .prepared)
      (ha : r.approvalRequired = true → r.approvalStatus = .approved) :
      RowMove artifacts begun r {r with status := .running}
  | approve (r : ToolInvocationRecord) (reason : Option String) (hp : r.status = .prepared)
      (hr : r.approvalRequired = true) (ha : r.approvalStatus = .pending) :
      RowMove artifacts begun r {r with approvalStatus := .approved, approvalReason := reason}
  | reject (r : ToolInvocationRecord) (reason : Option String) (hp : r.status = .prepared)
      (hr : r.approvalRequired = true) (ha : r.approvalStatus = .pending) :
      RowMove artifacts begun r {r with
        approvalStatus := .rejected, approvalReason := reason, status := .canceled}
  | succeed (r : ToolInvocationRecord) (hr : r.status = .running)
      (ha : HasArtifact artifacts (r.invocationId ++ ":result") r.taskId) :
      RowMove artifacts begun r {r with
        status := .succeeded, resultArtifactId := some (r.invocationId ++ ":result"),
        errorCode := none, errorMessage := none, errorRetryable := false}
  | uncertain (r : ToolInvocationRecord) (errorCode errorMessage : String) (retryable : Bool)
      (ho : ¬r.status.ended) :
      RowMove artifacts begun r {r with
        status := .uncertain, errorCode := some errorCode, errorMessage := some errorMessage,
        errorRetryable := retryable}
  | cancel (r : ToolInvocationRecord) (reason : String) (hp : r.status = .prepared) :
      RowMove artifacts begun r (ToolInvocationRecord.cancel reason r)

/-- What one operation does to the ledger: each row stays, appears or moves.
Only the row that `created` describes may appear. -/
structure Moves (begun : Option InvocationId) (created : Option NewToolInvocation)
    (db db' : AgentDb) : Prop where
  row : ∀ id, db'.invocation id = db.invocation id ∨
    (db.invocation id = none ∧ ∃ new now, created = some new ∧
      db'.invocation id = some (new.record now)) ∨
    ∃ r r', db.invocation id = some r ∧ db'.invocation id = some r' ∧ RowMove db'.artifacts begun r r'
  artifact : ∀ artifactId taskId, HasArtifact db.artifacts artifactId taskId →
    HasArtifact db'.artifacts artifactId taskId

theorem Moves.refl (db : AgentDb) : Moves begun created db db := ⟨fun _ => .inl rfl,fun _ _ h => h⟩

/-- An operation that leaves the ledger alone before one that moves it. -/
theorem Moves.of_keeps {db₁ : AgentDb} (hk : db₁.toolInvocations = db.toolInvocations)
    (ha : ∀ artifactId taskId, HasArtifact db.artifacts artifactId taskId →
      HasArtifact db₁.artifacts artifactId taskId) (h : Moves begun created db₁ db') : Moves begun created db db' := by
  refine ⟨fun id => ?_,fun aid t hd => h.artifact aid t (ha aid t hd)⟩
  have hr := h.row id
  rwa [AgentDb.invocation,AgentDb.invocation,hk] at hr

/-- Rewriting rows where each rewritten row makes a move. -/
theorem moves_update (p : ToolInvocationRecord → Bool)
    (f : ToolInvocationRecord → ToolInvocationRecord) (hf : ∀ r, (f r).invocationId = r.invocationId)
    (h : ∀ id r, db.invocation id = some r → p r = true → RowMove db.artifacts begun r (f r)) :
    Moves begun created db {db with toolInvocations := db.toolInvocations.update p f hf} := by
  refine ⟨fun id => ?_,fun _ _ ha => ha⟩
  simp only [AgentDb.invocation,Table.get_update]
  cases hr : db.toolInvocations.get id with
  | none => exact .inl rfl
  | some r =>
    by_cases hp : p r = true
    · exact .inr (.inr ⟨r,f r,rfl,by simp [hp],h id r hr hp⟩)
    · exact .inl (by simp [hp])

/-- Rewriting the one row that `id` names. -/
theorem moves_update_one {id : InvocationId} {r : ToolInvocationRecord}
    (p : ToolInvocationRecord → Bool) (f : ToolInvocationRecord → ToolInvocationRecord)
    (hf : ∀ r, (f r).invocationId = r.invocationId) (hr : db.invocation id = some r)
    (hp : ∀ r, p r = true → r.invocationId = id) (h : RowMove db.artifacts begun r (f r)) :
    Moves begun created db {db with toolInvocations := db.toolInvocations.update p f hf} := by
  refine moves_update p f hf fun id' r' hr' hp' => ?_
  have hid : id' = id := (Table.key_of_get hr').symm.trans (hp r' hp')
  subst hid
  cases hr.symm.trans hr'
  exact h

end Moves

section Operations

variable {begun : Option InvocationId} {created : Option NewToolInvocation} {db db' : AgentDb} {r : ToolInvocationRecord}

theorem requireToolInvocation_ok {id : InvocationId} :
    (requireToolInvocation id).run db = .ok (r,db') ↔ db.invocation id = some r ∧ db = db' := by
  simp [requireToolInvocation,getToolInvocation,AgentDb.invocation]

theorem getToolInvocation_ok {id : InvocationId} {o : Option ToolInvocationRecord} :
    (getToolInvocation id).run db = .ok (o,db') ↔ db.invocation id = o ∧ db = db' := by
  simp [getToolInvocation,AgentDb.invocation]

theorem updateToolInvocations_ok {p : ToolInvocationRecord → Bool}
    {f : ToolInvocationRecord → ToolInvocationRecord}
    {hf : ∀ r, (f r).invocationId = r.invocationId} {u : Unit} :
    (updateToolInvocations p f hf).run db = .ok (u,db') ↔
      {db with toolInvocations := db.toolInvocations.update p f hf} = db' := by
  simp [updateToolInvocations]

theorem beginToolInvocation_moves {id : InvocationId}
    (h : (beginToolInvocation id).run db = .ok (r,db')) : Moves (some id) created db db' := by
  obtain ⟨r₀,_,h₁,h⟩ := (bind_ok _ _).mp h
  obtain ⟨hr,rfl⟩ := requireToolInvocation_ok.mp h₁
  split at h
  · exact (pure_ok.mp h).2 ▸ .refl db
  · rename_i hp
    split at h
    · exact (pure_ok.mp h).2 ▸ .refl db
    · rename_i ha
      obtain ⟨_,_,h₂,h⟩ := (bind_ok _ _).mp h
      cases updateToolInvocations_ok.mp h₂
      simp only [bind_ok,getToolInvocation_ok,orFail_ok] at h
      obtain ⟨_,_,⟨_,rfl⟩,_,rfl⟩ := h
      refine moves_update_one _ _ _ hr (fun r hp => (of_decide_eq_true hp).1) (.begin r₀
        (congrArg some (Table.key_of_get hr).symm) (not_not.mp hp) ?_)
      exact fun hq => not_not.mp fun hn => ha ⟨hq,hn⟩

theorem insertToolInvocation_moves {new : NewToolInvocation} {now : Nat} {u : Unit}
    (h : (insertToolInvocation (new.record now)).run db = .ok (u,db')) :
    Moves begun (some new) db db' := by
  simp only [insertToolInvocation,uniqueConstraint,run_statement,bind_ok,run_select,require_ok,
    write?_ok,Except.ok.injEq,Prod.mk.injEq,Option.map_eq_some_iff] at h
  obtain ⟨_,_,⟨rfl,rfl⟩,_,_,⟨_,rfl⟩,rows,hrows,rfl⟩ := h
  refine ⟨fun id => ?_,fun _ _ ha => ha⟩
  have hget := Table.get_insert? hrows id
  by_cases hid : (new.record now).invocationId = id
  · refine .inr (.inl ⟨?_,new,now,rfl,by simpa [AgentDb.invocation,hid] using hget⟩)
    exact hid ▸ Table.insert?_fresh hrows
  · exact .inl (by simpa [AgentDb.invocation,hid] using hget)

theorem createOrGetToolInvocation_moves {new : NewToolInvocation} {now : Nat}
    (h : (createOrGetToolInvocation new now).run db = .ok (r,db')) :
    Moves begun (some new) db db' := by
  simp only [createOrGetToolInvocation,bind_ok,require_ok,getToolInvocation_ok] at h
  obtain ⟨_,_,⟨_,rfl⟩,_,_,⟨_,rfl⟩,_,db₁,ho,_,_,⟨_,rfl⟩,h⟩ := h
  cases requireInvocationOwner_keeps (v := id) new _ _ _ ho
  split at h
  · simp only [validateToolInvocationIdentity,bind_ok,require_ok,pure_ok] at h
    obtain ⟨_,_,⟨_,rfl⟩,_,rfl⟩ := h
    exact .refl _
  · simp only [getToolInvocationByExecutionIdentity,bind_ok,run_select,Except.ok.injEq,
      Prod.mk.injEq] at h
    obtain ⟨_,_,⟨_,rfl⟩,h⟩ := h
    split at h
    · simp only [validateToolInvocationIdentity,bind_ok,require_ok,pure_ok] at h
      obtain ⟨_,_,⟨_,rfl⟩,_,rfl⟩ := h
      exact .refl _
    · simp only [bind_ok,getToolInvocation_ok,orFail_ok] at h
      obtain ⟨_,_,hi,_,_,⟨_,rfl⟩,_,rfl⟩ := h
      exact insertToolInvocation_moves hi

theorem resolveToolInvocationApproval_moves {taskId : TaskId} {id : InvocationId}
    {toolName argumentsDigest : String} {approved : Bool} {reason : Option String}
    (h : (resolveToolInvocationApproval taskId id toolName argumentsDigest approved reason).run db
      = .ok (r,db')) : Moves begun created db db' := by
  simp only [resolveToolInvocationApproval,bind_ok,require_ok,requireToolInvocation_ok] at h
  obtain ⟨r₀,_,⟨hr,rfl⟩,_,_,⟨_,rfl⟩,_,_,⟨hq,rfl⟩,h⟩ := h
  split at h
  · exact (pure_ok.mp h).2 ▸ .refl _
  · simp only [bind_ok,require_ok,getToolInvocation_ok,orFail_ok] at h
    obtain ⟨_,_,⟨ha,rfl⟩,_,_,⟨hp,rfl⟩,_,_,hd,_,_,⟨_,rfl⟩,_,rfl⟩ := h
    unfold decideToolInvocationApproval at hd
    split at hd
    · cases updateToolInvocations_ok.mp hd
      exact moves_update_one _ _ _ hr (fun r hp => of_decide_eq_true hp) (.approve r₀ reason hp hq ha)
    · cases updateToolInvocations_ok.mp hd
      exact moves_update_one _ _ _ hr (fun r hp => of_decide_eq_true hp) (.reject r₀ reason hp hq ha)

theorem markToolInvocationUncertain_moves {id : InvocationId} {errorCode errorMessage : String}
    {retryable : Bool}
    (h : (markToolInvocationUncertain id errorCode errorMessage retryable).run db = .ok (r,db')) :
    Moves begun created db db' := by
  obtain ⟨r₀,_,h₁,h⟩ := (bind_ok _ _).mp h
  obtain ⟨hr,rfl⟩ := requireToolInvocation_ok.mp h₁
  split at h
  · exact (pure_ok.mp h).2 ▸ .refl db
  · rename_i hu
    split at h
    · exact (pure_ok.mp h).2 ▸ .refl db
    · rename_i he
      simp only [bind_ok,updateToolInvocations_ok,getToolInvocation_ok,orFail_ok] at h
      obtain ⟨_,_,rfl,_,_,⟨_,rfl⟩,_,rfl⟩ := h
      refine moves_update_one _ _ _ hr (fun r hp => of_decide_eq_true hp)
        (.uncertain r₀ errorCode errorMessage retryable fun hn => ?_)
      simp_all [ToolInvocationStatus.ended]

theorem cancelToolInvocation_moves {id : InvocationId} {reason : String}
    (h : (cancelToolInvocation id reason).run db = .ok (r,db')) : Moves begun created db db' := by
  obtain ⟨r₀,_,h₁,h⟩ := (bind_ok _ _).mp h
  obtain ⟨hr,rfl⟩ := requireToolInvocation_ok.mp h₁
  split at h
  · exact (pure_ok.mp h).2 ▸ .refl db
  · split at h
    · exact (pure_ok.mp h).2 ▸ .refl db
    · rename_i hp
      simp only [bind_ok,updateToolInvocations_ok,getToolInvocation_ok,orFail_ok] at h
      obtain ⟨_,_,rfl,_,_,⟨_,rfl⟩,_,rfl⟩ := h
      exact moves_update_one _ _ _ hr (fun r hp => of_decide_eq_true hp)
        (.cancel r₀ reason (not_not.mp hp))

theorem cancelPreparedToolInvocations_moves {taskId : TaskId} {reason : String} {n : Nat}
    (h : (cancelPreparedToolInvocations taskId reason).run db = .ok (n,db')) : Moves begun created db db' := by
  simp only [cancelPreparedToolInvocations,run_statement,bind_ok,run_select,
    updateToolInvocations_ok,pure_ok,Except.ok.injEq,Prod.mk.injEq] at h
  obtain ⟨_,_,⟨rfl,rfl⟩,_,_,rfl,_,rfl⟩ := h
  exact moves_update _ _ _ fun id r _ hp => .cancel r reason (by simp_all)

theorem markRunningToolInvocationsUncertain_moves {taskId : TaskId}
    {errorCode errorMessage : String} {retryable : Bool} {n : Nat}
    (h : (markRunningToolInvocationsUncertain taskId errorCode errorMessage retryable).run db
      = .ok (n,db')) : Moves begun created db db' := by
  simp only [markRunningToolInvocationsUncertain,run_statement,bind_ok,run_select,
    updateToolInvocations_ok,pure_ok,Except.ok.injEq,Prod.mk.injEq] at h
  obtain ⟨_,_,⟨rfl,rfl⟩,_,_,rfl,_,rfl⟩ := h
  refine moves_update _ _ _ fun id r _ hp => .uncertain r errorCode errorMessage retryable ?_
  simp_all [ToolInvocationStatus.ended]

/-- An artifact that is written over belongs to its task still; no other one goes away. -/
theorem putArtifact_artifacts {record : ArtifactRecord} {u : Unit}
    (hown : ∀ current, db.artifacts.get record.artifactId = some current →
      current.taskId = record.taskId)
    (h : (putArtifact record).run db = .ok (u,db')) :
    HasArtifact db'.artifacts record.artifactId record.taskId ∧
      ∀ aid t, HasArtifact db.artifacts aid t → HasArtifact db'.artifacts aid t := by
  simp only [putArtifact,getArtifact,run_statement,bind_ok,run_select,Except.ok.injEq,
    Prod.mk.injEq] at h
  obtain ⟨o,_,⟨ho,rfl⟩,h⟩ := h
  cases o with
  | some current =>
    cases h
    have hkeep : ∀ aid t, HasArtifact db.artifacts aid t → HasArtifact (db.artifacts.update
        (fun r => r.artifactId = record.artifactId)
        fun r => {r with parts := record.parts, metadata := record.metadata}) aid t := by
      rintro aid t ⟨b,hb,hbt⟩
      refine ⟨_,by rw [Table.get_update,hb]; rfl,?_⟩
      dsimp only
      split <;> exact hbt
    exact ⟨hkeep _ _ ⟨current,ho,hown current ho⟩,hkeep⟩
  | none =>
    simp only [foreignKey,getContext,bind_ok,run_select,require_ok,write?_ok,
      Option.map_eq_some_iff,Except.ok.injEq,Prod.mk.injEq] at h
    obtain ⟨_,_,⟨_,rfl⟩,_,_,⟨_,rfl⟩,artifacts,hinsert,rfl⟩ := h
    have hget := Table.get_insert? hinsert
    refine ⟨⟨record,by rw [hget,if_pos rfl],rfl⟩,?_⟩
    rintro aid t ⟨b,hb,hbt⟩
    refine ⟨b,?_,hbt⟩
    rw [hget aid,if_neg]
    · exact hb
    · rintro rfl
      cases hb.symm.trans ho

theorem storeArtifact_artifacts {record a : ArtifactRecord}
    (hown : ∀ current, db.artifacts.get record.artifactId = some current →
      current.taskId = record.taskId)
    (h : (storeArtifact record).run db = .ok (a,db')) :
    HasArtifact db'.artifacts a.artifactId record.taskId ∧
      ∀ aid t, HasArtifact db.artifacts aid t → HasArtifact db'.artifacts aid t := by
  simp only [storeArtifact,bumpRevision,updateTask,getArtifact,bind_ok,run_write,run_select,
    orFail_ok,Except.ok.injEq,Prod.mk.injEq,true_and] at h
  obtain ⟨_,db₁,hput,_,_,rfl,_,_,⟨rfl,rfl⟩,hget,rfl⟩ := h
  obtain ⟨hhas,hkeep⟩ := putArtifact_artifacts hown hput
  exact ⟨Table.key_of_get hget ▸ hhas,hkeep⟩

/-- The artifact that an upsert returns is there and is the task's; no other one goes away. -/
theorem upsertArtifact_artifacts {artifactId : ArtifactId} {taskId : TaskId}
    {contextId : ContextId} {parts : List Json} {metadata : Json} {a : ArtifactRecord}
    (h : (upsertArtifact artifactId taskId contextId parts metadata).run db = .ok (a,db')) :
    HasArtifact db'.artifacts a.artifactId taskId ∧
      ∀ aid t, HasArtifact db.artifacts aid t → HasArtifact db'.artifacts aid t := by
  simp only [upsertArtifact,getArtifact,bind_ok,run_select,Except.ok.injEq,Prod.mk.injEq] at h
  obtain ⟨_,db₁,ht,o,_,⟨ho,rfl⟩,h⟩ := h
  cases requireTask_keeps (v := id) _ _ _ _ ht
  cases o with
  | some current =>
    simp only [bind_ok,require_ok,ite_run] at h
    obtain ⟨_,_,⟨⟨hct,_⟩,rfl⟩,h⟩ := h
    split at h
    · obtain ⟨rfl,rfl⟩ := pure_ok.mp h
      exact ⟨⟨current,Table.key_of_get ho ▸ ho,hct⟩,fun _ _ ha => ha⟩
    · refine storeArtifact_artifacts (fun c hc => ?_) h
      cases ho.symm.trans hc
      exact hct
  | none =>
    refine storeArtifact_artifacts (fun c hc => ?_) h
    cases ho.symm.trans hc

theorem upsertArtifact_id {artifactId : ArtifactId} {taskId : TaskId}
    {contextId : ContextId} {parts : List Json} {metadata : Json} {a : ArtifactRecord}
    (h : (upsertArtifact artifactId taskId contextId parts metadata).run db = .ok (a,db')) :
    a.artifactId = artifactId := by
  have hstore : (storeArtifact ⟨artifactId,taskId,contextId,parts,metadata⟩).run db = .ok (a,db') →
      a.artifactId = artifactId := by
    intro h
    simp only [storeArtifact,bumpRevision,updateTask,getArtifact,bind_ok,run_write,run_select,
      orFail_ok,Except.ok.injEq,Prod.mk.injEq,true_and] at h
    obtain ⟨_,_,_,_,_,_,_,_,⟨rfl,rfl⟩,hget,rfl⟩ := h
    exact Table.key_of_get hget
  simp only [upsertArtifact,getArtifact,bind_ok,run_select,Except.ok.injEq,Prod.mk.injEq] at h
  obtain ⟨_,db₁,ht,o,_,⟨ho,rfl⟩,h⟩ := h
  cases requireTask_keeps (v := id) _ _ _ _ ht
  cases o with
  | some current =>
    simp only [bind_ok,require_ok,ite_run] at h
    obtain ⟨_,_,⟨_,rfl⟩,h⟩ := h
    split at h
    · rw [← (pure_ok.mp h).1]
      exact Table.key_of_get ho
    · exact hstore h
  | none => exact hstore h

theorem completeToolInvocationSuccess_moves {id : InvocationId} {parts : List Json}
    {metadata : Json}
    (h : (completeToolInvocationSuccess id parts metadata).run db = .ok (r,db')) :
    Moves begun created db db' := by
  obtain ⟨r₀,_,h₁,h⟩ := (bind_ok _ _).mp h
  obtain ⟨hr,rfl⟩ := requireToolInvocation_ok.mp h₁
  split at h
  · exact (pure_ok.mp h).2 ▸ .refl db
  · simp only [bind_ok,require_ok,updateToolInvocations_ok,getToolInvocation_ok,orFail_ok] at h
    obtain ⟨_,_,⟨hrun,rfl⟩,a,db₁,hu,_,db₂,he,_,_,rfl,_,_,⟨_,rfl⟩,_,rfl⟩ := h
    obtain ⟨ha,hmono⟩ := upsertArtifact_artifacts hu
    have hk₁ : db₁.toolInvocations = db.toolInvocations :=
      upsertArtifact_keeps (v := AgentDb.toolInvocations) (fun _ _ _ => rfl) (fun _ _ => rfl)
        _ _ _ _ _ _ _ hu
    have hk₂ : (db₂.toolInvocations,db₂.artifacts) = (db₁.toolInvocations,db₁.artifacts) :=
      appendTaskEvent_keeps (v := fun db => (db.toolInvocations,db.artifacts))
        (fun _ _ _ => rfl) _ _ _ _ _ _ _ he
    obtain ⟨hk₂,hka⟩ := Prod.mk.inj hk₂
    refine .of_keeps (hk₂.trans hk₁) (fun aid t hd => hka ▸ hmono aid t hd) ?_
    have hid : a.artifactId = r₀.invocationId ++ ":result" := by
      have hkey : r₀.invocationId = id := Table.key_of_get hr
      rw [hkey]
      exact upsertArtifact_id hu
    rw [hid] at ha ⊢
    refine moves_update_one _ _ _ (r := r₀) ?_ (fun r hp => of_decide_eq_true hp)
      (.succeed r₀ hrun (hka ▸ ha))
    rw [AgentDb.invocation,hk₂,hk₁]
    exact hr

theorem prepareNew_moves {new : NewToolInvocation} {now : Nat}
    {reference : Option ToolInvocationReference}
    (h : (prepareNew new now).run db = .ok (reference,db')) : Moves begun (some new) db db' := by
  have hprior : Keeps (fun db => db) (priorInvocation new) :=
    .bind (.select _) fun o => by
      cases o with
      | none => exact .select _
      | some _ => exact .pure _
  obtain ⟨_,_,hp,h⟩ := (bind_ok _ _).mp h
  cases hprior _ _ _ hp
  split at h
  · exact (pure_ok.mp h).2 ▸ .refl _
  · obtain ⟨_,h,_⟩ := (map_ok _ _).mp h
    exact createOrGetToolInvocation_moves h

theorem prepare_moves {env : LedgerEnv} {thread : Option ThreadId} {loopIndex : Int}
    {call : ToolCall} {metadata : ToolMetadata} {approvalRequired : Bool} {now : Nat}
    {reference : Option ToolInvocationReference}
    (h : (prepare env thread loopIndex call metadata approvalRequired now).run db
      = .ok (reference,db')) :
    Moves begun ((LedgerOp.prepare thread loopIndex call metadata approvalRequired now).requested
      env db) db db' := by
  unfold prepare at h
  split at h
  · exact (pure_ok.mp h).2 ▸ .refl _
  · rename_i thread
    by_cases hthread : thread = ""
    · rw [if_pos hthread] at h
      exact (pure_ok.mp h).2 ▸ .refl _
    · rw [if_neg hthread] at h
      obtain ⟨_,_,hs,h⟩ := (bind_ok _ _).mp h
      cases hs
      simp only [LedgerOp.requested,if_neg hthread]
      split at h
      · exact (pure_ok.mp h).2 ▸ .refl _
      · rename_i new hnew
        rw [hnew]
        exact prepareNew_moves h

theorem finishExecution_moves {env : LedgerEnv} {id : InvocationId} {response : ToolResponse}
    (h : (finishExecution env id response).run db = .ok (r,db')) : Moves begun created db db' := by
  unfold finishExecution at h
  split at h
  · exact markToolInvocationUncertain_moves h
  · exact completeToolInvocationSuccess_moves h

end Operations

namespace LedgerOp

variable (env : LedgerEnv)

/-- The invocation that the operation may set running. -/
def begun : LedgerOp → Option InvocationId
  | begin id => some id
  | _ => none

theorem txn_moves {op : LedgerOp} {db db' : AgentDb} {u : Unit}
    (h : (op.txn env).run db = .ok (u,db')) : Moves op.begun (op.requested env db) db db' := by
  cases op with
  | prepare => obtain ⟨_,h,_⟩ := (map_ok _ _).mp h; exact prepare_moves h
  | createOrGet => obtain ⟨_,h,_⟩ := (map_ok _ _).mp h; exact createOrGetToolInvocation_moves h
  | resolveApproval =>
    obtain ⟨_,h,_⟩ := (map_ok _ _).mp h; exact resolveToolInvocationApproval_moves h
  | begin =>
    obtain ⟨_,h,_⟩ := (map_ok _ _).mp h
    obtain ⟨_,h,_⟩ := (map_ok _ _).mp h
    exact beginToolInvocation_moves h
  | finish => obtain ⟨_,h,_⟩ := (map_ok _ _).mp h; exact finishExecution_moves h
  | complete => obtain ⟨_,h,_⟩ := (map_ok _ _).mp h; exact completeToolInvocationSuccess_moves h
  | markUncertain => obtain ⟨_,h,_⟩ := (map_ok _ _).mp h; exact markToolInvocationUncertain_moves h
  | cancel => obtain ⟨_,h,_⟩ := (map_ok _ _).mp h; exact cancelToolInvocation_moves h
  | cancelPrepared =>
    obtain ⟨_,h,_⟩ := (map_ok _ _).mp h; exact cancelPreparedToolInvocations_moves h
  | markRunningUncertain =>
    obtain ⟨_,h,_⟩ := (map_ok _ _).mp h; exact markRunningToolInvocationsUncertain_moves h

/-- Every operation of the ledger only makes moves. -/
theorem apply_moves (op : LedgerOp) (db : AgentDb) :
    Moves op.begun (op.requested env db) db (op.apply env db) := by
  rcases commit_cases (op.txn env) db with h | ⟨_,h⟩
  · rw [apply,h]
    exact .refl db
  · exact txn_moves env h

@[simp] theorem history_nil (db : AgentDb) : history env [] db = db := rfl

@[simp] theorem history_cons (op : LedgerOp) (ops : List LedgerOp) (db : AgentDb) :
    history env (op::ops) db = history env ops (op.apply env db) := rfl

theorem history_append (ops₁ ops₂ : List LedgerOp) (db : AgentDb) :
    history env (ops₁++ops₂) db = history env ops₂ (history env ops₁ db) :=
  List.foldl_append

end LedgerOp

section Rows

variable {begun : Option InvocationId} {artifacts : Table ArtifactRecord.artifactId} {r r' r'' : ToolInvocationRecord}

/-- How a row may differ from an earlier version of itself. -/
structure Advances (r r' : ToolInvocationRecord) : Prop where
  identity : r'.identity = r.identity
  approval : r.approvalStatus.decided → r'.approvalStatus = r.approvalStatus
  ended : r.status.ended → r'.status = r.status
  begun : r.status ≠ .prepared → r'.status ≠ .prepared ∧ r'.approvalStatus = r.approvalStatus

theorem Advances.refl (r : ToolInvocationRecord) : Advances r r :=
  ⟨rfl,fun _ => rfl,fun _ => rfl,fun h => ⟨h,rfl⟩⟩

theorem Advances.trans (h : Advances r r') (h' : Advances r' r'') : Advances r r'' where
  identity := h'.identity.trans h.identity
  approval hd := by
    have ha := h.approval hd
    exact (h'.approval (ha ▸ hd)).trans ha
  ended he := by
    have hs := h.ended he
    exact (h'.ended (hs ▸ he)).trans hs
  begun hb := by
    obtain ⟨hb₁,ha₁⟩ := h.begun hb
    obtain ⟨hb₂,ha₂⟩ := h'.begun hb₁
    exact ⟨hb₂,ha₂.trans ha₁⟩

theorem RowMove.advances (h : RowMove artifacts begun r r') : Advances r r' := by
  cases h with
  | begin hb hp ha =>
    exact ⟨rfl,fun _ => rfl,by simp [hp,ToolInvocationStatus.ended],fun hb => (hb hp).elim⟩
  | approve reason hp hr ha =>
    exact ⟨rfl,by simp [ha,ToolInvocationApprovalStatus.decided],fun _ => rfl,
      fun hb => (hb hp).elim⟩
  | reject reason hp hr ha =>
    exact ⟨rfl,by simp [ha,ToolInvocationApprovalStatus.decided],
      by simp [hp,ToolInvocationStatus.ended],fun hb => (hb hp).elim⟩
  | succeed hr ha =>
    exact ⟨rfl,fun _ => rfl,by simp [hr,ToolInvocationStatus.ended],fun _ => ⟨by simp,rfl⟩⟩
  | uncertain errorCode errorMessage retryable ho =>
    exact ⟨rfl,fun _ => rfl,fun he => (ho he).elim,fun _ => ⟨by simp,rfl⟩⟩
  | cancel reason hp =>
    exact ⟨rfl,fun _ => rfl,by simp [hp,ToolInvocationStatus.ended],fun hb => (hb hp).elim⟩

/-- What holds of a row at any time. -/
structure RowOk (artifacts : Table ArtifactRecord.artifactId) (r : ToolInvocationRecord) :
    Prop where
  begun : r.status = .running → r.approvalRequired = true → r.approvalStatus = .approved
  rejected : r.approvalStatus = .rejected → r.status = .canceled
  result : r.resultArtifactId.isSome = true ↔ r.status = .succeeded
  artifact : ∀ artifactId, r.resultArtifactId = some artifactId →
    artifactId = r.invocationId ++ ":result" ∧ HasArtifact artifacts artifactId r.taskId

theorem rowOk_record (new : NewToolInvocation) (now : Nat) : RowOk artifacts (new.record now) := by
  constructor <;> simp [NewToolInvocation.record]
  split <;> simp

theorem RowMove.rowOk (h : RowMove artifacts begun r r') (hr : RowOk artifacts r) :
    RowOk artifacts r' := by
  have hn : r.status ≠ .succeeded → r.resultArtifactId = none := fun hs => by
    simpa using mt hr.result.mp hs
  cases h with
  | begin hb hp ha =>
    have hn := hn (by simp [hp])
    exact ⟨fun _ => ha,fun hj => by simp [hr.rejected hj] at hp,by simp [hn],by simp [hn]⟩
  | approve reason hp hq ha =>
    have hn := hn (by simp [hp])
    exact ⟨fun _ _ => rfl,by simp,by simp [hn,hp],by simp [hn]⟩
  | reject reason hp hq ha =>
    have hn := hn (by simp [hp])
    exact ⟨by simp,fun _ => rfl,by simp [hn],by simp [hn]⟩
  | succeed hs ha =>
    refine ⟨by simp,fun hj => by simp [hr.rejected hj] at hs,by simp,fun aid haid => ?_⟩
    exact Option.some.inj haid ▸ ⟨rfl,ha⟩
  | uncertain errorCode errorMessage retryable ho =>
    have hn := hn fun hs => ho (by simp [hs,ToolInvocationStatus.ended])
    refine ⟨by simp,fun hj => ?_,by simp [hn],by simp [hn]⟩
    exact (ho (by simp [hr.rejected hj,ToolInvocationStatus.ended])).elim
  | cancel reason hp =>
    have hn := hn (by simp [hp])
    exact ⟨by simp [ToolInvocationRecord.cancel],fun _ => rfl,by
      simp [ToolInvocationRecord.cancel,hn],by simp [ToolInvocationRecord.cancel,hn]⟩

end Rows

section Histories

variable (env : LedgerEnv)

/-- No row is removed, and each advances. -/
theorem Moves.advances {begun : Option InvocationId} {created : Option NewToolInvocation} {db db' : AgentDb} (h : Moves begun created db db') {id : InvocationId}
    {r : ToolInvocationRecord} (hr : db.invocation id = some r) :
    ∃ r', db'.invocation id = some r' ∧ Advances r r' := by
  rcases h.row id with h | ⟨h,_⟩ | ⟨r₁,r₂,h₁,h₂,hm⟩
  · exact ⟨r,h.trans hr,.refl r⟩
  · cases h.symm.trans hr
  · cases h₁.symm.trans hr
    exact ⟨r₂,h₂,hm.advances⟩

theorem history_advances (ops : List LedgerOp) {db : AgentDb} {id : InvocationId}
    {r : ToolInvocationRecord} (hr : db.invocation id = some r) :
    ∃ r', (LedgerOp.history env ops db).invocation id = some r' ∧ Advances r r' := by
  induction ops generalizing db r with
  | nil => exact ⟨r,hr,.refl r⟩
  | cons op ops ih =>
    obtain ⟨r₁,h₁,ha₁⟩ := (LedgerOp.apply_moves env op db).advances hr
    obtain ⟨r₂,h₂,ha₂⟩ := ih h₁
    exact ⟨r₂,h₂,ha₁.trans ha₂⟩

/-- Every row of the database is as it may be at any time. -/
def LedgerOk (db : AgentDb) : Prop :=
  ∀ id r, db.invocation id = some r → RowOk db.artifacts r

theorem Moves.ledgerOk {begun : Option InvocationId} {created : Option NewToolInvocation} {db db' : AgentDb} (h : Moves begun created db db') (hdb : LedgerOk db) :
    LedgerOk db' := by
  have hmono : ∀ r, RowOk db.artifacts r → RowOk db'.artifacts r := fun r hr =>
    ⟨hr.begun,hr.rejected,hr.result,fun aid haid =>
      ⟨(hr.artifact aid haid).1,h.artifact _ _ (hr.artifact aid haid).2⟩⟩
  intro id r hr
  rcases h.row id with h | ⟨_,new,now,_,h⟩ | ⟨r₁,r₂,h₁,h₂,hm⟩
  · exact hmono r (hdb id r (h ▸ hr))
  · cases h.symm.trans hr
    exact rowOk_record new now
  · cases h₂.symm.trans hr
    exact hm.rowOk (hmono r₁ (hdb id r₁ h₁))

theorem history_ledgerOk (ops : List LedgerOp) {db : AgentDb} (h : LedgerOk db) :
    LedgerOk (LedgerOp.history env ops db) := by
  induction ops generalizing db with
  | nil => exact h
  | cons op ops ih => exact ih ((LedgerOp.apply_moves env op db).ledgerOk h)

/-- A row that runs now was begun by one operation, in a state that allowed it. -/
theorem history_begun (ops : List LedgerOp) {db : AgentDb} {id : InvocationId}
    {r : ToolInvocationRecord} (h₀ : ∀ r, db.invocation id = some r → r.status ≠ .running)
    (hr : (LedgerOp.history env ops db).invocation id = some r) (hs : r.status = .running) :
    ∃ earlier op later r₀ r₁, ops = earlier++op::later ∧
      (LedgerOp.history env earlier db).invocation id = some r₀ ∧ r₀.status = .prepared ∧
      (r₀.approvalRequired = true → r₀.approvalStatus = .approved) ∧
      (LedgerOp.history env (earlier++[op]) db).invocation id = some r₁ ∧ r₁.status = .running := by
  induction ops generalizing db with
  | nil => exact (h₀ r hr hs).elim
  | cons op ops ih =>
    by_cases h₁ : ∀ r, (op.apply env db).invocation id = some r → r.status ≠ .running
    · obtain ⟨earlier,op',later,r₀,r₁,rfl,h⟩ := ih h₁ hr
      exact ⟨op::earlier,op',later,r₀,r₁,rfl,h⟩
    · push Not at h₁
      obtain ⟨r₁,hr₁,hs₁⟩ := h₁
      rcases (LedgerOp.apply_moves env op db).row id with h | ⟨_,new,now,_,h⟩ | ⟨r₀,r₂,hr₀,h₂,hm⟩
      · exact (h₀ r₁ (h ▸ hr₁) hs₁).elim
      · cases h.symm.trans hr₁
        cases hs₁
      · cases h₂.symm.trans hr₁
        refine ⟨[],op,ops,r₀,r₁,rfl,hr₀,?_,?_,hr₁,hs₁⟩
        · cases hm with
          | begin hb hp ha => exact hp
          | approve reason hp hq ha => exact hp
          | _ => simp_all [ToolInvocationRecord.cancel]
        · cases hm with
          | begin hb hp ha => exact ha
          | approve reason hp hq ha => simp_all
          | _ => simp_all [ToolInvocationRecord.cancel]

/-- Approval gating and immutability, at any time of any history on an empty ledger: what holds
of a row now, how it came to run, and what it still says however the history goes on. -/
theorem ledger_facts (db₀ : AgentDb) (before after : List LedgerOp) (id : InvocationId)
    (r : ToolInvocationRecord)
    (hr : (LedgerOp.history env before {db₀ with toolInvocations := .empty}).invocation id
      = some r) :
    let db := {db₀ with toolInvocations := .empty}
    let now := LedgerOp.history env before db
    (r.status = .running → r.approvalRequired = true →
      ∃ earlier op later r₀ r₁, before = earlier++op::later ∧
        (LedgerOp.history env earlier db).invocation id = some r₀ ∧
        r₀.status = .prepared ∧ r₀.approvalStatus = .approved ∧
        (LedgerOp.history env (earlier++[op]) db).invocation id = some r₁ ∧
        r₁.status = .running) ∧
    (r.approvalStatus = .rejected → r.status = .canceled) ∧
    (r.resultArtifactId.isSome = true ↔ r.status = .succeeded) ∧
    (∀ artifactId, r.resultArtifactId = some artifactId →
      HasArtifact now.artifacts artifactId r.taskId) ∧
    ∃ r', (LedgerOp.history env after now).invocation id = some r' ∧
      r'.identity = r.identity ∧
      (r.approvalStatus.decided → r'.approvalStatus = r.approvalStatus) ∧
      (r.status.ended → r'.status = r.status) ∧
      (r'.approvalStatus = .rejected → r.status ≠ .running) := by
  intro db now
  have hdb : LedgerOk db := fun id r h => by cases h
  have hok := history_ledgerOk env before hdb id r hr
  obtain ⟨r',hr',ha⟩ := history_advances env after hr
  refine ⟨fun hs hq => ?_,hok.rejected,hok.result,fun aid haid => (hok.artifact aid haid).2,r',hr',ha.identity,ha.approval,
    ha.ended,fun hj hs => ?_⟩
  · obtain ⟨earlier,op,later,r₀,r₁,hb,h₀,hp,hg,h₁,hs₁⟩ :=
      history_begun env before (fun r h => by cases h) hr hs
    refine ⟨earlier,op,later,r₀,r₁,hb,h₀,hp,hg ?_,h₁,hs₁⟩
    obtain ⟨r₂,h₂,ha₂⟩ := history_advances env (op::later) h₀
    rw [← LedgerOp.history_append,← hb,hr] at h₂
    cases h₂
    exact (congrArg NewToolInvocation.approvalRequired ha₂.identity).symm.trans hq
  · have hj' : r.approvalStatus = .rejected :=
      ((ha.begun (by simp [hs])).2).symm.trans hj
    simp [hok.rejected hj'] at hs

end Histories

section Sample

/-- One running local task with its context and input message. -/
def sampleDb : AgentDb := {AgentDb.empty with
  contexts := ⟨[⟨"ctx",none,.obj [],2⟩],by simp⟩
  messages := ⟨[⟨"msg","ctx",1,.user,[],none,.obj []⟩],by simp⟩
  tasks := ⟨[⟨"task","ctx",.running,"msg",1,none,"thread",none,none,1,none,none,false,3⟩],by simp⟩}

/-- SHA-256 on the texts that the sample calls hash. -/
def sampleEnv : LedgerEnv where
  sha256 text :=
    if text = "task|thread|1|call-a|write_file|" ++
        "44136fa355b3678a1146ad16f7e8649e94fb4fc21fe77e8310c060f61caaff8a" then
      "c5cf79e2a0a06b3d31ad4df9e5d785631e5ebf1c4a52db5ed0b0e39254d1a57b"
    else if text = "task|thread|1|call-b|write_file|" ++
        "44136fa355b3678a1146ad16f7e8649e94fb4fc21fe77e8310c060f61caaff8a" then
      "8bf5eb25b04a3b12e95a323457e420d26f05d3255cc003aa9ca9667665310a94"
    else if text = "task|thread|2|call-a|write_file|" ++
        "44136fa355b3678a1146ad16f7e8649e94fb4fc21fe77e8310c060f61caaff8a" then
      "4fe588152bcac0d508d42fe76ddbaccfde9cd2a8cdffb0faf3627b36dd5fc776"
    else ""
  argumentsDigest _ := "44136fa355b3678a1146ad16f7e8649e94fb4fc21fe77e8310c060f61caaff8a"
  jsonLoads _ := none
  jsonDumps _ := ""

def sampleMetadata : ToolMetadata :=
  ⟨"builtin","filesystem","local",false,"local",false,false⟩

def samplePrepare (loopIndex : Int) (callId : String) (approvalRequired : Bool) (now : Nat) :
    LedgerOp :=
  .prepare (some "thread") loopIndex ⟨"write_file",.obj [],some callId⟩ sampleMetadata
    approvalRequired now

def sampleIdA : InvocationId := "inv-c5cf79e2a0a06b3d31ad4df9e5d78563"
def sampleIdB : InvocationId := "inv-8bf5eb25b04a3b12e95a323457e420d2"
def sampleIdC : InvocationId := "inv-4fe588152bcac0d508d42fe76ddbaccf"

end Sample

/-- A call of the sample task that was prepared, approved and begun, and then finishes. -/
theorem ledger_facts_sample :
    ∃ r r', (LedgerOp.history sampleEnv [samplePrepare 1 "call-a" true 1,
        .resolveApproval "task" sampleIdA "write_file" (sampleEnv.argumentsDigest .null) true none,
        .begin sampleIdA] sampleDb).invocation sampleIdA = some r ∧ r.status = .running ∧
      (LedgerOp.history sampleEnv [.finish sampleIdA ⟨"success",.str "done"⟩]
        (LedgerOp.history sampleEnv [samplePrepare 1 "call-a" true 1,
        .resolveApproval "task" sampleIdA "write_file" (sampleEnv.argumentsDigest .null) true none,
        .begin sampleIdA] sampleDb)).invocation sampleIdA = some r' ∧
      r'.identity = r.identity ∧ r'.approvalStatus ≠ .rejected := by
  obtain ⟨r,hr⟩ := Option.isSome_iff_exists.mp (show
    ((LedgerOp.history sampleEnv [samplePrepare 1 "call-a" true 1,
      .resolveApproval "task" sampleIdA "write_file" (sampleEnv.argumentsDigest .null) true none,
      .begin sampleIdA] sampleDb).invocation sampleIdA).isSome = true by decide +kernel)
  have hs : (some r).map (·.status) = some .running := by
    rw [← hr]
    decide +kernel
  have hs : r.status = .running := by simpa using hs
  obtain ⟨_,_,_,_,r',hr',hi,_,_,hj⟩ := ledger_facts sampleEnv sampleDb
    [samplePrepare 1 "call-a" true 1,
      .resolveApproval "task" sampleIdA "write_file" (sampleEnv.argumentsDigest .null) true none,
      .begin sampleIdA] [.finish sampleIdA ⟨"success",.str "done"⟩] sampleIdA r hr
  exact ⟨r,r',hr,hs,hr',hi,fun h => hj h hs⟩

end VermayAgent
