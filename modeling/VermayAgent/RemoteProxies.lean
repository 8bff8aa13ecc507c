import VermayAgent.StoreWrites
import VermayAgent.EventLogs

/-! Remote proxies and their final answers.
What the agent says about a task is stored in the task's context; a remote proxy has at most one
answer, the one that its completion brought, and its status moves along the snapshot order. -/
namespace VermayAgent
open Library Txn MainAgentStore

variable {db db' : AgentDb} {t : TaskId} {A : WriteScope}

/-- The agent's messages of a task. -/
def AgentDb.agentMessages (db : AgentDb) (t : TaskId) : List MessageRecord :=
  db.messages.rows.filter fun m => m.role = .agent ∧ m.taskId = some t

/-- The final answer of the child agent that a task was delegated to. -/
def AgentDb.remoteAnswer (db : AgentDb) (t : TaskId) : Option ArtifactRecord :=
  db.artifacts.get (t ++ ":remote_final_answer")

def AgentDb.contextOf (db : AgentDb) (t : TaskId) : Option ContextId :=
  (db.tasks.get t).map (·.contextId)

section Owners

/-- What a write may answer for where it runs: its task, in the context that the task has there. -/
def AgentTxn.scopeAt (a : AgentTxn) (db : AgentDb) : WriteScope :=
  ⟨a.scope.creates,a.scope.retries,fun t c => a.scope.answers t c ∧ db.contextOf t = some c,a.scope.deletes⟩

/-- A transaction that answers for a task reads the task first. -/
theorem StoreWrites.AnswersFor.run {x : StoreTxn TaskRecord} {task : TaskRecord}
    (hx : AnswersFor t x) (h : x.run db = .ok (task,db'))
    (ht : ∀ c, db.contextOf t = some c → A.answers t c) :
    Relation.ReflTransGen (StoreWrite A) db db' := by
  obtain ⟨f,rfl,hf⟩ := hx
  simp only [bind_ok,requireTask_ok] at h
  obtain ⟨r,_,⟨hr,rfl⟩,h⟩ := h
  refine (hf A r (Table.key_of_get hr) (ht _ ?_)).run h
  rw [AgentDb.contextOf,hr]
  rfl

theorem AgentTxn.commit_writes (core : CoreEnv) (env : LedgerEnv) (a : AgentTxn) (db : AgentDb) :
    Relation.ReflTransGen (StoreWrite (a.scopeAt db)) db (a.commit core env db) := by
  have hquiet : (∀ t c, ¬ a.scope.answers t c) →
      Relation.ReflTransGen (StoreWrite (a.scopeAt db)) db (a.commit core env db) := fun hno => by
    have hle : a.scope.Le (a.scopeAt db) :=
      ⟨fun _ h => h,fun _ h => h,fun t c h => absurd h (hno t c),fun _ h => h⟩
    exact ((a.writes core env).mono fun _ _ hw => hw.mono hle).commit db
  have hrun : ∀ {x : StoreTxn TaskRecord}, (∀ task db', x.run db = .ok (task,db') →
      Relation.ReflTransGen (StoreWrite (a.scopeAt db)) db db') →
      Relation.ReflTransGen (StoreWrite (a.scopeAt db)) db (x.commit db) := by
    intro x hx
    rcases commit_cases x db with heq | ⟨task,hok⟩
    · rw [heq]
    · exact hx task _ hok
  cases a with
  | core x =>
    cases x with
    | recordLocalTaskResult t result metadata id seen =>
      have hlocal := @StoreWrites.recordLocalResult_cases t result metadata id seen
        (fun x => ∀ task db', x.run db = .ok (task,db') → Relation.ReflTransGen (StoreWrite
          (AgentTxn.scopeAt (.core (.recordLocalTaskResult t result metadata id seen)) db)) db db')
        (fun x hx task db' h => (hx _).run h)
        (fun x hx task db' h => by
          simp only [bind_ok,ofExcept_ok] at h
          obtain ⟨_,_,⟨_,rfl⟩,h⟩ := h
          exact hx task db' h)
        (fun x hx task db' h => hx.run h fun c hc => ⟨decide_eq_true rfl,hc⟩)
      rw [AgentTxn.commit,AgentTxn.txn,CoreTxn.txn,commit_map,commit_map]
      exact hrun hlocal
    | recordRemoteSnapshot t snapshot id =>
      rw [AgentTxn.commit,AgentTxn.txn,CoreTxn.txn,commit_map,commit_map]
      exact hrun fun task db' h =>
        (StoreWrites.recordRemoteSnapshot snapshot id).run h fun c hc => ⟨decide_eq_true rfl,hc⟩
    | _ =>
      refine hquiet fun t c h => ?_
      cases h
  | _ => exact hquiet fun t c h => h

theorem contextOf_update {p : TaskRecord → Bool} {f : TaskRecord → TaskRecord}
    {hf : ∀ r, (f r).taskId = r.taskId} (horigin : ∀ r, (f r).origin = r.origin) :
    ({db with tasks := db.tasks.update p f hf} : AgentDb).contextOf t = db.contextOf t := by
  simp only [AgentDb.contextOf,Table.get_update,Option.map_map]
  refine congrArg (fun g => Option.map g _) (funext fun r => ?_)
  have hcontext : (f r).contextId = r.contextId := congrArg TaskOrigin.contextId (horigin r)
  by_cases hr : p r = true <;> simp [hr,hcontext]

theorem contextOf_insert {r : TaskRecord} {tasks : Table TaskRecord.taskId} {c : ContextId}
    (hinsert : db.tasks.insert? r = some tasks) (hc : db.contextOf t = some c) :
    ({db with tasks} : AgentDb).contextOf t = some c := by
  have hne : r.taskId ≠ t := by
    rintro rfl
    rw [AgentDb.contextOf,Table.insert?_fresh hinsert] at hc
    cases hc
  rw [← hc]
  exact congrArg (Option.map _) ((Table.get_insert? hinsert t).trans (if_neg hne))

theorem contextOf_delete {c c' : ContextId} {taskIds : List TaskId} {u : Unit}
    (h : (deleteContextRows c taskIds).run db = .ok (u,db')) (hc : db.contextOf t = some c')
    (hne : c' ≠ c) : db'.contextOf t = some c' := by
  obtain ⟨r,hr,rfl⟩ := Option.map_eq_some_iff.mp hc
  rw [deleteContextRows_ok h]
  simp [AgentDb.contextOf,Table.get_delete,hr,Option.filter,hne]

/-- What is answered for a task stands in the context of the task. -/
structure AnswersOwned (db : AgentDb) : Prop where
  messages : ∀ t, ∀ m ∈ db.agentMessages t, db.contextOf t = some m.contextId
  artifacts : ∀ t a, db.remoteAnswer t = some a → db.contextOf t = some a.contextId

theorem answersOwned_empty : AnswersOwned AgentDb.empty := by
  constructor
  · intro t m hm
    cases hm
  · intro t a ha
    cases ha

theorem mem_agentMessages {m : MessageRecord} :
    m ∈ db.agentMessages t ↔ m ∈ db.messages.rows ∧ m.role = .agent ∧ m.taskId = some t := by
  simp [AgentDb.agentMessages]

theorem AnswersOwned.write (hw : StoreWrite A db db')
    (hA : ∀ t c, A.answers t c → db.contextOf t = some c) (h : AnswersOwned db) :
    AnswersOwned db' := by
  cases hw with
  | message hanswers _ _ hinsert =>
    refine ⟨fun t m hm => ?_,h.artifacts⟩
    obtain ⟨hm,hrole,htask⟩ := mem_agentMessages.mp hm
    rcases (Table.mem_insert? hinsert).mp hm with hm | rfl
    · exact h.messages t m (mem_agentMessages.mpr ⟨hm,hrole,htask⟩)
    · exact hA t _ (hanswers t hrole htask)
  | task _ _ _ _ _ _ _ hinsert =>
    exact ⟨fun t m hm => contextOf_insert hinsert (h.messages t m hm),
      fun t a ha => contextOf_insert hinsert (h.artifacts t a ha)⟩
  | progress _ horigin =>
    exact ⟨fun t m hm => (contextOf_update horigin).trans (h.messages t m hm),
      fun t a ha => (contextOf_update horigin).trans (h.artifacts t a ha)⟩
  | output =>
    exact ⟨fun t m hm => (contextOf_update (by intros; rfl)).trans (h.messages t m hm),
      fun t a ha => (contextOf_update (by intros; rfl)).trans (h.artifacts t a ha)⟩
  | artifact hanswers hinsert =>
    refine ⟨h.messages,fun t a ha => ?_⟩
    have ha := (Table.get_insert? hinsert _).symm.trans ha
    split at ha
    · rename_i hid
      cases ha
      exact hA t _ (hanswers t hid)
    · exact h.artifacts t a ha
  | parts parts metadata hanswers =>
    refine ⟨h.messages,fun t a ha => ?_⟩
    simp only [AgentDb.remoteAnswer,Table.get_update,Option.map_eq_some_iff] at ha
    obtain ⟨a₀,ha₀,rfl⟩ := ha
    refine (h.artifacts t a₀ ha₀).trans ?_
    split <;> rfl
  | deletion taskIds _ hrun =>
    have hdb := deleteContextRows_ok hrun
    refine ⟨fun t m hm => ?_,fun t a ha => ?_⟩
    · obtain ⟨hm,hrole,htask⟩ := mem_agentMessages.mp hm
      rw [hdb] at hm
      obtain ⟨hm,hne⟩ := List.mem_filter.mp hm
      exact contextOf_delete hrun (h.messages t m (mem_agentMessages.mpr ⟨hm,hrole,htask⟩))
        (by simpa using hne)
    · rw [hdb] at ha
      obtain ⟨ha,hne⟩ := Option.filter_eq_some_iff.mp ((Table.get_delete _ _ _).symm.trans ha)
      exact contextOf_delete hrun (h.artifacts t a ha) (by simpa using hne)
  | _ => exact ⟨h.messages,h.artifacts⟩

end Owners

section Answers

/-- What there is of a task's answer: the agent's messages of it, the final answer of its child
agent and its output message. -/
structure ProxyAnswer where
  messages : List MessageRecord
  artifact : Option ArtifactRecord
  output : Option MessageId

def AgentDb.proxyAnswer (t : TaskId) (db : AgentDb) : ProxyAnswer :=
  ⟨db.agentMessages t,db.remoteAnswer t,(db.tasks.get t).bind (·.outputMessageId)⟩

/-- Nothing has been answered. -/
def ProxyAnswer.none : ProxyAnswer := ⟨[],.none,.none⟩

/-- One message and one artifact with its parts; the message is the task's output. -/
def ProxyAnswer.Given (p : ProxyAnswer) : Prop :=
  ∃ m a, p = ⟨[m],some a,some m.messageId⟩ ∧ a.parts = m.parts

theorem output_update {p : TaskRecord → Bool} {f : TaskRecord → TaskRecord}
    {hf : ∀ r, (f r).taskId = r.taskId}
    (houtput : ∀ r, p r = true → r.taskId = t → (f r).outputMessageId = r.outputMessageId) :
    ((db.tasks.update p f hf).get t).bind (·.outputMessageId) =
      (db.tasks.get t).bind (·.outputMessageId) := by
  rw [Table.get_update]
  cases hr : db.tasks.get t with
  | none => rfl
  | some r =>
    by_cases hp : p r = true
    · simpa [hp] using houtput r hp (Table.key_of_get hr)
    · simp [hp]

/-- A write that does not answer for the task leaves its answer as it is. -/
theorem proxyAnswer_write (hw : StoreWrite A db db') (hA : ∀ c, ¬ A.answers t c)
    (hdeletes : ∀ c, ¬ A.deletes c) : db'.proxyAnswer t = db.proxyAnswer t := by
  cases hw with
  | @message messages _ m hanswers _ _ hinsert =>
    have hmessages : messages.rows.filter (fun m => m.role = .agent ∧ m.taskId = some t) =
        db.agentMessages t := by
      have hnot : ¬ (m.role = .agent ∧ m.taskId = some t) := fun h => hA _ (hanswers t h.1 h.2)
      simp [Table.rows_insert? hinsert,AgentDb.agentMessages,hnot]
    exact congrArg (ProxyAnswer.mk · _ _) hmessages
  | @task tasks r _ _ _ _ _ _ houtput hinsert =>
    have houtput : (tasks.get t).bind (·.outputMessageId) =
        (db.tasks.get t).bind (·.outputMessageId) := by
      rw [Table.get_insert? hinsert]
      split
      · rename_i hid
        rw [← hid,Table.insert?_fresh hinsert]
        exact houtput
      · rfl
    exact congrArg (ProxyAnswer.mk _ _) houtput
  | @progress t' f hf _ houtput =>
    exact congrArg (ProxyAnswer.mk _ _) (@output_update db t _ f hf fun r _ _ => houtput r)
  | @output t' _ m hanswers =>
    refine congrArg (ProxyAnswer.mk _ _) (@output_update db t _ _ (by intros; rfl) fun r hp hid => ?_)
    have hp : r.taskId = t' := of_decide_eq_true hp
    have htask : t' = t := hp.symm.trans hid
    exact absurd (htask ▸ hanswers) (hA _)
  | @artifact artifacts a hanswers hinsert =>
    have hartifact : artifacts.get (t ++ ":remote_final_answer") = db.remoteAnswer t := by
      rw [Table.get_insert? hinsert,if_neg fun hid => hA _ (hanswers t hid)]
      rfl
    exact congrArg (ProxyAnswer.mk _ · _) hartifact
  | @parts id parts metadata hanswers =>
    have hartifact : ∀ a, db.artifacts.get (t ++ ":remote_final_answer") = some a →
        ¬ a.artifactId = id := by
      intro a ha hid
      obtain ⟨c,hc⟩ := hanswers t (hid.symm.trans (Table.key_of_get ha))
      exact hA c hc
    refine congrArg (ProxyAnswer.mk _ · _) ?_
    simp only [AgentDb.remoteAnswer,Table.get_update]
    cases ha : db.artifacts.get (t ++ ":remote_final_answer") with
    | none => rfl
    | some a => simp [hartifact a ha]
  | deletion _ hdelete => exact absurd hdelete (hdeletes _)
  | _ => rfl

/-- Neither creations nor answers nor deletions. -/
def WriteScope.none : WriteScope := ⟨fun _ => False,fun _ => False,fun _ _ => False,fun _ => False⟩

theorem proxyAnswer_writes (hw : Relation.ReflTransGen (StoreWrite A) db db')
    (hA : ∀ c, ¬ A.answers t c) (hdeletes : ∀ c, ¬ A.deletes c) :
    db'.proxyAnswer t = db.proxyAnswer t := by
  induction hw with
  | refl => rfl
  | tail _ hstep ih => exact (proxyAnswer_write hstep hA hdeletes).trans ih

theorem proxyAnswer_quiet {α : Type} {x : StoreTxn α} {a : α} (hx : ∀ A, StoreWrites A x)
    (h : x.run db = .ok (a,db')) : db'.proxyAnswer t = db.proxyAnswer t :=
  proxyAnswer_writes ((hx .none).run h) (fun _ h => h) fun _ h => h

/-- A task whose context is not deleted stays what it was made as. -/
theorem origin_writes (hw : Relation.ReflTransGen (StoreWrite A) db db')
    (hdeletes : ∀ c, ¬ A.deletes c) {r : TaskRecord} (hr : db.tasks.get t = some r) :
    ∃ r', db'.tasks.get t = some r' ∧ r'.origin = r.origin := by
  induction hw with
  | refl => exact ⟨r,hr,rfl⟩
  | tail _ hstep ih =>
    obtain ⟨r₁,hr₁,horigin₁⟩ := ih
    obtain ⟨r₂,hr₂,horigin₂⟩ := hstep.origin hr₁ (hdeletes _)
    exact ⟨r₂,hr₂,horigin₂.trans horigin₁⟩

end Answers

section Snapshots

open TaskOutcomeRecorder

/-- No message of the role and the task is there, so that the message is a new one. -/
theorem appendMessage_new {id : MessageId} {c : ContextId} {role : MessageRole} {parts : List Json}
    {metadata : Json} {m : MessageRecord}
    (hnone : ∀ m ∈ db.messages.rows, m.role = role → m.taskId ≠ some t)
    (h : (appendMessage id c role parts (some t) metadata).run db = .ok (m,db')) :
    db'.messages.rows = db.messages.rows++[m] ∧ m.role = role ∧ m.taskId = some t ∧
      m.parts = parts := by
  simp only [appendMessage,getContext,getMessage,bind_ok,run_select,orFail_ok,Except.ok.injEq,
    Prod.mk.injEq] at h
  obtain ⟨_,_,⟨_,rfl⟩,_,_,⟨_,rfl⟩,o,_,⟨ho,rfl⟩,h⟩ := h
  cases o with
  | some existing =>
    simp only [bind_ok,require_ok] at h
    obtain ⟨_,_,⟨⟨_,hrole,_,htask⟩,_⟩,_⟩ := h
    exact absurd htask (hnone existing (Table.mem_of_get ho) hrole)
  | none =>
    simp only [insertMessage,uniqueConstraint,bind_ok,run_write,run_select,run_statement,orFail_ok,
      require_ok,write?_ok,Option.map_eq_some_iff,Except.ok.injEq,Prod.mk.injEq] at h
    obtain ⟨_,_,⟨_,rfl⟩,_,_,⟨rfl,rfl⟩,_,_,⟨_,rfl⟩,_,_,⟨_,_,⟨_,rfl⟩,_,_,⟨_,rfl⟩,messages,hinsert,rfl⟩,
      _,_,⟨rfl,rfl⟩,hm,rfl⟩ := h
    have hm := (Table.get_insert? hinsert id).symm.trans hm
    rw [if_pos rfl] at hm
    cases hm
    exact ⟨Table.rows_insert? hinsert,rfl,rfl,rfl⟩

/-- An artifact that is not there is stored as it is given. -/
theorem upsertArtifact_new {id : ArtifactId} {c : ContextId} {parts : List Json} {metadata : Json}
    {a : ArtifactRecord} (hnone : db.artifacts.get id = none)
    (h : (upsertArtifact id t c parts metadata).run db = .ok (a,db')) :
    db'.artifacts.get id = some a ∧ a.parts = parts := by
  simp only [upsertArtifact,getArtifact,bind_ok,run_select,requireTask_ok,Except.ok.injEq,
    Prod.mk.injEq] at h
  obtain ⟨_,_,⟨_,rfl⟩,o,_,⟨rfl,rfl⟩,h⟩ := h
  rw [hnone] at h
  simp only [storeArtifact,putArtifact,getArtifact,bumpRevision,updateTask,foreignKey,getContext,
    bind_ok,run_write,run_select,run_statement,orFail_ok,Except.ok.injEq,Prod.mk.injEq] at h
  obtain ⟨_,db₁,⟨o,_,⟨rfl,rfl⟩,h⟩,_,_,⟨_,rfl⟩,_,_,⟨rfl,rfl⟩,ha,rfl⟩ := h
  rw [hnone] at h
  simp only [bind_ok,run_select,require_ok,write?_ok,Option.map_eq_some_iff,Except.ok.injEq,
    Prod.mk.injEq] at h
  obtain ⟨_,_,⟨_,rfl⟩,_,_,⟨_,rfl⟩,artifacts,hinsert,rfl⟩ := h
  have hget := (Table.get_insert? hinsert id).symm.trans ha
  rw [if_pos rfl] at hget
  cases hget
  exact ⟨ha,rfl⟩

theorem setTaskOutputMessage_output {id : MessageId} {r : TaskRecord}
    (h : (setTaskOutputMessage t id).run db = .ok (r,db')) :
    db'.tasks.get t = some r ∧ r.outputMessageId = some id := by
  simp only [setTaskOutputMessage,getMessage,bind_ok,run_select,orFail_ok,requireTask_ok,ite_run,
    Except.ok.injEq,Prod.mk.injEq] at h
  obtain ⟨_,_,⟨rfl,rfl⟩,_,_,⟨_,rfl⟩,r₀,_,⟨hr₀,rfl⟩,h⟩ := h
  split at h
  · obtain ⟨rfl,rfl⟩ := pure_ok.mp h
    exact ⟨hr₀,‹_›⟩
  · simp only [updateTask,getTask,bind_ok,run_write,run_select,orFail_ok,Except.ok.injEq,
      Prod.mk.injEq,true_and] at h
    obtain ⟨_,_,rfl,_,_,⟨rfl,rfl⟩,hr,rfl⟩ := h
    have hkey : r₀.taskId = t := Table.key_of_get hr₀
    simp only [Table.get_update,hr₀,hkey,Option.map_some,decide_true,if_true,
      Option.some.injEq] at hr ⊢
    exact ⟨hr,hr ▸ rfl⟩

variable {snapshot : RemoteAgentTaskSnapshot} {newMessageId : MessageId}
  {delegation : DelegatedTaskRecord}

/-- The parts and the message of the child agent's answer are stored, or all stays as it is. -/
theorem materializeRemoteFinalAnswer_answer {task r : TaskRecord}
    (hempty : db.remoteAnswer task.taskId = none → db.agentMessages task.taskId = [])
    (h : (materializeRemoteFinalAnswer task delegation snapshot newMessageId).run db
      = .ok (r,db')) :
    db'.proxyAnswer task.taskId = db.proxyAnswer task.taskId ∨
      db.remoteAnswer task.taskId = none ∧ (db'.proxyAnswer task.taskId).Given := by
  unfold materializeRemoteFinalAnswer at h
  simp only [ite_run] at h
  split at h
  · obtain ⟨rfl,rfl⟩ := pure_ok.mp h
    exact .inl rfl
  · simp only [bind_ok,getArtifact,run_select,Except.ok.injEq,Prod.mk.injEq] at h
    obtain ⟨o,_,⟨ho,rfl⟩,h⟩ := h
    cases o with
    | some artifact =>
      simp only [getTask,bind_ok,run_select,pure_ok,Except.ok.injEq,Prod.mk.injEq] at h
      obtain ⟨_,_,⟨_,rfl⟩,_,rfl⟩ := h
      exact .inl rfl
    | none =>
      simp only [bind_ok] at h
      obtain ⟨m,db₁,h₁,a,db₂,h₂,_,db₃,h₃,h₄⟩ := h
      have hmessages := hempty ho
      obtain ⟨hrows,hrole,htask,hparts⟩ := appendMessage_new (fun m hm hrole htask => by
        have hmem := mem_agentMessages.mpr ⟨hm,hrole,htask⟩
        rw [hmessages] at hmem
        cases hmem) h₁
      have hartifacts₁ : db₁.artifacts = db.artifacts :=
        appendMessage_keeps (v := AgentDb.artifacts) (fun _ _ => rfl) (fun _ _ => rfl)
          _ _ _ _ _ _ _ _ _ h₁
      obtain ⟨ha,haparts⟩ := upsertArtifact_new (hartifacts₁ ▸ ho) h₂
      have hmessages₂ : db₂.messages = db₁.messages :=
        upsertArtifact_keeps (v := AgentDb.messages) (fun _ _ _ => rfl) (fun _ _ => rfl)
          _ _ _ _ _ _ _ h₂
      have hignores : IgnoresProgress fun db => (db.messages,db.artifacts) := by
        constructor
        all_goals intros; rfl
      have hkept₃ := hignores.appendTaskEvent _ _ _ _ _ _ h₃
      have hkept₄ := hignores.setTaskOutputMessage _ _ _ _ h₄
      obtain ⟨hmessages',hartifacts'⟩ := Prod.mk.inj (hkept₄.trans hkept₃)
      obtain ⟨hr,houtput⟩ := setTaskOutputMessage_output h₄
      refine .inr ⟨ho,m,a,?_,haparts.trans hparts.symm⟩
      have hall : db'.agentMessages task.taskId = [m] := by
        rw [AgentDb.agentMessages,hmessages',hmessages₂,hrows,List.filter_append]
        refine (congrArg (· ++ _) hmessages).trans ?_
        simp [hrole,htask]
      simp only [AgentDb.proxyAnswer,hall,AgentDb.remoteAnswer,hartifacts',ha,hr,Option.bind_some,
        houtput]

/-- The snapshot is one of the delegated task, in its context. -/
def RemoteAgentTaskSnapshot.Matches (snapshot : RemoteAgentTaskSnapshot)
    (delegation : DelegatedTaskRecord) : Prop :=
  nonEmpty delegation.remoteTaskId = some snapshot.taskId ∧
    (delegation.remoteContextId = none ∨ snapshot.contextId = none ∨
      snapshot.contextId = delegation.remoteContextId)

theorem validateRemoteProxySnapshot_ok {u : Unit}
    (h : (validateRemoteProxySnapshot delegation snapshot).run db = .ok (u,db')) :
    snapshot.Matches delegation ∧ db = db' := by
  simp only [validateRemoteProxySnapshot,bind_ok,orFail_ok,require_ok] at h
  obtain ⟨expected,_,⟨hexpected,rfl⟩,_,_,⟨rfl,rfl⟩,hcontext,rfl⟩ := h
  exact ⟨⟨hexpected,hcontext⟩,rfl⟩

/-- A snapshot of another remote task, or of another context, is refused. -/
theorem recordRemoteSnapshot_mismatch
    (hdelegation : db.delegatedTasks.rows.find? (fun d => d.localTaskId = some t) = some delegation)
    (hmismatch : ¬ snapshot.Matches delegation) :
    ∃ e, (recordRemoteSnapshot t snapshot newMessageId).run db = .error e := by
  cases hrun : (recordRemoteSnapshot t snapshot newMessageId).run db with
  | error e => exact ⟨e,rfl⟩
  | ok result =>
    have h : (recordRemoteSnapshot t snapshot newMessageId).run db = .ok (result.1,result.2) := hrun
    simp only [recordRemoteSnapshot,getDelegatedTaskByLocalTaskId,bind_ok,requireTask_ok,run_select,
      orFail_ok,Except.ok.injEq,Prod.mk.injEq] at h
    obtain ⟨_,_,⟨_,rfl⟩,_,_,⟨rfl,rfl⟩,found,_,⟨hfound,rfl⟩,_,_,hvalid,_⟩ := h
    rw [hdelegation,Option.some.injEq] at hfound
    exact absurd (hfound ▸ (validateRemoteProxySnapshot_ok hvalid).1) hmismatch

/-- What an accepted or a stale snapshot does to the proxy and its answer. -/
structure Synced (snapshot : RemoteAgentTaskSnapshot) (r r' : TaskRecord) (db db' : AgentDb) :
    Prop where
  status : r'.status = remoteTaskStatus snapshot.status r.status
  origin : r'.origin = r.origin
  accepted : acceptsRemoteProxySnapshot r.status r'.status = true
  answer : db'.proxyAnswer r.taskId = db.proxyAnswer r.taskId ∨
    db.remoteAnswer r.taskId = none ∧ (db'.proxyAnswer r.taskId).Given ∧ r'.status = .completed

theorem recordRemoteSnapshot_ok {task : TaskRecord}
    (hempty : db.remoteAnswer t = none → db.agentMessages t = [])
    (h : (recordRemoteSnapshot t snapshot newMessageId).run db = .ok (task,db')) :
    ∃ r, db.tasks.get t = some r ∧
      (acceptsRemoteProxySnapshot r.status (remoteTaskStatus snapshot.status r.status) = false ∧
        db' = db ∨
      ∃ r', db'.tasks.get t = some r' ∧ Synced snapshot r r' db db') := by
  have hall : Relation.ReflTransGen
      (StoreWrite ⟨fun _ => False,fun _ => False,fun _ _ => True,fun _ => False⟩)
      db db' := (StoreWrites.recordRemoteSnapshot _ _).run h fun _ _ => trivial
  simp only [recordRemoteSnapshot,getDelegatedTaskByLocalTaskId,bind_ok,requireTask_ok,run_select,
    orFail_ok,ite_run,Except.ok.injEq,Prod.mk.injEq] at h
  obtain ⟨r,_,⟨hr,rfl⟩,_,_,⟨rfl,rfl⟩,delegation,_,⟨_,rfl⟩,_,db₁,h₁,h⟩ := h
  obtain ⟨_,rfl⟩ := validateRemoteProxySnapshot_ok h₁
  refine ⟨r,hr,?_⟩
  split at h
  · exact .inl ⟨‹_›,(pure_ok.mp h).2.symm⟩
  · rename_i haccepts
    have haccepts : acceptsRemoteProxySnapshot r.status
        (remoteTaskStatus snapshot.status r.status) = true := by simpa using haccepts
    have hkey : r.taskId = t := Table.key_of_get hr
    subst hkey
    simp only [bind_ok,ite_run] at h
    obtain ⟨_,db₂,h₂,r₃,db₃,h₃,h⟩ := h
    have htasks₂ : db₂.tasks = db.tasks :=
      updateDelegatedTaskStatus_keeps (v := AgentDb.tasks) (fun _ _ => rfl) _ _ _ _ _ _ h₂
    have hrows₂ := updateDelegatedTaskStatus_rows _ _ _ _ _ _ h₂
    have hanswer₂ : db₂.proxyAnswer r.taskId = db.proxyAnswer r.taskId :=
      proxyAnswer_quiet (fun _ => StoreWrites.updateDelegatedTaskStatus _ _ _) h₂
    have hr₂ : db₂.tasks.get r.taskId = some r := htasks₂ ▸ hr
    -- the answer of a completed task is stored before its status
    have hmaterialized : (db₃.tasks.get r.taskId = some r₃ ∧ db₃.rows = db₂.rows) ∧
        (db₃.proxyAnswer r.taskId = db₂.proxyAnswer r.taskId ∨
          db.remoteAnswer r.taskId = none ∧ (db₃.proxyAnswer r.taskId).Given ∧
            remoteTaskStatus snapshot.status r.status = .completed) := by
      unfold materializeIfCompleted at h₃
      split at h₃
      · have hmessages : db₂.agentMessages r.taskId = db.agentMessages r.taskId :=
          congrArg ProxyAnswer.messages hanswer₂
        have hartifact : db₂.remoteAnswer r.taskId = db.remoteAnswer r.taskId :=
          congrArg ProxyAnswer.artifact hanswer₂
        have hanswer := materializeRemoteFinalAnswer_answer
          (fun hno => hmessages.trans (hempty (hartifact ▸ hno))) h₃
        refine ⟨⟨(materializeRemoteFinalAnswer_history hr₂ h₃).2,
          (materializeRemoteFinalAnswer_rows h₃).2⟩,hanswer.imp_right fun hgiven => ?_⟩
        exact ⟨hartifact ▸ hgiven.1,hgiven.2,‹_›⟩
      · obtain ⟨rfl,rfl⟩ := pure_ok.mp h₃
        exact ⟨⟨hr₂,rfl⟩,.inl rfl⟩
    obtain ⟨⟨hr₃,hrows₃⟩,hanswer₃⟩ := hmaterialized
    rw [hanswer₂] at hanswer₃
    have hhead₃ : r₃.head = r.head := by
      have htask := rows_task_of_get hr₃
      rw [hrows₃,rows_task_of_get hr₂] at htask
      exact (Option.some.inj htask).symm
    have hstatus₃ : r₃.status = r.status := congrArg TaskHead.status hhead₃
    obtain ⟨r',hr',horigin⟩ := origin_writes hall (fun _ h => h) hr
    split at h
    · rename_i hnext
      obtain ⟨rfl,rfl⟩ := pure_ok.mp h
      cases hr₃.symm.trans hr'
      refine .inr ⟨_,hr',⟨hnext.symm,horigin,hnext ▸ haccepts,?_⟩⟩
      exact hanswer₃.imp_right fun hgiven => ⟨hgiven.1,hgiven.2.1,hnext.symm.trans hgiven.2.2⟩
    · simp only [bind_ok,pure_ok] at h
      obtain ⟨_,db₄,h₄,_,db₅,h₅,_,rfl⟩ := h
      have hkey₃ : r₃.taskId = r.taskId := Table.key_of_get hr₃
      have hanswer₄ : db₄.proxyAnswer r.taskId = db₃.proxyAnswer r.taskId :=
        proxyAnswer_quiet (fun _ => StoreWrites.updateTaskStatus _ _) h₄
      have hanswer₅ : db₅.proxyAnswer r.taskId = db₄.proxyAnswer r.taskId :=
        proxyAnswer_quiet (fun _ => StoreWrites.appendTaskEvent _ _ _) h₅
      have hstatus : r'.status = remoteTaskStatus snapshot.status r.status := by
        have htask := rows_task_of_get hr'
        rw [appendTaskEvent_rows _ _ _ _ _ _ h₅,updateTaskStatus_rows h₄,hkey₃,Rows.modify_self,
          hrows₃] at htask
        simp only [TaskRows.setStatus,rows_task_of_get hr₂,Option.map_some,Option.some.injEq] at htask
        exact (congrArg TaskHead.status htask).symm
      rw [← hanswer₄,← hanswer₅] at hanswer₃
      refine .inr ⟨r',hr',⟨hstatus,horigin,hstatus ▸ haccepts,?_⟩⟩
      exact hanswer₃.imp_right fun hgiven => ⟨hgiven.1,hgiven.2.1,hstatus.trans hgiven.2.2⟩

end Snapshots

section Results

open TaskOutcomeRecorder

/-- The transaction succeeds for no remote proxy. -/
def LocalOnly {α : Type} (t : TaskId) (x : StoreTxn α) : Prop :=
  ∀ db a db', x.run db = .ok (a,db') → ∀ r, db.tasks.get t = some r → r.assignedAgentId = none

variable {α β : Type} {x : StoreTxn α} {f : α → StoreTxn β}

theorem LocalOnly.bind (hx : LocalOnly t x) : LocalOnly t (x >>= f) := by
  intro db b db' h
  obtain ⟨a,db₁,h₁,_⟩ := (bind_ok _ _).mp h
  exact hx db a db₁ h₁

theorem LocalOnly.after (hx : Keeps (fun db => (db.tasks.get t).map (·.assignedAgentId)) x)
    (hf : ∀ a, LocalOnly t (f a)) : LocalOnly t (x >>= f) := by
  intro db b db' h r hr
  obtain ⟨a,db₁,h₁,h₂⟩ := (bind_ok _ _).mp h
  have hkept : (db₁.tasks.get t).map (·.assignedAgentId) = some r.assignedAgentId :=
    (hx _ _ _ h₁).trans (congrArg _ hr)
  obtain ⟨r₁,hr₁,hagent⟩ := Option.map_eq_some_iff.mp hkept
  exact hagent ▸ hf a db₁ b db' h₂ r₁ hr₁

theorem transitionLocalTask_localOnly (target : TaskStatus) (payload : Json) (error : TaskError) :
    LocalOnly t (transitionLocalTask t target payload error) := by
  intro db task db' h r hr
  simp only [transitionLocalTask,bind_ok,requireTask_ok,require_ok] at h
  obtain ⟨r₀,_,⟨hr₀,rfl⟩,_,_,⟨hlocal,_⟩,_⟩ := h
  cases hr.symm.trans hr₀
  exact hlocal

theorem agent_ignores : IgnoresProgress fun db => (db.tasks.get t).map (·.assignedAgentId) := by
  constructor
  · intro db p f hf horigin
    simp only [Table.get_update,Option.map_map]
    refine congrArg (fun g => Option.map g _) (funext fun r => ?_)
    have hagent : (f r).assignedAgentId = r.assignedAgentId :=
      congrArg TaskOrigin.assignedAgentId (horigin r)
    by_cases hr : p r = true <;> simp [hr,hagent]
  all_goals intros; rfl

theorem recordCancellation_remote {task : TaskRecord}
    (h : (recordCancellation t).run db = .ok (task,db')) :
    db' = db ∨ ∀ r, db.tasks.get t = some r → r.assignedAgentId = none := by
  simp only [recordCancellation,bind_ok,requireTask_ok,ite_run] at h
  obtain ⟨r,_,⟨hr,rfl⟩,h⟩ := h
  split at h
  · exact .inl (pure_ok.mp h).2.symm
  · exact .inr ((transitionLocalTask_localOnly _ _ _).bind _ _ _ h)

theorem unlessEnded_remote {record : TaskRecord → StoreTxn TaskRecord} {task : TaskRecord}
    (hrecord : ∀ r, LocalOnly t (record r))
    (h : (unlessEnded t record).run db = .ok (task,db')) :
    db' = db ∨ ∀ r, db.tasks.get t = some r → r.assignedAgentId = none := by
  obtain ⟨r,_,⟨_,hdb⟩ | ⟨_,h⟩ | ⟨_,_,h⟩⟩ := unlessEnded_ok h
  · exact .inl hdb
  · exact recordCancellation_remote h
  · exact .inr (hrecord r _ _ _ h)

/-- No result of a local process changes a remote proxy. -/
theorem recordLocalResult_remote {result : LocalTaskRunResult} {metadata : Json} {id : MessageId}
    {seen task : TaskRecord} (h : (recordLocalResult t result metadata id seen).run db = .ok (task,db')) :
    db' = db ∨ ∀ r, db.tasks.get t = some r → r.assignedAgentId = none := by
  have hobservations : ∀ r, Keeps (fun db => (db.tasks.get t).map (·.assignedAgentId))
      (persistObservations r result) := fun r =>
    .ite (.pure _) (.bind (.select _) fun _ =>
      .bind (agent_ignores.upsertArtifact (fun _ _ _ => rfl) _ _ _) fun _ =>
      .bind (agent_ignores.appendTaskEvent _ _ _) fun _ => .pure _)
  have hfailure : ∀ error, (recordFailure t error).run db = .ok (task,db') →
      db' = db ∨ ∀ r, db.tasks.get t = some r → r.assignedAgentId = none := fun error h =>
    unlessEnded_remote (fun _ => (transitionLocalTask_localOnly _ _ _).bind) h
  have hinterrupted : ∀ status inputRequest,
      (recordInterruptedResult t result status inputRequest).run db = .ok (task,db') →
      db' = db ∨ ∀ r, db.tasks.get t = some r → r.assignedAgentId = none := fun status request h => by
    refine unlessEnded_remote (fun r => ?_) h
    exact .after (hobservations r) fun _ => .after (agent_ignores.setPendingContinuation _ _) fun _ =>
      (transitionLocalTask_localOnly _ _ _).bind
  simp only [recordLocalResult,ite_run] at h
  split at h
  · exact .inl (pure_ok.mp h).2.symm
  · split at h
    · exact recordCancellation_remote h
    · simp only [bind_ok,ofExcept_ok] at h
      obtain ⟨_,_,⟨_,rfl⟩,h⟩ := h
      split at h
      · refine unlessEnded_remote (fun r => ?_) h
        exact .after (hobservations r) fun _ =>
          .after (appendMessage_keeps (fun _ _ => rfl) (fun _ _ => rfl) _ _ _ _ _ _) fun _ =>
          .after (agent_ignores.upsertArtifact (fun _ _ _ => rfl) _ _ _) fun _ =>
          .after (agent_ignores.appendTaskEvent _ _ _) fun _ =>
          .after (agent_ignores.setTaskOutputMessage _) fun _ =>
          (transitionLocalTask_localOnly _ _ _).bind
      · exact .inl (pure_ok.mp h).2.symm
      · split at h
        · exact hfailure _ h
        · exact hinterrupted _ _ h
      · split at h
        · exact hfailure _ h
        · exact hinterrupted _ _ h
      · refine unlessEnded_remote (fun r => ?_) h
        exact .after (hobservations r) fun _ => (transitionLocalTask_localOnly _ _ _).bind

end Results
section Invariant

variable (core : CoreEnv) (env : LedgerEnv)

/-- A proxy has no answer, or the one of its completion. -/
structure ProxiesSound (db : AgentDb) : Prop where
  sound : db.Sound
  owned : AnswersOwned db
  answered : ∀ t r, db.tasks.get t = some r → r.assignedAgentId ≠ none →
    db.proxyAnswer t = .none ∨ (db.proxyAnswer t).Given ∧ r.status = .completed

theorem proxiesSound_empty : ProxiesSound AgentDb.empty :=
  ⟨AgentDb.sound_empty,answersOwned_empty,fun _ _ hr => nomatch hr⟩

variable {core env}

/-- What takes place at a remote proxy is a synchronisation. -/
theorem RowEvent.synced_of_remote {rows : Rows} {head : TaskHead} {e : RowEvent}
    (hhead : (rows t).task = some head) (hremote : head.assignedAgentId ≠ none)
    (hen : e.Enabled rows t) : ∃ status, e = .synced status := by
  cases e with
  | synced status => exact ⟨status,rfl⟩
  | accepted | delegated =>
    have hnone := hen.1.1
    rw [hhead] at hnone
    cases hnone
  | claimed =>
    obtain ⟨head',_,htask,hlocal,_⟩ := hen
    cases hhead.symm.trans htask
    exact absurd hlocal hremote
  | _ =>
    obtain ⟨head',htask,hlocal,_⟩ := hen
    cases hhead.symm.trans htask
    exact absurd hlocal hremote

theorem CoreTxn.snapshot_of_synced {c : CoreTxn} {status : TaskStatus}
    (he : c.events t (.synced status)) :
    ∃ snapshot id, c = .recordRemoteSnapshot t snapshot id := by
  cases c with
  | recordRemoteSnapshot t' snapshot id =>
    obtain ⟨rfl,_⟩ := he
    exact ⟨snapshot,id,rfl⟩
  | acceptLocalTask | retryTask | completeRemoteTask | resolveApproval | submitTaskInput |
      claimLocalExecution => simp [events] at he
  | recordLocalTaskFailure | recordTaskCancellation | recordRuntimeRecoveryFailure =>
    simp [events,Ends] at he
  | cancelTask => simp [events,Cancels,Ends] at he
  | recordLocalTaskResult => simp [events,TaskOutcomeRecorder.Interrupts,Ends] at he
  | _ => exact he.elim

/-- Only a snapshot of its child agent changes the status of a proxy. -/
theorem AgentTxn.remote_status {a : AgentTxn} {r r' : TaskRecord} (hr : db.tasks.get t = some r)
    (hremote : r.assignedAgentId ≠ none)
    (hother : ∀ snapshot id, a ≠ .core (.recordRemoteSnapshot t snapshot id))
    (hr' : (a.commit core env db).tasks.get t = some r') : r'.status = r.status := by
  have hrows : (a.commit core env db).rows = db.rows → r'.status = r.status := fun heq => by
    have htask := rows_task_of_get hr'
    rw [heq,rows_task_of_get hr,Option.some.injEq] at htask
    exact (congrArg TaskHead.status htask).symm
  have hhead : (db.rows t).task = some r.head := rows_task_of_get hr
  rcases maintenance_keeps (v := AgentDb.rows) core env (fun _ _ => rfl) (fun _ _ => rfl) a with
    ⟨c,rfl⟩ | ⟨c,listed,rfl⟩ | hk
  · have hcommit : AgentTxn.commit core env (.core c) db = c.commit core env db := commit_map _ _ _
    rw [hcommit] at hrows hr'
    rcases commit_cases (c.txn core env) db with heq | ⟨action,hrun⟩
    · exact hrows (by rw [CoreTxn.commit,heq])
    · rcases c.txn_rows core env hrun with heq | ⟨t',e,⟨he,_⟩,hen,heq⟩
      · exact hrows heq
      · by_cases ht : t = t'
        · subst ht
          obtain ⟨status,rfl⟩ := RowEvent.synced_of_remote hhead hremote hen
          obtain ⟨snapshot,id,rfl⟩ := CoreTxn.snapshot_of_synced he
          exact absurd rfl (hother snapshot id)
        · have htask := rows_task_of_get hr'
          rw [CoreTxn.commit,heq,Rows.modify_of_ne ht,hhead,Option.some.injEq] at htask
          exact (congrArg TaskHead.status htask).symm
  · rcases commit_cases (MainAgentStore.deleteTerminalContext c listed) db with heq | ⟨u,hrun⟩
    · exact hrows (by rw [AgentTxn.commit,AgentTxn.txn,heq])
    · obtain ⟨taskIds,hrun⟩ := deleteTerminalContext_rows hrun
      rw [AgentTxn.commit,AgentTxn.txn,deleteContextRows_ok hrun,Table.get_delete,hr] at hr'
      cases (Option.filter_eq_some_iff.mp hr').1
      rfl
  · exact hrows (hk.commit db)

theorem AgentTxn.deletes_of_scope {a : AgentTxn} {c : ContextId} (h : a.scope.deletes c) :
    ∃ listed, a = deleteTerminalContext c listed := by
  cases a with
  | deleteTerminalContext c' listed => exact ⟨listed,by rw [h]⟩
  | _ => exact absurd h id

theorem AgentTxn.answers_of_scope {a : AgentTxn} {c : ContextId} (h : a.scope.answers t c) :
    (∃ result metadata id seen, a = .core (.recordLocalTaskResult t result metadata id seen)) ∨
      ∃ snapshot id, a = .core (.recordRemoteSnapshot t snapshot id) := by
  cases a with
  | core x =>
    cases x with
    | recordLocalTaskResult t' result metadata id seen =>
      obtain rfl : t' = t := of_decide_eq_true h
      exact .inl ⟨_,_,_,_,rfl⟩
    | recordRemoteSnapshot t' snapshot id =>
      obtain rfl : t' = t := of_decide_eq_true h
      exact .inr ⟨_,_,rfl⟩
    | _ => exact nomatch h
  | _ => exact absurd h id

theorem AnswersOwned.commit (a : AgentTxn) (h : AnswersOwned db) :
    AnswersOwned (a.commit core env db) := by
  by_cases hdeletes : ∃ c, a.scope.deletes c
  · obtain ⟨c,hc⟩ := hdeletes
    obtain ⟨listed,rfl⟩ := AgentTxn.deletes_of_scope hc
    refine reflTransGen_invariant (fun _ _ hw h => h.write hw fun t c hA => ?_)
      (AgentTxn.commit_writes core env _ db) h
    exact hA.1.elim
  · have hno : ∀ c, ¬ a.scope.deletes c := fun c hc => hdeletes ⟨c,hc⟩
    have hstep : ∀ db₁ db₂, StoreWrite (a.scopeAt db) db₁ db₂ →
        (AnswersOwned db₁ ∧ ∀ t c, (a.scopeAt db).answers t c → db₁.contextOf t = some c) →
        AnswersOwned db₂ ∧ ∀ t c, (a.scopeAt db).answers t c → db₂.contextOf t = some c := by
      intro db₁ db₂ hw hdb₁
      refine ⟨hdb₁.1.write hw hdb₁.2,fun t c hA => ?_⟩
      obtain ⟨r,hr,hcontext⟩ := Option.map_eq_some_iff.mp (hdb₁.2 t c hA)
      obtain ⟨r',hr',horigin⟩ := hw.origin hr (hno _)
      have hsame : r'.contextId = r.contextId := congrArg TaskOrigin.contextId horigin
      rw [AgentDb.contextOf,hr',Option.map_some,hsame,hcontext]
    exact (reflTransGen_invariant hstep (AgentTxn.commit_writes core env a db)
      ⟨h,fun t c hA => hA.2⟩).1

/-- The answer of a task that a deletion of another context leaves. -/
theorem proxyAnswer_deletion (h : AnswersOwned db) {c : ContextId} {taskIds : List TaskId} {u : Unit}
    (hrun : (deleteContextRows c taskIds).run db = .ok (u,db')) {r : TaskRecord}
    (hr : db'.tasks.get t = some r) :
    db.tasks.get t = some r ∧ db'.proxyAnswer t = db.proxyAnswer t := by
  have hdb := deleteContextRows_ok hrun
  rw [hdb] at hr
  obtain ⟨hr,hne⟩ := Option.filter_eq_some_iff.mp ((Table.get_delete _ _ _).symm.trans hr)
  have hne : r.contextId ≠ c := by simpa using hne
  have hcontext : db.contextOf t = some r.contextId := by rw [AgentDb.contextOf,hr,Option.map_some]
  refine ⟨hr,?_⟩
  have hmessages : db'.agentMessages t = db.agentMessages t := by
    rw [hdb]
    simp only [AgentDb.agentMessages,Table.delete,List.filter_filter]
    refine List.filter_congr fun m hm => ?_
    by_cases hmem : m.role = .agent ∧ m.taskId = some t
    · have howned := h.messages t m (mem_agentMessages.mpr ⟨hm,hmem⟩)
      rw [hcontext,Option.some.injEq] at howned
      simp [hmem,← howned,hne]
    · simp [hmem]
  have hartifact : db'.remoteAnswer t = db.remoteAnswer t := by
    rw [hdb]
    simp only [AgentDb.remoteAnswer,Table.get_delete]
    cases ha : db.artifacts.get (t ++ ":remote_final_answer") with
    | none => rfl
    | some a =>
      have howned := h.artifacts t a ha
      rw [hcontext,Option.some.injEq] at howned
      simp [Option.filter,← howned,hne]
  have houtput : db'.tasks.get t = db.tasks.get t := by
    rw [hdb]
    simp [Table.get_delete,hr,Option.filter,hne]
  rw [AgentDb.proxyAnswer,AgentDb.proxyAnswer,hmessages,hartifact,houtput]

/-- A task that is not there has no answer. -/
theorem AnswersOwned.absent (h : AnswersOwned db) (hr : db.tasks.get t = none) :
    db.proxyAnswer t = .none := by
  have hcontext : db.contextOf t = none := by rw [AgentDb.contextOf,hr]; rfl
  have hmessages : db.agentMessages t = [] := by
    refine List.eq_nil_iff_forall_not_mem.mpr fun m hm => ?_
    have howned := h.messages t m hm
    rw [hcontext] at howned
    cases howned
  have hartifact : db.remoteAnswer t = none := by
    refine Option.eq_none_iff_forall_ne_some.mpr fun a ha => ?_
    have howned := h.artifacts t a ha
    rw [hcontext] at howned
    cases howned
  rw [AgentDb.proxyAnswer,hmessages,hartifact,hr]
  rfl

/-- A proxy without an artifact has no answer at all. -/
theorem ProxiesSound.unanswered (h : ProxiesSound db) {r : TaskRecord} (hr : db.tasks.get t = some r)
    (hremote : r.assignedAgentId ≠ none) (hno : db.remoteAnswer t = none) :
    db.proxyAnswer t = .none := by
  rcases h.answered t r hr hremote with hnone | ⟨⟨m,a,hgiven,_⟩,_⟩
  · exact hnone
  · have hartifact : db.remoteAnswer t = some a := congrArg ProxyAnswer.artifact hgiven
    rw [hno] at hartifact
    cases hartifact

theorem ProxiesSound.snapshot (h : ProxiesSound db) {snapshot : RemoteAgentTaskSnapshot}
    {newMessageId : MessageId} {task r : TaskRecord} (hr : db.tasks.get t = some r)
    (hremote : r.assignedAgentId ≠ none)
    (hrun : (TaskOutcomeRecorder.recordRemoteSnapshot t snapshot newMessageId).run db
      = .ok (task,db')) :
    (acceptsRemoteProxySnapshot r.status (remoteTaskStatus snapshot.status r.status) = false ∧
      db' = db) ∨ ∃ r', db'.tasks.get t = some r' ∧ Synced snapshot r r' db db' := by
  have hempty : db.remoteAnswer t = none → db.agentMessages t = [] := fun hno =>
    congrArg ProxyAnswer.messages (h.unanswered hr hremote hno)
  obtain ⟨r₀,hr₀,hsynced⟩ := recordRemoteSnapshot_ok hempty hrun
  cases hr.symm.trans hr₀
  exact hsynced

/-- What a transaction of the agent does is what its commit leaves. -/
theorem AgentTxn.commit_snapshot {snapshot : RemoteAgentTaskSnapshot} {id : MessageId} :
    AgentTxn.commit core env (.core (.recordRemoteSnapshot t snapshot id)) db =
      (TaskOutcomeRecorder.recordRemoteSnapshot t snapshot id).commit db := by
  rw [AgentTxn.commit,AgentTxn.txn,CoreTxn.txn,commit_map,commit_map]

/-- A write moves a proxy along the snapshot order, by a snapshot that names the new status. -/
theorem AgentTxn.remote_next (h : ProxiesSound db) {a : AgentTxn} {r r' : TaskRecord}
    (hr : db.tasks.get t = some r) (hremote : r.assignedAgentId ≠ none)
    (hr' : (a.commit core env db).tasks.get t = some r') :
    r'.status = r.status ∨ r'.status ∈ remoteProxySnapshotTransitions r.status ∧
      ∃ snapshot id, a = .core (.recordRemoteSnapshot t snapshot id) ∧
        r'.status = remoteTaskStatus snapshot.status r.status := by
  by_cases hother : ∀ snapshot id, a ≠ .core (.recordRemoteSnapshot t snapshot id)
  · exact .inl (AgentTxn.remote_status hr hremote hother hr')
  · obtain ⟨snapshot,id,rfl⟩ : ∃ snapshot id, a = .core (.recordRemoteSnapshot t snapshot id) := by
      simpa using hother
    rw [AgentTxn.commit_snapshot] at hr'
    rcases commit_cases (TaskOutcomeRecorder.recordRemoteSnapshot t snapshot id) db
      with heq | ⟨task,hrun⟩
    · rw [heq,hr] at hr'
      exact .inl (congrArg _ (Option.some.inj hr').symm)
    · rcases h.snapshot hr hremote hrun with ⟨_,heq⟩ | ⟨r₂,hr₂,hsynced⟩
      · rw [heq,hr] at hr'
        exact .inl (congrArg _ (Option.some.inj hr').symm)
      · cases hr'.symm.trans hr₂
        have haccepted : r.status = r'.status ∨
            r'.status ∈ remoteProxySnapshotTransitions r.status := by
          simpa [acceptsRemoteProxySnapshot] using hsynced.accepted
        rcases haccepted with hsame | hnext
        · exact .inl hsame.symm
        · exact .inr ⟨hnext,snapshot,id,rfl,hsynced.status⟩

/-- A write leaves the answer of a proxy, or completes the proxy with its first answer. -/
theorem AgentTxn.answer_next (h : ProxiesSound db) {a : AgentTxn} {r r' : TaskRecord}
    (hr : db.tasks.get t = some r) (hremote : r.assignedAgentId ≠ none)
    (hr' : (a.commit core env db).tasks.get t = some r') :
    (a.commit core env db).proxyAnswer t = db.proxyAnswer t ∨ db.proxyAnswer t = .none ∧
      ((a.commit core env db).proxyAnswer t).Given ∧ r'.status = .completed := by
  by_cases hdeletes : ∃ c, a.scope.deletes c
  · obtain ⟨c,hc⟩ := hdeletes
    obtain ⟨listed,rfl⟩ := AgentTxn.deletes_of_scope hc
    rcases commit_cases (MainAgentStore.deleteTerminalContext c listed) db with heq | ⟨u,hrun⟩
    · exact .inl (by rw [AgentTxn.commit,AgentTxn.txn,heq])
    · obtain ⟨taskIds,hrun⟩ := deleteTerminalContext_rows hrun
      exact .inl (proxyAnswer_deletion h.owned hrun hr').2
  · have hno : ∀ c, ¬ a.scope.deletes c := fun c hc => hdeletes ⟨c,hc⟩
    by_cases hA : ∃ c, a.scope.answers t c
    · obtain ⟨c,hA⟩ := hA
      rcases AgentTxn.answers_of_scope hA with ⟨result,metadata,id,seen,rfl⟩ | ⟨snapshot,id,rfl⟩
      · refine .inl ?_
        rw [AgentTxn.commit,AgentTxn.txn,CoreTxn.txn,commit_map,commit_map]
        rcases commit_cases (TaskOutcomeRecorder.recordLocalResult t result metadata id seen) db
          with heq | ⟨task,hrun⟩
        · rw [heq]
        · rw [(recordLocalResult_remote hrun).resolve_right fun hlocal => hremote (hlocal r hr)]
      · rw [AgentTxn.commit_snapshot] at hr' ⊢
        rcases commit_cases (TaskOutcomeRecorder.recordRemoteSnapshot t snapshot id) db
          with heq | ⟨task,hrun⟩
        · exact .inl (by rw [heq])
        · rcases h.snapshot hr hremote hrun with ⟨_,heq⟩ | ⟨r₂,hr₂,hsynced⟩
          · exact .inl (by rw [heq])
          · cases hr'.symm.trans hr₂
            have hkey : r.taskId = t := Table.key_of_get hr
            have hanswer := hsynced.answer
            rw [hkey] at hanswer
            exact hanswer.imp_right fun hgiven => ⟨h.unanswered hr hremote hgiven.1,hgiven.2⟩
    · exact .inl (proxyAnswer_writes (a.commit_writes core env db) (fun c hc => hA ⟨c,hc.1⟩) hno)

/-- The agent of a task that stays is the one that it was made with. -/
theorem AgentTxn.remote_agent (h : ProxiesSound db) {a : AgentTxn} {r r' : TaskRecord}
    (hr : db.tasks.get t = some r) (hr' : (a.commit core env db).tasks.get t = some r') :
    r'.assignedAgentId = r.assignedAgentId := by
  by_cases hdeletes : ∃ c, a.scope.deletes c
  · obtain ⟨c,hc⟩ := hdeletes
    obtain ⟨listed,rfl⟩ := AgentTxn.deletes_of_scope hc
    rcases commit_cases (MainAgentStore.deleteTerminalContext c listed) db with heq | ⟨u,hrun⟩
    · rw [AgentTxn.commit,AgentTxn.txn,heq,hr] at hr'
      exact congrArg _ (Option.some.inj hr').symm
    · obtain ⟨taskIds,hrun⟩ := deleteTerminalContext_rows hrun
      have hkept := (proxyAnswer_deletion h.owned hrun hr').1
      rw [hr] at hkept
      exact congrArg _ (Option.some.inj hkept).symm
  · obtain ⟨r₁,hr₁,horigin⟩ :=
      origin_writes (a.commit_writes core env db) (fun c hc => hdeletes ⟨c,hc⟩) hr
    cases hr'.symm.trans hr₁
    exact congrArg TaskOrigin.assignedAgentId horigin

theorem ProxiesSound.commit (a : AgentTxn) (h : ProxiesSound db) :
    ProxiesSound (a.commit core env db) := by
  refine ⟨AgentTxn.sound_commit core env a h.sound,h.owned.commit a,fun t r' hr' hremote' => ?_⟩
  cases hr : db.tasks.get t with
  | none =>
    -- a task that was not there has been created, without an answer
    refine .inl ?_
    have hA : ∀ c, ¬ (a.scopeAt db).answers t c := fun c hA => by
      have hcontext := hA.2
      rw [AgentDb.contextOf,hr] at hcontext
      cases hcontext
    by_cases hdeletes : ∃ c, a.scope.deletes c
    · obtain ⟨c,hc⟩ := hdeletes
      obtain ⟨listed,rfl⟩ := AgentTxn.deletes_of_scope hc
      rcases commit_cases (MainAgentStore.deleteTerminalContext c listed) db with heq | ⟨u,hrun⟩
      · rw [AgentTxn.commit,AgentTxn.txn,heq,hr] at hr'
        cases hr'
      · obtain ⟨taskIds,hrun⟩ := deleteTerminalContext_rows hrun
        have hkept := (proxyAnswer_deletion h.owned hrun hr').1
        rw [hr] at hkept
        cases hkept
    · rw [proxyAnswer_writes (a.commit_writes core env db) hA fun c hc => hdeletes ⟨c,hc⟩]
      exact h.owned.absent hr
  | some r =>
    have hremote : r.assignedAgentId ≠ none := AgentTxn.remote_agent h hr hr' ▸ hremote'
    rcases AgentTxn.answer_next h hr hremote hr' with heq | ⟨_,hgiven,hcompleted⟩
    · rw [heq]
      refine (h.answered t r hr hremote).imp_right fun hgiven => ⟨hgiven.1,?_⟩
      rcases AgentTxn.remote_next h hr hremote hr' with hsame | ⟨hnext,_⟩
      · exact hsame.trans hgiven.2
      · rw [hgiven.2] at hnext
        cases hnext
    · exact .inr ⟨hgiven,hcompleted⟩

theorem ProxiesSound.history (as : List AgentTxn) (h : ProxiesSound db) :
    ProxiesSound (AgentTxn.history core env as db) := by
  induction as generalizing db with
  | nil => exact h
  | cons a as ih => exact ih (h.commit a)

end Invariant

section Main

variable (core : CoreEnv) (env : LedgerEnv)

/-- The task is there after every part of the history. -/
def StaysStored (t : TaskId) (as : List AgentTxn) (db : AgentDb) : Prop :=
  ∀ p, p <+: as → ((AgentTxn.history core env p db).tasks.get t).isSome = true

variable {core env}

theorem StaysStored.init {as : List AgentTxn} {a : AgentTxn}
    (h : StaysStored core env t (as++[a]) db) : StaysStored core env t as db :=
  fun p hp => h p (hp.trans (List.prefix_append _ _))

theorem StaysStored.get {as : List AgentTxn} (h : StaysStored core env t as db) :
    ∃ r, (AgentTxn.history core env as db).tasks.get t = some r :=
  Option.isSome_iff_exists.mp (h as (List.prefix_refl _))

theorem AgentTxn.history_append_one (as : List AgentTxn) (a : AgentTxn) (db : AgentDb) :
    history core env (as++[a]) db = a.commit core env (history core env as db) := by
  simp [history]

/-- What each write that leaves a proxy keeps holds as long as the proxy is there. -/
theorem AgentTxn.remote_stable {I : List AgentTxn → AgentDb → TaskRecord → Prop} {r : TaskRecord}
    {as : List AgentTxn} (h : ProxiesSound db)
    (hI : ∀ {as db a r r'}, ProxiesSound db → db.tasks.get t = some r → r.assignedAgentId ≠ none →
      (AgentTxn.commit core env a db).tasks.get t = some r' → I as db r →
      I (as++[a]) (AgentTxn.commit core env a db) r')
    (hr : db.tasks.get t = some r) (hremote : r.assignedAgentId ≠ none) (hdb : I [] db r)
    (hstays : StaysStored core env t as db) :
    ∃ r', (history core env as db).tasks.get t = some r' ∧ r'.assignedAgentId ≠ none ∧
      I as (history core env as db) r' := by
  induction as using List.reverseRecOn with
  | nil => exact ⟨r,hr,hremote,hdb⟩
  | append_singleton as a ih =>
    obtain ⟨r₁,hr₁,hremote₁,hdb₁⟩ := ih hstays.init
    obtain ⟨r₂,hr₂⟩ := hstays.get
    rw [history_append_one] at hr₂ ⊢
    have hsound : ProxiesSound (history core env as db) := h.history as
    exact ⟨r₂,hr₂,AgentTxn.remote_agent hsound hr₁ hr₂ ▸ hremote₁,hI hsound hr₁ hremote₁ hr₂ hdb₁⟩

/-- A proxy that has ended stays as it has ended. -/
theorem AgentTxn.remote_terminal {status : TaskStatus} {a : AgentTxn} {r r' : TaskRecord}
    (hended : isTerminalTaskStatus status = true) (h : ProxiesSound db)
    (hr : db.tasks.get t = some r) (hremote : r.assignedAgentId ≠ none)
    (hr' : (a.commit core env db).tasks.get t = some r') (hstatus : r.status = status) :
    r'.status = status := by
  rcases AgentTxn.remote_next h hr hremote hr' with heq | ⟨hnext,_⟩
  · exact heq.trans hstatus
  · rw [hstatus] at hnext
    cases status <;> simp [isTerminalTaskStatus,remoteProxySnapshotTransitions] at hended hnext

/-- The first answer is the only one. -/
theorem AgentTxn.answer_stable {answer : ProxyAnswer} (hgiven : answer.Given) {a : AgentTxn}
    {r r' : TaskRecord} (h : ProxiesSound db) (hr : db.tasks.get t = some r)
    (hremote : r.assignedAgentId ≠ none) (hr' : (a.commit core env db).tasks.get t = some r')
    (hanswer : db.proxyAnswer t = answer) : (a.commit core env db).proxyAnswer t = answer := by
  rcases AgentTxn.answer_next h hr hremote hr' with heq | ⟨hnone,_⟩
  · exact heq.trans hanswer
  · obtain ⟨m,a,hgiven,_⟩ := hgiven
    rw [hanswer,hgiven] at hnone
    exact nomatch congrArg ProxyAnswer.messages hnone

variable (core env)

/-- In every state that the agent commits, each remote proxy has no answer or is completed with one
message, which is its output, and one artifact with the parts of the message. Every later write
keeps its status or moves it along the snapshot order; as long as the task is there, a terminal
status and an answer stay what they are; and a snapshot of another task or context raises and
changes nothing. -/
theorem remote_proxies_advance (as : List AgentTxn) {t : TaskId} {r : TaskRecord}
    (hr : (AgentTxn.history core env as .empty).tasks.get t = some r)
    (hremote : r.assignedAgentId ≠ none) :
    let db := AgentTxn.history core env as .empty
    (db.proxyAnswer t = .none ∨ (db.proxyAnswer t).Given ∧ r.status = .completed) ∧
      (∀ a r', (AgentTxn.commit core env a db).tasks.get t = some r' →
        r'.status = r.status ∨ r'.status ∈ remoteProxySnapshotTransitions r.status) ∧
      (∀ later, StaysStored core env t later db →
        ∃ r', (AgentTxn.history core env later db).tasks.get t = some r' ∧
          (isTerminalTaskStatus r.status = true → r'.status = r.status) ∧
          ((db.proxyAnswer t).Given →
            (AgentTxn.history core env later db).proxyAnswer t = db.proxyAnswer t)) ∧
      ∀ snapshot newMessageId delegation,
        db.delegatedTasks.rows.find? (fun d => d.localTaskId = some t) = some delegation →
        ¬ RemoteAgentTaskSnapshot.Matches snapshot delegation →
        let record := TaskOutcomeRecorder.recordRemoteSnapshot t snapshot newMessageId
        (∃ e, record.run db = .error e) ∧ record.commit db = db := by
  have hsound : ProxiesSound (AgentTxn.history core env as .empty) := proxiesSound_empty.history as
  refine ⟨hsound.answered t r hr hremote,fun a r' hr' => ?_,fun later hstays => ?_,
    fun snapshot id delegation hdelegation hmismatch => ?_⟩
  · exact (AgentTxn.remote_next hsound hr hremote hr').imp_right fun h => h.1
  · obtain ⟨r',hr',_,hstatus,hanswer⟩ := AgentTxn.remote_stable
      (I := fun _ db' r' => (isTerminalTaskStatus r.status = true → r'.status = r.status) ∧
        (((AgentTxn.history core env as .empty).proxyAnswer t).Given →
          db'.proxyAnswer t = (AgentTxn.history core env as .empty).proxyAnswer t)) hsound
      (fun h hr hremote hr' hdb => ⟨fun hended =>
          AgentTxn.remote_terminal hended h hr hremote hr' (hdb.1 hended),
        fun hgiven => AgentTxn.answer_stable hgiven h hr hremote hr' (hdb.2 hgiven)⟩)
      hr hremote ⟨fun _ => rfl,fun _ => rfl⟩ hstays
    exact ⟨r',hr',hstatus,hanswer⟩
  · obtain ⟨e,he⟩ := @recordRemoteSnapshot_mismatch _ t snapshot id _ hdelegation hmismatch
    exact ⟨⟨e,he⟩,commit_error he⟩

end Main

section Sample

/-- The delegation of a message; the final artifact of the child agent comes after its status. -/
def sampleProxy : List AgentTxn :=
  sampleDelegation.map .core ++ [.core (.recordRemoteSnapshot "task" ⟨"remote-task",none,
    some "completed",[.obj [("artifactId",.str "result"),("parts",.arr [.obj [("text",.str "done")]])]],
    .obj []⟩ "late")]

end Sample

theorem remote_proxies_advance_sample : ((AgentTxn.history sampleRemoteCore sampleEnv sampleProxy
    .empty).proxyAnswer "task").Given := by
  have htask : ((AgentTxn.history sampleRemoteCore sampleEnv sampleProxy .empty).tasks.get
      "task").map (·.assignedAgentId) = some (some "agent") ∧
      ((AgentTxn.history sampleRemoteCore sampleEnv sampleProxy .empty).proxyAnswer "task").output =
        some "late" := by
    simp only [sampleProxy,sampleDelegation,AgentTxn.history,AgentTxn.commit,AgentTxn.txn,
      List.map_cons,List.map_nil,List.cons_append,List.nil_append,List.foldl_cons,List.foldl_nil,
      CoreTxn.txn,MainAgentCore.completeRemoteTask,Option.filter_some,trimAscii_remoteTask]
    decide +kernel
  obtain ⟨hagent,houtput⟩ := htask
  obtain ⟨r,hr,hremote⟩ := Option.map_eq_some_iff.mp hagent
  have hremote : r.assignedAgentId ≠ none := by simp [hremote]
  rcases (remote_proxies_advance sampleRemoteCore sampleEnv sampleProxy hr hremote).1 with
    hnone | hgiven
  · rw [hnone] at houtput
    cases houtput
  · exact hgiven.1

end VermayAgent
