import VermayAgent.RemoteProxies

/-! How a remote proxy ends.
A snapshot whose status is unknown or missing leaves the proxy as it is; the result of the send,
with which the proxy is created, ends it. -/
namespace VermayAgent
open Library Txn MainAgentStore

/-- The task status that a child agent's status names, if it names any. -/
def namedTaskStatus (status : Option String) : Option TaskStatus :=
  if remoteTaskStatus status .created = .created then none
  else some (remoteTaskStatus status .created)

/-- A status names a task status, or it leaves the choice to the caller. -/
theorem remoteTaskStatus_cases (status : Option String) :
    (∀ fallback, remoteTaskStatus status fallback = fallback) ∨
      ∃ named, named ≠ .created ∧ named ≠ .cancelRequested ∧
        ∀ fallback, remoteTaskStatus status fallback = named := by
  cases status with
  | none => exact .inl fun _ => rfl
  | some s =>
    simp only [remoteTaskStatus]
    split_ifs
    · exact .inr ⟨.queued,by decide,by decide,fun _ => rfl⟩
    · exact .inr ⟨.running,by decide,by decide,fun _ => rfl⟩
    · exact .inr ⟨.completed,by decide,by decide,fun _ => rfl⟩
    · exact .inr ⟨.canceled,by decide,by decide,fun _ => rfl⟩
    · exact .inr ⟨.failed,by decide,by decide,fun _ => rfl⟩
    · exact .inr ⟨.inputRequired,by decide,by decide,fun _ => rfl⟩
    · exact .inr ⟨.authRequired,by decide,by decide,fun _ => rfl⟩
    · exact .inl fun _ => rfl

theorem remoteTaskStatus_unnamed {status : Option String} (h : namedTaskStatus status = none)
    (fallback : TaskStatus) : remoteTaskStatus status fallback = fallback := by
  rcases remoteTaskStatus_cases status with hunnamed | ⟨named,hne,_,hnamed⟩
  · exact hunnamed fallback
  · simp [namedTaskStatus,hnamed,hne] at h

theorem remoteTaskStatus_named {status : Option String} {named : TaskStatus}
    (h : namedTaskStatus status = some named) (fallback : TaskStatus) :
    remoteTaskStatus status fallback = named ∧ named ≠ .cancelRequested := by
  rcases remoteTaskStatus_cases status with hunnamed | ⟨named',hne,hother,hnamed⟩
  · simp [namedTaskStatus,hunnamed] at h
  · simp only [namedTaskStatus,hnamed,if_neg hne,Option.some.injEq] at h
    exact ⟨(hnamed fallback).trans h,h ▸ hother⟩

variable {db db' : AgentDb} {t : TaskId}

/-- Some response names the status: the result of the send, or a snapshot that came after it. -/
def Said (remote : RemoteAgentSendResult) (t : TaskId) (later : List AgentTxn)
    (status : TaskStatus) : Prop :=
  namedTaskStatus remote.status = some status ∨
    ∃ snapshot id, .core (.recordRemoteSnapshot t snapshot id) ∈ later ∧
      namedTaskStatus snapshot.status = some status

theorem Said.append {remote : RemoteAgentSendResult} {later : List AgentTxn} {status : TaskStatus}
    (h : Said remote t later status) (a : AgentTxn) : Said remote t (later++[a]) status := by
  refine h.imp_right ?_
  rintro ⟨snapshot,id,hmem,hnamed⟩
  exact ⟨snapshot,id,List.mem_append_left _ hmem,hnamed⟩

section Main

variable (core : CoreEnv) (env : LedgerEnv)

/-- The proxy ends only as a response said, a response without a known status leaves it as it is,
and as long as no response named an end, a completed snapshot that is recorded completes it. -/
def EndsAsSaid (t : TaskId) (remote : RemoteAgentSendResult) (db : AgentDb) : Prop :=
  ∀ later r, StaysStored core env t later db →
    (AgentTxn.history core env later db).tasks.get t = some r →
    (isTerminalTaskStatus r.status = true → Said remote t later r.status) ∧
    (∀ snapshot newMessageId r', namedTaskStatus snapshot.status = none →
      (AgentTxn.commit core env (.core (.recordRemoteSnapshot t snapshot newMessageId))
        (AgentTxn.history core env later db)).tasks.get t = some r' → r'.status = r.status) ∧
    ((∀ status, Said remote t later status → isTerminalTaskStatus status = false) →
      ∀ snapshot newMessageId task db', namedTaskStatus snapshot.status = some .completed →
        (TaskOutcomeRecorder.recordRemoteSnapshot t snapshot newMessageId).run
          (AgentTxn.history core env later db) = .ok (task,db') →
        ∃ r', db'.tasks.get t = some r' ∧ r'.status = .completed)

variable {core env}

/-- The record with which a delegated task starts. -/
theorem completeRemoteTask_task {contextId : ContextId} {inputMessageId : MessageId}
    {decisionId delegationId : String} {agentId : AgentId} {remote : RemoteAgentSendResult}
    {thread : ThreadId} {task : TaskRecord}
    (h : (MainAgentCore.completeRemoteTask contextId inputMessageId decisionId delegationId agentId
      remote t thread).run db = .ok (task,db')) :
    ∃ r, db'.tasks.get t = some r ∧ r.assignedAgentId = some agentId ∧
      r.status = remoteTaskStatus remote.status .failed := by
  simp only [MainAgentCore.completeRemoteTask,bind_ok,orFail_ok,pure_ok] at h
  obtain ⟨_,_,⟨_,rfl⟩,created,db₁,h₁,_,db₂,h₂,_,db₃,h₃,_,db₄,h₄,_,rfl⟩ := h
  have hkept₂ : db₂.tasks = db₁.tasks :=
    appendTaskEvent_keeps (v := AgentDb.tasks) (fun _ _ _ => rfl) _ _ _ _ _ _ _ h₂
  have hkept₃ : db₃.tasks = db₂.tasks :=
    createDelegatedTask_keeps (v := AgentDb.tasks) (fun _ _ => rfl) _ _ _ _ h₃
  have hkept₄ : db₄.tasks = db₃.tasks :=
    resolveMessageIngress_keeps (v := AgentDb.tasks) (fun _ _ => rfl) _ _ _ _ _ _ h₄
  simp only [createTask,insertTask,getMessage,getTask,getContext,foreignKey,uniqueConstraint,bind_ok,
    run_select,run_statement,require_ok,orFail_ok,write?_ok,Option.map_eq_some_iff,Except.ok.injEq,
    Prod.mk.injEq] at h₁
  obtain ⟨_,_,⟨rfl,rfl⟩,_,_,⟨_,rfl⟩,_,_,⟨_,rfl⟩,_,_,⟨_,rfl⟩,_,_,⟨_,_,⟨rfl,rfl⟩,_,_,⟨_,rfl⟩,_,_,
    ⟨rfl,rfl⟩,_,_,⟨_,rfl⟩,_,_,⟨_,rfl⟩,tasks,hinsert,rfl⟩,_,_,⟨rfl,rfl⟩,hcreated,rfl⟩ := h₁
  have hget := (Table.get_insert? hinsert t).symm.trans hcreated
  rw [if_pos rfl] at hget
  cases hget
  exact ⟨_,by rw [hkept₄,hkept₃,hkept₂]; exact hcreated,rfl,rfl⟩

/-- What the responses have said of a proxy that was created open. -/
structure AsSaid (remote : RemoteAgentSendResult) (t : TaskId) (later : List AgentTxn)
    (r : TaskRecord) : Prop where
  requested : r.status ≠ .cancelRequested
  said : isTerminalTaskStatus r.status = true → Said remote t later r.status

/-- A proxy leaves its status by a snapshot that names the next one. -/
theorem AsSaid.next {remote : RemoteAgentSendResult} {later : List AgentTxn} {a : AgentTxn}
    {r r' : TaskRecord} (h : ProxiesSound db) (hr : db.tasks.get t = some r)
    (hremote : r.assignedAgentId ≠ none) (hr' : (a.commit core env db).tasks.get t = some r')
    (hsaid : AsSaid remote t later r) : AsSaid remote t (later++[a]) r' := by
  have hkept : r'.status = r.status → AsSaid remote t (later++[a]) r' := fun heq =>
    ⟨heq ▸ hsaid.requested,fun hended => heq ▸ (hsaid.said (heq ▸ hended)).append a⟩
  rcases AgentTxn.remote_next h hr hremote hr' with heq | ⟨_,snapshot,id,rfl,hstatus⟩
  · exact hkept heq
  · cases hnamed : namedTaskStatus snapshot.status with
    | none => exact hkept (hstatus.trans (remoteTaskStatus_unnamed hnamed _))
    | some named =>
      obtain ⟨heq,hne⟩ := remoteTaskStatus_named hnamed r.status
      have hstatus : r'.status = named := hstatus.trans heq
      refine ⟨hstatus ▸ hne,fun _ => .inr ⟨snapshot,id,?_,hstatus ▸ hnamed⟩⟩
      exact List.mem_append_right _ List.mem_cons_self

/-- An open proxy takes a completed snapshot. -/
theorem accepts_completed {status : TaskStatus} (hopen : isTerminalTaskStatus status = false)
    (hne : status ≠ .cancelRequested) : acceptsRemoteProxySnapshot status .completed = true := by
  cases status <;> simp_all [isTerminalTaskStatus,acceptsRemoteProxySnapshot,
    remoteProxySnapshotTransitions]

/-- A snapshot without a known status leaves the status of the proxy, whatever it was. -/
theorem unnamed_snapshot {snapshot : RemoteAgentTaskSnapshot} {id : MessageId} {r r' : TaskRecord}
    (h : ProxiesSound db) (hr : db.tasks.get t = some r) (hremote : r.assignedAgentId ≠ none)
    (hunnamed : namedTaskStatus snapshot.status = none)
    (hr' : (AgentTxn.commit core env (.core (.recordRemoteSnapshot t snapshot id)) db).tasks.get t =
      some r') : r'.status = r.status := by
  rcases AgentTxn.remote_next h hr hremote hr' with heq | ⟨_,snapshot',id',heq,hstatus⟩
  · exact heq
  · cases heq
    exact hstatus.trans (remoteTaskStatus_unnamed hunnamed _)

theorem completed_snapshot {snapshot : RemoteAgentTaskSnapshot} {id : MessageId}
    {task r : TaskRecord} (h : ProxiesSound db) (hr : db.tasks.get t = some r)
    (hremote : r.assignedAgentId ≠ none) (hopen : isTerminalTaskStatus r.status = false)
    (hne : r.status ≠ .cancelRequested)
    (hcompleted : namedTaskStatus snapshot.status = some .completed)
    (hrun : (TaskOutcomeRecorder.recordRemoteSnapshot t snapshot id).run db = .ok (task,db')) :
    ∃ r', db'.tasks.get t = some r' ∧ r'.status = .completed := by
  have hstatus := (remoteTaskStatus_named hcompleted r.status).1
  rcases h.snapshot hr hremote hrun with ⟨hstale,_⟩ | ⟨r',hr',hsynced⟩
  · rw [hstatus,accepts_completed hopen hne] at hstale
    cases hstale
  · exact ⟨r',hr',hsynced.status.trans hstatus⟩

variable (core env)

/-- A proxy that a send creates ends as the responses of its child agent said, in every history that
follows, exactly if the status that the send brought names a task status. -/
theorem proxy_ends_as_said_iff (before : List AgentTxn) {contextId : ContextId}
    {inputMessageId : MessageId} {decisionId delegationId : String} {agentId : AgentId}
    {remote : RemoteAgentSendResult} {t : TaskId} {thread : ThreadId} {action : Option PostCommitAction}
    {db : AgentDb} (hcreated : (CoreTxn.txn core env (.completeRemoteTask contextId inputMessageId
      decisionId delegationId agentId remote t thread)).run (AgentTxn.history core env before .empty)
      = .ok (action,db)) :
    EndsAsSaid core env t remote db ↔ namedTaskStatus remote.status ≠ none := by
  have hcommit : AgentTxn.commit core env (.core (.completeRemoteTask contextId inputMessageId
      decisionId delegationId agentId remote t thread)) (AgentTxn.history core env before .empty) =
      db := by
    rw [AgentTxn.commit,AgentTxn.txn,commit_map]
    exact commit_ok hcreated
  have hsound : ProxiesSound db := by
    rw [← hcommit]
    exact (proxiesSound_empty.history before).commit _
  obtain ⟨task,hrun,_⟩ := (map_ok _ _).mp hcreated
  obtain ⟨r,hr,hagent,hstatus⟩ := completeRemoteTask_task hrun
  have hremote : r.assignedAgentId ≠ none := by simp [hagent]
  constructor
  · -- a send without a known status has created the proxy as a failed one
    intro h hunnamed
    have hfailed : r.status = .failed := hstatus.trans (remoteTaskStatus_unnamed hunnamed _)
    have hstays : StaysStored core env t [] db := fun p hp => by
      rw [List.prefix_nil.mp hp]
      exact Option.isSome_iff_exists.mpr ⟨r,hr⟩
    rcases (h [] r hstays hr).1 (by rw [hfailed]; rfl) with hnamed | ⟨_,_,hmem,_⟩
    · rw [hunnamed] at hnamed
      cases hnamed
    · cases hmem
  · intro hnamed later r' hstays hr'
    obtain ⟨named,hnamed⟩ := Option.ne_none_iff_exists'.mp hnamed
    have hfirst : AsSaid remote t [] r := by
      obtain ⟨heq,hne⟩ := remoteTaskStatus_named hnamed .failed
      have hstatus : r.status = named := hstatus.trans heq
      exact ⟨hstatus ▸ hne,fun _ => .inl (hstatus ▸ hnamed)⟩
    obtain ⟨r₁,hr₁,hremote',hsaid⟩ := AgentTxn.remote_stable (I := fun later _ r =>
      AsSaid remote t later r) hsound (fun h hr hremote hr' hsaid => hsaid.next h hr hremote hr')
      hr hremote hfirst hstays
    cases hr'.symm.trans hr₁
    have hsound' : ProxiesSound (AgentTxn.history core env later db) := hsound.history later
    refine ⟨hsaid.said,fun snapshot id r₂ hunnamed hr₂ => ?_,
      fun hopen snapshot id task db' hcompleted hrun => ?_⟩
    · exact unnamed_snapshot hsound' hr' hremote' hunnamed hr₂
    · have hopen' : isTerminalTaskStatus r'.status = false := by
        by_contra hended
        have hended : isTerminalTaskStatus r'.status = true := by simpa using hended
        have hstill := hopen _ (hsaid.said hended)
        rw [hended] at hstill
        cases hstill
      exact completed_snapshot hsound' hr' hremote' hopen' hsaid.requested hcompleted hrun

end Main

section Sample

/-- The message that is delegated, before the child agent has answered. -/
def sampleRouted : List AgentTxn := (sampleDelegation.take 3).map .core

/-- The send that creates the proxy, with the status of the remote task. -/
def sampleSend (status : Option String) : CoreTxn :=
  .completeRemoteTask "context" "message" "route-1" "delegation" "agent"
    ⟨"task",none,none,some "remote-task",status,[]⟩ "task" "thread"

def sampleCreated (status : Option String) : AgentDb :=
  AgentTxn.commit sampleRemoteCore sampleEnv (.core (sampleSend status))
    (AgentTxn.history sampleRemoteCore sampleEnv sampleRouted .empty)

end Sample

theorem proxy_ends_as_said_iff_sample : EndsAsSaid sampleRemoteCore sampleEnv "task"
    ⟨"task",none,none,some "remote-task",some "working",[]⟩ (sampleCreated (some "working")) := by
  have hok : ((CoreTxn.txn sampleRemoteCore sampleEnv (sampleSend (some "working"))).run
      (AgentTxn.history sampleRemoteCore sampleEnv sampleRouted .empty)).isOk = true := by
    simp only [sampleSend,CoreTxn.txn,MainAgentCore.completeRemoteTask,Option.filter_some,trimAscii_remoteTask]
    decide +kernel
  have hrun : ∃ action, (CoreTxn.txn sampleRemoteCore sampleEnv (sampleSend (some "working"))).run
      (AgentTxn.history sampleRemoteCore sampleEnv sampleRouted .empty) =
      .ok (action,sampleCreated (some "working")) := by
    cases hresult : (CoreTxn.txn sampleRemoteCore sampleEnv (sampleSend (some "working"))).run
      (AgentTxn.history sampleRemoteCore sampleEnv sampleRouted .empty) with
    | error e =>
      rw [hresult] at hok
      cases hok
    | ok result =>
      refine ⟨result.1,?_⟩
      rw [sampleCreated,AgentTxn.commit,AgentTxn.txn,commit_map,commit_ok hresult]
  obtain ⟨action,hrun⟩ := hrun
  exact (proxy_ends_as_said_iff sampleRemoteCore sampleEnv sampleRouted hrun).mpr (by decide)

/-- A send without a status ends the proxy that it creates, though no response said so. -/
theorem unknown_status_ends_proxy : ¬ EndsAsSaid sampleRemoteCore sampleEnv "task"
    ⟨"task",none,none,some "remote-task",none,[]⟩ (sampleCreated none) := by
  have hstatus : ((sampleCreated none).tasks.get "task").map (·.status) = some .failed := by
    simp only [sampleCreated,sampleSend,AgentTxn.commit,AgentTxn.txn,CoreTxn.txn,
      MainAgentCore.completeRemoteTask,Option.filter_some,trimAscii_remoteTask]
    decide +kernel
  obtain ⟨r,hr,hfailed⟩ := Option.map_eq_some_iff.mp hstatus
  intro h
  have hstays : StaysStored sampleRemoteCore sampleEnv "task" [] (sampleCreated none) := fun p hp => by
    rw [List.prefix_nil.mp hp]
    exact Option.isSome_iff_exists.mpr ⟨r,hr⟩
  rcases (h [] r hstays hr).1 (by rw [hfailed]; rfl) with hnamed | ⟨_,_,hmem,_⟩
  · cases hnamed
  · cases hmem

end VermayAgent
