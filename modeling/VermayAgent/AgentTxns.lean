import VermayAgent.CoreHistory

/-! Every write of the application, and the history that a sequence of them leaves.
Beside the transactions of commands and workers there are the maintenance operations of the
API: titles, child-agent cards, and the deletion of agents and of whole contexts. -/
namespace VermayAgent
open Library Txn MainAgentStore

namespace MainAgentStore

def updateContextTitle (contextId : ContextId) (title : Option String) :
    StoreTxn (Option ContextRecord) := do
  write fun db => {db with contexts := (db.contexts.update (fun r => r.contextId = contextId)
    fun r => {r with title})}
  getContext contextId

def updateRegisteredAgentCard (agentId : AgentId) (cardJson : Json) :
    StoreTxn (Option RegisteredAgentRecord) := do
  write fun db => {db with registeredAgents := (
    db.registeredAgents.update (fun r => r.agentId = agentId) fun r => {r with cardJson})}
  getRegisteredAgent agentId

/-- `DELETE` of rows with these keys, refused where a foreign key still names one of them. -/
def deleteUnreferenced (keys referenced : AgentDb → List String) (delete : AgentDb → AgentDb) :
    StoreTxn Unit := statement do
  let gone ← select keys
  let named ← select referenced
  require (∀ key ∈ gone, key ∉ named) (.integrityError "FOREIGN KEY constraint failed")
  write delete

def deleteRegisteredAgent (agentId : AgentId) : StoreTxn Unit :=
  deleteUnreferenced (fun _ => [agentId]) (fun db => db.delegatedTasks.rows.map (·.remoteAgentId))
    fun db => {db with registeredAgents := db.registeredAgents.delete fun r => r.agentId = agentId}

section DeleteContext

variable (contextId : ContextId) (taskIds : List TaskId)

/-- The rows that hang on a context and on its tasks. -/
def deleteTaskRows : StoreTxn Unit :=
  write fun db => {db with
    artifacts := db.artifacts.delete fun r => r.contextId = contextId
    messageIngress := db.messageIngress.delete fun r => r.contextId = contextId
    delegatedTasks := db.delegatedTasks.delete fun r => r.contextId = contextId
    pendingContinuations := db.pendingContinuations.delete fun r => r.taskId ∈ taskIds
    queuedExecutions := db.queuedExecutions.delete fun r => r.taskId ∈ taskIds
    toolInvocations := db.toolInvocations.delete fun r => r.taskId ∈ taskIds
    taskEvents := db.taskEvents.filter fun e => e.taskId ∉ taskIds}

def deleteTasks : StoreTxn Unit :=
  deleteUnreferenced
    (fun db => (db.tasks.rows.filter fun r => r.contextId = contextId).map (·.taskId))
    (fun db => db.taskEvents.map (·.taskId) ++ db.artifacts.rows.map (·.taskId) ++
      db.pendingContinuations.rows.map (·.taskId) ++ db.queuedExecutions.rows.map (·.taskId) ++
      db.toolInvocations.rows.map (·.taskId) ++ db.delegatedTasks.rows.filterMap (·.localTaskId))
    fun db => {db with tasks := db.tasks.delete fun r => r.contextId = contextId}

def deleteRouteDecisions : StoreTxn Unit :=
  deleteUnreferenced
    (fun db => (db.routeDecisions.rows.filter fun r => r.contextId = contextId).map (·.decisionId))
    (fun db => db.messageIngress.rows.filterMap (·.routeDecisionId) ++
      db.delegatedTasks.rows.map (·.routeDecisionId))
    fun db => {db with routeDecisions := db.routeDecisions.delete fun r => r.contextId = contextId}

def deleteMessages : StoreTxn Unit :=
  deleteUnreferenced
    (fun db => (db.messages.rows.filter fun r => r.contextId = contextId).map (·.messageId))
    (fun db => db.routeDecisions.rows.map (·.messageId) ++ db.tasks.rows.map (·.inputMessageId) ++
      db.tasks.rows.filterMap (·.outputMessageId) ++ db.messageIngress.rows.map (·.messageId) ++
      db.delegatedTasks.rows.map (·.inputMessageId))
    fun db => {db with messages := db.messages.delete fun r => r.contextId = contextId}

def deleteContextRow : StoreTxn Unit :=
  deleteUnreferenced (fun _ => [contextId])
    (fun db => db.messages.rows.map (·.contextId) ++ db.routeDecisions.rows.map (·.contextId) ++
      db.tasks.rows.map (·.contextId) ++ db.artifacts.rows.map (·.contextId) ++
      db.delegatedTasks.rows.map (·.contextId) ++ db.messageIngress.rows.map (·.contextId) ++
      db.toolInvocations.rows.map (·.contextId))
    fun db => {db with contexts := db.contexts.delete fun r => r.contextId = contextId}

/-- `delete_terminal_context`. The tasks are listed before the transaction opens; those of them
that there still are have kept their context. -/
def deleteTerminalContext (listed : List TaskId) : StoreTxn Unit := do
  let tasks ← select fun db => db.tasks.rows.filter fun r =>
    r.contextId = contextId ∧ r.taskId ∈ listed
  require (∀ task ∈ tasks, isTerminalTaskStatus task.status = true)
    (.valueError ("context has non-terminal tasks: " ++ contextId))
  deleteTaskRows contextId (tasks.map (·.taskId))
  deleteTasks contextId
  deleteRouteDecisions contextId
  deleteMessages contextId
  deleteContextRow contextId

end DeleteContext
end MainAgentStore

/-- The writes of the application. -/
inductive AgentTxn where
  | core (txn : CoreTxn)
  | updateContextTitle (contextId : ContextId) (title : Option String)
  | updateRegisteredAgentCard (agentId : AgentId) (cardJson : Json)
  | deleteRegisteredAgent (agentId : AgentId)
  | deleteTerminalContext (contextId : ContextId) (listed : List TaskId)

namespace AgentTxn

variable (core : CoreEnv) (env : LedgerEnv)

def txn : AgentTxn → StoreTxn Unit
  | .core c => (fun _ => ()) <$> c.txn core env
  | updateContextTitle contextId title =>
    (fun _ => ()) <$> MainAgentStore.updateContextTitle contextId title
  | updateRegisteredAgentCard agentId cardJson =>
    (fun _ => ()) <$> MainAgentStore.updateRegisteredAgentCard agentId cardJson
  | deleteRegisteredAgent agentId => MainAgentStore.deleteRegisteredAgent agentId
  | deleteTerminalContext contextId listed =>
    MainAgentStore.deleteTerminalContext contextId listed

def commit (a : AgentTxn) (db : AgentDb) : AgentDb := (a.txn core env).commit db

/-- The committed state after a sequence of writes, each of which may have been rolled back. -/
def history (as : List AgentTxn) (db : AgentDb) : AgentDb :=
  as.foldl (fun db a => a.commit core env db) db

end AgentTxn

/-- The history without the tasks of a context and what belongs to them. -/
structure Forgotten (c : ContextId) (h h' : History) : Prop where
  log : ∀ t, h'.log t = if h.contextOf t = some c then ⟨none,[]⟩ else h.log t
  artifacts : ∀ a, h'.artifacts a = (h.artifacts a).filter fun c' => c' ≠ c
  invocations : ∀ id t c', h'.invocations id = some (t,c') →
    h.invocations id = some (t,c') ∧ h.contextOf t ≠ some c
  nextEventId : h'.nextEventId = h.nextEventId

/-- What one write of the application does to the history. -/
def HistoryChange (h h' : History) : Prop :=
  HistoryMoves (fun _ _ _ => True) h h' ∨ ∃ c, Forgotten c h h'

section DeleteContext

variable {db db' : AgentDb} {c : ContextId} {t : TaskId}

theorem deleteUnreferenced_ok {keys referenced : AgentDb → List String}
    {delete : AgentDb → AgentDb} {u : Unit} :
    (deleteUnreferenced keys referenced delete).run db = .ok (u,db') ↔
      (∀ key ∈ keys db, key ∉ referenced db) ∧ delete db = db' := by
  simp [deleteUnreferenced]

theorem contextOf_iff : db.history.contextOf t = some c ↔
    ∃ r, db.tasks.get t = some r ∧ r.contextId = c := by
  simp [History.contextOf,AgentDb.history,TaskRecord.lifecycle]

/-- The tasks that the context keeps. -/
theorem get_deleteTasks (hc : db.history.contextOf t ≠ some c) :
    (db.tasks.delete fun r => r.contextId = c).get t = db.tasks.get t := by
  rw [Table.get_delete]
  cases hr : db.tasks.get t with
  | none => rfl
  | some r =>
    have hne : r.contextId ≠ c := fun heq => hc (contextOf_iff.mpr ⟨r,hr,heq⟩)
    simp [Option.filter,hne]

theorem get_deleteTasks_none (hc : db.history.contextOf t = some c) :
    (db.tasks.delete fun r => r.contextId = c).get t = none := by
  obtain ⟨r,hr,hcontext⟩ := contextOf_iff.mp hc
  rw [Table.get_delete,hr]
  simp [Option.filter,hcontext]

/-- No row names the task any more. -/
structure Unnamed (db : AgentDb) (t : TaskId) : Prop where
  events : ∀ e ∈ db.taskEvents, e.taskId ≠ t
  pending : db.pendingContinuations.get t = none
  queued : db.queuedExecutions.get t = none
  invocations : ∀ r ∈ db.toolInvocations.rows, r.taskId ≠ t
  delegated : ∀ d ∈ db.delegatedTasks.rows, d.localTaskId ≠ some t

/-- The foreign keys leave only tasks to delete that no row names. -/
theorem deleteTasks_ok {u : Unit} (h : (deleteTasks c).run db = .ok (u,db')) :
    (∀ t, db.history.contextOf t = some c → Unnamed db t) ∧
      {db with tasks := db.tasks.delete fun r => r.contextId = c} = db' := by
  obtain ⟨hgone,hdb⟩ := deleteUnreferenced_ok.mp h
  refine ⟨fun t hcontext => ?_,hdb⟩
  obtain ⟨r,hr,hrc⟩ := contextOf_iff.mp hcontext
  have hmem : t ∈ (db.tasks.rows.filter fun r => r.contextId = c).map (·.taskId) :=
    List.mem_map.mpr ⟨r,List.mem_filter.mpr ⟨Table.mem_of_get hr,decide_eq_true hrc⟩,
      Table.key_of_get hr⟩
  have hfree := hgone t hmem
  simp only [List.mem_append,List.mem_map,List.mem_filterMap,not_or] at hfree
  obtain ⟨⟨⟨⟨⟨hevents,_⟩,hpending⟩,hqueued⟩,hinvocations⟩,hdelegated⟩ := hfree
  constructor
  · exact fun e he heq => hevents ⟨e,he,heq⟩
  · rw [Table.get_eq_none_iff,List.mem_map]
    exact hpending
  · rw [Table.get_eq_none_iff,List.mem_map]
    exact hqueued
  · exact fun r hr heq => hinvocations ⟨r,hr,heq⟩
  · exact fun d hd heq => hdelegated ⟨d,hd,heq⟩

/-- The tables that a context deletion writes and the observations look at. -/
structure DeletedContext (c : ContextId) (db : AgentDb) (taskIds : List TaskId) (db' : AgentDb) :
    Prop where
  mem : ∀ t ∈ taskIds, db.history.contextOf t = some c
  unnamed : ∀ t, db.history.contextOf t = some c → Unnamed db' t
  tasks : db'.tasks = db.tasks.delete fun r => r.contextId = c
  artifacts : db'.artifacts = db.artifacts.delete fun r => r.contextId = c
  delegatedTasks : db'.delegatedTasks = db.delegatedTasks.delete fun r => r.contextId = c
  pending : db'.pendingContinuations = db.pendingContinuations.delete fun r => r.taskId ∈ taskIds
  queued : db'.queuedExecutions = db.queuedExecutions.delete fun r => r.taskId ∈ taskIds
  invocations : db'.toolInvocations = db.toolInvocations.delete fun r => r.taskId ∈ taskIds
  events : db'.taskEvents = db.taskEvents.filter fun e => e.taskId ∉ taskIds
  nextEventId : db'.nextEventId = db.nextEventId

theorem deleteTerminalContext_ok {listed : List TaskId} {u : Unit}
    (h : (deleteTerminalContext c listed).run db = .ok (u,db')) :
    ∃ taskIds, DeletedContext c db taskIds db' := by
  simp only [deleteTerminalContext,deleteTaskRows,bind_ok,run_select,require_ok,run_write,
    Except.ok.injEq,Prod.mk.injEq] at h
  obtain ⟨tasks,_,⟨htasks,rfl⟩,_,_,⟨_,rfl⟩,_,db₁,⟨_,hdb₁⟩,_,db₂,hdelete,_,db₃,hroutes,_,db₄,
    hmessages,hcontext⟩ := h
  obtain ⟨hunnamed,hdb₂⟩ := deleteTasks_ok hdelete
  have hdb₃ := (deleteUnreferenced_ok.mp hroutes).2
  have hdb₄ := (deleteUnreferenced_ok.mp hmessages).2
  have hdb' := (deleteUnreferenced_ok.mp hcontext).2
  have hrest : db' = {db₂ with
      contexts := db'.contexts
      messages := db'.messages
      routeDecisions := db'.routeDecisions} := by
    rw [← hdb',← hdb₄,← hdb₃]
  have hsame : ∀ t, db₁.history.contextOf t = db.history.contextOf t := by
    intro t
    rw [← hdb₁]
    rfl
  refine ⟨tasks.map (·.taskId),?_,fun t ht => ?_,?_,?_,?_,?_,?_,?_,?_,?_⟩
  · intro t ht
    rw [← htasks] at ht
    obtain ⟨r,hr,rfl⟩ := List.mem_map.mp ht
    obtain ⟨hmem,hr⟩ := List.mem_filter.mp hr
    have hr := of_decide_eq_true hr
    exact contextOf_iff.mpr ⟨r,Table.get_of_mem hmem,hr.1⟩
  · rw [← hsame] at ht
    have hu := hunnamed t ht
    rw [hrest,← hdb₂]
    exact ⟨hu.events,hu.pending,hu.queued,hu.invocations,hu.delegated⟩
  all_goals
    rw [hrest,← hdb₂,← hdb₁]

theorem deleteTerminalContext_history {listed : List TaskId} {u : Unit}
    (h : (deleteTerminalContext c listed).run db = .ok (u,db')) :
    Forgotten c db.history db'.history := by
  obtain ⟨taskIds,hd⟩ := deleteTerminalContext_ok h
  constructor
  · intro t
    have hevents : db'.eventsOf t = if db.history.contextOf t = some c then [] else db.eventsOf t := by
      split
      · rename_i hcontext
        refine List.filter_eq_nil_iff.mpr fun e he => ?_
        simpa using (hd.unnamed t hcontext).events e he
      · rename_i hcontext
        have hnot : t ∉ taskIds := fun hmem => hcontext (hd.mem t hmem)
        simp only [AgentDb.eventsOf,hd.events,List.filter_filter]
        refine List.filter_congr fun e _ => ?_
        by_cases he : e.taskId = t
        · simp [he,hnot]
        · simp [he]
    have hhead : db'.tasks.get t = if db.history.contextOf t = some c then none else db.tasks.get t := by
      rw [hd.tasks]
      split
      · exact get_deleteTasks_none ‹_›
      · exact get_deleteTasks ‹_›
    change TaskLog.mk _ _ = _
    rw [hevents,hhead]
    split
    · rfl
    · rfl
  · intro a
    simp only [AgentDb.history,hd.artifacts,Table.get_delete]
    cases db.artifacts.get a with
    | none => rfl
    | some r => by_cases hr : r.contextId = c <;> simp [Option.filter,hr]
  · intro id t c' hid
    simp only [AgentDb.history,Option.map_eq_some_iff,Prod.mk.injEq] at hid
    obtain ⟨r,hr,rfl,rfl⟩ := hid
    refine ⟨?_,fun hcontext => (hd.unnamed _ hcontext).invocations r (Table.mem_of_get hr) rfl⟩
    rw [hd.invocations,Table.get_delete,Option.filter_eq_some_iff] at hr
    simp [AgentDb.history,hr.1]
  · exact hd.nextEventId

/-- The tasks that are left keep their rows. -/
theorem deleteTerminalContext_coupled {listed : List TaskId} {u : Unit} (hc : Coupled db.rows)
    (h : (deleteTerminalContext c listed).run db = .ok (u,db')) : Coupled db'.rows := by
  obtain ⟨taskIds,hd⟩ := deleteTerminalContext_ok h
  have hgone : ∀ t, db.history.contextOf t = some c → db'.rows t = ⟨none,none,none,false⟩ := by
    intro t ht
    have hu := hd.unnamed t ht
    have hdelegated : (db'.delegatedTasks.rows.any fun d => d.localTaskId = some t) = false := by
      rw [List.any_eq_false]
      exact fun d hmem => by simpa using hu.delegated d hmem
    simp [AgentDb.rows,hd.tasks,get_deleteTasks_none ht,hu.queued,hu.pending,hdelegated]
  have hkept : ∀ t, db.history.contextOf t ≠ some c → (db'.rows t).task = (db.rows t).task ∧
      (db'.rows t).queued = (db.rows t).queued ∧ (db'.rows t).pending = (db.rows t).pending ∧
      ((db'.rows t).delegated = true → (db.rows t).delegated = true) := by
    intro t ht
    have hnot : t ∉ taskIds := fun hmem => ht (hd.mem t hmem)
    refine ⟨?_,?_,?_,?_⟩
    · simp [AgentDb.rows,hd.tasks,get_deleteTasks ht]
    · simp only [AgentDb.rows,hd.queued,Table.get_delete]
      cases hr : db.queuedExecutions.get t with
      | none => rfl
      | some r => simp [Option.filter,Table.key_of_get hr,hnot]
    · simp only [AgentDb.rows,hd.pending,Table.get_delete]
      cases hr : db.pendingContinuations.get t with
      | none => rfl
      | some r => simp [Option.filter,Table.key_of_get hr,hnot]
    · simp only [AgentDb.rows,hd.delegatedTasks,Table.delete,List.any_eq_true,List.mem_filter]
      rintro ⟨d,⟨hmem,_⟩,hlocal⟩
      exact ⟨d,hmem,hlocal⟩
  have htask : ∀ t head, (db'.rows t).task = some head → db.history.contextOf t ≠ some c ∧
      (db.rows t).task = some head := by
    intro t head hhead
    by_cases ht : db.history.contextOf t = some c
    · rw [hgone t ht] at hhead
      cases hhead
    · rw [(hkept t ht).1] at hhead
      exact ⟨ht,hhead⟩
  refine ⟨fun t => ?_,fun t t' head head' h₁ h₂ => hc.threads t t' head head' (htask t head h₁).2
    (htask t' head' h₂).2⟩
  by_cases ht : db.history.contextOf t = some c
  · rw [hgone t ht]
    exact ⟨rfl,rfl,rfl⟩
  · obtain ⟨h₁,h₂,h₃,h₄⟩ := hkept t ht
    have hold := hc.coupledAt t
    cases hhead : (db.rows t).task with
    | none =>
      rw [coupledAt_none (h₁.trans hhead),h₂,h₃]
      obtain ⟨hq,hp,hdel⟩ := (coupledAt_none hhead).mp hold
      exact ⟨hq,hp,Bool.eq_false_iff.mpr fun hdel' => by rw [h₄ hdel'] at hdel; cases hdel⟩
    | some head =>
      by_cases hlocal : head.assignedAgentId = none
      · have hl := (coupledAt_local hhead hlocal).mp hold
        refine (coupledAt_local (h₁.trans hhead) hlocal).mpr ⟨h₂ ▸ hl.queued,h₂ ▸ hl.fits,
          h₃ ▸ hl.pending,h₃ ▸ hl.waits,hl.inputCut,?_⟩
        exact Bool.eq_false_iff.mpr fun hdel' => by rw [hl.local_] at h₄; cases h₄ hdel'
      · rw [coupledAt_remote (h₁.trans hhead) hlocal,h₂,h₃]
        exact (coupledAt_remote hhead hlocal).mp hold

end DeleteContext

namespace AgentTxn

variable {db : AgentDb}

/-- The maintenance operations that do not delete keep every observation of the tasks. -/
theorem maintenance_keeps {γ : Type} {v : AgentDb → γ} (core : CoreEnv) (env : LedgerEnv)
    (hc : ∀ db contexts, v {db with contexts} = v db)
    (ha : ∀ db registeredAgents, v {db with registeredAgents} = v db) (a : AgentTxn) :
    (∃ c, a = .core c) ∨ (∃ c listed, a = deleteTerminalContext c listed) ∨
      Keeps v (a.txn core env) := by
  cases a with
  | core c => exact .inl ⟨c,rfl⟩
  | deleteTerminalContext c listed => exact .inr (.inl ⟨c,listed,rfl⟩)
  | updateContextTitle c title =>
    exact .inr (.inr (.map _ (.bind (.write fun db => hc db _) fun _ => .select _)))
  | updateRegisteredAgentCard agentId cardJson =>
    exact .inr (.inr (.map _ (.bind (.write fun db => ha db _) fun _ => .select _)))
  | deleteRegisteredAgent agentId =>
    exact .inr (.inr (.statement (.bind (.select _) fun _ => .bind (.select _) fun _ =>
      .bind (.require _ _) fun _ => .write fun db => ha db _)))

theorem commit_coupled (core : CoreEnv) (env : LedgerEnv) (a : AgentTxn) (hc : Coupled db.rows) :
    Coupled (a.commit core env db).rows := by
  rcases maintenance_keeps (v := AgentDb.rows) core env (fun _ _ => rfl) (fun _ _ => rfl) a with
    ⟨c,rfl⟩ | ⟨c,listed,rfl⟩ | hk
  · have hcommit : AgentTxn.commit core env (.core c) db = c.commit core env db := commit_map _ _ _
    rw [hcommit]
    exact c.coupled_commit core env hc
  · rcases commit_cases (MainAgentStore.deleteTerminalContext c listed) db with heq | ⟨u,hu⟩
    · rw [AgentTxn.commit,AgentTxn.txn,heq]
      exact hc
    · exact deleteTerminalContext_coupled hc hu
  · rw [AgentTxn.commit,hk.commit]
    exact hc

/-- A core transaction moves the history as it allows, a deletion forgets a context, and the
other operations leave the history as it is. -/
theorem commit_history_cases (core : CoreEnv) (env : LedgerEnv) (a : AgentTxn)
    (hc : Coupled db.rows) (ho : db.history.Owned) :
    (∃ c, a = .core c ∧ HistoryMoves c.allows db.history (a.commit core env db).history) ∨
      (∃ c listed, a = deleteTerminalContext c listed ∧
        Forgotten c db.history (a.commit core env db).history) ∨
      (a.commit core env db).history = db.history := by
  rcases maintenance_keeps (v := AgentDb.history) core env (fun _ _ => rfl) (fun _ _ => rfl) a with
    ⟨c,rfl⟩ | ⟨c,listed,rfl⟩ | hk
  · have hcommit : AgentTxn.commit core env (.core c) db = c.commit core env db := commit_map _ _ _
    rw [hcommit]
    rcases commit_cases (c.txn core env) db with heq | ⟨action,hrun⟩
    · rw [CoreTxn.commit,heq]
      exact .inr (.inr rfl)
    · exact .inl ⟨c,rfl,CoreTxn.txn_history core env hc ho hrun⟩
  · rcases commit_cases (MainAgentStore.deleteTerminalContext c listed) db with heq | ⟨u,hu⟩
    · rw [AgentTxn.commit,AgentTxn.txn,heq]
      exact .inr (.inr rfl)
    · exact .inr (.inl ⟨c,listed,rfl,deleteTerminalContext_history hu⟩)
  · rw [AgentTxn.commit,hk.commit]
    exact .inr (.inr rfl)

theorem commit_history (core : CoreEnv) (env : LedgerEnv) (a : AgentTxn) (hc : Coupled db.rows)
    (ho : db.history.Owned) : HistoryChange db.history (a.commit core env db).history := by
  rcases commit_history_cases core env a hc ho with ⟨_,_,hm⟩ | ⟨c,_,_,hf⟩ | heq
  · exact .inl (hm.mono fun _ _ _ _ => trivial)
  · exact .inr ⟨c,hf⟩
  · rw [heq]
    exact .inl .refl

end AgentTxn
end VermayAgent
