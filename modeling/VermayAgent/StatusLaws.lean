import VermayAgent.EventLogs

/-! Which statuses of a local task the writes of the application leave.
A set of statuses that no allowed transition leaves is kept by every write; a task that is
gone stays gone where no write creates it again. -/
namespace VermayAgent
open Library Txn MainAgentStore

/-- The write is a core transaction with the property. -/
def AgentTxn.is (p : CoreTxn → Bool) : AgentTxn → Bool
  | .core c => p c
  | _ => false

/-- The transaction makes a task with this id. -/
def CoreTxn.creates (t : TaskId) : CoreTxn → Bool
  | .acceptLocalTask _ _ _ _ taskId _ => taskId = t
  | .retryTask _ ids _ _ => ids.taskId = t
  | .completeRemoteTask _ _ _ _ _ _ taskId _ => taskId = t
  | _ => false

/-- The task, if there is one, is local and in a status of the set. -/
def LocalIn (S : TaskStatus → Prop) (t : TaskId) (db : AgentDb) : Prop :=
  ∀ r, db.tasks.get t = some r → r.assignedAgentId = none ∧ S r.status

/-- No transition that the transaction may make of the task leaves the set. -/
def CoreTxn.StaysIn (S : TaskStatus → Prop) (t : TaskId) (c : CoreTxn) : Prop :=
  ∀ current target, current.assignedAgentId = none → S current.status →
    target ∈ localTaskTransitions current.status → c.allows t current target → S target

variable {db : AgentDb} {t : TaskId} {S : TaskStatus → Prop}

/-- The event makes a task. -/
def RowEvent.creating : RowEvent → Bool
  | accepted _ _ | delegated _ => true
  | _ => false

theorem RowEvent.creating_of_absent {rows : Rows} {e : RowEvent} (hnone : (rows t).task = none)
    (hen : e.Enabled rows t) : e.creating = true := by
  cases e with
  | accepted => rfl
  | delegated => rfl
  | synced =>
    obtain ⟨_,head,hhead,_⟩ := hen
    rw [hnone] at hhead
    cases hhead
  | claimed =>
    obtain ⟨head,_,hhead,_⟩ := hen
    rw [hnone] at hhead
    cases hhead
  | _ =>
    obtain ⟨head,hhead,_⟩ := hen
    rw [hnone] at hhead
    cases hhead

theorem CoreTxn.creates_of_event {c : CoreTxn} {e : RowEvent} (he : c.events t e)
    (hcreating : e.creating = true) : c.creates t = true := by
  cases c with
  | acceptLocalTask => exact decide_eq_true he.1.symm
  | retryTask => exact decide_eq_true he.1.symm
  | completeRemoteTask => exact decide_eq_true he.1.symm
  | recordRemoteSnapshot =>
    obtain ⟨_,_,rfl⟩ := he
    cases hcreating
  | resolveApproval =>
    obtain ⟨_,_,rfl⟩ := he
    cases hcreating
  | submitTaskInput =>
    obtain ⟨_,_,rfl⟩ := he
    cases hcreating
  | cancelTask =>
    rcases he with ⟨_,_,rfl⟩ | ⟨_,rfl⟩ <;> cases hcreating
  | claimLocalExecution =>
    obtain ⟨_,rfl⟩ := he
    cases hcreating
  | recordLocalTaskResult =>
    rcases he with ⟨_,_,rfl⟩ | ⟨_,_,_,rfl⟩ <;> cases hcreating
  | recordLocalTaskFailure | recordTaskCancellation | recordRuntimeRecoveryFailure =>
    obtain ⟨_,_,rfl⟩ := he
    cases hcreating
  | _ => exact he.elim

theorem get_of_head {head : LifecycleHead} (h : (db.history.log t).head = some head) :
    ∃ r, db.tasks.get t = some r ∧ r.lifecycle = head := by
  obtain ⟨r,hr,hhead⟩ := Option.map_eq_some_iff.mp h
  exact ⟨r,hr,hhead⟩

theorem LocalIn.mono {T : TaskStatus → Prop} (hST : ∀ status, S status → T status)
    (h : LocalIn S t db) : LocalIn T t db :=
  fun r hr => ⟨(h r hr).1,hST _ (h r hr).2⟩

namespace AgentTxn

variable (core : CoreEnv) (env : LedgerEnv)

/-- A local task is still there, in the set, unless its context was deleted. -/
theorem next (hs : db.Sound) {a : AgentTxn} (hS : ∀ c, a = .core c → c.StaysIn S t)
    {r : TaskRecord} (hr : db.tasks.get t = some r) (hlocal : r.assignedAgentId = none)
    (hstatus : S r.status) :
    (∃ r', (a.commit core env db).tasks.get t = some r' ∧ r'.assignedAgentId = none ∧
      S r'.status) ∨
      (∃ c listed, a = deleteTerminalContext c listed) ∧
        (a.commit core env db).tasks.get t = none := by
  have hhead := history_head hr
  have hkept : (a.commit core env db).history.log t = db.history.log t →
      ∃ r', (a.commit core env db).tasks.get t = some r' ∧ r'.assignedAgentId = none ∧
        S r'.status := by
    intro hlog
    obtain ⟨r',hr',heq⟩ := get_of_head (show _ = some r.lifecycle by rw [hlog,hhead])
    have hagent : r'.assignedAgentId = r.assignedAgentId :=
      congrArg LifecycleHead.assignedAgentId heq
    have hsame : r'.status = r.status := congrArg LifecycleHead.status heq
    exact ⟨r',hr',hagent.trans hlocal,hsame ▸ hstatus⟩
  rcases commit_history_cases core env a hs.coupled hs.owned with
    ⟨c,rfl,hm⟩ | ⟨c,listed,rfl,hf⟩ | heq
  · have hstays : ∀ current target, current.assignedAgentId = r.lifecycle.assignedAgentId →
        S current.status → AdvancesTo current target → c.allows t current target → S target := by
      intro current target hagent hcurrent hmove hallow
      have hagent : current.assignedAgentId = none := hagent.trans hlocal
      have hmem : target ∈ localTaskTransitions current.status := by
        simpa [AdvancesTo,StatusEdge,hagent] using hmove
      exact hS c rfl current target hagent hcurrent hmem hallow
    obtain ⟨head',hhead',hagent,hstatus'⟩ := HistoryMoves.settled hstays hm hhead hstatus
    obtain ⟨r',hr',rfl⟩ := get_of_head hhead'
    exact .inl ⟨r',hr',hagent.trans hlocal,hstatus'⟩
  · have hlog := hf.log t
    split at hlog
    · refine .inr ⟨⟨c,listed,rfl⟩,?_⟩
      have hnone : (((deleteTerminalContext c listed).commit core env db).history.log t).head =
          none := by rw [hlog]
      exact Option.map_eq_none_iff.mp hnone
    · exact .inl (hkept hlog)
  · exact .inl (hkept (by rw [heq]))

/-- A task that is not there is not there afterwards either. -/
theorem absent (hs : db.Sound) {a : AgentTxn} (hcreates : a.is (CoreTxn.creates t) = false)
    (hr : db.tasks.get t = none) : (a.commit core env db).tasks.get t = none := by
  have hhead : (db.history.log t).head = none := by simp [AgentDb.history,hr]
  have hnone : (db.rows t).task = none := by simp [AgentDb.rows,hr]
  rcases maintenance_keeps (v := AgentDb.rows) core env (fun _ _ => rfl) (fun _ _ => rfl) a with
    ⟨c,rfl⟩ | ⟨c,listed,rfl⟩ | hk
  · have hcommit : AgentTxn.commit core env (.core c) db = c.commit core env db := commit_map _ _ _
    rw [hcommit]
    rcases commit_cases (c.txn core env) db with heq | ⟨action,hrun⟩
    · rw [CoreTxn.commit,heq]
      exact hr
    · have hcreates : c.creates t = false := hcreates
      have hrows : ((CoreTxn.commit core env c db).rows t).task = none := by
        rcases c.txn_rows core env hrun with heq | ⟨t',e,⟨he,_⟩,hen,hrows⟩
        · rw [CoreTxn.commit,heq]
          exact hnone
        · rw [CoreTxn.commit,hrows]
          by_cases ht : t = t'
          · subst ht
            have htrue := c.creates_of_event he (RowEvent.creating_of_absent hnone hen)
            rw [hcreates] at htrue
            cases htrue
          · rw [Rows.modify_of_ne ht]
            exact hnone
      exact Option.map_eq_none_iff.mp hrows
  · rcases commit_history_cases core env (deleteTerminalContext c listed) hs.coupled hs.owned with
      ⟨_,heq,_⟩ | ⟨c',_,_,hf⟩ | heq
    · cases heq
    · have hlog := hf.log t
      have hnone : (((deleteTerminalContext c listed).commit core env db).history.log t).head =
          none := by
        rw [hlog]
        split
        · rfl
        · exact hhead
      exact Option.map_eq_none_iff.mp hnone
    · have hnone : (((deleteTerminalContext c listed).commit core env db).history.log t).head =
          none := by
        rw [heq]
        exact hhead
      exact Option.map_eq_none_iff.mp hnone
  · have hrows : ((a.commit core env db).rows t).task = none := by
      rw [AgentTxn.commit,hk.commit]
      exact hnone
    exact Option.map_eq_none_iff.mp hrows

/-- Every write keeps a set of statuses that its transitions do not leave. -/
theorem localIn (hs : db.Sound) {a : AgentTxn} (hcreates : a.is (CoreTxn.creates t) = false)
    (hS : ∀ c, a = .core c → c.StaysIn S t) (h : LocalIn S t db) :
    LocalIn S t (a.commit core env db) := by
  intro r' hr'
  cases hr : db.tasks.get t with
  | none =>
    rw [absent core env hs hcreates hr] at hr'
    cases hr'
  | some r =>
    rcases next core env hs hS hr (h r hr).1 (h r hr).2 with ⟨r₁,hr₁,hlocal⟩ | ⟨_,hnone⟩
    · rw [hr₁,Option.some.injEq] at hr'
      exact hr' ▸ hlocal
    · rw [hnone] at hr'
      cases hr'

end AgentTxn
end VermayAgent
