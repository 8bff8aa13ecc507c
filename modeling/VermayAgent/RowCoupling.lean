import VermayAgent.CoreTxns
import VermayAgent.LedgerFacts

/-! Task, queue and pending rows stay coupled.
The invariant is about rows alone: every event keeps it, hence every committed transaction,
hence every history of transactions. -/
namespace VermayAgent
open Library Txn RowEvent

/-- The other rows of a local task agree with its record. -/
structure LocalCoupled (head : TaskHead) (r : TaskRows) : Prop where
  queued : r.queued.isSome ↔ head.status = .queued
  fits : ∀ row, r.queued = some row → Fits head row
  pending : r.pending.isSome ↔ head.status = .inputRequired ∨ head.status = .authRequired
  waits : ∀ kind, r.pending = some kind → waitsFor head.status kind
  inputCut : 0 < head.inputContextSequence
  local_ : r.delegated = false

def CoupledAt (r : TaskRows) : Prop :=
  match r.task with
  | none => r.queued = none ∧ r.pending = none ∧ r.delegated = false
  | some head =>
    if head.assignedAgentId = none then LocalCoupled head r
    else r.queued = none ∧ r.pending = none

/-- All tasks are coupled to their rows, and no two run on one thread. -/
structure Coupled (rows : Rows) : Prop where
  coupledAt : ∀ taskId, CoupledAt (rows taskId)
  threads : ∀ t t' head head', (rows t).task = some head → (rows t').task = some head' →
    head.runtimeThreadId = head'.runtimeThreadId → t = t'

section Events

variable {rows : Rows} {t : TaskId} {head : TaskHead} {r : TaskRows}

theorem coupledAt_local (htask : r.task = some head) (hlocal : head.assignedAgentId = none) :
    CoupledAt r ↔ LocalCoupled head r := by
  simp [CoupledAt,htask,hlocal]

theorem coupledAt_none (htask : r.task = none) :
    CoupledAt r ↔ r.queued = none ∧ r.pending = none ∧ r.delegated = false := by
  simp [CoupledAt,htask]

theorem coupledAt_remote (htask : r.task = some head) (hremote : head.assignedAgentId ≠ none) :
    CoupledAt r ↔ r.queued = none ∧ r.pending = none := by
  simp [CoupledAt,htask,hremote]

/-- Only delegated tasks are remote proxies. -/
theorem CoupledAt.remote_of_delegated (h : CoupledAt r) (hd : r.delegated = true) :
    ∃ head, r.task = some head ∧ head.assignedAgentId ≠ none := by
  cases htask : r.task with
  | none =>
    rw [((coupledAt_none htask).mp h).2.2] at hd
    cases hd
  | some head =>
    refine ⟨head,rfl,fun hlocal => ?_⟩
    rw [((coupledAt_local htask hlocal).mp h).local_] at hd
    cases hd

/-- The rows that an event rewrites are coupled again. -/
theorem CoupledAt.event {e : RowEvent} (h : CoupledAt (rows t)) (hen : e.Enabled rows t) :
    CoupledAt (e.apply (rows t)) := by
  cases e with
  | accepted head row =>
    obtain ⟨⟨hnone,_⟩,hstatus,hlocal,hseq,hfits⟩ := hen
    obtain ⟨_,hpending,hdelegated⟩ := (coupledAt_none hnone).mp h
    refine (coupledAt_local rfl hlocal).mpr ⟨?_,?_,?_,?_,hseq,hdelegated⟩
    · simp [RowEvent.apply,TaskRows.setQueued,hstatus]
    · rintro _ ⟨⟩
      exact hfits
    · simp [RowEvent.apply,TaskRows.setQueued,TaskRows.setTask,hpending,hstatus]
    · simp [RowEvent.apply,TaskRows.setQueued,TaskRows.setTask,hpending]
  | delegated head =>
    obtain ⟨⟨hnone,_⟩,hremote⟩ := hen
    obtain ⟨hqueued,hpending,_⟩ := (coupledAt_none hnone).mp h
    exact (coupledAt_remote rfl hremote).mpr ⟨hqueued,hpending⟩
  | synced status =>
    obtain ⟨head,htask,hremote⟩ := h.remote_of_delegated hen.1
    have hrows := (coupledAt_remote htask hremote).mp h
    have htask' : ((synced status).apply (rows t)).task = some {head with status} := by
      simp [RowEvent.apply,TaskRows.setStatus,htask]
    exact (coupledAt_remote htask' hremote).mpr hrows
  | claimed =>
    obtain ⟨head,row,htask,hlocal,hstatus,_⟩ := hen
    have hc := (coupledAt_local htask hlocal).mp h
    have hpending : (rows t).pending = none := by
      have hno := hc.pending
      simpa [hstatus] using hno
    have htask' : (claimed.apply (rows t)).task = some {head with status := .running} := by
      simp [RowEvent.apply,TaskRows.setStatus,TaskRows.setQueued,htask]
    refine (coupledAt_local htask' hlocal).mpr ⟨?_,?_,?_,?_,hc.inputCut,hc.local_⟩
    all_goals simp [RowEvent.apply,TaskRows.setStatus,TaskRows.setQueued,hpending]
  | interrupted status kind =>
    obtain ⟨head,htask,hlocal,_,hwaits⟩ := hen
    have hc := (coupledAt_local htask hlocal).mp h
    have htask' : ((interrupted status kind).apply (rows t)).task = some {head with status} := by
      simp [RowEvent.apply,TaskRows.setStatus,TaskRows.setQueued,TaskRows.setPending,htask]
    refine (coupledAt_local htask' hlocal).mpr ⟨?_,?_,?_,?_,hc.inputCut,hc.local_⟩
    · rcases hwaits with ⟨rfl,_⟩ | ⟨rfl,_⟩ <;> simp [RowEvent.apply,TaskRows.setQueued]
    · simp [RowEvent.apply,TaskRows.setQueued]
    · rcases hwaits with ⟨rfl,_⟩ | ⟨rfl,_⟩ <;>
        simp [RowEvent.apply,TaskRows.setStatus,TaskRows.setQueued,TaskRows.setPending]
    · rintro _ ⟨⟩
      exact hwaits
  | resumed kind row =>
    obtain ⟨head,htask,hlocal,_,_,hfits⟩ := hen
    have hc := (coupledAt_local htask hlocal).mp h
    have htask' : ((resumed kind row).apply (rows t)).task = some {head with status := .queued} := by
      simp [RowEvent.apply,TaskRows.setStatus,TaskRows.setQueued,TaskRows.setPending,htask]
    refine (coupledAt_local htask' hlocal).mpr ⟨?_,?_,?_,?_,hc.inputCut,hc.local_⟩
    · simp [RowEvent.apply,TaskRows.setQueued]
    · rintro _ ⟨⟩
      exact hfits
    all_goals simp [RowEvent.apply,TaskRows.setStatus,TaskRows.setQueued,TaskRows.setPending]
  | cancelRequested =>
    obtain ⟨head,htask,hlocal,hstatus⟩ := hen
    have hc := (coupledAt_local htask hlocal).mp h
    have hqueued : (rows t).queued = none := by
      have hno := hc.queued
      simpa [hstatus] using hno
    have hpending : (rows t).pending = none := by
      have hno := hc.pending
      simpa [hstatus] using hno
    have htask' : (cancelRequested.apply (rows t)).task =
        some {head with status := .cancelRequested} := by
      simp [RowEvent.apply,TaskRows.setStatus,htask]
    refine (coupledAt_local htask' hlocal).mpr ⟨?_,?_,?_,?_,hc.inputCut,hc.local_⟩
    all_goals simp [RowEvent.apply,TaskRows.setStatus,hqueued,hpending]
  | ended status =>
    obtain ⟨head,htask,hlocal,_,hterminal⟩ := hen
    have hc := (coupledAt_local htask hlocal).mp h
    have htask' : ((ended status).apply (rows t)).task = some {head with status} := by
      simp [RowEvent.apply,TaskRows.setStatus,TaskRows.setQueued,TaskRows.setPending,htask]
    have hstatus : status ≠ .queued ∧ status ≠ .inputRequired ∧ status ≠ .authRequired := by
      cases status <;> simp_all [isTerminalTaskStatus]
    refine (coupledAt_local htask' hlocal).mpr ⟨?_,?_,?_,?_,hc.inputCut,hc.local_⟩
    all_goals simp [RowEvent.apply,TaskRows.setQueued,TaskRows.setPending,hstatus]

/-- An event creates a task on a fresh thread or keeps the thread of the one there is. -/
theorem thread_of_event {e : RowEvent} {head' : TaskHead} (hen : e.Enabled rows t)
    (h : (e.apply (rows t)).task = some head') :
    Fresh rows t head'.runtimeThreadId ∨
      ∃ head, (rows t).task = some head ∧ head.runtimeThreadId = head'.runtimeThreadId := by
  have hkeep : ∀ status, (rows t).task.map (fun head => {head with status}) = some head' →
      ∃ head, (rows t).task = some head ∧ head.runtimeThreadId = head'.runtimeThreadId := by
    intro status hmap
    obtain ⟨head,htask,rfl⟩ := Option.map_eq_some_iff.mp hmap
    exact ⟨head,htask,rfl⟩
  cases e with
  | accepted head row =>
    cases h
    exact .inl hen.1
  | delegated head =>
    cases h
    exact .inl hen.1
  | synced | claimed | interrupted | resumed | cancelRequested | ended => exact .inr (hkeep _ h)

theorem Coupled.event {e : RowEvent} (h : Coupled rows) (hen : e.Enabled rows t) :
    Coupled (rows.modify t e.apply) where
  coupledAt t' := by
    by_cases ht : t' = t
    · subst ht
      rw [Rows.modify_self]
      exact (h.coupledAt t').event hen
    · rw [Rows.modify_of_ne ht]
      exact h.coupledAt t'
  threads := by
    -- a thread of the rewritten task is not that of another task
    have hother : ∀ t' head head', t' ≠ t → (e.apply (rows t)).task = some head →
        (rows t').task = some head' → head.runtimeThreadId ≠ head'.runtimeThreadId := by
      intro t' head head' ht hhead hhead' heq
      rcases thread_of_event hen hhead with ⟨_,hfresh⟩ | ⟨head₀,htask,hthread⟩
      · exact hfresh t' head' hhead' heq.symm
      · exact ht (h.threads t' t head' head₀ hhead' htask (heq.symm.trans hthread.symm))
    intro t₁ t₂ head₁ head₂ h₁ h₂ heq
    by_cases ht₁ : t₁ = t <;> by_cases ht₂ : t₂ = t
    · rw [ht₁,ht₂]
    · rw [ht₁,Rows.modify_self] at h₁
      rw [Rows.modify_of_ne ht₂] at h₂
      exact absurd heq (hother t₂ head₁ head₂ ht₂ h₁ h₂)
    · rw [ht₂,Rows.modify_self] at h₂
      rw [Rows.modify_of_ne ht₁] at h₁
      exact absurd heq.symm (hother t₁ head₂ head₁ ht₁ h₂ h₁)
    · rw [Rows.modify_of_ne ht₁] at h₁
      rw [Rows.modify_of_ne ht₂] at h₂
      exact h.threads t₁ t₂ head₁ head₂ h₁ h₂ heq

theorem Coupled.move {E : TaskId → RowEvent → Prop} {rows' : Rows} (h : Coupled rows)
    (hm : RowsMove E rows rows') : Coupled rows' := by
  rcases hm with rfl | ⟨t,e,_,hen,rfl⟩
  · exact h
  · exact h.event hen

end Events

theorem coupled_empty : Coupled AgentDb.empty.rows :=
  ⟨fun _ => ⟨rfl,rfl,rfl⟩,fun _ _ _ _ h => nomatch h⟩

namespace CoreTxn

variable (core : CoreEnv) (env : LedgerEnv)

/-- The state that the transaction leaves committed: a transaction that raises is rolled back. -/
def commit (c : CoreTxn) (db : AgentDb) : AgentDb := (c.txn core env).commit db

/-- A sequence of transactions on one store. -/
def history (cs : List CoreTxn) (db : AgentDb) : AgentDb :=
  cs.foldl (fun db c => c.commit core env db) db

theorem coupled_commit (c : CoreTxn) {db : AgentDb} (h : Coupled db.rows) :
    Coupled (c.commit core env db).rows := by
  rcases commit_cases (c.txn core env) db with heq | ⟨a,ha⟩
  · rw [commit,heq]
    exact h
  · exact h.move (txn_rows core env ha)

theorem coupled_history (cs : List CoreTxn) {db : AgentDb} (h : Coupled db.rows) :
    Coupled (history core env cs db).rows := by
  induction cs generalizing db with
  | nil => exact h
  | cons c cs ih => exact ih (coupled_commit core env c h)

end CoreTxn

section Main

variable (core : CoreEnv) (env : LedgerEnv)

/-- In every committed state the queued execution and the pending request of a task are those of
its status; a remote proxy has neither. -/
theorem task_queue_pending_coupled (cs : List CoreTxn) {db : AgentDb} {task : TaskRecord}
    (hdb : db = CoreTxn.history core env cs AgentDb.empty)
    (htask : db.tasks.get task.taskId = some task) :
    (task.assignedAgentId = none →
      ((db.queuedExecutions.get task.taskId).isSome ↔ task.status = .queued) ∧
      (∀ row, db.queuedExecutions.get task.taskId = some row →
        row.runtimeThreadId = task.runtimeThreadId) ∧
      ((db.pendingContinuations.get task.taskId).isSome ↔
        task.status = .inputRequired ∨ task.status = .authRequired) ∧
      (∀ pending, db.pendingContinuations.get task.taskId = some pending →
        (pending.kind = "approval_required" ↔ task.status = .authRequired)) ∧
      (isTerminalTaskStatus task.status = true →
        db.queuedExecutions.get task.taskId = none ∧
        db.pendingContinuations.get task.taskId = none)) ∧
    (task.assignedAgentId ≠ none →
      db.queuedExecutions.get task.taskId = none ∧
      db.pendingContinuations.get task.taskId = none) := by
  have hcoupled : CoupledAt (db.rows task.taskId) := by
    rw [hdb]
    exact (CoreTxn.coupled_history core env cs coupled_empty).coupledAt _
  have hrow := rows_task_of_get htask
  constructor
  · intro hlocal
    have hc := (coupledAt_local hrow hlocal).mp hcoupled
    have hpending : ((db.pendingContinuations.get task.taskId).isSome ↔
        task.status = .inputRequired ∨ task.status = .authRequired) := by
      simpa [AgentDb.rows,TaskRecord.head] using hc.pending
    refine ⟨hc.queued,fun row hqueued => (hc.fits row hqueued).1,hpending,fun pending hp => ?_,
      fun hterminal => ⟨?_,?_⟩⟩
    · have hwaits := hc.waits pending.kind (by simp [AgentDb.rows,hp])
      rcases hwaits with ⟨hs,hk⟩ | ⟨hs,hk⟩
      · exact ⟨fun _ => hs,fun _ => hk⟩
      · have hne : task.status ≠ .authRequired := by
          intro heq
          rw [show task.status = .inputRequired from hs] at heq
          cases heq
        exact ⟨fun heq => absurd (hk.symm.trans heq) (by decide),fun heq => absurd heq hne⟩
    · refine Option.not_isSome_iff_eq_none.mp fun hsome => ?_
      have hstatus : task.status = .queued := hc.queued.mp hsome
      rw [hstatus] at hterminal
      cases hterminal
    · refine Option.not_isSome_iff_eq_none.mp fun hsome => ?_
      rcases hpending.mp hsome with hstatus | hstatus <;>
      · rw [hstatus] at hterminal
        cases hterminal
  · intro hremote
    obtain ⟨hqueued,hpending⟩ := (coupledAt_remote hrow hremote).mp hcoupled
    exact ⟨hqueued,by simpa [AgentDb.rows] using hpending⟩

end Main

section Sample

def sampleCore : CoreEnv := ⟨fun _ _ _ => "fingerprint",false⟩

def sampleRequest : MainAgentRequest :=
  ⟨none,some "message",.user,[.obj [("kind",.str "text"),("text",.str "write the report")]],.obj []⟩

/-- A user message that is admitted and accepted as a local task. -/
def sampleAdmission : List CoreTxn :=
  [.prepareMessage sampleRequest "msg-1" "context",
    .acceptLocalTask "context" "message" ⟨.localTask,none,"long work",none,.obj []⟩ "route-1" "task"
      "thread"]

def sampleTask : TaskRecord where
  taskId := "task"
  contextId := "context"
  status := .queued
  inputMessageId := "message"
  inputContextSequence := 1
  outputMessageId := none
  runtimeThreadId := "thread"
  assignedAgentId := none
  retryOfTaskId := none
  attempt := 1
  errorCode := none
  errorMessage := none
  errorRetryable := false
  lifecycleRevision := 2

def sampleRemoteCore : CoreEnv := {sampleCore with hasRemoteClient := true}

/-- The kernel does not evaluate the trimming of the remote id. -/
theorem trimAscii_remoteTask : "remote-task".trimAscii.toString = "remote-task" :=
  trimAscii_toString (by decide +kernel) (by decide +kernel)

/-- A message that is delegated to a child agent, whose task completes. -/
def sampleDelegation : List CoreTxn :=
  [.upsertRegisteredAgent ⟨"agent","Writer","http://127.0.0.1/card",.obj [],true,.obj []⟩,
    .prepareMessage sampleRequest "msg-1" "context",
    .recordMessageIngressRoute "context" "message" ⟨.remoteAgent,some "agent","writing",none,.obj []⟩
      "route-1",
    .completeRemoteTask "context" "message" "route-1" "delegation" "agent"
      ⟨"task",none,none,some "remote-task",some "working",[]⟩ "task" "thread",
    .recordRemoteSnapshot "task" ⟨"remote-task",none,some "completed",[],.obj []⟩ "answer"]

end Sample

theorem task_queue_pending_coupled_sample :
    ((CoreTxn.history sampleCore sampleEnv sampleAdmission AgentDb.empty).queuedExecutions.get
      "task").isSome := by
  have htask : (CoreTxn.history sampleCore sampleEnv sampleAdmission AgentDb.empty).tasks.get
      sampleTask.taskId = some sampleTask := by decide +kernel
  exact ((task_queue_pending_coupled sampleCore sampleEnv sampleAdmission rfl htask).1 rfl).1.mpr rfl

end VermayAgent
