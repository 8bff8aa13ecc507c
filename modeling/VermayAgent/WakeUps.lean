import VermayAgent.LocalExecution

/-! When a wake-up of queued work is lost.
A wake is swallowed while the task id is still in the adapter's sets. That is harmless as long
as the run that holds the id has yet to make its claim attempt, and loses the wake-up after. -/
namespace VermayAgent
open Library Txn MainAgentStore RowEvent

/-- A local task that waits in the queue with its persisted command. -/
def QueuedWithCommand (db : AgentDb) (taskId : TaskId) : Prop :=
  ∃ task row, db.tasks.get taskId = some task ∧ task.assignedAgentId = none ∧
    task.status = .queued ∧ db.queuedExecutions.get taskId = some row

section Rows

variable {db db' : AgentDb} {rows : Rows} {t taskId : TaskId}

def QueuedRows (r : TaskRows) : Prop :=
  ∃ head row, r.task = some head ∧ head.assignedAgentId = none ∧ head.status = .queued ∧
    r.queued = some row

theorem queuedWithCommand_iff : QueuedWithCommand db t ↔ QueuedRows (db.rows t) := by
  constructor
  · rintro ⟨task,row,htask,hlocal,hstatus,hrow⟩
    exact ⟨task.head,row,rows_task_of_get htask,hlocal,hstatus,hrow⟩
  · rintro ⟨head,row,htask,hlocal,hstatus,hrow⟩
    obtain ⟨task,hget,rfl⟩ := Option.map_eq_some_iff.mp htask
    exact ⟨task,row,hget,hlocal,hstatus,hrow⟩

/-- Only acceptance and continuation leave their task queued. -/
theorem queues_of_event {e : RowEvent} (h : Coupled rows) (hen : e.Enabled rows t)
    (hq : QueuedRows (e.apply (rows t))) : e.queues = true := by
  obtain ⟨head,row,htask,hlocal,hstatus,hrow⟩ := hq
  cases e with
  | accepted | resumed => rfl
  | delegated head' =>
    cases htask
    exact absurd hlocal hen.2
  | synced status =>
    obtain ⟨head',htask',hremote⟩ := (h.coupledAt t).remote_of_delegated hen.1
    simp only [RowEvent.apply,TaskRows.setStatus,htask',Option.map_some,Option.some.injEq] at htask
    rw [← htask] at hlocal
    exact absurd hlocal hremote
  | claimed | interrupted | ended => cases hrow
  | cancelRequested =>
    obtain ⟨head',htask',_⟩ := hen
    simp only [RowEvent.apply,TaskRows.setStatus,htask',Option.map_some,Option.some.injEq] at htask
    rw [← htask] at hstatus
    cases hstatus

/-- A transaction queues nothing that it does not start afterwards. -/
theorem queued_of_txn {core : CoreEnv} {env : LedgerEnv} {c : CoreTxn} {a : Option PostCommitAction}
    (hc : Coupled db.rows) (h : (c.txn core env).run db = .ok (a,db'))
    (hq : QueuedWithCommand db' t) :
    QueuedWithCommand db t ∨ a = some (.startLocalExecution t) := by
  rw [queuedWithCommand_iff] at hq ⊢
  rcases CoreTxn.txn_rows core env h with hrows | ⟨t₀,e,⟨_,hfollow⟩,hen,hrows⟩
  · rw [hrows] at hq
    exact .inl hq
  · rw [hrows] at hq
    by_cases ht : t = t₀
    · subst ht
      rw [Rows.modify_self] at hq
      exact .inr (hfollow (queues_of_event hc hen hq))
    · rw [Rows.modify_of_ne ht] at hq
      exact .inl hq

theorem queued_of_commit {core : CoreEnv} {env : LedgerEnv} {c : CoreTxn} (hc : Coupled db.rows)
    (hquiet : ∀ a db', (c.txn core env).run db = .ok (a,db') → a = none)
    (hq : QueuedWithCommand (c.commit core env db) t) : QueuedWithCommand db t := by
  rcases commit_cases (c.txn core env) db with heq | ⟨a,ha⟩
  · rwa [CoreTxn.commit,heq] at hq
  · rcases queued_of_txn hc ha hq with h | h
    · exact h
    · rw [hquiet a _ ha] at h
      cases h

theorem map_none {α : Type} {x : StoreTxn α} {a : Option PostCommitAction}
    (h : ((fun _ => none) <$> x).run db = .ok (a,db')) : a = none := by
  obtain ⟨_,_,rfl⟩ := (map_ok _ _).mp h
  rfl

end Rows

section Totality

variable {db : AgentDb} {t : TaskId} {r : TaskRecord}

/-- A failure that is recorded takes its task out of the queue. -/
theorem failTask_total {payload : Json} {error : TaskError} {code message reason : String}
    {retryable : Bool} (hr : db.tasks.get t = some r) (hlocal : r.assignedAgentId = none)
    (hstatus : r.status = .queued) :
    ∃ task db', (do
      let failed ← transitionLocalTask t .failed payload error
      TaskOutcomeRecorder.closeUnresolvedExecution t code message retryable reason
      return failed : StoreTxn TaskRecord).run db = .ok (task,db') ∧ ¬ QueuedWithCommand db' t := by
  have hmem : TaskStatus.failed ∈ localTaskTransitions r.status := by rw [hstatus]; decide
  obtain ⟨task,db₁,h₁⟩ := transitionLocalTask_total payload error hr hlocal hmem
  obtain ⟨db₂,h₂⟩ := closeUnresolvedExecution_total db₁ t code message reason retryable
  refine ⟨task,db₂,by rw [run_bind_of h₁,run_bind_of h₂]; rfl,fun hq => ?_⟩
  obtain ⟨_,row,_,_,_,hrow⟩ := queuedWithCommand_iff.mp hq
  rw [TaskOutcomeRecorder.closeUnresolvedExecution_rows h₂,Rows.modify_self] at hrow
  cases hrow

open ProcessStep in
/-- A start that failed leaves its task out of the queue. -/
theorem not_queued_of_startFailure {core : CoreEnv} {env : LedgerEnv} (hc : Coupled db.rows)
    (error : PyException) (origin : WakeOrigin) :
    ¬ QueuedWithCommand ((startFailure t error origin).commit core env db) t := by
  intro hafter
  have hq : QueuedWithCommand db t := by
    refine queued_of_commit hc (fun a db' h => ?_) hafter
    cases origin <;> exact map_none h
  obtain ⟨r,row,hr,hlocal,hstatus,_⟩ := hq
  cases origin with
  | command =>
    obtain ⟨task,db',hrun,hout⟩ := failTask_total hr hlocal hstatus
    have hall : (TaskOutcomeRecorder.recordFailure t error).run db = .ok (task,db') := by
      unfold TaskOutcomeRecorder.recordFailure TaskOutcomeRecorder.unlessEnded
      rw [run_bind_of (requireTask_ok.mpr ⟨hr,rfl⟩),ite_run,if_neg (by rw [hstatus]; decide),
        ite_run,if_neg (by rw [hstatus]; decide)]
      exact hrun
    rw [startFailure,CoreTxn.commit,CoreTxn.txn,commit_map,commit_ok hall] at hafter
    exact hout hafter
  | recovery =>
    obtain ⟨task,db',hrun,hout⟩ := failTask_total hr hlocal hstatus
    have hall : (TaskOutcomeRecorder.recordRuntimeRecoveryFailure t
        "runtime_recovery_submission_failed"
        "Unable to submit the queued local task for recovery.").run db = .ok (task,db') := by
      unfold TaskOutcomeRecorder.recordRuntimeRecoveryFailure
      rw [run_bind_of (requireTask_ok.mpr ⟨hr,rfl⟩),ite_run,if_neg (by rw [hstatus]; decide)]
      exact hrun
    rw [startFailure,CoreTxn.commit,CoreTxn.txn,commit_map,commit_ok hall] at hafter
    exact hout hafter

/-- A claim of a queued task succeeds. -/
theorem claimLocalExecution_total (hc : Coupled db.rows) (hq : QueuedWithCommand db t) :
    ∃ claimed db', (MainAgentCore.claimLocalExecution t).run db = .ok (some claimed,db') := by
  obtain ⟨r,row,hr,hlocal,hstatus,hrow⟩ := hq
  have hlocalRows := (coupledAt_local (rows_task_of_get hr) hlocal).mp (hc.coupledAt t)
  obtain ⟨hthread,command,hdecode⟩ := hlocalRows.fits row hrow
  have hqueued : (getQueuedTaskExecution t).run db = .ok (some command,db) := by
    simp [getQueuedTaskExecution,hrow,hdecode]
  have hcommand : command.runtimeThreadId = r.runtimeThreadId :=
    (QueuedExecutionRow.decode_columns hdecode).2.1.trans hthread
  obtain ⟨n,db₁,h₁⟩ : ∃ n db₁, (deleteQueuedTaskExecution t).run db = .ok (n,db₁) := ⟨_,_,rfl⟩
  have hone : n = 1 := (deleteQueuedTaskExecution_rows h₁).1.mpr (Option.isSome_iff_exists.mpr ⟨row,hrow⟩)
  have hr₁ : db₁.tasks.get t = some r := by
    cases h₁
    exact hr
  have hmem : TaskStatus.running ∈ localTaskTransitions r.status := by rw [hstatus]; decide
  obtain ⟨task,db₂,h₂⟩ := transitionLocalTask_total (.obj []) .none hr₁ hlocal hmem
  have hclaim : (claimQueuedTaskExecution t).run db = .ok (some (task,command),db₂) := by
    unfold claimQueuedTaskExecution claimDelete
    rw [run_bind_of (requireTask_ok.mpr ⟨hr,rfl⟩),ite_run,if_neg (by simp [hlocal,hstatus]),
      run_bind_of hqueued,run_bind_of (run_require_of hcommand _),run_bind_of h₁,ite_run,
      if_neg (not_not.mpr hone),run_bind_of h₂]
    rfl
  have hseq : 0 < task.inputContextSequence := by
    obtain ⟨⟨head,htask,_,_,hhead,_⟩,_⟩ := transitionLocalTask_rows h₂
    rw [rows_task_of_get hr₁] at htask
    cases htask
    rw [show task.inputContextSequence = task.head.inputContextSequence from rfl,hhead]
    exact hlocalRows.inputCut
  unfold MainAgentCore.claimLocalExecution
  rw [run_bind_of hclaim]
  by_cases hkind : command.kind = .initial <;>
    simp [MainAgentCore.prepareClaimed,hkind,getRouteDecisionByMessageId,
      run_bind_of (run_require_of hseq _)]

/-- After a claim attempt, whatever came of it, the task is not queued. -/
theorem not_queued_of_claim (hc : Coupled db.rows) :
    ¬ QueuedWithCommand ((MainAgentCore.claimLocalExecution t).commit db) t := by
  intro hafter
  have hq : QueuedWithCommand db t := by
    rcases commit_cases (MainAgentCore.claimLocalExecution t) db with heq | ⟨o,ho⟩
    · rwa [heq] at hafter
    · cases o with
      | none =>
        rw [queuedWithCommand_iff,claimLocalExecution_none ho] at hafter
        exact queuedWithCommand_iff.mpr hafter
      | some c =>
        obtain ⟨_,_,_,_,hrows⟩ := claimLocalExecution_some ho
        obtain ⟨_,_,_,_,_,hrow⟩ := queuedWithCommand_iff.mp hafter
        rw [hrows,Rows.modify_self] at hrow
        cases hrow
  obtain ⟨c,db',hrun⟩ := claimLocalExecution_total hc hq
  obtain ⟨_,_,_,_,hrows⟩ := claimLocalExecution_some hrun
  rw [commit_ok hrun] at hafter
  obtain ⟨_,_,_,_,_,hrow⟩ := queuedWithCommand_iff.mp hafter
  rw [hrows,Rows.modify_self] at hrow
  cases hrow

end Totality

namespace Process

/-- A queued task whose start no client has left to do has a run before its claim attempt. -/
def NoLostWakeup (s : Process) : Prop :=
  ∀ t, QueuedWithCommand s.db t → (∀ c, (s.clients c).waking ≠ some t) →
    ∃ r, (s.runs r).task = some t ∧ (s.runs r).unclaimed = true

/-- Somebody will start the task or is about to claim its command. -/
def Covered (s : Process) (t : TaskId) : Prop :=
  (∃ c, (s.clients c).waking = some t) ∨
    ∃ r, (s.runs r).task = some t ∧ (s.runs r).unclaimed = true

variable {s : Process} {t : TaskId}

theorem noLostWakeup_iff : s.NoLostWakeup ↔ ∀ t, QueuedWithCommand s.db t → s.Covered t := by
  constructor
  · intro h t hq
    by_cases hc : ∃ c, (s.clients c).waking = some t
    · exact .inl hc
    · exact .inr (h t hq fun c hw => hc ⟨c,hw⟩)
  · intro h t hq hno
    rcases h t hq with ⟨c,hw⟩ | hr
    · exact absurd hw (hno c)
    · exact hr

theorem Covered.setClient (h : s.Covered t) {c : ClientId} {old phase : ClientPhase}
    (hc : s.clients c = old) (hwake : old.waking = some t → phase.waking = some t) :
    (s.setClient c phase).Covered t := by
  rcases h with ⟨d,hd⟩ | hr
  · refine .inl ⟨d,?_⟩
    by_cases hdc : d = c
    · subst hdc
      rw [hc] at hd
      simpa [Process.setClient] using hwake hd
    · simpa [Process.setClient,hdc] using hd
  · exact .inr hr

theorem Covered.setRun (h : s.Covered t) {r : RunId} {old phase : RunPhase} (hr : s.runs r = old)
    (hrun : old.task = some t → old.unclaimed = true → phase.task = some t ∧ phase.unclaimed = true) :
    (s.setRun r phase).Covered t := by
  rcases h with hc | ⟨q,hq,hu⟩
  · exact .inl hc
  · refine .inr ⟨q,?_⟩
    by_cases hqr : q = r
    · subst hqr
      rw [hr] at hq hu
      simpa [Process.setRun] using hrun hq hu
    · simpa [Process.setRun,hqr] using ⟨hq,hu⟩

theorem covered_toWake {c : ClientId} {phase : ClientPhase} (h : phase.waking = some t) :
    (s.setClient c phase).Covered t := .inl ⟨c,by simpa [Process.setClient] using h⟩

end Process

namespace ProcessStep

variable {core : CoreEnv} {env : LedgerEnv} {a : ProcessStep} {s s' : Process}

/-- A wake of a queued task that no other client is about to start finds its run, if there is
one, before the claim attempt. -/
def WakeGuard (a : ProcessStep) (s : Process) : Prop :=
  match a with
  | .wake c => ∀ t origin, s.clients c = .toWake t origin → QueuedWithCommand s.db t →
      (∀ d, d ≠ c → (s.clients d).waking ≠ some t) →
      ∀ r, (s.runs r).task = some t → (s.runs r).unclaimed = true
  | _ => True

/-- Steps other than a wake lose nothing. -/
theorem covered_of_took (h : s.Ok) (hs : Took core env s a s') (hwake : ∀ c, a ≠ .wake c)
    (hcov : ∀ t, QueuedWithCommand s.db t → s.Covered t) :
    ∀ t, QueuedWithCommand s'.db t → s'.Covered t := by
  intro t hq
  cases hs with
  | @command c txn action db hidle hclient hasks hrun =>
    rcases queued_of_txn h.coupled hrun hq with hq | rfl
    · exact (hcov t hq).setClient hidle fun hw => by cases hw
    · exact Process.covered_toWake rfl
  | commandFails => exact hcov t hq
  | wakeSwallowed hc => exact absurd rfl (hwake _)
  | wake hc => exact absurd rfl (hwake _)
  | @submit c r t₀ origin hc hr =>
    by_cases ht : t₀ = t
    · subst ht
      exact .inr ⟨r,by simp [Process.setRun,RunPhase.task,RunPhase.unclaimed]⟩
    · have hcl : (s.setClient c .idle).Covered t :=
        (hcov t hq).setClient hc fun hw => absurd (Option.some.inj hw) ht
      exact hcl.setRun hr fun htask => by cases htask
  | submitFails hc => exact (hcov t hq).setClient hc id
  | forgetScheduled hc => exact (hcov t hq).setClient hc id
  | @recordStartFailure c t₀ origin error hc =>
    have hold : QueuedWithCommand s.db t := by
      refine queued_of_commit h.coupled (fun a db' hrun => ?_) hq
      cases origin <;> exact map_none hrun
    refine (hcov t hold).setClient hc fun hw => ?_
    cases Option.some.inj hw
    exact absurd hq (not_queued_of_startFailure h.coupled error origin)
  | signal hc => exact (hcov t hq).setClient hc fun hw => by cases hw
  | enter hr => exact (hcov t hq).setRun hr fun htask _ => ⟨htask,rfl⟩
  | @claim r t₀ hr =>
    have hold : QueuedWithCommand s.db t := by
      change QueuedWithCommand ((MainAgentCore.claimLocalExecution t₀).commit s.db) t at hq
      rw [claim_commit core env] at hq
      exact queued_of_commit h.coupled (fun a db' hrun => map_none hrun) hq
    refine (hcov t hold).setRun hr fun htask _ => ?_
    cases Option.some.inj htask
    exact absurd hq (not_queued_of_claim h.coupled)
  | activate hr => exact (hcov t hq).setRun hr fun _ hu => by cases hu
  | check => exact hcov t hq
  | ledger hr => exact hcov t (queued_of_commit h.coupled (fun a db' hrun => map_none hrun) hq)
  | dispatchFails hr => exact (hcov t hq).setRun hr fun _ hu => by cases hu
  | finishSlice hr => exact (hcov t hq).setRun hr fun _ hu => by cases hu
  | leave hr => exact (hcov t hq).setRun hr fun _ hu => by cases hu
  | readTask hr => exact (hcov t hq).setRun hr fun _ hu => by cases hu
  | record hr =>
    exact (hcov t (queued_of_commit h.coupled (fun a db' hrun => map_none hrun) hq)).setRun hr
      fun _ hu => by cases hu
  | recordFailure hr =>
    exact (hcov t (queued_of_commit h.coupled (fun a db' hrun => map_none hrun) hq)).setRun hr
      fun _ hu => by cases hu
  | forget hr => exact (hcov t hq).setRun hr fun _ hu => by cases hu

/-- A step keeps every queued task covered exactly when the guard admits it. -/
theorem noLostWakeup_step (h : s.Ok) (hp : s.NoLostWakeup) (hs : step core env a s = some s') :
    s'.NoLostWakeup ↔ WakeGuard a s := by
  have hcov := Process.noLostWakeup_iff.mp hp
  by_cases hwake : ∀ c, a ≠ .wake c
  · have hguard : WakeGuard a s := by
      cases a with
      | wake c => exact absurd rfl (hwake c)
      | _ => trivial
    exact iff_of_true (Process.noLostWakeup_iff.mpr
      (covered_of_took h (step_took core env hs) hwake hcov)) hguard
  · push Not at hwake
    obtain ⟨c,rfl⟩ := hwake
    cases step_took core env hs with
    | @wake _ t origin hc hmem =>
      refine iff_of_true (Process.noLostWakeup_iff.mpr fun t' hq =>
        (hcov t' hq).setClient hc id) fun t' origin' hc' _ _ r hr => ?_
      cases hc.symm.trans hc'
      have hown : s.owner (.inr r) = some t := hr
      exact absurd (h.scheduled.mem hown) hmem
    | @wakeSwallowed _ t origin hc hmem =>
      constructor
      · intro hafter t' origin' hc' hq hother r hr
        cases hc.symm.trans hc'
        obtain ⟨q,hq',hu⟩ := hafter t hq fun d => by
          by_cases hd : d = c
          · subst hd
            simp [Process.setClient,ClientPhase.waking]
          · simpa [Process.setClient,hd] using hother d hd
        rwa [h.run_unique hr hq']
      · intro hguard
        refine Process.noLostWakeup_iff.mpr fun t' hq => ?_
        by_cases ht : t' = t
        · subst ht
          by_cases hother : ∃ d, d ≠ c ∧ (s.clients d).waking = some t'
          · obtain ⟨d,hd,hw⟩ := hother
            exact .inl ⟨d,by simpa [Process.setClient,hd] using hw⟩
          · have hunclaimed := hguard t' origin hc hq fun d hd hw => hother ⟨d,hd,hw⟩
            have hrun : ∃ r, (s.runs r).task = some t' := by
              rcases hmem with hmem | hmem
              · obtain ⟨r,hr⟩ := (h.active.mem_iff t').mp hmem
                exact ⟨r,RunPhase.task_of_activeTask hr⟩
              · obtain ⟨d | r,ho⟩ := (h.scheduled.mem_iff t').mp hmem
                · refine absurd ⟨d,?_,ClientPhase.waking_of_holds ho⟩ hother
                  rintro rfl
                  rw [Process.owner_of_client hc] at ho
                  cases ho
                · exact ⟨r,ho⟩
            obtain ⟨r,hr⟩ := hrun
            exact .inr ⟨r,hr,hunclaimed r hr⟩
        · exact (hcov t' hq).setClient hc fun hw => absurd (Option.some.inj hw).symm ht

end ProcessStep

section Main

variable (core : CoreEnv) (env : LedgerEnv)

/-- Along a run of a process on a stored database, no wake-up is ever lost exactly when every
wake that matters finds the run of its task before the claim attempt. -/
theorem no_lost_wakeup_iff (cs : List CoreTxn) {db : AgentDb} (recovering : ClientId → Option TaskId)
    (hdb : db = CoreTxn.history core env cs AgentDb.empty)
    (hrecovering : ∀ t, QueuedWithCommand db t → ∃ c, recovering c = some t)
    (as : List ProcessStep) :
    Always (ProcessStep.step core env) Process.NoLostWakeup as (Process.start db recovering) ↔
      Guarded (ProcessStep.step core env) ProcessStep.WakeGuard as (Process.start db recovering) := by
  have hcoupled : Coupled db.rows := by
    rw [hdb]
    exact CoreTxn.coupled_history core env cs coupled_empty
  refine always_iff_guarded (I := Process.Ok) (fun a s s' h hs => ProcessStep.ok_step h hs)
    (fun a s s' h hp hs => ProcessStep.noLostWakeup_step h hp hs) (fun a s hs => ?_)
    (Process.start_ok hcoupled recovering) ?_
  · cases a with
    | wake c =>
      intro t origin hc
      simp only [ProcessStep.step,hc] at hs
      split at hs <;> cases hs
    | _ => trivial
  · refine Process.noLostWakeup_iff.mpr fun t hq => ?_
    obtain ⟨c,hc⟩ := hrecovering t hq
    exact .inl ⟨c,by simp [Process.start,hc,ClientPhase.waking]⟩

end Main

section Sample

/-- A slice that ends with a question to the user. -/
def sampleQuestion : LocalTaskRunResult where
  status := .inputRequired
  parts := []
  artifactParts := []
  errorCode := none
  errorMessage := none
  errorRetryable := false
  inputRequest := some (.obj [("kind",.str "user_input_required"),("prompt",.str "Which file?")])
  observations := []
  execution := .obj []

def sampleAnswer (messageId : MessageId) : MainAgentRequest :=
  ⟨none,some messageId,.user,[.obj [("kind",.str "text"),("text",.str "report.txt")]],.obj []⟩

/-- A task is accepted, claimed and run, and its outcome leaves it waiting for input. -/
def sampleSlice : List ProcessStep :=
  sampleAdmission.map (.command 0) ++ [.wake 0,.submit 0 0,.enter 0,.claim 0,.activate 0,
    .finishSlice 0 (.ok sampleQuestion),.leave 0,.readTask 0,.record 0 "msg-2"]

/-- The answer queues the task again while its last run is still scheduled. -/
def sampleLostWakeup : List ProcessStep :=
  sampleSlice ++ [.command 1 (.submitTaskInput "task" (sampleAnswer "answer") "msg-3"),.wake 1,
    .forget 0]

end Sample

theorem no_lost_wakeup_iff_sample :
    Always (ProcessStep.step sampleCore sampleEnv) Process.NoLostWakeup sampleSlice sampleStart ↔
      Guarded (ProcessStep.step sampleCore sampleEnv) ProcessStep.WakeGuard sampleSlice
        sampleStart := by
  refine no_lost_wakeup_iff sampleCore sampleEnv [] (fun _ => none) rfl (fun t hq => ?_) sampleSlice
  obtain ⟨_,_,htask,_⟩ := hq
  cases htask

/-- The queued command of the answered task is left without a wake and without a run. -/
theorem lost_wakeup :
    ∃ s, exec (ProcessStep.step sampleCore sampleEnv) sampleLostWakeup sampleStart = some s ∧
      QueuedWithCommand s.db "task" ∧ (∀ c, s.clients c = .idle) ∧ ∀ r, s.runs r = .absent := by
  obtain ⟨s,hs⟩ : ∃ s, exec (ProcessStep.step sampleCore sampleEnv) sampleLostWakeup sampleStart
      = some s := Option.isSome_iff_exists.mp (by decide +kernel)
  have hstored : (some s).map (fun s => ((s.db.tasks.get "task").map fun r =>
      (r.assignedAgentId,r.status),(s.db.queuedExecutions.get "task").isSome)) =
      some (some (none,.queued),true) := by
    rw [← hs]
    decide +kernel
  have hnamed : (some s).map (fun s => (s.clients 0,s.clients 1,(s.runs 0).task)) =
      some (.idle,.idle,none) := by
    rw [← hs]
    decide +kernel
  simp only [Option.map_some,Option.some.injEq,Prod.mk.injEq,Option.map_eq_some_iff] at hstored hnamed
  obtain ⟨⟨task,htask,hlocal,hstatus⟩,hrow⟩ := hstored
  obtain ⟨row,hrow⟩ := Option.isSome_iff_exists.mp hrow
  obtain ⟨h₀,h₁,hrun⟩ := hnamed
  have hclients : ∀ a ∈ sampleLostWakeup, a.client ∈ [none,some 0,some 1] := by decide
  have hruns : ∀ a ∈ sampleLostWakeup, a.run ∈ [none,some 0] := by decide
  refine ⟨s,hs,⟨task,row,htask,hlocal,hstatus,hrow⟩,fun c => ?_,fun r => ?_⟩
  · by_cases hc : some c ∈ [none,some 0,some 1]
    · have hc : c = 0 ∨ c = 1 := by simpa using hc
      rcases hc with rfl | rfl
      · exact h₀
      · exact h₁
    · exact exec_keeps (f := fun s => s.clients c) (fun a ha s s' h =>
        ProcessStep.step_clients h fun hac => hc (by rw [← hac]; exact hclients a ha)) hs
  · by_cases hr : some r ∈ [none,some 0]
    · have hr : r = 0 := by simpa using hr
      subst hr
      cases hphase : s.runs 0 <;> simp_all [RunPhase.task]
    · exact exec_keeps (f := fun s => s.runs r) (fun a ha s s' h =>
        ProcessStep.step_runs h fun har => hr (by rw [← har]; exact hruns a ha)) hs

end VermayAgent
