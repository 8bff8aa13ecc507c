import VermayAgent.LocalExecution

/-! When a cancellation signal is lost.
A signal reaches the control that a slice has registered for its thread. Between the claim and
the registration there is none, and the registry passes the signal over. -/
namespace VermayAgent
open Library Txn MainAgentStore RowEvent

section Rows

variable {db db' : AgentDb} {rows rows' : Rows} {t : TaskId} {thread : ThreadId}

/-- The task exists and runs on this thread. -/
def OnThread (rows : Rows) (t : TaskId) (thread : ThreadId) : Prop :=
  ∃ head, (rows t).task = some head ∧ head.runtimeThreadId = thread

/-- The task is to be canceled or has ended; no further slice of it can start. -/
def Stopped (rows : Rows) (t : TaskId) : Prop :=
  ∃ head, (rows t).task = some head ∧
    (head.status = .cancelRequested ∨ isTerminalTaskStatus head.status = true)

theorem Coupled.onThread_unique {t' : TaskId} (h : Coupled rows) (ht : OnThread rows t thread)
    (ht' : OnThread rows t' thread) : t = t' := by
  obtain ⟨head,htask,hthread⟩ := ht
  obtain ⟨head',htask',hthread'⟩ := ht'
  exact h.threads t t' head head' htask htask' (hthread.trans hthread'.symm)

theorem OnThread.thread_unique {thread' : ThreadId} (ht : OnThread rows t thread)
    (ht' : OnThread rows t thread') : thread = thread' := by
  obtain ⟨head,htask,rfl⟩ := ht
  obtain ⟨head',htask',rfl⟩ := ht'
  cases htask.symm.trans htask'
  rfl

/-- A task keeps its thread. -/
theorem OnThread.event {e : RowEvent} (h : OnThread rows t thread) (hen : e.Enabled rows t) :
    ∃ head, (e.apply (rows t)).task = some head ∧ head.runtimeThreadId = thread := by
  obtain ⟨head,htask,hthread⟩ := h
  cases e with
  | accepted head' row =>
    rw [hen.1.1] at htask
    cases htask
  | delegated head' =>
    rw [hen.1.1] at htask
    cases htask
  | synced | claimed | interrupted | resumed | cancelRequested | ended =>
    exact ⟨_,congrArg (Option.map _) htask,hthread⟩

/-- A stopped task stays stopped. -/
theorem Stopped.event {e : RowEvent} (h : Stopped rows t) (hen : e.Enabled rows t) :
    ∃ head, (e.apply (rows t)).task = some head ∧
      (head.status = .cancelRequested ∨ isTerminalTaskStatus head.status = true) := by
  obtain ⟨head,htask,hstopped⟩ := h
  have hsame : ∀ head', (rows t).task = some head' → head' = head := by
    intro head' h'
    rw [htask] at h'
    exact (Option.some.inj h').symm
  have hnot : ∀ status, head.status = status → status ≠ .cancelRequested →
      isTerminalTaskStatus status = false → False := by
    rintro _ rfl hne hopen
    rcases hstopped with heq | hterminal
    · exact hne heq
    · rw [hopen] at hterminal
      cases hterminal
  cases e with
  | accepted head' row =>
    rw [hen.1.1] at htask
    cases htask
  | delegated head' =>
    rw [hen.1.1] at htask
    cases htask
  | synced status =>
    obtain ⟨_,head',htask',haccepts⟩ := hen
    cases hsame head' htask'
    refine ⟨_,congrArg (Option.map _) htask,?_⟩
    change status = .cancelRequested ∨ isTerminalTaskStatus status = true
    cases hs : head.status <;> cases status <;>
      simp_all [acceptsRemoteProxySnapshot,remoteProxySnapshotTransitions,isTerminalTaskStatus]
  | claimed =>
    obtain ⟨head',_,htask',_,hstatus,_⟩ := hen
    cases hsame head' htask'
    exact (hnot _ hstatus (by decide) rfl).elim
  | interrupted status kind =>
    obtain ⟨head',htask',_,hstatus,hwaits⟩ := hen
    cases hsame head' htask'
    rcases hstatus with hstatus | hstatus
    · rcases hwaits with ⟨rfl,_⟩ | ⟨rfl,_⟩ <;> exact (hnot _ hstatus (by decide) rfl).elim
    · exact (hnot _ hstatus (by decide) rfl).elim
  | resumed kind row =>
    obtain ⟨head',htask',_,hstatus,_⟩ := hen
    cases hsame head' htask'
    rcases hstatus with hstatus | hstatus <;> exact (hnot _ hstatus (by decide) rfl).elim
  | cancelRequested => exact ⟨_,congrArg (Option.map _) htask,.inl rfl⟩
  | ended status =>
    obtain ⟨_,_,_,_,hterminal⟩ := hen
    exact ⟨_,congrArg (Option.map _) htask,.inr hterminal⟩

/-- What every event of a task keeps about its record, every transaction keeps. -/
theorem keep_of_move {E : TaskId → RowEvent → Prop} {p : TaskRows → Prop}
    (hevent : ∀ e : RowEvent, e.Enabled rows t → p (e.apply (rows t)))
    (hm : RowsMove E rows rows') (h : p (rows t)) : p (rows' t) := by
  rcases hm with rfl | ⟨t₀,e,_,hen,rfl⟩
  · exact h
  · by_cases ht : t = t₀
    · subst ht
      rw [Rows.modify_self]
      exact hevent e hen
    · rwa [Rows.modify_of_ne ht]

theorem OnThread.move {E : TaskId → RowEvent → Prop} (h : OnThread rows t thread)
    (hm : RowsMove E rows rows') : OnThread rows' t thread :=
  keep_of_move (p := fun r => ∃ head, r.task = some head ∧ head.runtimeThreadId = thread)
    (fun _ hen => h.event hen) hm h

theorem Stopped.move {E : TaskId → RowEvent → Prop} (h : Stopped rows t)
    (hm : RowsMove E rows rows') : Stopped rows' t :=
  keep_of_move (p := fun r => ∃ head, r.task = some head ∧
    (head.status = .cancelRequested ∨ isTerminalTaskStatus head.status = true))
    (fun _ hen => h.event hen) hm h

/-- A cancellation that is followed by a signal has stopped the task of that thread. -/
theorem commitCancellation_signals {reason : Option String} {active : Bool}
    {c : MainAgentCore.CommittedCancellation}
    (h : (MainAgentCore.commitCancellation t reason active).run db = .ok (c,db'))
    (hsignal : c.activeRuntimeThreadId = some thread) :
    OnThread db'.rows c.task.taskId thread ∧ Stopped db'.rows c.task.taskId := by
  have hdirect : ∀ {db₁ payload}, (MainAgentCore.cancelDirectly t reason payload).run db₁
      = .ok (c,db') → False := by
    intro db₁ payload hrun
    simp only [MainAgentCore.cancelDirectly,bind_ok,pure_ok] at hrun
    obtain ⟨_,_,_,_,_,_,_,_,_,_,_,_,rfl,_⟩ := hrun
    cases hsignal
  simp only [MainAgentCore.commitCancellation,bind_ok,requireTask_ok,require_ok,ite_run] at h
  obtain ⟨r,_,⟨hr,rfl⟩,_,_,⟨_,rfl⟩,h⟩ := h
  split at h
  · rename_i hstatus
    obtain ⟨rfl,rfl⟩ := pure_ok.mp h
    have hid : r.taskId = t := Table.key_of_get hr
    have hthread : r.runtimeThreadId = thread := by
      cases active <;> simp_all
    rw [show (MainAgentCore.CommittedCancellation.task ⟨r,_⟩).taskId = t from hid]
    exact ⟨⟨r.head,rows_task_of_get hr,hthread⟩,⟨r.head,rows_task_of_get hr,.inl hstatus⟩⟩
  · split at h
    · simp only [bind_ok,ite_run] at h
      obtain ⟨requested,db₁,h₁,h⟩ := h
      split at h
      · obtain ⟨rfl,rfl⟩ := pure_ok.mp h
        obtain ⟨⟨head,_,_,_,hhead,hid⟩,_⟩ := transitionLocalTask_rows h₁
        have hthread : requested.runtimeThreadId = thread := Option.some.inj hsignal
        have hafter := transitionLocalTask_head h₁
        rw [show (MainAgentCore.CommittedCancellation.task ⟨requested,_⟩).taskId = t from hid]
        refine ⟨⟨requested.head,hafter,hthread⟩,⟨requested.head,hafter,.inl ?_⟩⟩
        rw [hhead]
      · exact (hdirect h).elim
    · exact (hdirect h).elim

/-- A transaction that is followed by a signal is a cancellation of the task it names. -/
theorem signals_of_txn {core : CoreEnv} {env : LedgerEnv} {c : CoreTxn}
    (h : (c.txn core env).run db = .ok (some (.signalLocalCancellation t thread),db')) :
    OnThread db'.rows t thread ∧ Stopped db'.rows t := by
  cases c with
  | cancelTask taskId reason active =>
    obtain ⟨committed,hrun,hsignal⟩ := (map_ok _ _).mp h
    obtain ⟨thread',hthread,heq⟩ := Option.map_eq_some_iff.mp hsignal
    cases heq
    exact commitCancellation_signals hrun hthread
  | retryTask =>
    obtain ⟨⟨_,created⟩,_,hsignal⟩ := (map_ok _ _).mp h
    cases created <;> cases hsignal
  | _ =>
    obtain ⟨_,_,hsignal⟩ := (map_ok _ _).mp h
    cases hsignal

end Rows

/-- What holds along every run whose signals find their slice registered. -/
structure Process.SignalsOk (s : Process) : Prop where
  claimed : ∀ r t thread route, s.runs r = .claimed t thread route →
    OnThread s.db.rows t thread ∧ t ∉ s.canceled
  running : ∀ r t thread route, s.runs r = .running t thread route →
    OnThread s.db.rows t thread ∧ ∃ active, s.registry thread = some active ∧ 0 < active.users ∧
      (t ∈ s.canceled → active.requested = true)
  signals : ∀ c t thread, s.clients c = .toSignal t thread →
    OnThread s.db.rows t thread ∧ Stopped s.db.rows t
  canceled : ∀ t ∈ s.canceled, Stopped s.db.rows t
  checks : ∀ check ∈ s.checks, check.afterCancel = true → check.observed = true

namespace ProcessStep

variable {core : CoreEnv} {env : LedgerEnv} {a : ProcessStep} {s s' : Process}

/-- A signal is not performed while the slice of its task is claimed and not registered yet. -/
def SignalGuard (a : ProcessStep) (s : Process) : Prop :=
  match a with
  | .signal c => ∀ t thread, s.clients c = .toSignal t thread →
      ∀ r thread' route, s.runs r ≠ .claimed t thread' route
  | _ => True

/-- Each step moves the rows by one event at most. -/
theorem rows_of_took (hs : Took core env s a s') : ∃ E, RowsMove E s.db.rows s'.db.rows := by
  have hcommit : ∀ c : CoreTxn, ∃ E, RowsMove E s.db.rows (c.commit core env s.db).rows := by
    intro c
    rcases commit_cases (c.txn core env) s.db with heq | ⟨a,ha⟩
    · exact ⟨fun _ _ => True,.inl (by rw [CoreTxn.commit,heq])⟩
    · exact ⟨_,CoreTxn.txn_rows core env ha⟩
  cases hs with
  | command _ _ _ hrun => exact ⟨_,CoreTxn.txn_rows core env hrun⟩
  | @claim r t hr =>
    have hclaim := hcommit (.claimLocalExecution t)
    rwa [← claim_commit core env] at hclaim
  | recordStartFailure | ledger | record | recordFailure => exact hcommit _
  | _ => exact ⟨fun _ _ => True,.inl rfl⟩

end ProcessStep

/-- The task and thread of a slice that has its command. -/
def RunPhase.slice : RunPhase → Option (TaskId × ThreadId)
  | claimed t thread _ | running t thread _ => some (t,thread)
  | _ => none

def ClientPhase.signals : ClientPhase → Bool
  | toSignal _ _ => true
  | _ => false

namespace Process

variable {s s' : Process}

theorem setRun_quiet {r : RunId} {phase : RunPhase} (h : phase.slice = none) (q : RunId) :
    (s.setRun r phase).runs q = s.runs q ∨ ((s.setRun r phase).runs q).slice = none := by
  by_cases hq : q = r
  · subst hq
    exact .inr (by simpa [setRun] using h)
  · exact .inl (by simp [setRun,hq])

theorem setClient_quiet {c : ClientId} {phase : ClientPhase} (h : phase.signals = false)
    (d : ClientId) : (s.setClient c phase).clients d = s.clients d ∨
      ((s.setClient c phase).clients d).signals = false := by
  by_cases hd : d = c
  · subst hd
    exact .inr (by simpa [setClient] using h)
  · exact .inl (by simp [setClient,hd])

/-- A slice that has its command is of one run, whatever its thread. -/
theorem Ok.slice_unique (hok : s.Ok) {r q : RunId} {t t' : TaskId} {thread : ThreadId}
    (hr : (s.runs r).slice = some (t,thread)) (hq : (s.runs q).slice = some (t',thread))
    (ht : OnThread s.db.rows t thread) (ht' : OnThread s.db.rows t' thread) : r = q := by
  have htask : ∀ {phase : RunPhase} {t : TaskId}, phase.slice = some (t,thread) →
      phase.task = some t := by
    intro phase t h
    cases phase <;> first | (cases h; rfl) | cases h
  cases hok.coupled.onThread_unique ht ht'
  exact hok.run_unique (htask hr) (htask hq)

/-- Steps that start no slice, no signal and no check keep what the others rely on. -/
theorem SignalsOk.quiet (h : s.SignalsOk) {E : TaskId → RowEvent → Prop}
    (hrows : RowsMove E s.db.rows s'.db.rows) (hregistry : s'.registry = s.registry)
    (hcanceled : s'.canceled = s.canceled) (hchecks : s'.checks = s.checks)
    (hruns : ∀ r, s'.runs r = s.runs r ∨ (s'.runs r).slice = none)
    (hclients : ∀ c, s'.clients c = s.clients c ∨ (s'.clients c).signals = false) :
    s'.SignalsOk where
  claimed r t thread route hr := by
    rcases hruns r with heq | hnone
    · obtain ⟨hthread,hno⟩ := h.claimed r t thread route (heq ▸ hr)
      exact ⟨hthread.move hrows,hcanceled ▸ hno⟩
    · rw [hr] at hnone
      cases hnone
  running r t thread route hr := by
    rcases hruns r with heq | hnone
    · obtain ⟨hthread,hactive⟩ := h.running r t thread route (heq ▸ hr)
      refine ⟨hthread.move hrows,?_⟩
      rw [hregistry,hcanceled]
      exact hactive
    · rw [hr] at hnone
      cases hnone
  signals c t thread hc := by
    rcases hclients c with heq | hno
    · obtain ⟨hthread,hstopped⟩ := h.signals c t thread (heq ▸ hc)
      exact ⟨hthread.move hrows,hstopped.move hrows⟩
    · rw [hc] at hno
      cases hno
  canceled t ht := (h.canceled t (hcanceled ▸ ht)).move hrows
  checks := by
    rw [hchecks]
    exact h.checks

end Process

namespace ProcessStep

variable {core : CoreEnv} {env : LedgerEnv} {a : ProcessStep} {s s' : Process}

theorem signalsOk_command {c : ClientId} {txn : CoreTxn} {action : Option PostCommitAction}
    {db : AgentDb} (h : s.SignalsOk) (hrun : (txn.txn core env).run s.db = .ok (action,db)) :
    ({s with db}.setClient c (afterCommit action) : Process).SignalsOk := by
  have hrows := CoreTxn.txn_rows core env hrun
  have hdb : ({s with db} : Process).SignalsOk :=
    h.quiet hrows rfl rfl rfl (fun _ => .inl rfl) fun _ => .inl rfl
  refine ⟨hdb.claimed,hdb.running,fun d t thread hd => ?_,hdb.canceled,hdb.checks⟩
  by_cases hdc : d = c
  · subst hdc
    have hphase : afterCommit action = .toSignal t thread := by
      simpa [Process.setClient] using hd
    obtain ⟨rfl⟩ : action = some (.signalLocalCancellation t thread) := by
      rcases action with _ | ⟨_⟩ | ⟨_⟩ <;> cases hphase
      rfl
    exact signals_of_txn hrun
  · refine hdb.signals d t thread ?_
    simpa [Process.setClient,hdc] using hd

theorem signalsOk_claim {r : RunId} {t : TaskId} (h : s.SignalsOk) :
    ({s with db := (MainAgentCore.claimLocalExecution t).commit s.db}.setRun r
      (afterClaim t ((MainAgentCore.claimLocalExecution t).run s.db)) : Process).SignalsOk := by
  cases hrun : (MainAgentCore.claimLocalExecution t).run s.db with
  | error e =>
    rw [commit_error hrun]
    exact h.quiet (E := fun _ _ => True) (.inl rfl) rfl rfl rfl (Process.setRun_quiet rfl)
      fun _ => .inl rfl
  | ok answer =>
    rcases answer with ⟨_ | claimed,db⟩
    · rw [commit_ok hrun]
      exact h.quiet (E := fun _ _ => True) (.inl (claimLocalExecution_none hrun)) rfl rfl rfl
        (Process.setRun_quiet rfl) fun _ => .inl rfl
    · obtain ⟨_,⟨_,_,htask,_,hstatus,_⟩,_,hhead,hmove⟩ := claimLocalExecution_some hrun
      have hrows : RowsMove (fun _ _ => True) s.db.rows db.rows :=
        .inr ⟨t,.claimed,trivial,⟨_,_,htask,‹_›,hstatus,‹_›⟩,hmove⟩
      have hopen : t ∉ s.canceled := by
        intro ht
        obtain ⟨head,htask',hstopped⟩ := h.canceled t ht
        cases htask.symm.trans htask'
        rcases hstopped with heq | hterminal
        · rw [hstatus] at heq
          cases heq
        · rw [hstatus] at hterminal
          cases hterminal
      have hdb : ({s with db} : Process).SignalsOk :=
        h.quiet hrows rfl rfl rfl (fun _ => .inl rfl) fun _ => .inl rfl
      rw [commit_ok hrun]
      refine ⟨fun q t' thread route hq => ?_,fun q t' thread route hq => ?_,hdb.signals,
        hdb.canceled,hdb.checks⟩
      · by_cases hqr : q = r
        · subst hqr
          have hphase : RunPhase.claimed t claimed.task.runtimeThreadId claimed.routeDecisionId =
              .claimed t' thread route := by simpa [Process.setRun,afterClaim] using hq
          cases hphase
          exact ⟨⟨claimed.task.head,hhead,rfl⟩,hopen⟩
        · refine hdb.claimed q t' thread route ?_
          simpa [Process.setRun,hqr] using hq
      · by_cases hqr : q = r
        · subst hqr
          simp [Process.setRun,afterClaim] at hq
        · refine hdb.running q t' thread route ?_
          simpa [Process.setRun,hqr] using hq

theorem signalsOk_activate {r : RunId} {t : TaskId} {thread : ThreadId} {route : Option String}
    (hok : s.Ok) (h : s.SignalsOk) (hr : s.runs r = .claimed t thread route) :
    ((s.activate thread).setRun r (.running t thread route)).SignalsOk := by
  obtain ⟨hthread,hopen⟩ := h.claimed r t thread route hr
  refine ⟨fun q t' thread' route' hq => ?_,fun q t' thread' route' hq => ?_,h.signals,h.canceled,
    h.checks⟩
  · by_cases hqr : q = r
    · subst hqr
      simp [Process.setRun] at hq
    · refine h.claimed q t' thread' route' ?_
      simpa [Process.setRun,Process.activate,hqr] using hq
  · by_cases hqr : q = r
    · subst hqr
      have hphase : RunPhase.running t thread route = .running t' thread' route' := by
        simpa [Process.setRun] using hq
      cases hphase
      exact ⟨hthread,_,Function.update_self ..,Nat.succ_pos _,fun ht => absurd ht hopen⟩
    · have hq' : s.runs q = .running t' thread' route' := by
        simpa [Process.setRun,Process.activate,hqr] using hq
      obtain ⟨hthread',hactive⟩ := h.running q t' thread' route' hq'
      have hne : thread' ≠ thread := by
        rintro rfl
        exact hqr (hok.slice_unique (congrArg RunPhase.slice hq') (congrArg RunPhase.slice hr)
          hthread' hthread)
      refine ⟨hthread',?_⟩
      simpa [Process.setRun,Process.activate,hne] using hactive

theorem signalsOk_finishSlice {r : RunId} {t : TaskId} {thread : ThreadId} {route : Option String}
    {outcome : SliceOutcome} (hok : s.Ok) (h : s.SignalsOk)
    (hr : s.runs r = .running t thread route) :
    ((s.deactivate thread).setRun r (.sliced t outcome)).SignalsOk := by
  obtain ⟨hthread,_⟩ := h.running r t thread route hr
  refine ⟨fun q t' thread' route' hq => ?_,fun q t' thread' route' hq => ?_,h.signals,h.canceled,
    h.checks⟩
  · by_cases hqr : q = r
    · subst hqr
      simp [Process.setRun] at hq
    · refine h.claimed q t' thread' route' ?_
      simpa [Process.setRun,Process.deactivate,hqr] using hq
  · by_cases hqr : q = r
    · subst hqr
      simp [Process.setRun] at hq
    · have hq' : s.runs q = .running t' thread' route' := by
        simpa [Process.setRun,Process.deactivate,hqr] using hq
      obtain ⟨hthread',hactive⟩ := h.running q t' thread' route' hq'
      have hne : thread' ≠ thread := by
        rintro rfl
        exact hqr (hok.slice_unique (congrArg RunPhase.slice hq') (congrArg RunPhase.slice hr)
          hthread' hthread)
      refine ⟨hthread',?_⟩
      simpa [Process.setRun,Process.deactivate,hne] using hactive

/-- A signal that finds no slice between its claim and its registration reaches every slice. -/
theorem signalsOk_signal {c : ClientId} {t : TaskId} {thread : ThreadId} (h : s.SignalsOk)
    (hc : s.clients c = .toSignal t thread)
    (hguard : ∀ r thread' route, s.runs r ≠ .claimed t thread' route) :
    ({s.requestCancellation thread with canceled := insert t s.canceled}.setClient c .idle :
      Process).SignalsOk := by
  obtain ⟨hthread,hstopped⟩ := h.signals c t thread hc
  refine ⟨fun q t' thread' route' hq => ?_,fun q t' thread' route' hq => ?_,fun d t' thread' hd => ?_,
    fun t' ht' => ?_,h.checks⟩
  · obtain ⟨hthread',hno⟩ := h.claimed q t' thread' route' hq
    refine ⟨hthread',fun hmem => ?_⟩
    rcases Finset.mem_insert.mp hmem with rfl | hmem
    · exact hguard q thread' route' hq
    · exact hno hmem
  · obtain ⟨hthread',active,hactive,husers,hrequested⟩ := h.running q t' thread' route' hq
    refine ⟨hthread',?_⟩
    by_cases heq : thread' = thread
    · subst heq
      refine ⟨⟨active.users,true⟩,?_,husers,fun _ => rfl⟩
      have hne : active.users ≠ 0 := by omega
      simp [Process.setClient,Process.requestCancellation,hactive,hne]
    · refine ⟨active,?_,husers,fun hmem => ?_⟩
      · simpa [Process.setClient,Process.requestCancellation,heq] using hactive
      · rcases Finset.mem_insert.mp hmem with rfl | hmem
        · exact absurd (hthread'.thread_unique hthread) heq
        · exact hrequested hmem
  · by_cases hdc : d = c
    · subst hdc
      simp [Process.setClient] at hd
    · refine h.signals d t' thread' ?_
      simpa [Process.setClient,Process.requestCancellation,hdc] using hd
  · rcases Finset.mem_insert.mp ht' with rfl | hmem
    · exact hstopped
    · exact h.canceled t' hmem

theorem signalsOk_check {r : RunId} {t : TaskId} {thread : ThreadId} {route : Option String}
    (h : s.SignalsOk) (hr : s.runs r = .running t thread route) :
    ({s with checks := s.checks++[⟨r,t,decide (t ∈ s.canceled),s.cancellationRequested thread⟩]} :
      Process).SignalsOk := by
  refine ⟨h.claimed,h.running,h.signals,h.canceled,fun check hcheck hafter => ?_⟩
  rcases List.mem_append.mp hcheck with hold | hnew
  · exact h.checks check hold hafter
  · cases List.mem_singleton.mp hnew
    obtain ⟨_,active,hactive,_,hrequested⟩ := h.running r t thread route hr
    simpa [Process.cancellationRequested,hactive] using hrequested (by simpa using hafter)

theorem signalsOk_step (hok : s.Ok) (h : s.SignalsOk) (hguard : SignalGuard a s)
    (hs : step core env a s = some s') : s'.SignalsOk := by
  have htook := step_took core env hs
  obtain ⟨E,hrows⟩ := rows_of_took htook
  cases htook with
  | command _ _ _ hrun => exact signalsOk_command h hrun
  | commandFails => exact h
  | signal hc => exact signalsOk_signal h hc (hguard _ _ hc)
  | claim hr => exact signalsOk_claim h
  | activate hr => exact signalsOk_activate hok h hr
  | check hr => exact signalsOk_check h hr
  | finishSlice hr => exact signalsOk_finishSlice hok h hr
  | wakeSwallowed | wake | submitFails | forgetScheduled | recordStartFailure =>
    exact h.quiet hrows rfl rfl rfl (fun _ => .inl rfl) (Process.setClient_quiet rfl)
  | submit =>
    exact h.quiet hrows rfl rfl rfl (Process.setRun_quiet rfl) (Process.setClient_quiet rfl)
  | ledger => exact h.quiet hrows rfl rfl rfl (fun _ => .inl rfl) fun _ => .inl rfl
  | enter | dispatchFails | recordFailure | forget =>
    exact h.quiet hrows rfl rfl rfl (Process.setRun_quiet rfl) fun _ => .inl rfl
  | @leave r t outcome hr =>
    have hslice : (afterLeave t outcome).slice = none := by cases outcome <;> rfl
    exact h.quiet hrows rfl rfl rfl (Process.setRun_quiet hslice) fun _ => .inl rfl
  | readTask hr hphase =>
    rcases hphase with ⟨seen,rfl⟩ | ⟨error,rfl⟩
    · exact h.quiet hrows rfl rfl rfl (Process.setRun_quiet rfl) fun _ => .inl rfl
    · exact h.quiet hrows rfl rfl rfl (Process.setRun_quiet rfl) fun _ => .inl rfl
  | @record r t result route seen newMessageId hr =>
    have hslice : ∀ answer, (afterRecord t answer).slice = none := by
      intro answer
      cases answer <;> rfl
    exact h.quiet hrows rfl rfl rfl (Process.setRun_quiet (hslice _)) fun _ => .inl rfl

end ProcessStep

theorem Process.start_signalsOk (db : AgentDb) (recovering : ClientId → Option TaskId) :
    (Process.start db recovering).SignalsOk where
  claimed _ _ _ _ h := nomatch h
  running _ _ _ _ h := nomatch h
  signals c t thread h := by
    change ((recovering c).elim ClientPhase.idle fun t => .toWake t .recovery) = _ at h
    cases hc : recovering c <;> rw [hc] at h <;> cases h
  canceled t h := absurd h (Finset.notMem_empty t)
  checks check h := nomatch h

section Main

variable (core : CoreEnv) (env : LedgerEnv)

/-- Where no signal falls between a claim and the registration of its slice, every boundary check
made after the cancel command has returned observes the request. -/
theorem cancellation_observed (cs : List CoreTxn) {db : AgentDb}
    (recovering : ClientId → Option TaskId)
    (hdb : db = CoreTxn.history core env cs AgentDb.empty) {as : List ProcessStep} {s : Process}
    (hguard : Guarded (ProcessStep.step core env) ProcessStep.SignalGuard as
      (Process.start db recovering))
    (hrun : exec (ProcessStep.step core env) as (Process.start db recovering) = some s) :
    ∀ check ∈ s.checks, check.afterCancel = true → check.observed = true := by
  have hcoupled : Coupled db.rows := by
    rw [hdb]
    exact CoreTxn.coupled_history core env cs coupled_empty
  have hinv := exec_invariant_guarded (I := fun s : Process => s.Ok ∧ s.SignalsOk)
    (fun a s s' h hg hs => ⟨ProcessStep.ok_step h.1 hs,ProcessStep.signalsOk_step h.1 h.2 hg hs⟩)
    ⟨Process.start_ok hcoupled recovering,Process.start_signalsOk db recovering⟩ hguard hrun
  exact hinv.2.checks

end Main

section Sample

/-- A task is accepted and its run claims the command. -/
def sampleClaim : List ProcessStep :=
  sampleAdmission.map (.command 0) ++ [.wake 0,.submit 0 0,.enter 0,.claim 0]

/-- The cancel command commits and signals before the slice is registered. -/
def sampleLostSignal : List ProcessStep :=
  sampleClaim ++ [.command 1 (.cancelTask "task" none true),.signal 1,.activate 0,.check 0]

/-- The cancel command commits early; its slice is registered when the signal comes. -/
def sampleCanceledSlice : List ProcessStep :=
  sampleClaim ++ [.command 1 (.cancelTask "task" none true),.activate 0,.check 0]

/-- Between the claim and the registration. -/
def RunPhase.isClaimed : RunPhase → Bool
  | claimed _ _ _ => true
  | _ => false

end Sample

theorem lost_signal :
    ∃ s, exec (ProcessStep.step sampleCore sampleEnv) sampleLostSignal sampleStart = some s ∧
      ∃ check ∈ s.checks, check.afterCancel = true ∧ check.observed = false := by
  obtain ⟨s,hs⟩ : ∃ s, exec (ProcessStep.step sampleCore sampleEnv) sampleLostSignal sampleStart
      = some s := Option.isSome_iff_exists.mp (by decide +kernel)
  have hchecks : (some s).map (·.checks) = some [⟨0,"task",true,false⟩] := by
    rw [← hs]
    decide +kernel
  simp only [Option.map_some,Option.some.injEq] at hchecks
  exact ⟨s,hs,⟨0,"task",true,false⟩,by simp [hchecks],rfl,rfl⟩

theorem cancellation_observed_sample :
    ∃ s, exec (ProcessStep.step sampleCore sampleEnv) (sampleCanceledSlice ++ [.signal 1,.check 0])
        sampleStart = some s ∧
      ∀ check ∈ s.checks, check.afterCancel = true → check.observed = true := by
  obtain ⟨s,hs⟩ : ∃ s, exec (ProcessStep.step sampleCore sampleEnv)
      (sampleCanceledSlice ++ [.signal 1,.check 0]) sampleStart = some s :=
    Option.isSome_iff_exists.mp (by decide +kernel)
  have hguard : Guarded (ProcessStep.step sampleCore sampleEnv) ProcessStep.SignalGuard
      (sampleCanceledSlice ++ [.signal 1,.check 0]) sampleStart := by
    refine guarded_append.mpr ⟨guarded_of_forall (fun a ha s => ?_) _,fun s₁ h₁ => ?_⟩
    · cases a with
      | signal c => simp [sampleCanceledSlice,sampleClaim,sampleAdmission] at ha
      | _ => trivial
    · refine ⟨fun t thread _ r thread' route hr => ?_,fun _ _ => ⟨trivial,fun _ _ => trivial⟩⟩
      have hrun : (some s₁).map (fun s => (s.runs 0).isClaimed) = some false := by
        rw [← h₁]
        decide +kernel
      by_cases hzero : r = 0
      · simp [← hzero,hr,RunPhase.isClaimed] at hrun
      · have hruns : ∀ a ∈ sampleCanceledSlice, a.run ∈ [none,some 0] := by decide
        have hkeep := exec_keeps (f := fun s => s.runs r) (fun a ha s s' h =>
          ProcessStep.step_runs h fun har => hzero (by simpa [har] using hruns a ha)) h₁
        rw [hr] at hkeep
        cases hkeep
  exact ⟨s,hs,cancellation_observed sampleCore sampleEnv [] (fun _ => none) rfl hguard hs⟩

end VermayAgent
