import VermayAgent.CancellationWins

/-! Every finished slice leaves its task at rest, and what is recorded of a result is recorded
whole or not at all. -/
namespace VermayAgent
open Library Txn MainAgentStore TaskOutcomeRecorder

/-- The statuses of a claimed task while the outcome of its slice is not recorded. -/
def Unrecorded (status : TaskStatus) : Prop :=
  status = .running ∨ status = .failed ∨ status = .cancelRequested ∨ status = .canceled

/-- The writes of the other threads. -/
def otherWrites (as : List RecordingStep) : List AgentTxn :=
  as.filterMap fun
    | .commit a => some a
    | _ => none

/-- A cancellation of the task is among the steps. -/
def Requested (t : TaskId) (as : List RecordingStep) : Prop :=
  ∃ reason active, .commit (.core (.cancelTask t reason active)) ∈ as

/-- The deletion of a context is among the steps. -/
def Deleted (as : List RecordingStep) : Prop :=
  ∃ contextId listed, .commit (.deleteTerminalContext contextId listed) ∈ as

/-- The transaction asks for the cancellation of the task. -/
def CoreTxn.cancels (t : TaskId) : CoreTxn → Bool
  | .cancelTask taskId _ _ => taskId = t
  | _ => false

section Statuses

variable {t : TaskId}

/-- Where no result is recorded, only a cancel command makes a status special. -/
theorem special_of_other {c : CoreTxn} {target : TaskStatus} (hc : c.recordsResult t = false)
    (h : c.special t target) : target = .cancelRequested ∧ c.cancels t = true := by
  cases c with
  | cancelTask => exact ⟨h.2,decide_eq_true h.1.symm⟩
  | recordLocalTaskResult => exact absurd h.1.symm (of_decide_eq_false hc)
  | _ => exact h.elim

theorem target_of_running {c : CoreTxn} {current : LifecycleHead} {target : TaskStatus}
    (hc : c.recordsResult t = false) (hlocal : current.assignedAgentId = none)
    (hrunning : current.status = .running) (hmem : target ∈ localTaskTransitions current.status)
    (hallow : c.allows t current target) :
    target = .failed ∨ target = .cancelRequested ∧ c.cancels t = true := by
  rcases hallow with ⟨_,hfailed⟩ | horderly
  · exact .inl hfailed
  · by_cases hspecial : target ∈ specialStatuses
    · exact .inr (special_of_other hc ((horderly hlocal).2 hspecial))
    · rw [hrunning] at hmem
      cases target <;> simp_all [specialStatuses,localTaskTransitions]

theorem staysIn_unrecorded {c : CoreTxn} (hc : c.recordsResult t = false) :
    c.StaysIn Unrecorded t := by
  intro current target hlocal hstatus hmem hallow
  rcases hstatus with hs | hs | hs | hs
  · exact (target_of_running hc hlocal hs hmem hallow).elim (fun h => .inr (.inl h))
      fun h => .inr (.inr (.inl h.1))
  all_goals
    rw [hs] at hmem
    simp only [localTaskTransitions,List.mem_cons,List.not_mem_nil,or_false] at hmem
  · rcases hmem with rfl | rfl
    · exact .inr (.inr (.inr rfl))
    · exact .inr (.inl rfl)

/-- A running task that no one cancels fails at most. -/
theorem staysIn_uncanceled {c : CoreTxn} (hc : c.recordsResult t = false)
    (hcancels : c.cancels t = false) :
    c.StaysIn (fun status => status = .running ∨ status = .failed) t := by
  intro current target hlocal hstatus hmem hallow
  rcases hstatus with hs | hs
  · rcases target_of_running hc hlocal hs hmem hallow with hfailed | ⟨_,htrue⟩
    · exact .inr hfailed
    · rw [hcancels] at htrue
      cases htrue
  · rw [hs] at hmem
    cases hmem

end Statuses

section Runs

variable {core : CoreEnv} {env : LedgerEnv} {t : TaskId} {l : RecordingStep}
  {as : List RecordingStep} {s s' : Recording}

/-- A set of statuses that the other threads do not leave is not left before the recording
has ended. -/
theorem open_step {S : TaskStatus → Prop} (hs : s.Sound t)
    (hS : ∀ c, l = .commit (.core c) → c.recordsResult t = false → c.StaysIn S t)
    (h : s.phase.ended = false → LocalIn S t s.db)
    (hstep : recordingStep core env t l s = some s') :
    s'.phase.ended = false → LocalIn S t s'.db := by
  intro hopen
  rcases recordingStep_writes hstep with ⟨a,hw,hdb⟩ | ⟨hdb,hbefore,_⟩
  · cases hw with
    | other hl hcreates hresult hphase =>
      rw [hphase] at hopen
      have hother : a.is (CoreTxn.recordsResult t) = false := by
        rcases hresult with hended | hother
        · rw [hopen] at hended
          cases hended
        · exact hother
      rw [hdb]
      refine AgentTxn.localIn core env hs.db hcreates (fun c hc => ?_) (h hopen)
      subst hc
      exact hS c hl hother
    | result _ _ hphase' =>
      rw [hphase'] at hopen
      cases hopen
    | failure _ _ hphase' =>
      rw [hphase'] at hopen
      cases hopen
  · rw [hdb]
    exact h hbefore

theorem open_run {S : TaskStatus → Prop} (hs : s.Sound t) (hin : LocalIn S t s.db)
    (hstays : ∀ l ∈ as, ∀ c, l = .commit (.core c) → c.recordsResult t = false → c.StaysIn S t)
    (h : exec (recordingStep core env t) as s = some s') (hopen : s'.phase.ended = false) :
    LocalIn S t s'.db := by
  have hguard : Guarded (recordingStep core env t) (fun l _ => ∀ c, l = .commit (.core c) →
      c.recordsResult t = false → c.StaysIn S t) as s :=
    guarded_of_forall (fun l hl _ => hstays l hl) s
  have hend := exec_invariant_guarded
    (I := fun s => s.Sound t ∧ (s.phase.ended = false → LocalIn S t s.db))
    (fun l s s' hI hl hstep => ⟨hI.1.step hstep,open_step hI.1 hl hI.2 hstep⟩)
    ⟨hs,fun _ => hin⟩ hguard h
  exact hend.2 hopen

theorem ended_step (hstep : recordingStep core env t l s = some s')
    (h : s.phase.ended = true) : s'.phase.ended = true := by
  rcases recordingStep_cases hstep with ⟨_,_,_,_,rfl⟩ | ⟨_,_,hphase,_⟩ | ⟨_,_,_,hphase,_⟩ |
    ⟨_,hphase,_⟩
  · exact h
  all_goals
    rw [hphase] at h
    cases h

/-- Until it has ended, the recording leaves the database to the other threads. -/
theorem db_of_open (h : exec (recordingStep core env t) as s = some s')
    (hopen : s'.phase.ended = false) :
    s'.db = AgentTxn.history core env (otherWrites as) s.db := by
  induction as generalizing s with
  | nil => rw [← Option.some.inj h]; rfl
  | cons l as ih =>
    obtain ⟨s₁,h₁,h₂⟩ := exec_cons_eq_some.mp h
    have hopen₁ : s₁.phase.ended = false := by
      by_contra hended
      have hend := exec_invariant (I := fun s => s.phase.ended = true)
        (fun _ _ _ hs hstep => ended_step hstep hs) (by simpa using hended) h₂
      rw [hopen] at hend
      cases hend
    rw [ih h₂]
    cases l with
    | commit a =>
      simp only [recordingStep] at h₁
      split at h₁
      · rw [← Option.some.inj h₁]
        rfl
      · cases h₁
    | _ =>
      rcases recordingStep_writes h₁ with ⟨a,hw,_⟩ | ⟨hdb,_⟩
      · cases hw with
        | other hl => cases hl
        | result _ _ hphase' =>
          rw [hphase'] at hopen₁
          cases hopen₁
        | failure _ _ hphase' =>
          rw [hphase'] at hopen₁
          cases hopen₁
      · rw [hdb]
        rfl

/-- Only the deletion of its context removes a task. -/
theorem present_or_deleted (hs : s.Sound t) (hpresent : s.db.tasks.get t ≠ none)
    (h : exec (recordingStep core env t) as s = some s') :
    s'.db.tasks.get t ≠ none ∨ Deleted as := by
  by_cases hdeleted : Deleted as
  · exact .inr hdeleted
  · refine .inl ?_
    have hguard : Guarded (recordingStep core env t) (fun l _ => ∀ c listed,
        l ≠ .commit (.deleteTerminalContext c listed)) as s := by
      refine guarded_of_forall (fun l hl _ c listed heq => ?_) s
      subst heq
      exact hdeleted ⟨c,listed,hl⟩
    have hend : s'.Sound t ∧ s'.db.tasks.get t ≠ none := by
      refine exec_invariant_guarded (I := fun s => s.Sound t ∧ s.db.tasks.get t ≠ none)
        (fun l s s' hI hl hstep => ⟨hI.1.step hstep,?_⟩) ⟨hs,hpresent⟩ hguard h
      rcases recordingStep_writes hstep with ⟨a,hw,hdb⟩ | ⟨hdb,_⟩
      · obtain ⟨r,hr⟩ := Option.ne_none_iff_exists'.mp hI.2
        rw [hdb]
        rcases AgentTxn.next core env hI.1.db (a := a) (S := fun _ => True)
            (fun _ _ _ _ _ _ _ _ => trivial) hr (hI.1.local_ r hr).1 trivial with
          ⟨r',hr',_⟩ | ⟨⟨c,listed,rfl⟩,_⟩
        · rw [hr']
          exact Option.some_ne_none _
        · cases hw with
          | other heq => exact absurd heq (hl c listed)
      · rw [hdb]
        exact hI.2
    exact hend.2

theorem LeftAtRest.resting {db db' : AgentDb} (h : LeftAtRest t db db') :
    ∃ r', db'.tasks.get t = some r' ∧ Resting r'.status := by
  obtain ⟨_,head,_,hhead,hrests,_⟩ := h
  obtain ⟨r',hr',rfl⟩ := Option.map_eq_some_iff.mp hhead
  exact ⟨r',hr',hrests⟩

/-- A local task at rest is terminal, or it has a pending request. -/
theorem Resting.pending {db : AgentDb} (hs : db.Sound) {r : TaskRecord}
    (hr : db.tasks.get t = some r) (hlocal : r.assignedAgentId = none) (h : Resting r.status) :
    isTerminalTaskStatus r.status = true ∨ (r.status = .inputRequired ∨ r.status = .authRequired) ∧
      (db.pendingContinuations.get t).isSome := by
  refine h.imp_right fun hwaits => ⟨hwaits,?_⟩
  have hl := (coupledAt_local (rows_task_of_get hr) hlocal).mp (hs.coupled.coupledAt t)
  have hpending := hl.pending.mpr hwaits
  rwa [show (db.rows t).pending = (db.pendingContinuations.get t).map (·.kind) from rfl,
    Option.isSome_map] at hpending

/-- A failure is recorded of a task that was neither canceled nor to be canceled; of the others
the cancellation is. -/
theorem failure_status {r₀ r' : TaskRecord} {error : PyException} (hs : s.Sound t)
    (hr₀ : s.db.tasks.get t = some r₀) (hunrecorded : Unrecorded r₀.status)
    (hdb : s'.db = (AgentTxn.core (.recordLocalTaskFailure t error)).commit core env s.db)
    (hr' : s'.db.tasks.get t = some r') (hrests : Resting r'.status) :
    if r₀.status = .cancelRequested ∨ r₀.status = .canceled then r'.status = .canceled
    else r'.status = .failed := by
  have hkept : ∀ {S : TaskStatus → Prop}, CoreTxn.StaysIn S t (.recordLocalTaskFailure t error) →
      S r₀.status → S r'.status := by
    intro S hS hstatus
    have hin : LocalIn S t s.db := by
      intro r hr
      rw [hr₀,Option.some.injEq] at hr
      exact hr ▸ ⟨(hs.local_ r₀ hr₀).1,hstatus⟩
    have hin' : LocalIn S t s'.db := by
      rw [hdb]
      refine AgentTxn.localIn core env hs.db rfl (fun c hc => ?_) hin
      cases hc
      exact hS
    exact (hin' r' hr').2
  split
  · rename_i hcanceled
    have hwins : CancelWins False r'.status :=
      hkept (staysIn_cancelWins fun h => h) (hcanceled.imp_right .inl)
    rcases hwins with heq | heq | ⟨_,hfalse⟩
    · rw [heq] at hrests
      simp [Resting,isTerminalTaskStatus] at hrests
    · exact heq
    · exact hfalse.elim
  · rename_i hother
    have hstart : r₀.status = .running ∨ r₀.status = .failed := by
      rcases hunrecorded with h | h | h
      · exact .inl h
      · exact .inr h
      · exact absurd h hother
    rcases hkept (staysIn_uncanceled rfl rfl) hstart with heq | heq
    · rw [heq] at hrests
      simp [Resting,isTerminalTaskStatus] at hrests
    · exact heq

end Runs

section Main

variable (core : CoreEnv) (env : LedgerEnv) (text : TextEnv)

/-- The recording of the outcome of a claimed local task. While it lasts, the database is what
the other threads have made of it: nothing of a result is visible. When it returns, the task is
terminal, or it waits with its pending request. When it returns after a failure, that failure is
all it has written, and the task has failed, or it is canceled because that had been requested.
A failure can be recorded whatever the other threads did, unless they deleted the task. -/
theorem slice_left_at_rest (txns : List AgentTxn) {db : AgentDb}
    (hdb : db = AgentTxn.history core env txns AgentDb.empty) {t : TaskId} {r : TaskRecord}
    (hr : db.tasks.get t = some r) (hlocal : r.assignedAgentId = none)
    (hrunning : r.status = .running) (route : Option String)
    (slice : Except PyException RunResult) (as : List RecordingStep) {s : Recording}
    (h : exec (recordingStep core env t) as ⟨db,.start (sliceOutcome text route slice)⟩ = some s)
    (hopen : s.phase.ended = false) :
    s.db = AgentTxn.history core env (otherWrites as) db ∧
      (∀ l s' failure, recordingStep core env t l s = some s' → s'.phase = .returned failure →
        (s'.db.tasks.get t = none → Deleted as) ∧
        (∀ r', s'.db.tasks.get t = some r' → isTerminalTaskStatus r'.status = true ∨
          (r'.status = .inputRequired ∨ r'.status = .authRequired) ∧
            (s'.db.pendingContinuations.get t).isSome) ∧
        (failure = true → ∃ error r₀ r', s.phase = .failing error ∧
          s'.db = (CoreTxn.recordLocalTaskFailure t error).commit core env s.db ∧
          s.db.tasks.get t = some r₀ ∧ s'.db.tasks.get t = some r' ∧
          if r₀.status = .cancelRequested ∨ r₀.status = .canceled then
            r'.status = .canceled ∧ Requested t as
          else r'.status = .failed)) ∧
      ∀ error, s.phase = .failing error → s.db.tasks.get t ≠ none →
        ∃ s', recordingStep core env t .recordFailure s = some s' ∧ s'.phase = .returned true := by
  have hdb : db.Sound := hdb ▸ AgentTxn.sound_history core env txns AgentDb.sound_empty
  have hstart := startRecording_sound text hdb hr hlocal route slice
  have hs : s.Sound t := exec_invariant (fun _ _ _ h hstep => h.step hstep) hstart h
  have hbegin : ∀ {S : TaskStatus → Prop}, S .running → LocalIn S t db := by
    intro S hS r' hr'
    rw [hr,Option.some.injEq] at hr'
    exact hr' ▸ ⟨hlocal,hrunning ▸ hS⟩
  have hunrecorded : LocalIn Unrecorded t s.db :=
    open_run hstart (hbegin (.inl rfl)) (fun _ _ _ _ hc => staysIn_unrecorded hc) h hopen
  have hrequested : ¬ Requested t as →
      LocalIn (fun status => status = .running ∨ status = .failed) t s.db := by
    intro hnot
    refine open_run hstart (hbegin (.inl rfl)) (fun l hl c heq hc => staysIn_uncanceled hc ?_) h
      hopen
    cases c with
    | cancelTask taskId reason active =>
      refine decide_eq_false fun hid => hnot ⟨reason,active,?_⟩
      rw [← hid,← heq]
      exact hl
    | _ => rfl
  have hpresent := present_or_deleted hstart (by simp [hr]) h
  refine ⟨db_of_open h hopen,fun l s' failure hstep hphase => ?_,fun error hphase htask => ?_⟩
  · have hs' : s'.Sound t := hs.step hstep
    have hwaits : ∀ {r'}, s'.db.tasks.get t = some r' → Resting r'.status →
        ∀ r'', s'.db.tasks.get t = some r'' → isTerminalTaskStatus r''.status = true ∨
          (r''.status = .inputRequired ∨ r''.status = .authRequired) ∧
            (s'.db.pendingContinuations.get t).isSome := by
      intro r' hr' hrests r'' hr''
      cases hr'.symm.trans hr''
      exact hrests.pending hs'.db hr' (hs'.local_ r' hr').1
    rcases recordingStep_writes hstep with ⟨a,hw,hdb'⟩ | ⟨_,_,hnot,_⟩
    · cases hw with
      | other _ _ _ hsame =>
        rw [← hsame,hphase] at hopen
        cases hopen
      | result hrecording hrun hphase' =>
        have hnominal : failure = false := by
          rw [hphase',RecordingPhase.returned.injEq] at hphase
          exact hphase.symm
        have hok := hs.phase
        rw [hrecording] at hok
        rcases recordLocalResult_rests hok.1 hrun with ⟨hseen,hsame⟩ | hrests
        · refine ⟨fun hnone => ?_,fun r' hr' => .inl (hok.2 hseen r' (hsame ▸ hr')).2,
            fun hfailure => by rw [hnominal] at hfailure; cases hfailure⟩
          rw [hsame] at hnone
          exact hpresent.resolve_left fun hne => hne hnone
        · obtain ⟨r',hr',hrests⟩ := hrests.resting
          exact ⟨fun hnone => (by rw [hr'] at hnone; cases hnone),hwaits hr' hrests,
            fun hfailure => by rw [hnominal] at hfailure; cases hfailure⟩
      | failure hfailing hrun =>
        obtain ⟨r₀,_,hr₀,_⟩ := recordFailure_rests hrun
        obtain ⟨r',hr',hrests⟩ := (recordFailure_rests hrun).resting
        have hstatus := failure_status hs hr₀ (hunrecorded r₀ hr₀).2 hdb' hr' hrests
        refine ⟨fun hnone => (by rw [hr'] at hnone; cases hnone),hwaits hr' hrests,fun _ =>
          ⟨_,r₀,r',hfailing,hdb'.trans (commit_map _ _ _),hr₀,hr',?_⟩⟩
        split
        · rename_i hcanceled
          rw [if_pos hcanceled] at hstatus
          refine ⟨hstatus,?_⟩
          by_contra hnot
          rcases (hrequested hnot r₀ hr₀).2 with heq | heq <;> simp [heq] at hcanceled
        · rename_i hother
          rwa [if_neg hother] at hstatus
    · rw [hphase] at hnot
      cases hnot
  · obtain ⟨r₀,hr₀⟩ := Option.ne_none_iff_exists'.mp htask
    obtain ⟨task,db',hrun⟩ := recordFailure_total error hr₀ (hs.local_ r₀ hr₀).1
    obtain ⟨db₀,phase⟩ := s
    cases hphase
    exact ⟨⟨db',.returned true⟩,by simp only [recordingStep,hrun],rfl⟩

end Main

/-- The transaction that records an answer is rolled back. -/
def sampleRolledBack : List RecordingStep :=
  [.readTask,.recordFails (.runtimeError "database or disk is full")]

theorem slice_left_at_rest_sample :
    ∃ s s', sampleRecording sampleAnswered sampleRolledBack = some s ∧ s.db = sampleRunning ∧
      recordingStep sampleCore sampleEnv "task" .recordFailure s = some s' ∧
      ∀ r', s'.db.tasks.get "task" = some r' → isTerminalTaskStatus r'.status = true ∨
        (r'.status = .inputRequired ∨ r'.status = .authRequired) ∧
          (s'.db.pendingContinuations.get "task").isSome := by
  have hr : sampleRunning.tasks.get "task" =
      some {sampleTask with status := .running,lifecycleRevision := 3} := by decide +kernel
  have hs : ((sampleRecording sampleAnswered sampleRolledBack).bind fun s =>
      (recordingStep sampleCore sampleEnv "task" .recordFailure s).map fun s' =>
        (s.phase.ended,s'.phase.isReturned)) = some (false,true) := by decide +kernel
  obtain ⟨s,h,hnext⟩ := Option.bind_eq_some_iff.mp hs
  obtain ⟨s',hstep,heq⟩ := Option.map_eq_some_iff.mp hnext
  obtain ⟨hopen,hreturned⟩ := Prod.mk.inj heq
  obtain ⟨failure,hphase⟩ : ∃ failure, s'.phase = .returned failure := by
    cases hp : s'.phase with
    | returned failure => exact ⟨failure,rfl⟩
    | _ => simp [hp,RecordingPhase.isReturned] at hreturned
  obtain ⟨hdb,hreturn,_⟩ := slice_left_at_rest sampleCore sampleEnv sampleText _ rfl hr rfl rfl none
    sampleAnswered sampleRolledBack h hopen
  exact ⟨s,s',h,hdb,hstep,(hreturn _ _ failure hstep hphase).2.1⟩

end VermayAgent
