import VermayAgent.OutcomeRecording
import VermayAgent.Projection

/-! A cancellation that was committed wins over the outcome of the slice. -/
namespace VermayAgent
open Library Txn MainAgentStore TaskOutcomeRecorder

section Winning

variable {core : CoreEnv} {env : LedgerEnv} {t : TaskId} {R : Prop} {s s' s₁ s₂ : Recording}

/-- A recovery failure of the task is among the steps. -/
def Recovered (t : TaskId) (as : List RecordingStep) : Prop :=
  ∃ errorCode errorMessage,
    .commit (.core (.recordRuntimeRecoveryFailure t errorCode errorMessage)) ∈ as

/-- Where a canceled task ends; `R` says that recovery failed it. -/
def Canceled (R : Prop) (status : TaskStatus) : Prop :=
  status = .canceled ∨ status = .failed ∧ R

/-- The statuses of a task from the request of its cancellation on. -/
def CancelWins (R : Prop) (status : TaskStatus) : Prop :=
  status = .cancelRequested ∨ Canceled R status

theorem Canceled.terminal {status : TaskStatus} (h : Canceled R status) :
    isTerminalTaskStatus status = true := by
  rcases h with rfl | ⟨rfl,_⟩ <;> rfl

theorem CancelWins.closed {r : TaskRecord} (h : CancelWins R r.status) : r.Closed :=
  h.imp_right Canceled.terminal

theorem staysIn_canceled (c : CoreTxn) : c.StaysIn (Canceled R) t := by
  intro current target _ hcanceled hmem _
  rw [localTaskTransitions_terminal hcanceled.terminal] at hmem
  cases hmem

theorem staysIn_cancelWins {c : CoreTxn} (hR : c.recovers t → R) : c.StaysIn (CancelWins R) t := by
  intro current target hlocal hwins hmem hallow
  rcases hwins with hrequested | hcanceled
  · rw [hrequested] at hmem
    rcases hallow with ⟨hrecovers,hfailed⟩ | horderly
    · exact .inr (.inr ⟨hfailed,hR hrecovers⟩)
    · have hne := (horderly hlocal).1 hrequested
      simp only [localTaskTransitions,List.mem_cons,List.not_mem_nil,or_false] at hmem
      exact .inr (.inl (hmem.resolve_right hne))
  · exact .inr (staysIn_canceled c current target hlocal hcanceled hmem hallow)

/-- What holds from the state `s₁` on, in which the cancellation has been committed. -/
structure Winning (t : TaskId) (R : Prop) (s₁ s : Recording) : Prop where
  sound : s.Sound t
  status : LocalIn (CancelWins R) t s.db
  answers : (s.db.answers t).Within (s₁.db.answers t)
  returned : s₁.phase.isReturned = false → s.phase.isReturned = true →
    LocalIn (Canceled R) t s.db

/-- The recovery of the task is the only step that may make `R` hold. -/
def RecoversOnly (t : TaskId) (R : Prop) (l : RecordingStep) (_ : Recording) : Prop :=
  ∀ c, l = .commit (.core c) → c.recovers t → R

theorem Writes.recovers {l : RecordingStep} {c : CoreTxn} (h : Writes t l s s' (.core c))
    (hl : RecoversOnly t R l s) : c.recovers t → R := by
  cases h with
  | other heq => exact hl c heq
  | result => exact False.elim
  | failure => exact False.elim

theorem Writes.isReturned {l : RecordingStep} {a : AgentTxn} (h : Writes t l s s' a)
    (hreturned : s'.phase.isReturned = true) (hphase : s.Sound t)
    (hdb : LocalIn (CancelWins R) t s.db) (hdb' : LocalIn (CancelWins R) t s'.db) :
    s.phase.isReturned = true ∨ LocalIn (Canceled R) t s'.db := by
  have hrests : LeftAtRest t s.db s'.db → LocalIn (Canceled R) t s'.db := by
    rintro ⟨r,head,hr,hhead,_,hended⟩ r' hr'
    rw [rows_task_of_get hr',Option.some.injEq] at hhead
    obtain ⟨hlocal,hwins⟩ := hdb' r' hr'
    refine ⟨hlocal,hwins.resolve_left fun hrequested => ?_⟩
    have hterminal := hended (hdb r hr).2.closed
    rw [← hhead] at hterminal
    change isTerminalTaskStatus r'.status = true at hterminal
    rw [hrequested] at hterminal
    cases hterminal
  cases h with
  | other _ _ _ hsame => exact .inl (hsame ▸ hreturned)
  | result hrecording hrun =>
    have hok := hphase.phase
    rw [hrecording] at hok
    rcases recordLocalResult_rests hok.1 hrun with ⟨hseen,heq⟩ | hrest
    · refine .inr fun r' hr' => ?_
      obtain ⟨hlocal,hwins⟩ := hdb' r' hr'
      have hterminal := (hok.2 hseen r' (heq ▸ hr')).2
      refine ⟨hlocal,hwins.resolve_left fun hrequested => ?_⟩
      rw [hrequested] at hterminal
      cases hterminal
    · exact .inr (hrests hrest)
  | failure _ hrun => exact .inr (hrests (recordFailure_rests hrun))

theorem Winning.step {l : RecordingStep} (h : Winning t R s₁ s) (hl : RecoversOnly t R l s)
    (hstep : recordingStep core env t l s = some s') : Winning t R s₁ s' := by
  have hstatus : LocalIn (CancelWins R) t s'.db :=
    localIn_step h.sound (fun c hw => staysIn_cancelWins (hw.recovers hl)) h.status hstep
  refine ⟨h.sound.step hstep,hstatus,?_,fun hopen hreturned => ?_⟩
  · rcases recordingStep_writes hstep with ⟨a,_,hdb⟩ | ⟨hdb,_⟩
    · rw [hdb]
      exact (AgentTxn.answers_within core env h.sound.db.coupled (fun r hr => (h.status r hr).1)
        fun _ r hr => (h.status r hr).2.closed).trans h.answers
    · rw [hdb]
      exact h.answers
  · rcases recordingStep_writes hstep with ⟨a,hw,_⟩ | ⟨_,_,hnot,_⟩
    · rcases hw.isReturned hreturned h.sound h.status hstatus with hbefore | hended
      · exact localIn_step h.sound (fun c _ => staysIn_canceled c) (h.returned hopen hbefore) hstep
      · exact hended
    · rw [hnot] at hreturned
      cases hreturned

/-- A task that is neither waiting nor without its row has no pending request. -/
theorem pending_none (hs : s.Sound t) (h : LocalIn (CancelWins R) t s.db) :
    s.db.pendingContinuations.get t = none := by
  have hpending : (s.db.rows t).pending = none := by
    cases hr : s.db.tasks.get t with
    | none =>
      have hnone : (s.db.rows t).task = none := by simp [AgentDb.rows,hr]
      exact ((coupledAt_none hnone).mp (hs.db.coupled.coupledAt t)).2.1
    | some r =>
      obtain ⟨hlocal,hwins⟩ := h r hr
      have hl := (coupledAt_local (rows_task_of_get hr) hlocal).mp (hs.db.coupled.coupledAt t)
      rw [← Option.not_isSome_iff_eq_none,hl.pending]
      change ¬ (r.status = .inputRequired ∨ r.status = .authRequired)
      rcases hwins with heq | heq | ⟨heq,_⟩ <;> simp [heq]
  exact Option.map_eq_none_iff.mp hpending

end Winning

section Main

variable (core : CoreEnv) (env : LedgerEnv) (text : TextEnv)

/-- From the state on in which the cancellation of a local task has been committed, the task is
canceled or still to be canceled, or recovery has failed it; it waits for nothing, nothing is
answered for it any more, and once its outcome is recorded it is no longer to be canceled. -/
theorem cancellation_wins (as : List AgentTxn) {db : AgentDb}
    (hdb : db = AgentTxn.history core env as AgentDb.empty) {t : TaskId} {r₀ : TaskRecord}
    (hr₀ : db.tasks.get t = some r₀) (hlocal : r₀.assignedAgentId = none) (route : Option String)
    (slice : Except PyException RunResult) (as₁ as₂ : List RecordingStep) {s₁ s₂ : Recording}
    (h₁ : exec (recordingStep core env t) as₁ ⟨db,.start (sliceOutcome text route slice)⟩ = some s₁)
    {r : TaskRecord} (hr : s₁.db.tasks.get t = some r)
    (hcanceled : r.status = .cancelRequested ∨ r.status = .canceled)
    (h₂ : exec (recordingStep core env t) as₂ s₁ = some s₂) :
    (∀ r', s₂.db.tasks.get t = some r' → CancelWins (Recovered t as₂) r'.status) ∧
      s₂.db.pendingContinuations.get t = none ∧
      (s₂.db.answers t).Within (s₁.db.answers t) ∧
      (s₁.phase.isReturned = false → s₂.phase.isReturned = true →
        ∀ r', s₂.db.tasks.get t = some r' → Canceled (Recovered t as₂) r'.status) := by
  have hdb : db.Sound := hdb ▸ AgentTxn.sound_history core env as AgentDb.sound_empty
  have hstart := startRecording_sound text hdb hr₀ hlocal route slice
  have hs₁ : s₁.Sound t := exec_invariant (fun _ _ _ h hstep => h.step hstep) hstart h₁
  have hwins : LocalIn (CancelWins (Recovered t as₂)) t s₁.db := by
    intro r' hr'
    rw [hr,Option.some.injEq] at hr'
    subst hr'
    exact ⟨(hs₁.local_ r hr).1,hcanceled.imp_right .inl⟩
  have hbegin : Winning t (Recovered t as₂) s₁ s₁ :=
    ⟨hs₁,hwins,.refl _,fun hopen hreturned => by rw [hopen] at hreturned; cases hreturned⟩
  have hguard : Guarded (recordingStep core env t) (RecoversOnly t (Recovered t as₂)) as₂ s₁ := by
    refine guarded_of_forall (fun l hl s c heq hrecovers => ?_) s₁
    cases c with
    | recordRuntimeRecoveryFailure taskId errorCode errorMessage =>
      have hid : t = taskId := hrecovers
      subst hid
      exact ⟨errorCode,errorMessage,heq ▸ hl⟩
    | _ => exact hrecovers.elim
  have hend : Winning t (Recovered t as₂) s₁ s₂ :=
    exec_invariant_guarded (fun _ _ _ h hl hstep => h.step hl hstep) hbegin hguard h₂
  exact ⟨fun r' hr' => (hend.status r' hr').2,pending_none hend.sound hend.status,hend.answers,
    fun hopen hreturned r' hr' => (hend.returned hopen hreturned r' hr').2⟩

end Main

section Sample

/-- An admitted task whose slice is running. -/
def sampleRunning : AgentDb :=
  AgentTxn.history sampleCore sampleEnv
    ((sampleAdmission ++ [CoreTxn.claimLocalExecution "task"]).map .core) AgentDb.empty

/-- The slice completes with an answer. -/
def sampleAnswered : Except PyException RunResult :=
  .ok ⟨some "answer",.null,none,none,none,[],[]⟩

/-- The worker has read the running task when the cancellation is committed. -/
def sampleOvertaken : List RecordingStep :=
  [.readTask,.commit (.core (.cancelTask "task" none true))]

/-- The state after steps of the worker on the running task. -/
def sampleRecording (slice : Except PyException RunResult) (as : List RecordingStep) :
    Option Recording :=
  exec (recordingStep sampleCore sampleEnv "task") as
    ⟨sampleRunning,.start (sliceOutcome sampleText none slice)⟩

end Sample

theorem cancellation_wins_sample :
    ∃ s₁ s₂, sampleRecording sampleAnswered sampleOvertaken = some s₁ ∧
      exec (recordingStep sampleCore sampleEnv "task") [.record "answer"] s₁ = some s₂ ∧
      s₂.phase.isReturned = true ∧
      ∀ r', s₂.db.tasks.get "task" = some r' → Canceled (Recovered "task" [.record "answer"])
        r'.status := by
  have hr₀ : sampleRunning.tasks.get "task" =
      some {sampleTask with status := .running,lifecycleRevision := 3} := by decide +kernel
  have h₁ : ((sampleRecording sampleAnswered sampleOvertaken).map fun s =>
      (s.phase.isReturned,s.db.tasks.get "task")) = some (false,some {sampleTask with
        status := .cancelRequested,lifecycleRevision := 4}) := by decide +kernel
  have h₂ : ((sampleRecording sampleAnswered sampleOvertaken).bind fun s =>
      (exec (recordingStep sampleCore sampleEnv "task") [.record "answer"] s).map
        (·.phase.isReturned)) = some true := by decide +kernel
  obtain ⟨s₁,hs₁,heq⟩ := Option.map_eq_some_iff.mp h₁
  obtain ⟨hopen,hr⟩ := Prod.mk.inj heq
  rw [hs₁] at h₂
  obtain ⟨s₂,hs₂,hreturned⟩ := Option.map_eq_some_iff.mp h₂
  exact ⟨s₁,s₂,hs₁,hs₂,hreturned,(cancellation_wins sampleCore sampleEnv sampleText _ rfl hr₀ rfl
    none sampleAnswered sampleOvertaken [.record "answer"] hs₁ hr (.inl rfl) hs₂).2.2.2 hopen
    hreturned⟩

end VermayAgent
