import VermayAgent.TaskRunner
import VermayAgent.TaskAnswers
import VermayAgent.Library.Transition

/-! Recording the outcome of a slice, `_record_local_execution_outcome`.
The worker reads the task, records the result in one transaction, and where that raises it
records a failure in another; between its steps other threads commit what they like. No other
slice of the task is recorded meanwhile, for a task has one active slice, and the identifiers
of new tasks are fresh. -/
namespace VermayAgent
open Library Txn MainAgentStore TaskOutcomeRecorder

/-- `LocalExecutionOutcome`. -/
inductive LocalExecutionOutcome where
  | succeeded (result : LocalTaskRunResult) (routeDecisionId : Option String)
  | failed (error : PyException)

/-- What the slice leaves: the runner's result, or the exception that it raised. -/
def sliceOutcome (text : TextEnv) (route : Option String) :
    Except PyException RunResult → LocalExecutionOutcome
  | .ok result => .succeeded (runResultToLocalTaskResult text result) route
  | .error error => .failed error

inductive RecordingPhase where
  | reading (result : LocalTaskRunResult) (metadata : Json)
  | recording (result : LocalTaskRunResult) (metadata : Json) (seen : TaskRecord)
  | failing (error : PyException)
  | returned (failure : Bool)
  | raised (error : PyException)

namespace RecordingPhase

def ended : RecordingPhase → Bool
  | returned _ | raised _ => true
  | _ => false

def isReturned : RecordingPhase → Bool
  | returned _ => true
  | _ => false

def start : LocalExecutionOutcome → RecordingPhase
  | .succeeded result route => reading result (.ofOptions [("routeDecisionId",route.map .str)])
  | .failed error => failing error

end RecordingPhase

structure Recording where
  db : AgentDb
  phase : RecordingPhase

/-- A step of the worker, or another thread's write. The steps that fail are those at which
the store raises an error of its own; the transaction is rolled back. -/
inductive RecordingStep where
  | commit (a : AgentTxn)
  | readTask
  | readFails (error : PyException)
  | record (newMessageId : MessageId)
  | recordFails (error : PyException)
  | recordFailure
  | failureFails (error : PyException)

section Machine

variable (core : CoreEnv) (env : LedgerEnv) (t : TaskId)

def recordingStep : RecordingStep → Recording → Option Recording
  | .commit a, s =>
    if a.is (CoreTxn.creates t) = false ∧
        (s.phase.ended = true ∨ a.is (CoreTxn.recordsResult t) = false) then
      some {s with db := a.commit core env s.db}
    else none
  | .readTask, ⟨db,.reading result metadata⟩ =>
    match (requireTask t).run db with
    | .ok (seen,_) => some ⟨db,.recording result metadata seen⟩
    | .error error => some ⟨db,.failing error⟩
  | .readFails error, ⟨db,.reading _ _⟩ => some ⟨db,.failing error⟩
  | .record newMessageId, ⟨db,.recording result metadata seen⟩ =>
    match (recordLocalResult t result metadata newMessageId seen).run db with
    | .ok (_,db') => some ⟨db',.returned false⟩
    | .error error => some ⟨db,.failing error⟩
  | .recordFails error, ⟨db,.recording _ _ _⟩ => some ⟨db,.failing error⟩
  | .recordFailure, ⟨db,.failing error⟩ =>
    match (recordFailure t error).run db with
    | .ok (_,db') => some ⟨db',.returned true⟩
    | .error e => some ⟨db,.raised e⟩
  | .failureFails e, ⟨db,.failing _⟩ => some ⟨db,.raised e⟩
  | _, _ => none

end Machine

section Steps

variable {core : CoreEnv} {env : LedgerEnv} {t : TaskId} {l : RecordingStep} {s s' : Recording}

/-- What a step can do. -/
theorem recordingStep_cases (h : recordingStep core env t l s = some s') :
    (∃ a, l = .commit a ∧ a.is (CoreTxn.creates t) = false ∧
      (s.phase.ended = true ∨ a.is (CoreTxn.recordsResult t) = false) ∧
      s' = {s with db := a.commit core env s.db}) ∨
    (∃ result metadata, s.phase = .reading result metadata ∧ s'.db = s.db ∧
      ((∃ seen, s.db.tasks.get t = some seen ∧ s'.phase = .recording result metadata seen) ∨
        ∃ error, s'.phase = .failing error)) ∨
    (∃ result metadata seen, s.phase = .recording result metadata seen ∧
      ((∃ id task, (recordLocalResult t result metadata id seen).run s.db = .ok (task,s'.db) ∧
        s'.phase = .returned false) ∨ s'.db = s.db ∧ ∃ error, s'.phase = .failing error)) ∨
    ∃ error, s.phase = .failing error ∧
      ((∃ task, (recordFailure t error).run s.db = .ok (task,s'.db) ∧
        s'.phase = .returned true) ∨ s'.db = s.db ∧ ∃ e, s'.phase = .raised e) := by
  obtain ⟨db,phase⟩ := s
  cases l with
  | commit a =>
    simp only [recordingStep] at h
    split at h
    · rename_i hguard
      exact .inl ⟨a,rfl,hguard.1,hguard.2,(Option.some.inj h).symm⟩
    · cases h
  | readTask =>
    cases phase with
    | reading result metadata =>
      simp only [recordingStep] at h
      split at h
      · rename_i seen _ hrun
        cases h
        exact .inr (.inl ⟨_,_,rfl,rfl,.inl ⟨seen,(requireTask_ok.mp hrun).1,rfl⟩⟩)
      · cases h
        exact .inr (.inl ⟨_,_,rfl,rfl,.inr ⟨_,rfl⟩⟩)
    | _ => cases h
  | readFails error =>
    cases phase with
    | reading =>
      cases h
      exact .inr (.inl ⟨_,_,rfl,rfl,.inr ⟨_,rfl⟩⟩)
    | _ => cases h
  | record id =>
    cases phase with
    | recording =>
      simp only [recordingStep] at h
      split at h
      · rename_i hrun
        cases h
        exact .inr (.inr (.inl ⟨_,_,_,rfl,.inl ⟨id,_,hrun,rfl⟩⟩))
      · cases h
        exact .inr (.inr (.inl ⟨_,_,_,rfl,.inr ⟨rfl,_,rfl⟩⟩))
    | _ => cases h
  | recordFails error =>
    cases phase with
    | recording =>
      cases h
      exact .inr (.inr (.inl ⟨_,_,_,rfl,.inr ⟨rfl,_,rfl⟩⟩))
    | _ => cases h
  | recordFailure =>
    cases phase with
    | failing error =>
      simp only [recordingStep] at h
      split at h
      · rename_i hrun
        cases h
        exact .inr (.inr (.inr ⟨_,rfl,.inl ⟨_,hrun,rfl⟩⟩))
      · cases h
        exact .inr (.inr (.inr ⟨_,rfl,.inr ⟨rfl,_,rfl⟩⟩))
    | _ => cases h
  | failureFails e =>
    cases phase with
    | failing =>
      cases h
      exact .inr (.inr (.inr ⟨_,rfl,.inr ⟨rfl,_,rfl⟩⟩))
    | _ => cases h

end Steps

/-- Terminal, or waiting for the user. -/
def Resting (status : TaskStatus) : Prop :=
  isTerminalTaskStatus status = true ∨ status = .inputRequired ∨ status = .authRequired

/-- The task was there and is at rest now, and ended where it was closed. -/
def LeftAtRest (t : TaskId) (db db' : AgentDb) : Prop :=
  ∃ r head, db.tasks.get t = some r ∧ (db'.rows t).task = some head ∧ Resting head.status ∧
    (r.Closed → isTerminalTaskStatus head.status = true)

section Recorders

variable {db db' : AgentDb} {t : TaskId} {task : TaskRecord} {result : LocalTaskRunResult}

/-- Where a transition leaves the task, once it is followed by what does not move the task. -/
theorem status_of_transition {db₁ : AgentDb} {target : TaskStatus} {payload : Json}
    {error : TaskError} (h : (transitionLocalTask t target payload error).run db = .ok (task,db₁))
    (hkeep : (db'.rows t).task = (db₁.rows t).task) :
    ∃ head, (db'.rows t).task = some head ∧ head.status = target := by
  obtain ⟨⟨head,_,_,_,hhead,_⟩,_⟩ := transitionLocalTask_rows h
  refine ⟨task.head,by rw [hkeep,transitionLocalTask_head h],?_⟩
  rw [hhead]

theorem closeUnresolvedExecution_task {errorCode errorMessage reason : String} {retryable : Bool}
    {u : Unit} (h : (closeUnresolvedExecution t errorCode errorMessage retryable reason).run db
      = .ok (u,db')) : (db'.rows t).task = (db.rows t).task := by
  rw [closeUnresolvedExecution_rows h,Rows.modify_self]
  rfl

theorem recordCancellation_ends (h : (recordCancellation t).run db = .ok (task,db')) :
    ∃ head, (db'.rows t).task = some head ∧ isTerminalTaskStatus head.status = true := by
  simp only [recordCancellation,bind_ok,requireTask_ok,ite_run] at h
  obtain ⟨r,_,⟨hr,rfl⟩,h⟩ := h
  split at h
  · rename_i hended
    obtain ⟨_,rfl⟩ := pure_ok.mp h
    refine ⟨r.head,rows_task_of_get hr,?_⟩
    rcases hended with hcanceled | hterminal
    · change isTerminalTaskStatus r.status = true
      rw [hcanceled]
      rfl
    · exact hterminal
  · simp only [bind_ok,pure_ok] at h
    obtain ⟨_,db₁,h₁,_,db₂,h₂,_,rfl⟩ := h
    obtain ⟨head,hhead,hstatus⟩ := status_of_transition h₁ (closeUnresolvedExecution_task h₂)
    exact ⟨head,hhead,by rw [hstatus]; rfl⟩

/-- A recorder that leaves open tasks at rest leaves every task at rest, and closed ones ended. -/
theorem unlessEnded_rests {record : TaskRecord → StoreTxn TaskRecord}
    (hrecord : ∀ r, (record r).run db = .ok (task,db') →
      ∃ head, (db'.rows t).task = some head ∧ Resting head.status)
    (h : (unlessEnded t record).run db = .ok (task,db')) :
    LeftAtRest t db db' := by
  obtain ⟨r,hr,⟨hended,rfl⟩ | ⟨_,h⟩ | ⟨hopen,hrequested,h⟩⟩ := unlessEnded_ok h
  · exact ⟨r,r.head,hr,rows_task_of_get hr,.inl hended,fun _ => hended⟩
  · obtain ⟨head,hhead,hended⟩ := recordCancellation_ends h
    exact ⟨r,head,hr,hhead,.inl hended,fun _ => hended⟩
  · obtain ⟨head,hhead,hrests⟩ := hrecord r h
    refine ⟨r,head,hr,hhead,hrests,fun hclosed => ?_⟩
    rcases hclosed with heq | hended
    · exact absurd heq hrequested
    · rw [hopen] at hended
      cases hended

theorem recordFailure_rests {error : PyException}
    (h : (recordFailure t error).run db = .ok (task,db')) : LeftAtRest t db db' := by
  refine unlessEnded_rests (fun r h => ?_) h
  simp only [bind_ok,pure_ok] at h
  obtain ⟨_,db₁,h₁,_,db₂,h₂,_,rfl⟩ := h
  obtain ⟨head,hhead,hstatus⟩ := status_of_transition h₁ (closeUnresolvedExecution_task h₂)
  exact ⟨head,hhead,by rw [hstatus]; exact .inl rfl⟩

theorem recordCompletedResult_rests {metadata : Json} {newMessageId : MessageId}
    (h : (recordCompletedResult t result metadata newMessageId).run db = .ok (task,db')) :
    LeftAtRest t db db' := by
  refine unlessEnded_rests (fun r h => ?_) h
  simp only [bind_ok,pure_ok] at h
  obtain ⟨_,_,_,_,_,_,_,_,_,_,_,_,_,db₅,_,_,db₆,h₆,_,db₇,h₇,_,db₈,h₈,_,rfl⟩ := h
  have hkeep : (db₈.rows t).task = (db₆.rows t).task := by
    rw [clearQueuedTaskExecution_rows h₈,clearPendingContinuation_rows h₇,Rows.modify_modify,
      Rows.modify_self]
    rfl
  obtain ⟨head,hhead,hstatus⟩ := status_of_transition h₆ hkeep
  exact ⟨head,hhead,by rw [hstatus]; exact .inl rfl⟩

theorem recordFailedResult_rests {status : TaskStatus}
    (h : (recordFailedResult t result status).run db = .ok (task,db')) :
    LeftAtRest t db db' := by
  refine unlessEnded_rests (fun r h => ?_) h
  simp only [bind_ok,pure_ok] at h
  obtain ⟨_,_,_,_,db₂,h₂,_,db₃,h₃,_,rfl⟩ := h
  obtain ⟨head,hhead,hstatus⟩ := status_of_transition h₂ (closeUnresolvedExecution_task h₃)
  exact ⟨head,hhead,by rw [hstatus]; exact .inl rfl⟩

theorem recordInterruptedResult_rests {status : TaskStatus} {inputRequest : Json}
    (hstatus : status ∈ [TaskStatus.inputRequired,.authRequired])
    (h : (recordInterruptedResult t result status inputRequest).run db = .ok (task,db')) :
    LeftAtRest t db db' := by
  refine unlessEnded_rests (fun r h => ?_) h
  simp only [bind_ok,pure_ok] at h
  obtain ⟨_,_,_,_,_,_,_,db₃,h₃,_,db₄,h₄,_,db₅,h₅,_,rfl⟩ := h
  have hkeep : (db₅.rows t).task = (db₃.rows t).task := by
    rw [clearQueuedTaskExecution_rows h₅,Rows.modify_self,
      appendInputRequestMessage_rows _ _ _ _ _ _ h₄]
    rfl
  obtain ⟨head,hhead,heq⟩ := status_of_transition h₃ hkeep
  refine ⟨head,hhead,.inr ?_⟩
  rw [heq]
  simpa using hstatus

/-- A recorded result leaves its task at rest, and ended where it was closed. -/
theorem recordLocalResult_rests {metadata : Json} {newMessageId : MessageId} {seen : TaskRecord}
    (hrunning : localProcessStatus result ≠ .running)
    (h : (recordLocalResult t result metadata newMessageId seen).run db = .ok (task,db')) :
    isTerminalTaskStatus seen.status = true ∧ db' = db ∨ LeftAtRest t db db' := by
  have hinterrupted : localProcessStatus result ∈ [TaskStatus.inputRequired,.authRequired] →
      (recordInterruption t result).run db = .ok (task,db') → LeftAtRest t db db' := by
    intro hstatus h
    unfold recordInterruption at h
    split at h
    · exact recordFailure_rests h
    · exact recordInterruptedResult_rests hstatus h
  unfold recordLocalResult at h
  split at h
  · exact .inl ⟨‹_›,(pure_ok.mp h).2.symm⟩
  · refine .inr ?_
    split at h
    · obtain ⟨head,hhead,hended⟩ := recordCancellation_ends h
      obtain ⟨r,_,h₁,_⟩ := (bind_ok _ _).mp h
      exact ⟨r,head,(requireTask_ok.mp h₁).1,hhead,.inl hended,fun _ => hended⟩
    · simp only [bind_ok,ofExcept_ok] at h
      obtain ⟨_,_,⟨_,rfl⟩,h⟩ := h
      split at h
      · exact recordCompletedResult_rests h
      · exact absurd ‹_› hrunning
      · rename_i hs
        exact hinterrupted (by rw [hs]; decide) h
      · rename_i hs
        exact hinterrupted (by rw [hs]; decide) h
      · exact recordFailedResult_rests h

end Recorders

section Invariants

variable {core : CoreEnv} {env : LedgerEnv} {t : TaskId}

/-- The runner's result is never a running one, and a task seen as ended has ended. -/
def RecordingPhase.Ok (t : TaskId) (db : AgentDb) : RecordingPhase → Prop
  | reading result _ => localProcessStatus result ≠ .running
  | recording result _ seen => localProcessStatus result ≠ .running ∧
      (isTerminalTaskStatus seen.status = true →
        LocalIn (fun status => isTerminalTaskStatus status = true) t db)
  | _ => True

structure Recording.Sound (t : TaskId) (s : Recording) : Prop where
  db : s.db.Sound
  local_ : LocalIn (fun _ => True) t s.db
  phase : s.phase.Ok t s.db

/-- The write of a step: another thread's, or the worker's own. -/
inductive Writes (t : TaskId) (l : RecordingStep) (s s' : Recording) : AgentTxn → Prop
  | other {a} (hl : l = .commit a) (hcreates : a.is (CoreTxn.creates t) = false)
      (hresult : s.phase.ended = true ∨ a.is (CoreTxn.recordsResult t) = false)
      (hphase : s'.phase = s.phase) : Writes t l s s' a
  | result {result metadata id seen task} (hphase : s.phase = .recording result metadata seen)
      (hrun : (recordLocalResult t result metadata id seen).run s.db = .ok (task,s'.db))
      (hphase' : s'.phase = .returned false) :
      Writes t l s s' (.core (.recordLocalTaskResult t result metadata id seen))
  | failure {error task} (hphase : s.phase = .failing error)
      (hrun : (recordFailure t error).run s.db = .ok (task,s'.db))
      (hphase' : s'.phase = .returned true) :
      Writes t l s s' (.core (.recordLocalTaskFailure t error))

variable {l : RecordingStep} {s s' : Recording} {a : AgentTxn}

theorem Writes.creates (h : Writes t l s s' a) : a.is (CoreTxn.creates t) = false := by
  cases h with
  | other _ hcreates => exact hcreates
  | result => rfl
  | failure => rfl

/-- A step writes in one transaction, or it moves on without a write. -/
theorem recordingStep_writes (h : recordingStep core env t l s = some s') :
    (∃ a, Writes t l s s' a ∧ s'.db = a.commit core env s.db) ∨
      s'.db = s.db ∧ s.phase.ended = false ∧ s'.phase.isReturned = false ∧
        (s.phase.Ok t s.db → LocalIn (fun _ => True) t s.db → s'.phase.Ok t s.db) := by
  have hcommit : ∀ {c : CoreTxn} {x : StoreTxn TaskRecord} {task : TaskRecord},
      c.txn core env = (fun _ => none) <$> x → x.run s.db = .ok (task,s'.db) →
      s'.db = AgentTxn.commit core env (.core c) s.db := by
    intro c x task htxn hrun
    rw [AgentTxn.commit,AgentTxn.txn,commit_map,htxn,commit_map,commit_ok hrun]
  rcases recordingStep_cases h with ⟨a,rfl,hcreates,hresult,rfl⟩ |
    ⟨result,metadata,hphase,hdb,hnext⟩ | ⟨result,metadata,seen,hphase,hnext⟩ |
    ⟨error,hphase,hnext⟩
  · exact .inl ⟨a,.other rfl hcreates hresult rfl,rfl⟩
  · refine .inr ⟨hdb,by rw [hphase]; rfl,?_⟩
    rcases hnext with ⟨seen,hseen,hphase'⟩ | ⟨error,hphase'⟩
    · rw [hphase,hphase']
      refine ⟨rfl,fun hok hlocal => ⟨hok,fun hended r hr => ?_⟩⟩
      rw [hseen,Option.some.injEq] at hr
      subst hr
      exact ⟨(hlocal _ hseen).1,hended⟩
    · rw [hphase']
      exact ⟨rfl,fun _ _ => trivial⟩
  · rcases hnext with ⟨id,task,hrun,hphase'⟩ | ⟨hdb,error,hphase'⟩
    · exact .inl ⟨_,.result hphase hrun hphase',hcommit rfl hrun⟩
    · refine .inr ⟨hdb,by rw [hphase]; rfl,?_⟩
      rw [hphase']
      exact ⟨rfl,fun _ _ => trivial⟩
  · rcases hnext with ⟨task,hrun,hphase'⟩ | ⟨hdb,e,hphase'⟩
    · exact .inl ⟨_,.failure hphase hrun hphase',hcommit rfl hrun⟩
    · refine .inr ⟨hdb,by rw [hphase]; rfl,?_⟩
      rw [hphase']
      exact ⟨rfl,fun _ _ => trivial⟩

theorem staysIn_terminal (c : CoreTxn) :
    c.StaysIn (fun status => isTerminalTaskStatus status = true) t := by
  intro current target _ hended hmem _
  rw [localTaskTransitions_terminal hended] at hmem
  cases hmem

theorem localIn_step {S : TaskStatus → Prop} (hs : s.Sound t)
    (hS : ∀ c, Writes t l s s' (.core c) → c.StaysIn S t) (h : LocalIn S t s.db)
    (hstep : recordingStep core env t l s = some s') : LocalIn S t s'.db := by
  rcases recordingStep_writes hstep with ⟨a,hw,hdb⟩ | ⟨hdb,_⟩
  · rw [hdb]
    exact AgentTxn.localIn core env hs.db hw.creates (fun c hc => hS c (hc ▸ hw)) h
  · rw [hdb]
    exact h

theorem Recording.Sound.step (hs : s.Sound t) (hstep : recordingStep core env t l s = some s') :
    s'.Sound t := by
  have hlocal : LocalIn (fun _ => True) t s'.db :=
    localIn_step hs (fun _ _ _ _ _ _ _ _ => trivial) hs.local_ hstep
  rcases recordingStep_writes hstep with ⟨a,hw,hdb⟩ | ⟨hdb,_,_,hok⟩
  · refine ⟨hdb ▸ AgentTxn.sound_commit core env a hs.db,hlocal,?_⟩
    cases hw with
    | other hl hcreates hresult hphase =>
      have hok := hs.phase
      rw [hphase]
      cases hp : s.phase with
      | recording result metadata seen =>
        rw [hp] at hok
        exact ⟨hok.1,fun hended => localIn_step hs (fun c _ => staysIn_terminal c)
          (hok.2 hended) hstep⟩
      | reading result metadata =>
        rw [hp] at hok
        exact hok
      | _ => trivial
    | result _ _ hphase' =>
      rw [hphase']
      trivial
    | failure _ _ hphase' =>
      rw [hphase']
      trivial
  · refine ⟨hdb ▸ hs.db,hlocal,?_⟩
    rw [hdb]
    exact hok hs.phase hs.local_

theorem startRecording_sound (text : TextEnv) {db : AgentDb} (hdb : db.Sound)
    {r : TaskRecord} (hr : db.tasks.get t = some r) (hlocal : r.assignedAgentId = none)
    (route : Option String) (slice : Except PyException RunResult) :
    Recording.Sound t ⟨db,.start (sliceOutcome text route slice)⟩ := by
  refine ⟨hdb,fun r' hr' => ?_,?_⟩
  · cases hr.symm.trans hr'
    exact ⟨hlocal,trivial⟩
  · cases slice with
    | ok result => exact localProcessStatus_ne_running text result
    | error error => trivial

end Invariants
end VermayAgent
