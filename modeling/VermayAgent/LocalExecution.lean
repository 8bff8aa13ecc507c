import VermayAgent.RowCoupling
import VermayAgent.Library.Lease
import VermayAgent.Library.Transition

/-! One process: its store, its adapter, its clients and its workers.
A step is one store transaction or one guard-protected operation of the adapter or of the
execution-context registry; the steps of clients and workers interleave in any order. The
submitter runs what it accepted. The runner's lock on a thread is left out: a task has one run
at a time, and a thread one task, so nothing ever waits for it. -/
namespace VermayAgent
open Library Txn MainAgentStore

abbrev ClientId := Nat
abbrev RunId := Nat

/-- `_ActiveExecution`. -/
structure ActiveExecution where
  users : Nat
  requested : Bool
deriving DecidableEq

/-- Who wakes a task: the command that queued it, or startup reconciliation. -/
inductive WakeOrigin where
  | command | recovery
deriving DecidableEq

/-- What a client still has to do for the command it committed. -/
inductive ClientPhase where
  | idle
  | toWake (taskId : TaskId) (origin : WakeOrigin)
  | submitting (taskId : TaskId) (origin : WakeOrigin)
  | forgetting (taskId : TaskId) (origin : WakeOrigin) (error : PyException)
  | recordingFailure (taskId : TaskId) (origin : WakeOrigin) (error : PyException)
  | toSignal (taskId : TaskId) (thread : ThreadId)
deriving DecidableEq

/-- `LocalExecutionOutcome`, or nothing when there was no command to claim. -/
inductive SliceOutcome where
  | skipped
  | succeeded (result : LocalTaskRunResult) (routeDecisionId : Option String)
  | failed (error : PyException)

/-- Where a scheduled run is in `_run_scheduled`. -/
inductive RunPhase where
  | absent
  | accepted (taskId : TaskId)
  | entered (taskId : TaskId)
  | claimed (taskId : TaskId) (thread : ThreadId) (routeDecisionId : Option String)
  | running (taskId : TaskId) (thread : ThreadId) (routeDecisionId : Option String)
  | sliced (taskId : TaskId) (outcome : SliceOutcome)
  | recording (taskId : TaskId) (result : LocalTaskRunResult) (routeDecisionId : Option String)
  | deciding (taskId : TaskId) (result : LocalTaskRunResult) (routeDecisionId : Option String)
      (seen : TaskRecord)
  | failing (taskId : TaskId) (error : PyException)
  | finishing (taskId : TaskId)

/-- A boundary check of a slice; one that observes no request starts the next piece of work. -/
structure BoundaryCheck where
  run : RunId
  taskId : TaskId
  afterCancel : Bool
  observed : Bool
deriving DecidableEq

structure Process where
  db : AgentDb
  activeTaskIds : Finset TaskId
  scheduledTaskIds : Finset TaskId
  registry : ThreadId → Option ActiveExecution
  clients : ClientId → ClientPhase
  runs : RunId → RunPhase
  /-- The tasks for which a cancel command that signals has returned. -/
  canceled : Finset TaskId
  checks : List BoundaryCheck

namespace ClientPhase

/-- The task that the client put into the scheduled set and whose run it has not handed over. -/
def holds : ClientPhase → Option TaskId
  | submitting t _ | forgetting t _ _ => some t
  | _ => none

/-- The task whose start is still the client's to do. -/
def waking : ClientPhase → Option TaskId
  | toWake t _ | submitting t _ | forgetting t _ _ | recordingFailure t _ _ => some t
  | _ => none

end ClientPhase

namespace RunPhase

def task : RunPhase → Option TaskId
  | absent => none
  | accepted t | entered t | claimed t _ _ | running t _ _ | sliced t _ | recording t _ _
  | deciding t _ _ _ | failing t _ | finishing t => some t

/-- Not at its claim attempt yet. -/
def unclaimed : RunPhase → Bool
  | accepted _ | entered _ => true
  | _ => false

/-- Inside `_ActiveLocalExecution`. -/
def activeTask : RunPhase → Option TaskId
  | entered t | claimed t _ _ | running t _ _ | sliced t _ => some t
  | _ => none

end RunPhase

namespace Process

def setClient (s : Process) (c : ClientId) (phase : ClientPhase) : Process :=
  {s with clients := Function.update s.clients c phase}

def setRun (s : Process) (r : RunId) (phase : RunPhase) : Process :=
  {s with runs := Function.update s.runs r phase}

def isActive (s : Process) (taskId : TaskId) : Bool := taskId ∈ s.activeTaskIds

/-- `ExecutionContextRegistry.activate`, on entry. -/
def activate (s : Process) (thread : ThreadId) : Process :=
  let active := (s.registry thread).getD ⟨0,false⟩
  {s with registry := Function.update s.registry thread (some ⟨active.users+1,active.requested⟩)}

/-- `ExecutionContextRegistry.activate`, on exit. -/
def deactivate (s : Process) (thread : ThreadId) : Process :=
  {s with registry := Function.update s.registry thread ((s.registry thread).bind fun active =>
    if active.users ≤ 1 then none else some ⟨active.users-1,active.requested⟩)}

/-- `ExecutionContextRegistry.request_cancellation`: a thread without control is passed over. -/
def requestCancellation (s : Process) (thread : ThreadId) : Process :=
  {s with registry := Function.update s.registry thread ((s.registry thread).map fun active =>
    if active.users = 0 then active else ⟨active.users,true⟩)}

def cancellationRequested (s : Process) (thread : ThreadId) : Bool :=
  (s.registry thread).any (·.requested)

end Process

inductive ProcessStep where
  | command (c : ClientId) (txn : CoreTxn)
  | wake (c : ClientId)
  | submit (c : ClientId) (r : RunId)
  | submitFails (c : ClientId) (error : PyException)
  | forgetScheduled (c : ClientId)
  | recordStartFailure (c : ClientId)
  | signal (c : ClientId)
  | enter (r : RunId)
  | claim (r : RunId)
  | activate (r : RunId)
  | check (r : RunId)
  | ledger (r : RunId) (op : LedgerOp)
  | dispatchFails (r : RunId) (error : PyException)
  | finishSlice (r : RunId) (answer : Except PyException LocalTaskRunResult)
  | leave (r : RunId)
  | readTask (r : RunId)
  | record (r : RunId) (newMessageId : MessageId)
  | recordFailure (r : RunId)
  | forget (r : RunId)

namespace ProcessStep

variable (core : CoreEnv) (env : LedgerEnv)

/-- The transactions that only the worker of a run commits. -/
def workerOnly : CoreTxn → Bool
  | .claimLocalExecution _ | .recordLocalTaskResult _ _ _ _ _ | .ledger _ => true
  | _ => false

/-- A cancellation asks the adapter whether the task is active while it holds the store. -/
def asksAdapter (s : Process) : CoreTxn → Bool
  | .cancelTask taskId _ active => active == s.isActive taskId
  | _ => true

/-- What follows the commit of a client's transaction. -/
def afterCommit : Option PostCommitAction → ClientPhase
  | none => .idle
  | some (.startLocalExecution taskId) => .toWake taskId .command
  | some (.signalLocalCancellation taskId thread) => .toSignal taskId thread

/-- The transaction that records a submission that raised. -/
def startFailure (taskId : TaskId) (error : PyException) : WakeOrigin → CoreTxn
  | .command => .recordLocalTaskFailure taskId error
  | .recovery => .recordRuntimeRecoveryFailure taskId "runtime_recovery_submission_failed"
      "Unable to submit the queued local task for recovery."

def outcomeMetadata (routeDecisionId : Option String) : Json :=
  .ofOptions [("routeDecisionId",routeDecisionId.map .str)]

/-- The phase after a claim attempt, by its answer. -/
def afterClaim (taskId : TaskId) :
    Except PyException (Option MainAgentCore.ClaimedLocalExecution × AgentDb) → RunPhase
  | .ok (some claimed,_) => .claimed taskId claimed.task.runtimeThreadId claimed.routeDecisionId
  | .ok (none,_) => .sliced taskId .skipped
  | .error error => .sliced taskId (.failed error)

/-- What `_run_once` makes of the runner's answer. -/
def outcomeOf (routeDecisionId : Option String) : Except PyException LocalTaskRunResult → SliceOutcome
  | .ok result => .succeeded result routeDecisionId
  | .error error => .failed error

/-- The phase after the outcome of a slice has left the active set. -/
def afterLeave (taskId : TaskId) : SliceOutcome → RunPhase
  | .skipped => .finishing taskId
  | .succeeded result route => .recording taskId result route
  | .failed error => .failing taskId error

/-- A result that cannot be recorded is recorded as a failure. -/
def afterRecord (taskId : TaskId) : Except PyException (Option PostCommitAction × AgentDb) → RunPhase
  | .ok _ => .finishing taskId
  | .error error => .failing taskId error

/-- One step; a step that the phase of its client or run does not offer is not enabled. -/
def step (a : ProcessStep) (s : Process) : Option Process :=
  match a with
  | command c txn =>
    if s.clients c = .idle ∧ workerOnly txn = false ∧ asksAdapter s txn = true then
      match (txn.txn core env).run s.db with
      | .ok (action,db) => some ({s with db}.setClient c (afterCommit action))
      | .error _ => some s
    else none
  | wake c =>
    match s.clients c with
    | .toWake t origin =>
      if t ∈ s.activeTaskIds ∨ t ∈ s.scheduledTaskIds then some (s.setClient c .idle)
      else some ({s with scheduledTaskIds := insert t s.scheduledTaskIds}.setClient c
        (.submitting t origin))
    | _ => none
  | submit c r =>
    match s.clients c,s.runs r with
    | .submitting t _,.absent => some ((s.setClient c .idle).setRun r (.accepted t))
    | _,_ => none
  | submitFails c error =>
    match s.clients c with
    | .submitting t origin => some (s.setClient c (.forgetting t origin error))
    | _ => none
  | forgetScheduled c =>
    match s.clients c with
    | .forgetting t origin error =>
      some ({s with scheduledTaskIds := s.scheduledTaskIds.erase t}.setClient c
        (.recordingFailure t origin error))
    | _ => none
  | recordStartFailure c =>
    match s.clients c with
    | .recordingFailure t origin error =>
      some ({s with db := (startFailure t error origin).commit core env s.db}.setClient c .idle)
    | _ => none
  | signal c =>
    match s.clients c with
    | .toSignal t thread =>
      some ({s.requestCancellation thread with canceled := insert t s.canceled}.setClient c .idle)
    | _ => none
  | enter r =>
    match s.runs r with
    | .accepted t =>
      some ({s with activeTaskIds := insert t s.activeTaskIds}.setRun r (.entered t))
    | _ => none
  | claim r =>
    match s.runs r with
    | .entered t =>
      some ({s with db := (MainAgentCore.claimLocalExecution t).commit s.db}.setRun r
        (afterClaim t ((MainAgentCore.claimLocalExecution t).run s.db)))
    | _ => none
  | activate r =>
    match s.runs r with
    | .claimed t thread route =>
      if thread = "" then none
      else some ((s.activate thread).setRun r (.running t thread route))
    | _ => none
  | check r =>
    match s.runs r with
    | .running t thread _ => some {s with
        checks := s.checks++[⟨r,t,decide (t ∈ s.canceled),s.cancellationRequested thread⟩]}
    | _ => none
  | ledger r op =>
    match s.runs r with
    | .running _ _ _ => some {s with db := (CoreTxn.ledger op).commit core env s.db}
    | _ => none
  | dispatchFails r error =>
    match s.runs r with
    | .claimed t _ _ => some (s.setRun r (.sliced t (.failed error)))
    | _ => none
  | finishSlice r answer =>
    match s.runs r with
    | .running t thread route =>
      some ((s.deactivate thread).setRun r (.sliced t (outcomeOf route answer)))
    | _ => none
  | leave r =>
    match s.runs r with
    | .sliced t outcome =>
      some ({s with activeTaskIds := s.activeTaskIds.erase t}.setRun r (afterLeave t outcome))
    | _ => none
  | readTask r =>
    match s.runs r with
    | .recording t result route =>
      some (s.setRun r (match s.db.tasks.get t with
        | some seen => .deciding t result route seen
        | none => .failing t (.valueError ("unknown task: " ++ t))))
    | _ => none
  | record r newMessageId =>
    match s.runs r with
    | .deciding t result route seen =>
      let txn := CoreTxn.recordLocalTaskResult t result (outcomeMetadata route) newMessageId seen
      some ({s with db := txn.commit core env s.db}.setRun r
        (afterRecord t ((txn.txn core env).run s.db)))
    | _ => none
  | recordFailure r =>
    match s.runs r with
    | .failing t error =>
      some ({s with db := (CoreTxn.recordLocalTaskFailure t error).commit core env s.db}.setRun r
        (.finishing t))
    | _ => none
  | forget r =>
    match s.runs r with
    | .finishing t =>
      some ({s with scheduledTaskIds := s.scheduledTaskIds.erase t}.setRun r .absent)
    | _ => none

/-- What an enabled step found and did. -/
inductive Took (s : Process) : ProcessStep → Process → Prop
  | command {c txn action db} (hidle : s.clients c = .idle) (hclient : workerOnly txn = false)
      (hasks : asksAdapter s txn = true) (hrun : (txn.txn core env).run s.db = .ok (action,db)) :
      Took s (.command c txn) ({s with db}.setClient c (afterCommit action))
  | commandFails {c txn} : Took s (.command c txn) s
  | wakeSwallowed {c t origin} (hc : s.clients c = .toWake t origin)
      (hmem : t ∈ s.activeTaskIds ∨ t ∈ s.scheduledTaskIds) :
      Took s (.wake c) (s.setClient c .idle)
  | wake {c t origin} (hc : s.clients c = .toWake t origin) (hmem : t ∉ s.scheduledTaskIds) :
      Took s (.wake c) ({s with scheduledTaskIds := insert t s.scheduledTaskIds}.setClient c
        (.submitting t origin))
  | submit {c r t origin} (hc : s.clients c = .submitting t origin) (hr : s.runs r = .absent) :
      Took s (.submit c r) ((s.setClient c .idle).setRun r (.accepted t))
  | submitFails {c t origin error} (hc : s.clients c = .submitting t origin) :
      Took s (.submitFails c error) (s.setClient c (.forgetting t origin error))
  | forgetScheduled {c t origin error} (hc : s.clients c = .forgetting t origin error) :
      Took s (.forgetScheduled c)
        ({s with scheduledTaskIds := s.scheduledTaskIds.erase t}.setClient c
          (.recordingFailure t origin error))
  | recordStartFailure {c t origin error} (hc : s.clients c = .recordingFailure t origin error) :
      Took s (.recordStartFailure c)
        ({s with db := (startFailure t error origin).commit core env s.db}.setClient c .idle)
  | signal {c t thread} (hc : s.clients c = .toSignal t thread) :
      Took s (.signal c)
        ({s.requestCancellation thread with canceled := insert t s.canceled}.setClient c .idle)
  | enter {r t} (hr : s.runs r = .accepted t) :
      Took s (.enter r) ({s with activeTaskIds := insert t s.activeTaskIds}.setRun r (.entered t))
  | claim {r t} (hr : s.runs r = .entered t) :
      Took s (.claim r) ({s with db := (MainAgentCore.claimLocalExecution t).commit s.db}.setRun r
        (afterClaim t ((MainAgentCore.claimLocalExecution t).run s.db)))
  | activate {r t thread route} (hr : s.runs r = .claimed t thread route) :
      Took s (.activate r) ((s.activate thread).setRun r (.running t thread route))
  | check {r t thread route} (hr : s.runs r = .running t thread route) :
      Took s (.check r) {s with
        checks := s.checks++[⟨r,t,decide (t ∈ s.canceled),s.cancellationRequested thread⟩]}
  | ledger {r t thread route op} (hr : s.runs r = .running t thread route) :
      Took s (.ledger r op) {s with db := (CoreTxn.ledger op).commit core env s.db}
  | dispatchFails {r t thread route error} (hr : s.runs r = .claimed t thread route) :
      Took s (.dispatchFails r error) (s.setRun r (.sliced t (.failed error)))
  | finishSlice {r t thread route answer} (hr : s.runs r = .running t thread route) :
      Took s (.finishSlice r answer)
        ((s.deactivate thread).setRun r (.sliced t (outcomeOf route answer)))
  | leave {r t outcome} (hr : s.runs r = .sliced t outcome) :
      Took s (.leave r)
        ({s with activeTaskIds := s.activeTaskIds.erase t}.setRun r (afterLeave t outcome))
  | readTask {r t result route phase} (hr : s.runs r = .recording t result route)
      (hphase : (∃ seen, phase = .deciding t result route seen) ∨ ∃ error, phase = .failing t error) :
      Took s (.readTask r) (s.setRun r phase)
  | record {r t result route seen newMessageId} (hr : s.runs r = .deciding t result route seen) :
      Took s (.record r newMessageId)
        ({s with db := (CoreTxn.recordLocalTaskResult t result (outcomeMetadata route) newMessageId
          seen).commit core env s.db}.setRun r (afterRecord t (((CoreTxn.recordLocalTaskResult t
            result (outcomeMetadata route) newMessageId seen).txn core env).run s.db)))
  | recordFailure {r t error} (hr : s.runs r = .failing t error) :
      Took s (.recordFailure r)
        ({s with db := (CoreTxn.recordLocalTaskFailure t error).commit core env s.db}.setRun r
          (.finishing t))
  | forget {r t} (hr : s.runs r = .finishing t) :
      Took s (.forget r) ({s with scheduledTaskIds := s.scheduledTaskIds.erase t}.setRun r .absent)

theorem step_took {a : ProcessStep} {s s' : Process} (h : step core env a s = some s') :
    Took core env s a s' := by
  cases a with
  | command c txn =>
    simp only [step] at h
    split at h
    · rename_i hen
      split at h <;> cases h
      · exact .command hen.1 hen.2.1 hen.2.2 ‹_›
      · exact .commandFails
    · cases h
  | wake c =>
    simp only [step] at h
    split at h
    · split at h <;> cases h
      · exact .wakeSwallowed ‹_› ‹_›
      · rename_i hmem
        exact .wake ‹_› fun hs => hmem (.inr hs)
    · cases h
  | submit c r =>
    simp only [step] at h
    split at h <;> cases h
    exact .submit ‹_› ‹_›
  | submitFails c error =>
    simp only [step] at h
    split at h <;> cases h
    exact .submitFails ‹_›
  | forgetScheduled c =>
    simp only [step] at h
    split at h <;> cases h
    exact .forgetScheduled ‹_›
  | recordStartFailure c =>
    simp only [step] at h
    split at h <;> cases h
    exact .recordStartFailure ‹_›
  | signal c =>
    simp only [step] at h
    split at h <;> cases h
    exact .signal ‹_›
  | enter r =>
    simp only [step] at h
    split at h <;> cases h
    exact .enter ‹_›
  | claim r =>
    simp only [step] at h
    split at h <;> cases h
    exact .claim ‹_›
  | activate r =>
    simp only [step] at h
    split at h
    · split at h <;> cases h
      exact .activate ‹_›
    · cases h
  | check r =>
    simp only [step] at h
    split at h <;> cases h
    exact .check ‹_›
  | ledger r op =>
    simp only [step] at h
    split at h <;> cases h
    exact .ledger ‹_›
  | dispatchFails r error =>
    simp only [step] at h
    split at h <;> cases h
    exact .dispatchFails ‹_›
  | finishSlice r answer =>
    simp only [step] at h
    split at h <;> cases h
    exact .finishSlice ‹_›
  | leave r =>
    simp only [step] at h
    split at h <;> cases h
    exact .leave ‹_›
  | readTask r =>
    simp only [step] at h
    split at h <;> cases h
    refine .readTask ‹_› ?_
    split
    · exact .inl ⟨_,rfl⟩
    · exact .inr ⟨_,rfl⟩
  | record r newMessageId =>
    simp only [step] at h
    split at h <;> cases h
    exact .record ‹_›
  | recordFailure r =>
    simp only [step] at h
    split at h <;> cases h
    exact .recordFailure ‹_›
  | forget r =>
    simp only [step] at h
    split at h <;> cases h
    exact .forget ‹_›

end ProcessStep

/-- Who holds a scheduled task: the client that submits it or the run that it handed it to. -/
def Process.owner (s : Process) : ClientId ⊕ RunId → Option TaskId :=
  Sum.elim (fun c => (s.clients c).holds) fun r => (s.runs r).task

def Process.activeRun (s : Process) (r : RunId) : Option TaskId := (s.runs r).activeTask

theorem ClientPhase.waking_of_holds {phase : ClientPhase} {t : TaskId}
    (h : phase.holds = some t) : phase.waking = some t := by
  cases phase <;> first | exact h | cases h

theorem RunPhase.task_of_activeTask {phase : RunPhase} {t : TaskId}
    (h : phase.activeTask = some t) : phase.task = some t := by
  cases phase <;> first | exact h | cases h

/-- What holds in every reachable state of a process. -/
structure Process.Ok (s : Process) : Prop where
  coupled : Coupled s.db.rows
  scheduled : Exclusive s.scheduledTaskIds s.owner
  active : Exclusive s.activeTaskIds s.activeRun

namespace Process

variable {s : Process}

@[simp] theorem owner_setClient (c : ClientId) (phase : ClientPhase) :
    (s.setClient c phase).owner = Function.update s.owner (.inl c) phase.holds := by
  funext o
  rcases o with d | r
  · by_cases hd : d = c
    · subst hd
      simp [owner,setClient]
    · simp [owner,setClient,hd]
  · simp [owner,setClient]

@[simp] theorem owner_setRun (r : RunId) (phase : RunPhase) :
    (s.setRun r phase).owner = Function.update s.owner (.inr r) phase.task := by
  funext o
  rcases o with c | q
  · simp [owner,setRun]
  · by_cases hq : q = r
    · subst hq
      simp [owner,setRun]
    · simp [owner,setRun,hq]

@[simp] theorem activeRun_setClient (c : ClientId) (phase : ClientPhase) :
    (s.setClient c phase).activeRun = s.activeRun := rfl

@[simp] theorem activeRun_setRun (r : RunId) (phase : RunPhase) :
    (s.setRun r phase).activeRun = Function.update s.activeRun r phase.activeTask := by
  funext q
  by_cases hq : q = r
  · subst hq
    simp [activeRun,setRun]
  · simp [activeRun,setRun,hq]

theorem activeRun_of {r : RunId} {phase : RunPhase} (hr : s.runs r = phase) :
    s.activeRun r = phase.activeTask := congrArg RunPhase.activeTask hr

theorem owner_of_run {r : RunId} {phase : RunPhase} (hr : s.runs r = phase) :
    s.owner (.inr r) = phase.task := congrArg RunPhase.task hr

theorem owner_of_client {c : ClientId} {phase : ClientPhase} (hc : s.clients c = phase) :
    s.owner (.inl c) = phase.holds := congrArg ClientPhase.holds hc

/-- A task has one run at a time. -/
theorem Ok.run_unique (h : s.Ok) {r q : RunId} {t : TaskId} (hr : (s.runs r).task = some t)
    (hq : (s.runs q).task = some t) : r = q :=
  Sum.inr.inj (h.scheduled.unique (.inr r) (.inr q) t hr hq)

/-- A client's change of phase that holds the same task. -/
theorem Ok.setClient (h : s.Ok) {c : ClientId} {old phase : ClientPhase} (hc : s.clients c = old)
    (hsame : old.holds = phase.holds) : (s.setClient c phase).Ok :=
  ⟨h.coupled,by rw [owner_setClient]; exact h.scheduled.keep ((owner_of_client hc).trans hsame),
    h.active⟩

/-- A run's change of phase on the same task, inside or outside of the active set. -/
theorem Ok.setRun (h : s.Ok) {r : RunId} {old phase : RunPhase} (hr : s.runs r = old)
    (hsame : old.task = phase.task) (hactive : old.activeTask = phase.activeTask) :
    (s.setRun r phase).Ok :=
  ⟨h.coupled,by rw [owner_setRun]; exact h.scheduled.keep ((owner_of_run hr).trans hsame),
    by rw [activeRun_setRun]; exact h.active.keep ((activeRun_of hr).trans hactive)⟩

theorem Ok.setDb (h : s.Ok) {db : AgentDb} (hdb : Coupled db.rows) : ({s with db} : Process).Ok :=
  ⟨hdb,h.scheduled,h.active⟩

end Process

namespace ProcessStep

variable {core : CoreEnv} {env : LedgerEnv}

section Frames

variable {a : ProcessStep} {s s' : Process}

def client : ProcessStep → Option ClientId
  | command c _ | wake c | submit c _ | submitFails c _ | forgetScheduled c | recordStartFailure c
  | signal c => some c
  | _ => none

def run : ProcessStep → Option RunId
  | submit _ r | enter r | claim r | activate r | check r | ledger r _ | dispatchFails r _
  | finishSlice r _ | leave r | readTask r | record r _ | recordFailure r | forget r => some r
  | _ => none

/-- Other clients are not moved. -/
theorem step_clients {c : ClientId} (h : step core env a s = some s') (hc : a.client ≠ some c) :
    s'.clients c = s.clients c := by
  have hne : ∀ d, some d ≠ some c → c ≠ d := fun d hd heq => hd (congrArg some heq.symm)
  cases step_took core env h <;>
    first
    | rfl
    | exact Function.update_of_ne (hne _ hc) _ _

/-- Other runs are not moved. -/
theorem step_runs {r : RunId} (h : step core env a s = some s') (hr : a.run ≠ some r) :
    s'.runs r = s.runs r := by
  have hne : ∀ q, some q ≠ some r → r ≠ q := fun q hq heq => hq (congrArg some heq.symm)
  cases step_took core env h <;>
    first
    | rfl
    | exact Function.update_of_ne (hne _ hr) _ _

end Frames

theorem claim_commit (core : CoreEnv) (env : LedgerEnv) (t : TaskId) (db : AgentDb) :
    (MainAgentCore.claimLocalExecution t).commit db =
      (CoreTxn.claimLocalExecution t).commit core env db := (commit_map _ _ _).symm

theorem afterCommit_holds (action : Option PostCommitAction) : (afterCommit action).holds = none := by
  rcases action with _ | ⟨_⟩ | ⟨_⟩ <;> rfl

theorem afterClaim_task (t : TaskId)
    (answer : Except PyException (Option MainAgentCore.ClaimedLocalExecution × AgentDb)) :
    (afterClaim t answer).task = some t ∧ (afterClaim t answer).activeTask = some t := by
  rcases answer with _ | ⟨_ | _,_⟩ <;> exact ⟨rfl,rfl⟩

theorem afterLeave_task (t : TaskId) (outcome : SliceOutcome) :
    (afterLeave t outcome).task = some t ∧ (afterLeave t outcome).activeTask = none := by
  cases outcome <;> exact ⟨rfl,rfl⟩

theorem afterRecord_task (t : TaskId) (answer : Except PyException (Option PostCommitAction × AgentDb)) :
    (afterRecord t answer).task = some t ∧ (afterRecord t answer).activeTask = none := by
  cases answer <;> exact ⟨rfl,rfl⟩

theorem ok_step {a : ProcessStep} {s s' : Process} (h : s.Ok) (hs : step core env a s = some s') :
    s'.Ok := by
  have hcommit : ∀ c : CoreTxn, Coupled (c.commit core env s.db).rows :=
    fun c => CoreTxn.coupled_commit core env c h.coupled
  cases step_took core env hs with
  | @command c txn action db hidle _ _ hrun =>
    have hdb : Coupled db.rows := by
      rw [← commit_ok hrun]
      exact hcommit txn
    exact (h.setDb hdb).setClient hidle (afterCommit_holds action).symm
  | commandFails => exact h
  | wakeSwallowed hc => exact h.setClient hc rfl
  | wake hc hmem =>
    refine ⟨h.coupled,?_,h.active⟩
    rw [Process.owner_setClient]
    exact h.scheduled.acquire hmem (Process.owner_of_client hc)
  | @submit c r t origin hc hr =>
    refine ⟨h.coupled,?_,?_⟩
    · rw [Process.owner_setRun,Process.owner_setClient]
      exact h.scheduled.transfer (Process.owner_of_client hc) (Process.owner_of_run hr)
    · rw [Process.activeRun_setRun]
      exact h.active.keep ((Process.activeRun_of hr).trans rfl)
  | submitFails hc => exact h.setClient hc rfl
  | forgetScheduled hc =>
    refine ⟨h.coupled,?_,h.active⟩
    rw [Process.owner_setClient]
    exact h.scheduled.release (Process.owner_of_client hc)
  | recordStartFailure hc => exact (h.setDb (hcommit _)).setClient hc rfl
  | @signal c t thread hc =>
    have hok : ({s.requestCancellation thread with canceled := insert t s.canceled} : Process).Ok :=
      ⟨h.coupled,h.scheduled,h.active⟩
    exact hok.setClient hc rfl
  | @enter r t hr =>
    refine ⟨h.coupled,?_,?_⟩
    · rw [Process.owner_setRun]
      exact h.scheduled.keep ((Process.owner_of_run hr).trans rfl)
    · rw [Process.activeRun_setRun]
      refine h.active.acquire (fun hmem => ?_) (Process.activeRun_of hr)
      -- another active run of the task would be this one
      obtain ⟨q,hq⟩ := (h.active.mem_iff t).mp hmem
      have heq := h.run_unique (RunPhase.task_of_activeTask hq) (Process.owner_of_run hr)
      rw [heq,Process.activeRun_of hr] at hq
      cases hq
  | @claim r t hr =>
    have hphase := afterClaim_task t ((MainAgentCore.claimLocalExecution t).run s.db)
    have hdb : Coupled ((MainAgentCore.claimLocalExecution t).commit s.db).rows := by
      rw [claim_commit core env]
      exact hcommit _
    exact (h.setDb hdb).setRun hr hphase.1.symm hphase.2.symm
  | @activate r t thread route hr =>
    have hok : (s.activate thread).Ok := ⟨h.coupled,h.scheduled,h.active⟩
    exact hok.setRun hr rfl rfl
  | check => exact ⟨h.coupled,h.scheduled,h.active⟩
  | ledger => exact h.setDb (hcommit _)
  | dispatchFails hr => exact h.setRun hr rfl rfl
  | @finishSlice r t thread route answer hr =>
    have hok : (s.deactivate thread).Ok := ⟨h.coupled,h.scheduled,h.active⟩
    exact hok.setRun hr rfl rfl
  | @leave r t outcome hr =>
    have hphase := afterLeave_task t outcome
    refine ⟨h.coupled,?_,?_⟩
    · rw [Process.owner_setRun,hphase.1]
      exact h.scheduled.keep (Process.owner_of_run hr)
    · rw [Process.activeRun_setRun,hphase.2]
      exact h.active.release (Process.activeRun_of hr)
  | readTask hr hphase =>
    rcases hphase with ⟨seen,rfl⟩ | ⟨error,rfl⟩
    · exact h.setRun hr rfl rfl
    · exact h.setRun hr rfl rfl
  | record hr =>
    exact (h.setDb (hcommit _)).setRun hr (afterRecord_task _ _).1.symm (afterRecord_task _ _).2.symm
  | recordFailure hr => exact (h.setDb (hcommit _)).setRun hr rfl rfl
  | forget hr =>
    refine ⟨h.coupled,?_,?_⟩
    · rw [Process.owner_setRun]
      exact h.scheduled.release (Process.owner_of_run hr)
    · rw [Process.activeRun_setRun]
      exact h.active.keep ((Process.activeRun_of hr).trans rfl)

end ProcessStep

/-- A process that has just started on a stored database, with the wakes of its reconciliation. -/
def Process.start (db : AgentDb) (recovering : ClientId → Option TaskId) : Process where
  db := db
  activeTaskIds := ∅
  scheduledTaskIds := ∅
  registry _ := none
  clients c := (recovering c).elim .idle fun t => .toWake t .recovery
  runs _ := .absent
  canceled := ∅
  checks := []

theorem Process.start_ok {db : AgentDb} (h : Coupled db.rows) (recovering : ClientId → Option TaskId) :
    (Process.start db recovering).Ok := by
  refine ⟨h,.empty fun o => ?_,.empty fun r => rfl⟩
  rcases o with c | r
  · change ((recovering c).elim ClientPhase.idle fun t => .toWake t .recovery).holds = none
    cases recovering c <;> rfl
  · rfl

def sampleStart : Process := Process.start AgentDb.empty fun _ => none

end VermayAgent
