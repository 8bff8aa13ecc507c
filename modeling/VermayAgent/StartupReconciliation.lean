import VermayAgent.TaskFrames
import VermayAgent.RowCoupling

/-! The recovery pass of a starting process over an arbitrary persisted store.
Each failure is a transaction of its own, so the pass carries the database through and leaves
what it has committed behind when it raises. -/
namespace VermayAgent
open Library Txn MainAgentStore TaskOutcomeRecorder

/-- What the interpreter's recursion limit lets `json.loads` read and a payload's freezing walk. -/
structure RecursionLimit where
  loads : Json → Bool
  freezes : QueuedTaskExecutionPayload → Bool

/-- `_queued_task_execution_from_row` under the limit; the payload is frozen last. -/
def QueuedExecutionRow.read (limit : RecursionLimit) (row : QueuedExecutionRow) :
    Except PyException QueuedTaskExecutionRecord :=
  if limit.loads row.payload = false then .error recursionError
  else
    match row.decode with
    | .error error => .error error
    | .ok command =>
      if limit.freezes command.payload = true then .ok command else .error recursionError

/-- The local worker as the pass sees it: whether it can recover, and its answer to each wake. -/
structure LocalWorker where
  supportsStartupRecovery : Bool
  wake : TaskId → Except PyException Bool

/-- What the pass does with a queued task. -/
inductive Recovery where
  | scheduled
  | retained
  | failed (errorCode errorMessage : String)
deriving DecidableEq

def Recovery.isFailed : Recovery → Bool
  | failed _ _ => true
  | _ => false

/-- The decision about one queued task with this stored row; only the caught exceptions of its
reading and every exception of its submission fail the task. -/
def recoveryOf (limit : RecursionLimit) (worker : Option LocalWorker) (task : TaskRecord)
    (stored : Option QueuedExecutionRow) : Except PyException Recovery :=
  match stored with
  | none => .ok (.failed "runtime_recovery_command_missing"
      "Queued local task has no recoverable execution command.")
  | some row =>
    match row.read limit with
    | .error (.typeError _) | .error (.valueError _) =>
      .ok (.failed "runtime_recovery_invalid_command"
        "Queued local task has an invalid persisted execution command.")
    | .error error => .error error
    | .ok command =>
      if command.runtimeThreadId ≠ task.runtimeThreadId then
        .ok (.failed "runtime_recovery_thread_mismatch"
          "Queued local task execution does not match its runtime thread.")
      else
        match worker.filter (·.supportsStartupRecovery) with
        | none => .ok (.failed "runtime_recovery_unavailable"
            "No local worker is available to recover the queued task.")
        | some worker =>
          match worker.wake task.taskId with
          | .ok true => .ok .scheduled
          | .ok false => .ok .retained
          | .error _ => .ok (.failed "runtime_recovery_submission_failed"
              "Unable to submit the queued local task for recovery.")

structure StartupReconciliationOutcome where
  scheduledTaskIds : List TaskId
  failedTaskIds : List TaskId
  retainedTaskIds : List TaskId
  failedMessageIds : List MessageId
deriving DecidableEq

namespace StartupReconciliationOutcome

def failTask (t : TaskId) (o : StartupReconciliationOutcome) : StartupReconciliationOutcome :=
  {o with failedTaskIds := o.failedTaskIds++[t]}

def add (t : TaskId) (o : StartupReconciliationOutcome) : Recovery → StartupReconciliationOutcome
  | .scheduled => {o with scheduledTaskIds := o.scheduledTaskIds++[t]}
  | .retained => {o with retainedTaskIds := o.retainedTaskIds++[t]}
  | .failed _ _ => o.failTask t

/-- How often the three lists name the task. -/
def mentions (o : StartupReconciliationOutcome) (t : TaskId) : Nat :=
  (o.scheduledTaskIds++o.failedTaskIds++o.retainedTaskIds).count t

end StartupReconciliationOutcome

/-- The pass up to some point: what it raised or has collected, and the database it left. -/
abbrev PassResult := Except PyException StartupReconciliationOutcome × AgentDb

def recordRecoveryFailure (t : TaskId) (errorCode errorMessage : String)
    (o : StartupReconciliationOutcome) (db : AgentDb) : PassResult :=
  match (recordRuntimeRecoveryFailure t errorCode errorMessage).run db with
  | .ok (_,db') => (.ok (o.failTask t),db')
  | .error error => (.error error,db)

def failInterruptedTask (task : TaskRecord) (o : StartupReconciliationOutcome) (db : AgentDb) :
    PassResult :=
  recordRecoveryFailure task.taskId "runtime_restart_interrupted"
    "Local task execution was interrupted by a runtime restart." o db

def recoverQueuedTask (limit : RecursionLimit) (worker : Option LocalWorker) (task : TaskRecord)
    (o : StartupReconciliationOutcome) (db : AgentDb) : PassResult :=
  match recoveryOf limit worker task (db.queuedExecutions.get task.taskId) with
  | .error error => (.error error,db)
  | .ok (.failed errorCode errorMessage) =>
    recordRecoveryFailure task.taskId errorCode errorMessage o db
  | .ok recovery => (.ok (o.add task.taskId recovery),db)

/-- The loop over the listed tasks, left at the first exception. -/
def forEachTask (f : TaskRecord → StartupReconciliationOutcome → AgentDb → PassResult) :
    List TaskRecord → StartupReconciliationOutcome → AgentDb → PassResult
  | [],o,db => (.ok o,db)
  | task::tasks,o,db =>
    match f task o db with
    | (.ok o',db') => forEachTask f tasks o' db'
    | (.error error,db') => (.error error,db')

/-- `MessageIngressStaleError` as the failed rows keep it. -/
def staleMessageError : IngressError :=
  ⟨"message_ingress_stale","The previous message did not finish. Send a new message to retry.",503,
    true⟩

def localTasksIn (db : AgentDb) (statuses : List TaskStatus) : List TaskRecord :=
  db.tasks.rows.filter fun r => r.assignedAgentId = none ∧ r.status ∈ statuses

/-- `_reconcile_startup`. -/
def reconcileStartup (limit : RecursionLimit) (worker : Option LocalWorker) (db : AgentDb) :
    PassResult :=
  match (failInProgressMessageIngresses staleMessageError).run db with
  | .error error => (.error error,db)
  | .ok (failedMessageIds,db₁) =>
    match forEachTask failInterruptedTask (localTasksIn db₁ [.running,.cancelRequested])
      ⟨[],[],[],failedMessageIds⟩ db₁ with
    | (.error error,db₂) => (.error error,db₂)
    | (.ok o,db₂) =>
      forEachTask (recoverQueuedTask limit worker) (localTasksIn db₂ [.queued]) o db₂

section Reading

variable {limit : RecursionLimit} {worker : Option LocalWorker} {task : TaskRecord}
variable {row : QueuedExecutionRow} {stored : Option QueuedExecutionRow}

/-- Loading the stored text and freezing what it decodes to stay within the limit. -/
def QueuedExecutionRow.Fits (limit : RecursionLimit) (row : QueuedExecutionRow) : Prop :=
  limit.loads row.payload = true ∧
    ∀ command, row.decode = .ok command → limit.freezes command.payload = true

def LocalWorker.Accepts (worker : Option LocalWorker) (t : TaskId) : Prop :=
  ∃ w, worker = some w ∧ w.supportsStartupRecovery = true ∧ ∃ answer, w.wake t = .ok answer

/-- The command is missing, undecodable or for another thread, or no worker accepts it. -/
def Unrecoverable (worker : Option LocalWorker) (task : TaskRecord)
    (stored : Option QueuedExecutionRow) : Prop :=
  stored = none ∨ ∃ row, stored = some row ∧ ((∃ error, row.decode = .error error) ∨
    row.runtimeThreadId ≠ task.runtimeThreadId ∨ ¬ LocalWorker.Accepts worker task.taskId)

theorem fromDict_valueError {kind : QueuedTaskExecutionKind} {version : Int} {payload : Json}
    {error : PyException}
    (h : QueuedTaskExecutionPayload.fromDict kind version payload = .error error) :
    ∃ message, error = .valueError message := by
  unfold QueuedTaskExecutionPayload.fromDict at h
  grind

/-- Whatever a stored row holds, decoding it raises no exception but a `ValueError`. -/
theorem decode_valueError {error : PyException} (h : row.decode = .error error) :
    ∃ message, error = .valueError message := by
  unfold QueuedExecutionRow.decode at h
  split at h
  · cases h
    exact ⟨_,rfl⟩
  · split at h
    · cases h
      exact ⟨_,rfl⟩
    · rename_i kind _
      cases hp : QueuedTaskExecutionPayload.fromDict kind row.commandVersion row.payloadObject with
      | error e =>
        rw [hp] at h
        cases h
        exact fromDict_valueError hp
      | ok payload =>
        rw [hp] at h
        cases h

theorem read_of_fits (h : row.Fits limit) : row.read limit = row.decode := by
  unfold QueuedExecutionRow.read
  rw [if_neg (by simp [h.1])]
  cases hd : row.decode with
  | error error => rfl
  | ok command => simp [h.2 command hd]

theorem read_of_not_fits (h : ¬ row.Fits limit) : row.read limit = .error recursionError := by
  unfold QueuedExecutionRow.read
  by_cases hloads : limit.loads row.payload = true
  · rw [if_neg (by simp [hloads])]
    cases hd : row.decode with
    | error error => exact absurd ⟨hloads,fun _ hc => by rw [hd] at hc; cases hc⟩ h
    | ok command =>
      have hfreezes : limit.freezes command.payload ≠ true := by
        intro hfreezes
        refine h ⟨hloads,fun _ hc => ?_⟩
        cases hd.symm.trans hc
        exact hfreezes
      simp [hfreezes]
  · rw [if_pos (by simpa using hloads)]

theorem recoveryOf_not_fits (h : ¬ row.Fits limit) :
    recoveryOf limit worker task (some row) = .error recursionError := by
  simp only [recoveryOf,read_of_not_fits h,recursionError]

/-- A command that can be read is classified, and failed exactly when it cannot be recovered. -/
theorem recoveryOf_fits (worker : Option LocalWorker) (task : TaskRecord)
    (h : ∀ row, stored = some row → row.Fits limit) :
    ∃ recovery, recoveryOf limit worker task stored = .ok recovery ∧
      (recovery.isFailed = true ↔ Unrecoverable worker task stored) := by
  cases stored with
  | none => exact ⟨_,rfl,by simp [Recovery.isFailed,Unrecoverable]⟩
  | some row =>
    simp only [recoveryOf,read_of_fits (h row rfl),Unrecoverable,Option.some.injEq]
    cases hd : row.decode with
    | error error =>
      obtain ⟨message,rfl⟩ := decode_valueError hd
      exact ⟨_,rfl,by simp [Recovery.isFailed,hd]⟩
    | ok command =>
      have hthread := (QueuedExecutionRow.decode_columns hd).2.1
      simp only [hthread]
      by_cases hsame : row.runtimeThreadId = task.runtimeThreadId
      · simp only [hsame,ne_eq,not_true,if_false]
        cases worker with
        | none => exact ⟨_,rfl,by simp [Recovery.isFailed,LocalWorker.Accepts]⟩
        | some w =>
          cases hs : w.supportsStartupRecovery with
          | false =>
            simp only [Option.filter,hs,Bool.false_eq_true,if_false]
            exact ⟨_,rfl,by simp [Recovery.isFailed,LocalWorker.Accepts,hs]⟩
          | true =>
            simp only [Option.filter,hs,if_true]
            cases hw : w.wake task.taskId with
            | error error => exact ⟨_,rfl,by simp [Recovery.isFailed,LocalWorker.Accepts,hw]⟩
            | ok answer =>
              cases answer <;>
                exact ⟨_,rfl,by simp [Recovery.isFailed,LocalWorker.Accepts,hs,hw,hd,hsame]⟩
      · simp only [ne_eq,hsame,not_false_eq_true,if_true]
        exact ⟨_,rfl,by simp [Recovery.isFailed,hsame]⟩

end Reading

section Steps

variable {t : TaskId} {db db' : AgentDb} {r : TaskRecord}

/-- The task record and the rows that hang on it. -/
structure TaskFacts where
  task : Option TaskRecord
  queued : Option QueuedExecutionRow
  pending : Option PendingContinuationRecord

def AgentDb.factsOf (db : AgentDb) (t : TaskId) : TaskFacts :=
  ⟨db.tasks.get t,db.queuedExecutions.get t,db.pendingContinuations.get t⟩

/-- A step of the pass on one task: the facts of the others and the ingress rows stay. -/
structure OnlyTouches (t : TaskId) (db db' : AgentDb) : Prop where
  others : ∀ t', t' ≠ t → db'.factsOf t' = db.factsOf t'
  ingress : db'.messageIngress = db.messageIngress

theorem OnlyTouches.refl (t : TaskId) (db : AgentDb) : OnlyTouches t db db := ⟨fun _ _ => rfl,rfl⟩

theorem update_get_of_ne {f : TaskRecord → TaskRecord} {hf : ∀ r, (f r).taskId = r.taskId}
    {t' : TaskId} (ht : t' ≠ t) :
    (db.tasks.update (fun r => r.taskId = t) f hf).get t' = db.tasks.get t' := by
  rw [Table.get_update]
  cases hr : db.tasks.get t' with
  | none => rfl
  | some r =>
    have hid : r.taskId = t' := Table.key_of_get hr
    simp [hid,ht]

theorem delete_get_of_ne {ν : Type} {key : ν → TaskId} {table : Table key} {t' : TaskId}
    (ht : t' ≠ t) : (table.delete fun r => key r = t).get t' = table.get t' := by
  rw [Table.get_delete]
  cases hr : table.get t' with
  | none => rfl
  | some r =>
    have hid : key r = t' := Table.key_of_get hr
    simp [Option.filter,hid,ht]

theorem recordRuntimeRecoveryFailure_touches {errorCode errorMessage : String} {task : TaskRecord}
    (h : (recordRuntimeRecoveryFailure t errorCode errorMessage).run db = .ok (task,db')) :
    OnlyTouches t db db' := by
  have hingress : IgnoresProgress AgentDb.messageIngress := by constructor <;> intros <;> rfl
  refine ⟨fun t' ht => ?_,hingress.recordRuntimeRecoveryFailure _ _ _ _ _ h⟩
  have hkeeps : Keeps (fun db : AgentDb => db.factsOf t')
      (recordRuntimeRecoveryFailure t errorCode errorMessage) := by
    refine .bind (requireTask_keeps _) fun _ => .ite (.pure _) (.bind ?_ fun _ => .bind ?_ fun _ =>
      .pure _)
    · refine .bind (requireTask_keeps _) fun _ => .bind (.require _ _) fun _ =>
        .bind (.ofExcept _) fun _ => .ite (.pure _) (.bind (.ofExcept _) fun _ => .bind
        (.write fun db => ?_) fun _ => .bind (.select _) fun _ => .bind (.orFail _ _) fun _ =>
        .bind (appendTaskEvent_keeps (fun _ _ _ => rfl) _ _ _ _) fun _ => .pure _)
      simp only [AgentDb.factsOf,update_get_of_ne ht]
    · refine .bind (markRunningToolInvocationsUncertain_keeps (fun _ _ => rfl) _ _ _ _) fun _ =>
        .bind (cancelPreparedToolInvocations_keeps (fun _ _ => rfl) _ _) fun _ =>
        .bind (.write fun db => ?_) fun _ => .write fun db => ?_
      · simp only [AgentDb.factsOf,delete_get_of_ne ht]
      · simp only [AgentDb.factsOf,delete_get_of_ne ht]
  exact hkeeps _ _ _ h

/-- The recovery failure of an open local task is recorded, whatever else the store holds. -/
theorem recordRecoveryFailure_open {errorCode errorMessage : String}
    {o : StartupReconciliationOutcome} (hr : db.tasks.get t = some r)
    (hlocal : r.assignedAgentId = none) (hopen : isTerminalTaskStatus r.status = false) :
    ∃ db' r', recordRecoveryFailure t errorCode errorMessage o db = (.ok (o.failTask t),db') ∧
      OnlyTouches t db db' ∧ db'.tasks.get t = some r' ∧ r'.status = .failed := by
  obtain ⟨task,db',h⟩ := recordRuntimeRecoveryFailure_total errorCode errorMessage hr hlocal
  have htouches := recordRuntimeRecoveryFailure_touches h
  have hfailed : ∃ head, (db'.rows t).task = some head ∧ head.status = .failed := by
    simp only [recordRuntimeRecoveryFailure,run_bind_of (requireTask_ok.mpr ⟨hr,rfl⟩),hopen,
      Bool.false_eq_true,if_false,bind_ok,pure_ok] at h
    obtain ⟨failed,db₁,h₁,_,db₂,h₂,_,rfl⟩ := h
    obtain ⟨⟨head,_,_,_,hhead,_⟩,_⟩ := transitionLocalTask_rows h₁
    refine ⟨failed.head,?_,by rw [hhead]⟩
    rw [closeUnresolvedExecution_rows h₂,Rows.modify_self]
    exact transitionLocalTask_head h₁
  obtain ⟨head,hhead,hstatus⟩ := hfailed
  obtain ⟨r',hr',rfl⟩ := Option.map_eq_some_iff.mp hhead
  exact ⟨db',r',by simp only [recordRecoveryFailure,h],htouches,hr',hstatus⟩

/-- What recovery leaves of its task: the failure it recorded, or everything as it was. -/
def Recovery.Leaves (recovery : Recovery) (before after : TaskFacts) : Prop :=
  if recovery.isFailed = true then ∃ task, after.task = some task ∧ task.status = .failed
  else after = before

theorem recoverQueuedTask_ok {limit : RecursionLimit} {worker : Option LocalWorker}
    {recovery : Recovery} (o : StartupReconciliationOutcome) (hr : db.tasks.get r.taskId = some r)
    (hlocal : r.assignedAgentId = none) (hqueued : r.status = .queued)
    (hrecovery : recoveryOf limit worker r (db.queuedExecutions.get r.taskId) = .ok recovery) :
    ∃ db', recoverQueuedTask limit worker r o db = (.ok (o.add r.taskId recovery),db') ∧
      OnlyTouches r.taskId db db' ∧
      recovery.Leaves (db.factsOf r.taskId) (db'.factsOf r.taskId) := by
  simp only [recoverQueuedTask,hrecovery]
  cases recovery with
  | scheduled => exact ⟨db,rfl,.refl _ _,rfl⟩
  | retained => exact ⟨db,rfl,.refl _ _,rfl⟩
  | failed errorCode errorMessage =>
    obtain ⟨db',task,heq,htouches,hget,hstatus⟩ := recordRecoveryFailure_open (o := o) hr hlocal
      (by rw [hqueued]; rfl)
    exact ⟨db',heq,htouches,task,hget,hstatus⟩

end Steps

section Loop

variable {f : TaskRecord → StartupReconciliationOutcome → AgentDb → PassResult}
variable {verdict : TaskRecord → Recovery} {tasks : List TaskRecord} {before : AgentDb}

/-- The outcome after tasks with these verdicts. -/
def StartupReconciliationOutcome.addAll (verdict : TaskRecord → Recovery)
    (o : StartupReconciliationOutcome) (tasks : List TaskRecord) : StartupReconciliationOutcome :=
  tasks.foldl (fun o task => o.add task.taskId (verdict task)) o

/-- A loop over different tasks whose steps succeed and stay within their own task reaches its
end; each step finds its task as the loop found it. -/
theorem forEachTask_ok (before : AgentDb) (verdict : TaskRecord → Recovery)
    (Post : TaskRecord → TaskFacts → Prop)
    (hstep : ∀ task ∈ tasks, ∀ o db, db.factsOf task.taskId = before.factsOf task.taskId →
      ∃ db', f task o db = (.ok (o.add task.taskId (verdict task)),db') ∧
        OnlyTouches task.taskId db db' ∧ Post task (db'.factsOf task.taskId))
    (hnodup : (tasks.map (·.taskId)).Nodup) (o : StartupReconciliationOutcome) (db : AgentDb)
    (hfacts : ∀ task ∈ tasks, db.factsOf task.taskId = before.factsOf task.taskId) :
    ∃ db', forEachTask f tasks o db = (.ok (o.addAll verdict tasks),db') ∧
      (∀ task ∈ tasks, Post task (db'.factsOf task.taskId)) ∧
      (∀ t, t ∉ tasks.map (·.taskId) → db'.factsOf t = db.factsOf t) ∧
      db'.messageIngress = db.messageIngress := by
  induction tasks generalizing o db with
  | nil => exact ⟨db,rfl,by simp,fun _ _ => rfl,rfl⟩
  | cons task tasks ih =>
    obtain ⟨hnew,hnodup⟩ := List.nodup_cons.mp hnodup
    obtain ⟨db₁,hrun,htouches,hpost⟩ := hstep task (by simp) o db (hfacts task (by simp))
    have hne : ∀ other ∈ tasks, other.taskId ≠ task.taskId := fun other hmem heq =>
      hnew (List.mem_map.mpr ⟨other,hmem,heq⟩)
    obtain ⟨db₂,hloop,hposts,hothers,hingress⟩ := ih
      (fun other hmem => hstep other (List.mem_cons_of_mem _ hmem)) hnodup
      (o.add task.taskId (verdict task)) db₁ fun other hmem => by
        rw [htouches.others _ (hne other hmem)]
        exact hfacts other (List.mem_cons_of_mem _ hmem)
    refine ⟨db₂,by rw [forEachTask,hrun]; exact hloop,?_,fun t ht => ?_,
      hingress.trans htouches.ingress⟩
    · intro other hmem
      rcases List.mem_cons.mp hmem with rfl | hmem
      · rw [hothers _ hnew]
        exact hpost
      · exact hposts other hmem
    · simp only [List.map_cons,List.mem_cons,not_or] at ht
      rw [hothers t ht.2,htouches.others t ht.1]

/-- A loop with a step that raises raises. -/
theorem forEachTask_error (before : AgentDb)
    (hstep : ∀ task ∈ tasks, ∀ o db, db.factsOf task.taskId = before.factsOf task.taskId →
      (∃ error, (f task o db).1 = .error error) ∨
        ∃ o' db', f task o db = (.ok o',db') ∧ OnlyTouches task.taskId db db')
    (hraises : ∃ task ∈ tasks, ∀ o db, db.factsOf task.taskId = before.factsOf task.taskId →
      ∃ error, (f task o db).1 = .error error)
    (hnodup : (tasks.map (·.taskId)).Nodup) (o : StartupReconciliationOutcome) (db : AgentDb)
    (hfacts : ∀ task ∈ tasks, db.factsOf task.taskId = before.factsOf task.taskId) :
    ∃ error, (forEachTask f tasks o db).1 = .error error := by
  induction tasks generalizing o db with
  | nil =>
    obtain ⟨_,hmem,_⟩ := hraises
    cases hmem
  | cons task tasks ih =>
    obtain ⟨hnew,hnodup⟩ := List.nodup_cons.mp hnodup
    have hhead := hfacts task (by simp)
    rcases hstep task (by simp) o db hhead with ⟨error,herror⟩ | ⟨o₁,db₁,hrun,htouches⟩
    · refine ⟨error,?_⟩
      rw [forEachTask]
      split
      · rename_i heq
        rw [heq] at herror
        cases herror
      · rename_i heq
        rw [heq] at herror
        exact herror
    · rw [forEachTask,hrun]
      refine ih (fun other hmem => hstep other (List.mem_cons_of_mem _ hmem)) ?_ hnodup o₁ db₁ ?_
      · obtain ⟨bad,hmem,hbad⟩ := hraises
        rcases List.mem_cons.mp hmem with rfl | hmem
        · obtain ⟨error,herror⟩ := hbad o db hhead
          rw [hrun] at herror
          cases herror
        · exact ⟨bad,hmem,hbad⟩
      · intro other hmem
        have hne : other.taskId ≠ task.taskId := fun heq =>
          hnew (List.mem_map.mpr ⟨other,hmem,heq⟩)
        rw [htouches.others _ hne]
        exact hfacts other (List.mem_cons_of_mem _ hmem)

end Loop

section Outcome

open StartupReconciliationOutcome

variable {verdict : TaskRecord → Recovery}

theorem mentions_add (o : StartupReconciliationOutcome) (t t' : TaskId) (recovery : Recovery) :
    (o.add t' recovery).mentions t = o.mentions t+if t' = t then 1 else 0 := by
  cases recovery <;>
    simp only [mentions,add,failTask,List.count_append,List.count_singleton,beq_iff_eq] <;> omega

theorem mentions_addAll (o : StartupReconciliationOutcome) (tasks : List TaskRecord) (t : TaskId) :
    (o.addAll verdict tasks).mentions t = o.mentions t+(tasks.map (·.taskId)).count t := by
  induction tasks generalizing o with
  | nil => rfl
  | cons task tasks ih =>
    have h := ih (o.add task.taskId (verdict task))
    simp only [mentions_add] at h
    simp only [addAll,List.foldl_cons,List.map_cons,List.count_cons,beq_iff_eq] at h ⊢
    omega

theorem mem_failed_addAll (o : StartupReconciliationOutcome) (tasks : List TaskRecord)
    (t : TaskId) : t ∈ (o.addAll verdict tasks).failedTaskIds ↔ t ∈ o.failedTaskIds ∨
      ∃ task ∈ tasks, task.taskId = t ∧ (verdict task).isFailed = true := by
  induction tasks generalizing o with
  | nil => simp [addAll]
  | cons task tasks ih =>
    have h := ih (o.add task.taskId (verdict task))
    simp only [addAll,List.foldl_cons] at h ⊢
    rw [h]
    have hself : t = task.taskId ↔ task.taskId = t := eq_comm
    cases hv : verdict task <;> simp [add,failTask,Recovery.isFailed,hv,or_assoc,hself]

end Outcome
section Main

variable {limit : RecursionLimit} {worker : Option LocalWorker} {before db : AgentDb}

theorem mem_localTasksIn {statuses : List TaskStatus} {r : TaskRecord} :
    r ∈ localTasksIn db statuses ↔ db.tasks.get r.taskId = some r ∧ r.assignedAgentId = none ∧
      r.status ∈ statuses := by
  simp [localTasksIn,Table.get_eq_some_iff]

theorem localTasksIn_nodup (db : AgentDb) (statuses : List TaskStatus) :
    ((localTasksIn db statuses).map (·.taskId)).Nodup :=
  db.tasks.nodup.sublist ((List.filter_sublist).map _)

/-- The ingress part: every row in progress fails, and the tasks are not looked at. -/
theorem failInProgress_run (db : AgentDb) (error : IngressError) :
    ∃ ids db', (failInProgressMessageIngresses error).run db = .ok (ids,db') ∧
      (∀ t, db'.factsOf t = db.factsOf t) ∧
      ∀ row ∈ db'.messageIngress.rows, row.state ≠ .inProgress := by
  obtain ⟨ids,db',h⟩ : ∃ ids db', (failInProgressMessageIngresses error).run db = .ok (ids,db') :=
    ⟨_,_,rfl⟩
  refine ⟨ids,db',h,fun t => failInProgressMessageIngresses_keeps (v := (AgentDb.factsOf · t))
    (fun _ _ => rfl) _ _ _ _ h,?_⟩
  cases h
  intro row hmem
  obtain ⟨old,hold,rfl⟩ := List.mem_map.mp hmem
  by_cases hstate : old.state = .inProgress
  · have hlisted : old.messageId ∈ (db.messageIngress.rows.filter fun r =>
        r.state = .inProgress).map (·.messageId) :=
      List.mem_map_of_mem (List.mem_filter.mpr ⟨hold,decide_eq_true hstate⟩)
    simp only [hlisted,hstate,decide_true,Bool.and_self,if_true,MessageIngressRecord.fail]
    exact nofun
  · simp [hstate]

/-- Every command of a queued local task can be read within the limit. -/
def AgentDb.CommandsFit (limit : RecursionLimit) (db : AgentDb) : Prop :=
  ∀ t task row, db.tasks.get t = some task → task.assignedAgentId = none → task.status = .queued →
    db.queuedExecutions.get t = some row → row.Fits limit

/-- What the pass promises about the store it leaves and the outcome that it returns. -/
structure Reconciled (worker : Option LocalWorker) (before after : AgentDb)
    (o : StartupReconciliationOutcome) : Prop where
  interrupted : ∀ t task, before.tasks.get t = some task → task.assignedAgentId = none →
    task.status = .running ∨ task.status = .cancelRequested →
    ∃ task', after.tasks.get t = some task' ∧ task'.status = .failed
  ingress : ∀ row ∈ after.messageIngress.rows, row.state ≠ .inProgress
  queued : ∀ t task, before.tasks.get t = some task → task.assignedAgentId = none →
    task.status = .queued → o.mentions t = 1 ∧ ∃ task', after.tasks.get t = some task' ∧
      (t ∈ o.failedTaskIds ↔ task'.status = .failed) ∧
      (task'.status = .failed ↔ Unrecoverable worker task (before.queuedExecutions.get t))
  unchanged : ∀ t task, before.tasks.get t = some task →
    (task.assignedAgentId ≠ none ∨ task.status ∉ [.running,.cancelRequested,.queued]) →
    after.factsOf t = before.factsOf t

/-- The store and the outcome when the queued tasks are about to be recovered. -/
structure Interrupted (before : AgentDb) (o : StartupReconciliationOutcome) (db : AgentDb) :
    Prop where
  failed : ∀ task ∈ localTasksIn before [.running,.cancelRequested],
    ∃ task', db.tasks.get task.taskId = some task' ∧ task'.status = .failed
  others : ∀ t, t ∉ (localTasksIn before [.running,.cancelRequested]).map (·.taskId) →
    db.factsOf t = before.factsOf t ∧ o.mentions t = 0
  ingress : ∀ row ∈ db.messageIngress.rows, row.state ≠ .inProgress

theorem localTasksIn_congr {statuses : List TaskStatus} {db' : AgentDb}
    (h : db'.tasks = db.tasks) : localTasksIn db' statuses = localTasksIn db statuses := by
  rw [localTasksIn,localTasksIn,h]

theorem reconcileStartup_interrupted (limit : RecursionLimit) (worker : Option LocalWorker)
    (before : AgentDb) : ∃ o db, reconcileStartup limit worker before =
      forEachTask (recoverQueuedTask limit worker) (localTasksIn db [.queued]) o db ∧
        Interrupted before o db := by
  obtain ⟨ids,db₁,hrun,hfacts,hingress⟩ := failInProgress_run before staleMessageError
  have hsame : localTasksIn db₁ [.running,.cancelRequested] =
      localTasksIn before [.running,.cancelRequested] :=
    localTasksIn_congr (failInProgressMessageIngresses_keeps (v := AgentDb.tasks)
      (fun _ _ => rfl) _ _ _ _ hrun)
  obtain ⟨db₂,hloop,hposts,hothers,hkept⟩ := forEachTask_ok (f := failInterruptedTask) before
    (fun _ => .failed "runtime_restart_interrupted"
      "Local task execution was interrupted by a runtime restart.")
    (fun _ facts => ∃ task', facts.task = some task' ∧ task'.status = .failed)
    (fun task hmem o db hdb => by
      obtain ⟨hget,hlocal,hstatus⟩ := mem_localTasksIn.mp hmem
      have hr : db.tasks.get task.taskId = some task := (congrArg TaskFacts.task hdb).trans hget
      obtain ⟨db',r',heq,htouches,hr',hfailed⟩ := recordRecoveryFailure_open (o := o) hr hlocal
        (by rcases List.mem_pair.mp hstatus with h | h <;> rw [h] <;> rfl)
      exact ⟨db',heq,htouches,r',hr',hfailed⟩)
    (localTasksIn_nodup before [.running,.cancelRequested]) ⟨[],[],[],ids⟩ db₁
    fun task _ => hfacts _
  refine ⟨_,db₂,by simp only [reconcileStartup,hrun,hsame,hloop]; rfl,hposts,fun t ht =>
    ⟨(hothers t ht).trans (hfacts t),?_⟩,?_⟩
  · rw [mentions_addAll,List.count_eq_zero_of_not_mem ht]
    rfl
  · rw [hkept]
    exact hingress

/-- The tasks that are queued after the interrupted ones have failed are those queued before. -/
theorem Interrupted.mem_queued {o : StartupReconciliationOutcome} (h : Interrupted before o db)
    {task : TaskRecord} :
    task ∈ localTasksIn db [.queued] ↔ task ∈ localTasksIn before [.queued] := by
  by_cases hmem : task.taskId ∈ (localTasksIn before [.running,.cancelRequested]).map (·.taskId)
  · obtain ⟨old,hold,hid⟩ := List.mem_map.mp hmem
    obtain ⟨task',hget,hfailed⟩ := h.failed old hold
    obtain ⟨hbefore,_,hstatus⟩ := mem_localTasksIn.mp hold
    rw [hid] at hget hbefore
    simp only [mem_localTasksIn,List.mem_singleton,hget,hbefore,Option.some.injEq]
    constructor
    · rintro ⟨rfl,_,hqueued⟩
      rw [hfailed] at hqueued
      cases hqueued
    · rintro ⟨rfl,_,hqueued⟩
      rw [hqueued] at hstatus
      simp at hstatus
  · have hfacts := congrArg TaskFacts.task (h.others _ hmem).1
    simp only [mem_localTasksIn,List.mem_singleton]
    rw [show db.tasks.get task.taskId = before.tasks.get task.taskId from hfacts]

theorem not_mem_interrupted {task : TaskRecord} {t : TaskId} (hget : before.tasks.get t = some task)
    (h : task.assignedAgentId ≠ none ∨ task.status ∉ [.running,.cancelRequested]) :
    t ∉ (localTasksIn before [.running,.cancelRequested]).map (·.taskId) := by
  intro hmem
  obtain ⟨old,hold,rfl⟩ := List.mem_map.mp hmem
  obtain ⟨hold,hlocal,hstatus⟩ := mem_localTasksIn.mp hold
  cases hget.symm.trans hold
  exact h.elim (absurd hlocal) (absurd hstatus)

section Queued

variable {o : StartupReconciliationOutcome} (h : Interrupted before o db)
include h

theorem Interrupted.facts_queued {task : TaskRecord} (hmem : task ∈ localTasksIn before [.queued]) :
    db.factsOf task.taskId = before.factsOf task.taskId := by
  obtain ⟨hget,_,hqueued⟩ := mem_localTasksIn.mp hmem
  refine (h.others _ (not_mem_interrupted hget (.inr ?_))).1
  rw [List.mem_singleton.mp hqueued]
  decide

omit h in
/-- What the pass decides about a task, read off the store that it starts from. -/
theorem exists_verdict (worker : Option LocalWorker) (hfit : before.CommandsFit limit) :
    ∃ verdict : TaskRecord → Recovery, ∀ task ∈ localTasksIn before [.queued],
      ((verdict task).isFailed = true ↔
        Unrecoverable worker task (before.queuedExecutions.get task.taskId)) ∧
      ∀ o db, db.factsOf task.taskId = before.factsOf task.taskId →
        ∃ db', recoverQueuedTask limit worker task o db =
          (.ok (o.add task.taskId (verdict task)),db') ∧ OnlyTouches task.taskId db db' ∧
          (verdict task).Leaves (before.factsOf task.taskId) (db'.factsOf task.taskId) := by
  have hrecoveries : ∀ task, ∃ recovery, task ∈ localTasksIn before [.queued] →
      recoveryOf limit worker task (before.queuedExecutions.get task.taskId) = .ok recovery ∧
      (recovery.isFailed = true ↔
        Unrecoverable worker task (before.queuedExecutions.get task.taskId)) := by
    intro task
    by_cases hmem : task ∈ localTasksIn before [.queued]
    · obtain ⟨hget,hlocal,hqueued⟩ := mem_localTasksIn.mp hmem
      obtain ⟨recovery,h⟩ := recoveryOf_fits worker task fun row hrow =>
        hfit _ task row hget hlocal (List.mem_singleton.mp hqueued) hrow
      exact ⟨recovery,fun _ => h⟩
    · exact ⟨.retained,fun h => absurd h hmem⟩
  choose verdict hverdict using hrecoveries
  refine ⟨verdict,fun task hmem => ⟨(hverdict task hmem).2,fun o db hfacts => ?_⟩⟩
  obtain ⟨hget,hlocal,hqueued⟩ := mem_localTasksIn.mp hmem
  have hstored : db.queuedExecutions.get task.taskId = before.queuedExecutions.get task.taskId :=
    congrArg TaskFacts.queued hfacts
  rw [← hfacts]
  exact recoverQueuedTask_ok o ((congrArg TaskFacts.task hfacts).trans hget) hlocal
    (List.mem_singleton.mp hqueued) (hstored ▸ (hverdict task hmem).1)

/-- With every command readable the queued loop ends, and classifies each task. -/
theorem Interrupted.recovers (worker : Option LocalWorker) (hfit : before.CommandsFit limit) :
    ∃ after o', forEachTask (recoverQueuedTask limit worker) (localTasksIn db [.queued]) o db =
      (.ok o',after) ∧ Reconciled worker before after o' := by
  obtain ⟨verdict,hverdict⟩ := exists_verdict worker hfit
  have hnodup := localTasksIn_nodup db [.queued]
  obtain ⟨after,hloop,hposts,hothers,hkept⟩ := forEachTask_ok before verdict
    (fun task => (verdict task).Leaves (before.factsOf task.taskId))
    (fun task hmem o db hfacts => (hverdict task (h.mem_queued.mp hmem)).2 o db hfacts) hnodup o db
    fun task hmem => h.facts_queued (h.mem_queued.mp hmem)
  have hrest : ∀ {t task}, before.tasks.get t = some task →
      (task.assignedAgentId ≠ none ∨ task.status ≠ .queued) →
      t ∉ (localTasksIn db [.queued]).map (·.taskId) := by
    intro t task hget hne hmem
    obtain ⟨old,hold,rfl⟩ := List.mem_map.mp hmem
    obtain ⟨hold,hlocal,hqueued⟩ := mem_localTasksIn.mp (h.mem_queued.mp hold)
    cases hget.symm.trans hold
    exact hne.elim (absurd hlocal) (absurd (List.mem_singleton.mp hqueued))
  refine ⟨after,_,hloop,?_,?_,?_,?_⟩
  · intro t task hget hlocal hstatus
    have hid := Table.key_of_get hget
    subst hid
    obtain ⟨task',hget',hfailed⟩ := h.failed task (mem_localTasksIn.mpr ⟨hget,hlocal,by
      simpa using hstatus⟩)
    have hfacts := hothers _ (hrest hget (.inr (by rcases hstatus with h | h <;> rw [h] <;> decide)))
    exact ⟨task',(congrArg TaskFacts.task hfacts).trans hget',hfailed⟩
  · rw [hkept]
    exact h.ingress
  · intro t task hget hlocal hqueued
    have hid := Table.key_of_get hget
    subst hid
    have hbefore : task ∈ localTasksIn before [.queued] :=
      mem_localTasksIn.mpr ⟨hget,hlocal,by simp [hqueued]⟩
    have hmem := h.mem_queued.mpr hbefore
    have hzero := (h.others _ (not_mem_interrupted hget (.inr (by rw [hqueued]; decide)))).2
    have hiff := (hverdict task hbefore).1
    have hlisted : task.taskId ∈ (o.addAll verdict (localTasksIn db [.queued])).failedTaskIds ↔
        (verdict task).isFailed = true := by
      rw [mem_failed_addAll]
      constructor
      · rintro (hold | ⟨task',hmem',hid,hfailed⟩)
        · simp only [StartupReconciliationOutcome.mentions,List.count_append] at hzero
          have hpos := List.count_pos_iff.mpr hold
          omega
        · have hget' := (mem_localTasksIn.mp (h.mem_queued.mp hmem')).1
          rw [hid] at hget'
          cases hget.symm.trans hget'
          exact hfailed
      · exact fun hfailed => .inr ⟨task,hmem,rfl,hfailed⟩
    refine ⟨?_,?_⟩
    · rw [mentions_addAll,hzero,List.count_eq_one_of_mem hnodup (List.mem_map_of_mem hmem)]
    · have hpost := hposts task hmem
      rw [hlisted,← hiff]
      unfold Recovery.Leaves at hpost
      split at hpost
      · obtain ⟨task',hget',hfailed⟩ := hpost
        exact ⟨task',hget',by simp [*],by simp [*]⟩
      · have hkeep : after.tasks.get task.taskId = some task :=
          (congrArg TaskFacts.task hpost).trans hget
        refine ⟨task,hkeep,?_,?_⟩ <;> simp [*]
  · intro t task hget hne
    have hin : t ∉ (localTasksIn before [.running,.cancelRequested]).map (·.taskId) :=
      not_mem_interrupted hget (hne.imp_right fun h hmem => h (by
        simp only [List.mem_cons] at hmem ⊢
        tauto))
    have hq := hrest hget (hne.imp_right fun h heq => h (by rw [heq]; decide))
    rw [hothers t hq,(h.others t hin).1]

/-- A command that cannot be read makes the queued loop raise. -/
theorem Interrupted.raises (worker : Option LocalWorker) (hfit : ¬ before.CommandsFit limit) : ∃ error,
    (forEachTask (recoverQueuedTask limit worker) (localTasksIn db [.queued]) o db).1 =
      .error error := by
  have hstep : ∀ task ∈ localTasksIn db [.queued], ∀ o db', db'.factsOf task.taskId =
      before.factsOf task.taskId →
      (∃ row, before.queuedExecutions.get task.taskId = some row ∧ ¬ row.Fits limit ∧
        (recoverQueuedTask limit worker task o db').1 = .error recursionError) ∨
      (∀ row, before.queuedExecutions.get task.taskId = some row → row.Fits limit) ∧
        ∃ o₁ db₁, recoverQueuedTask limit worker task o db' = (.ok o₁,db₁) ∧
          OnlyTouches task.taskId db' db₁ := by
    intro task hmem o db' hfacts
    obtain ⟨hget,hlocal,hqueued⟩ := mem_localTasksIn.mp (h.mem_queued.mp hmem)
    have hstored : db'.queuedExecutions.get task.taskId = before.queuedExecutions.get task.taskId :=
      congrArg TaskFacts.queued hfacts
    by_cases hfits : ∀ row, before.queuedExecutions.get task.taskId = some row → row.Fits limit
    · obtain ⟨recovery,hrecovery,_⟩ := recoveryOf_fits worker task hfits
      obtain ⟨db₁,hrun,htouches,_⟩ := recoverQueuedTask_ok o
        ((congrArg TaskFacts.task hfacts).trans hget) hlocal (List.mem_singleton.mp hqueued)
        (hstored ▸ hrecovery)
      exact .inr ⟨hfits,_,db₁,hrun,htouches⟩
    · obtain ⟨row,hrow,hnot⟩ : ∃ row, before.queuedExecutions.get task.taskId = some row ∧
          ¬ row.Fits limit := by simpa using hfits
      exact .inl ⟨row,hrow,hnot,by simp only [recoverQueuedTask,hstored,hrow,
        recoveryOf_not_fits hnot]⟩
  obtain ⟨t,task,row,hget,hlocal,hqueued,hrow,hnot⟩ : ∃ t task row, before.tasks.get t = some task ∧
      task.assignedAgentId = none ∧ task.status = .queued ∧
      before.queuedExecutions.get t = some row ∧ ¬ row.Fits limit := by
    simpa [AgentDb.CommandsFit] using hfit
  have hid := Table.key_of_get hget
  subst hid
  have hmem : task ∈ localTasksIn db [.queued] :=
    h.mem_queued.mpr (mem_localTasksIn.mpr ⟨hget,hlocal,by simp [hqueued]⟩)
  refine forEachTask_error before (fun other hother o db' hfacts => ?_)
    ⟨task,hmem,fun o db' hfacts => ?_⟩ (localTasksIn_nodup db [.queued]) o db
    fun other hother => h.facts_queued (h.mem_queued.mp hother)
  · rcases hstep other hother o db' hfacts with ⟨_,_,_,herror⟩ | ⟨_,hok⟩
    · exact .inl ⟨_,herror⟩
    · exact .inr hok
  · rcases hstep task hmem o db' hfacts with ⟨_,_,_,herror⟩ | ⟨hfits,_⟩
    · exact ⟨_,herror⟩
    · exact absurd (hfits row hrow) hnot

end Queued

/-- The pass returns and keeps its promises exactly when every queued command can be read. -/
theorem reconcileStartup_reconciles_iff (limit : RecursionLimit) (worker : Option LocalWorker)
    (before : AgentDb) :
    (∃ o, (reconcileStartup limit worker before).1 = .ok o ∧
      Reconciled worker before (reconcileStartup limit worker before).2 o) ↔
      before.CommandsFit limit := by
  obtain ⟨o,db,heq,hinterrupted⟩ := reconcileStartup_interrupted limit worker before
  rw [heq]
  constructor
  · rintro ⟨o',hok,_⟩
    by_contra hfit
    obtain ⟨error,herror⟩ := hinterrupted.raises worker hfit
    rw [hok] at herror
    cases herror
  · intro hfit
    obtain ⟨after,o',hloop,hreconciled⟩ := hinterrupted.recovers worker hfit
    rw [hloop]
    exact ⟨o',rfl,hreconciled⟩

end Main

section Sample

mutual

/-- How deep arrays and objects are nested. -/
def jsonDepth : Json → Nat
  | .arr items => jsonItemsDepth items+1
  | .obj fields => jsonFieldsDepth fields+1
  | _ => 0

def jsonItemsDepth : List Json → Nat
  | [] => 0
  | item::items => max (jsonDepth item) (jsonItemsDepth items)

def jsonFieldsDepth : List (String × Json) → Nat
  | [] => 0
  | field::fields => max (jsonDepth field.2) (jsonFieldsDepth fields)

end

/-- The default limit of a thousand frames; freezing takes three of them a level. -/
def sampleLimit : RecursionLimit where
  loads payload := jsonDepth payload ≤ 1000
  freezes
    | .userInput parts metadata =>
      3*max (jsonItemsDepth parts) (jsonDepth (metadata.getD .null)) ≤ 1000
    | _ => true

def nestedArrays : Nat → Json
  | 0 => .null
  | n+1 => .arr [nestedArrays n]

/-- A queued task whose input command carries a deeply nested part. -/
def sampleDeep : AgentDb :=
  {AgentDb.empty with
    tasks := ⟨[sampleTask],by decide⟩
    queuedExecutions := ⟨[⟨"task","user_input","thread",1,.obj [("parts",
      .arr [.obj [("kind",.str "data"),("data",nestedArrays 1000)]])]⟩],by decide⟩}

theorem reconcileStartup_deep :
    (reconcileStartup sampleLimit (some ⟨true,fun _ => .ok true⟩) sampleDeep).1 =
      .error recursionError := by
  decide +kernel

/-- The deep command makes the start of the process fail. -/
theorem reconcileStartup_deep_raises :
    ¬ ∃ o, (reconcileStartup sampleLimit (some ⟨true,fun _ => .ok true⟩) sampleDeep).1 = .ok o ∧
      Reconciled (some ⟨true,fun _ => .ok true⟩) sampleDeep
        (reconcileStartup sampleLimit (some ⟨true,fun _ => .ok true⟩) sampleDeep).2 o := by
  rintro ⟨o,hok,_⟩
  rw [reconcileStartup_deep] at hok
  cases hok

end Sample
end VermayAgent
