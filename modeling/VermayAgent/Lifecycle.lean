import VermayAgent.Models

/-! The local-process state machine and the remote-proxy snapshot order. -/
namespace VermayAgent

/-- `LOCAL_TASK_TRANSITIONS`. -/
def localTaskTransitions : TaskStatus → List TaskStatus
  | .created => [.queued,.running,.canceled,.failed]
  | .queued => [.running,.canceled,.failed]
  | .running => [.inputRequired,.authRequired,.cancelRequested,.completed,.failed]
  | .cancelRequested => [.canceled,.failed]
  | .inputRequired => [.queued,.canceled,.failed]
  | .authRequired => [.queued,.canceled,.failed]
  | .completed => []
  | .canceled => []
  | .failed => []

/-- `REMOTE_PROXY_SNAPSHOT_TRANSITIONS`. -/
def remoteProxySnapshotTransitions : TaskStatus → List TaskStatus
  | .created => [.queued,.running,.inputRequired,.authRequired,.completed,.canceled,.failed]
  | .queued => [.running,.inputRequired,.authRequired,.completed,.canceled,.failed]
  | .running => [.inputRequired,.authRequired,.completed,.canceled,.failed]
  | .inputRequired => [.completed,.canceled,.failed]
  | .authRequired => [.completed,.canceled,.failed]
  | .cancelRequested => [.canceled,.failed]
  | .completed => []
  | .canceled => []
  | .failed => []

/-- Whether the change is a real one; an equal target is none, an unlisted one is an error. -/
def validateLocalTaskTransition (current target : TaskStatus) : Except PyException Bool :=
  if current = target then .ok false
  else if target ∈ localTaskTransitions current then .ok true
  else .error (.valueError ("invalid local task transition: " ++ current.value ++ " -> " ++
    target.value))

def acceptsRemoteProxySnapshot (current target : TaskStatus) : Bool :=
  current = target || target ∈ remoteProxySnapshotTransitions current

/-- The event appended when a local task enters `status`; nothing enters `created`. -/
def lifecycleEventTypeForStatus (status : TaskStatus) : Except PyException String :=
  match status with
  | .queued => .ok "task_queued"
  | .running => .ok "task_started"
  | .inputRequired => .ok "task_interrupted"
  | .authRequired => .ok "task_interrupted"
  | .cancelRequested => .ok "task_cancel_requested"
  | .completed => .ok "task_completed"
  | .canceled => .ok "task_cancelled"
  | .failed => .ok "task_failed"
  | .created => .error (.valueError ("local task status cannot be a transition target: " ++
      TaskStatus.created.value))

theorem validateLocalTaskTransition_ok_iff {current target : TaskStatus} {real : Bool} :
    validateLocalTaskTransition current target = .ok real ↔
      (current = target ∧ real = false) ∨
        (current ≠ target ∧ target ∈ localTaskTransitions current ∧ real = true) := by
  unfold validateLocalTaskTransition
  by_cases h : current = target
  · simp [h,eq_comm]
  · by_cases ht : target ∈ localTaskTransitions current <;> simp [h,ht,eq_comm]

/-- No transition leaves a terminal status. -/
theorem localTaskTransitions_terminal {status : TaskStatus} (h : isTerminalTaskStatus status) :
    localTaskTransitions status = [] := by
  cases status <;> simp_all [isTerminalTaskStatus,localTaskTransitions]

/-- Every target of a transition has its event. -/
theorem lifecycleEventTypeForStatus_of_mem {current target : TaskStatus}
    (h : target ∈ localTaskTransitions current) :
    ∃ eventType, lifecycleEventTypeForStatus target = .ok eventType := by
  cases current <;> cases target <;>
    simp_all [localTaskTransitions,lifecycleEventTypeForStatus]

end VermayAgent
