import VermayAgent.TaskOutcomes

/-! The result of one slice of the agent graph, and what the local task runner makes of it. -/
namespace VermayAgent
open Library

/-- `RunResult`, without its thread and graph state; an absent interrupt is null. -/
structure RunResult where
  finalAnswer : Option String
  interrupt : Json
  interruptMessage : Option String
  stopMessage : Option String
  stopReason : Option String
  observations : List Json
  execution : List (String × Json)

inductive RunStatus where
  | interrupted | completed | stopped | unknown
deriving DecidableEq, Repr

def RunStatus.value : RunStatus → String
  | interrupted => "interrupted"
  | completed => "completed"
  | stopped => "stopped"
  | unknown => "unknown"

def RunResult.status (result : RunResult) : RunStatus :=
  if result.interruptMessage.isSome ∨ result.interrupt ≠ .null then .interrupted
  else if result.finalAnswer.isSome then .completed
  else if result.stopMessage.isSome then .stopped
  else .unknown

/-- `_execution_failure_is_retryable`. -/
def executionFailureIsRetryable (execution : Json) : Bool :=
  match execution.member "residual_risks" with
  | .arr risks => risks.any fun risk => risk.isObject && risk.member "retryable" = .bool true
  | _ => false

def textPart (s : String) : Json := .obj [("kind",.str "text"),("text",.str s)]

/-- The message of an interrupt: its own, that of the run, or a general one. -/
def interruptText (text : TextEnv) (result : RunResult) : String :=
  if result.interrupt.isObject ∧ (result.interrupt.member "message").truthy then
    text.str (result.interrupt.member "message")
  else (nonEmpty result.interruptMessage).getD "Additional input is required."

/-- `_run_result_to_local_task_result`. -/
def runResultToLocalTaskResult (text : TextEnv) (result : RunResult) : LocalTaskRunResult :=
  match result.status with
  | .completed => {
      status := .completed
      parts := [textPart (result.finalAnswer.getD "")]
      artifactParts := []
      errorCode := none
      errorMessage := none
      errorRetryable := false
      inputRequest := none
      observations := result.observations
      execution := .obj result.execution}
  | .interrupted => {
      status := if result.interrupt.isObject ∧
          result.interrupt.member "kind" = .str "approval_required" then .authRequired
        else .inputRequired
      parts := [textPart (interruptText text result)]
      artifactParts := []
      errorCode := some ((nonEmpty result.stopReason).getD "input_required")
      errorMessage := some (interruptText text result)
      errorRetryable := false
      inputRequest := if result.interrupt.isObject then some result.interrupt else none
      observations := result.observations
      execution := .obj result.execution}
  | .stopped | .unknown => {
      status := .failed
      parts := []
      artifactParts := []
      errorCode := some ((nonEmpty result.stopReason).getD result.status.value)
      errorMessage := some ((nonEmpty result.stopMessage).getD "Local task did not complete.")
      errorRetryable := executionFailureIsRetryable (.obj result.execution)
      inputRequest := none
      observations := result.observations
      execution := .obj result.execution}

/-- The runner never reports a slice as still running. -/
theorem localProcessStatus_ne_running (text : TextEnv) (result : RunResult) :
    localProcessStatus (runResultToLocalTaskResult text result) ≠ .running := by
  have hwaiting : ∀ r : LocalTaskRunResult, r.status ≠ .running → localProcessStatus r ≠ .running := by
    intro r hr
    unfold localProcessStatus
    split
    · exact hr
    · split
      · exact hr
      · split <;> exact nofun
  refine hwaiting _ ?_
  unfold runResultToLocalTaskResult
  split
  · exact nofun
  · simp only
    split <;> exact nofun
  · exact nofun
  · exact nofun

end VermayAgent
