import VermayAgent.Observations
import VermayAgent.ToolCallReferences

/-! Runs of tool batches, their tallies and the summary of a run.
The calls of a batch run side by side, so that what they do to the ledger is one history of
operations in which each call finds its own. -/
namespace VermayAgent
open Library Txn MainAgentStore MainAgentToolInvocationLedger

inductive ExecutionStopReason where
  | completed | inputRequired | approvalRequired | budgetExhausted | repeatedFailure
  | policyBlocked | canceled | environmentFailure | toolArgumentError
deriving DecidableEq, Repr

def ExecutionStopReason.value : ExecutionStopReason → String
  | completed => "completed"
  | inputRequired => "input_required"
  | approvalRequired => "approval_required"
  | budgetExhausted => "budget_exhausted"
  | repeatedFailure => "repeated_failure"
  | policyBlocked => "policy_blocked"
  | canceled => "canceled"
  | environmentFailure => "environment_failure"
  | toolArgumentError => "tool_argument_error"

/-- The limits of one execution; the checks of its construction are fields. -/
structure ExecutionPolicy where
  maxModelCalls : Nat
  maxToolCalls : Nat
  maxFailures : Nat
  maxToolArgumentCorrections : Nat
  maxLoopSteps : Nat
  modelCalls_pos : 1 ≤ maxModelCalls
  failures_pos : 1 ≤ maxFailures
  loopSteps_pos : 1 ≤ maxLoopSteps

/-- `ExecutionPolicy.from_max_loops` with its defaults. -/
def ExecutionPolicy.fromMaxLoops (maxLoops : Nat) (h : 1 ≤ maxLoops) : ExecutionPolicy where
  maxModelCalls := maxLoops
  maxToolCalls := max 8 (maxLoops*4)
  maxFailures := 2
  maxToolArgumentCorrections := 1
  maxLoopSteps := maxLoops
  modelCalls_pos := h
  failures_pos := by decide
  loopSteps_pos := h

structure ExecutionLimit where
  reason : ExecutionStopReason
  message : String
  detail : Json

/-- An entry of the `errors` of the state. -/
structure ToolError where
  toolCallId : String
  toolName : String
  category : Option String
  retryable : Bool
deriving DecidableEq

/-- The state of the graph, as far as the records of tools and the summary read it. -/
structure AgentState where
  finalAnswer : Option String
  loopIndex : Int
  errors : List ToolError
  executionPolicy : ExecutionPolicy
  modelCalls : Nat
  toolCalls : Nat
  failureCount : Nat
  toolArgumentErrorRounds : Nat
  observations : List Observation
  stopReason : Option String
  stopDetail : Json
  stopMessage : Option String

section Recording

/-- `build_initial_state`. -/
def buildInitialState (executionPolicy : ExecutionPolicy) : AgentState where
  finalAnswer := none
  loopIndex := 1
  errors := []
  executionPolicy := executionPolicy
  modelCalls := 0
  toolCalls := 0
  failureCount := 0
  toolArgumentErrorRounds := 0
  observations := []
  stopReason := none
  stopDetail := .null
  stopMessage := none

def executionStopUpdates (state : AgentState) (limit : ExecutionLimit) : AgentState :=
  {state with
    stopReason := some limit.reason.value
    stopDetail := limit.detail
    stopMessage := some limit.message}

def limitDetail (limit : String) (limitValue observedValue : Nat) : Json :=
  .obj [("limit",.str limit),("limit_value",.num limitValue),("observed_value",.num observedValue)]

/-- `observation_artifact_refs_for_tool_message`. -/
def observationArtifactRefs (decisions : List ToolCallDecision) (message : ToolMessage) :
    List ArtifactId :=
  match decisions.findSome? fun d =>
    if d.toolCall.id.getD "" = message.toolCallId then
      (d.invocation.map (·.invocationId)).filter fun id => id ≠ ""
    else none with
  | some id => [id ++ ":result"]
  | none => []

def Observation.error (o : Observation) : Option ToolError :=
  if o.ok then none else some ⟨o.toolCallId,o.toolName,o.errorCategory,o.retryable⟩

def ToolError.isArgumentError (error : ToolError) : Bool :=
  error.category = some "tool_argument_error"

/-- `record_tool_messages_node` on the observations of its messages. -/
def recordObservations (state : AgentState) (observations : List Observation) : AgentState :=
  let errors := observations.filterMap Observation.error
  let argumentErrors := errors.filter ToolError.isArgumentError
  let executionErrors := errors.filter fun error => !error.isArgumentError
  let argumentErrorRounds := state.toolArgumentErrorRounds+(if argumentErrors.isEmpty then 0 else 1)
  let failureCount := state.failureCount+executionErrors.length
  let updated := {state with
    observations := state.observations++observations
    toolCalls := state.toolCalls+observations.length
    failureCount
    toolArgumentErrorRounds := argumentErrorRounds
    errors := state.errors++errors}
  let policy := state.executionPolicy
  if !argumentErrors.isEmpty ∧ policy.maxToolArgumentCorrections < argumentErrorRounds then
    executionStopUpdates updated ⟨.toolArgumentError,
      "Execution stopped because tool arguments remained invalid " ++
        "after the allowed model correction.",
      limitDetail "max_tool_argument_corrections" policy.maxToolArgumentCorrections
        argumentErrorRounds⟩
  else if policy.maxFailures ≤ failureCount then
    executionStopUpdates updated ⟨.repeatedFailure,
      "Execution stopped after " ++ toString failureCount ++ " tool failure(s).",
      limitDetail "max_failures" policy.maxFailures failureCount⟩
  else updated

def recordToolMessages (env : LedgerEnv) (text : TextEnv) (decisions : List ToolCallDecision)
    (state : AgentState) (messages : List ToolMessage) : AgentState :=
  recordObservations state (messages.map fun message => normalizeToolObservation env text message
    state.loopIndex (observationArtifactRefs decisions message))

end Recording

section Summary

structure Evidence where
  toolCallId : String
  toolName : String
  summary : String
  artifactRefs : List ArtifactId
deriving DecidableEq

structure ResidualRisk where
  category : String
  toolCallId : Option String
  toolName : Option String
  summary : String
  retryable : Bool
deriving DecidableEq

/-- `execution_summary`, its policy and its clock left out. -/
structure ExecutionSummary where
  stopReason : String
  stopDetail : Json
  modelCalls : Nat
  toolCalls : Nat
  failureCount : Nat
  toolArgumentErrorRounds : Nat
  loopIndex : Int
  evidence : List Evidence
  residualRisks : List ResidualRisk
  completionClaimed : Bool

def Observation.evidence (o : Observation) : Evidence :=
  ⟨o.toolCallId,o.toolName,o.summary,o.artifactRefs⟩

def Observation.risk (o : Observation) : ResidualRisk :=
  ⟨(o.errorCategory.filter fun s => s ≠ "").getD "tool_execution_error",some o.toolCallId,
    some o.toolName,o.summary,o.retryable⟩

def stopReasonFromState (state : AgentState) : String :=
  match state.stopReason.filter fun s => s ≠ "" with
  | some reason => reason
  | none =>
    if state.finalAnswer.isSome then ExecutionStopReason.completed.value
    else ExecutionStopReason.environmentFailure.value

def executionSummary (state : AgentState) : ExecutionSummary :=
  let stopReason := stopReasonFromState state
  let evidence := (state.observations.filter (·.ok)).map Observation.evidence
  let toolRisks := (state.observations.filter fun o => !o.ok).map Observation.risk
  let unsupported : List ResidualRisk :=
    if state.finalAnswer.isSome ∧ evidence = [] ∧ toolRisks = [] then
      [⟨"no_tool_evidence",none,none,
        "The final answer is model-generated; no tool-backed observation was produced.",false⟩]
    else []
  let stopped : List ResidualRisk :=
    if stopReason ∉ [ExecutionStopReason.completed.value,
        ExecutionStopReason.policyBlocked.value] then
      [⟨stopReason,none,none,(state.stopMessage.filter fun s => s ≠ "").getD
        "Execution did not reach a completed answer.",
        stopReason = ExecutionStopReason.environmentFailure.value⟩]
    else []
  {
    stopReason
    stopDetail := if state.stopDetail.isObject then state.stopDetail else .obj []
    modelCalls := state.modelCalls
    toolCalls := state.toolCalls
    failureCount := state.failureCount
    toolArgumentErrorRounds := state.toolArgumentErrorRounds
    loopIndex := if 0 < state.loopIndex then state.loopIndex else 1
    evidence
    residualRisks := toolRisks++unsupported++stopped
    completionClaimed := state.finalAnswer.isSome}

end Summary

section Tallies

variable {state : AgentState} {observations : List Observation}

def Observation.isArgumentError (o : Observation) : Bool :=
  !o.ok && o.errorCategory = some "tool_argument_error"

def Observation.isExecutionError (o : Observation) : Bool :=
  !o.ok && o.errorCategory ≠ some "tool_argument_error"

/-- The errors of a kind are those of its observations. -/
theorem length_filter_errors {p : ToolError → Bool} {q : Observation → Bool}
    (hpq : ∀ o, (o.error.filter p).isSome = q o) (observations : List Observation) :
    ((observations.filterMap Observation.error).filter p).length =
      (observations.filter q).length := by
  induction observations with
  | nil => rfl
  | cons o observations ih =>
    have ho := hpq o
    rw [List.filterMap_cons]
    cases herror : o.error with
    | none =>
      rw [herror] at ho
      have hq : q o = false := by simpa using ho.symm
      simp [hq,ih]
    | some error =>
      rw [herror] at ho
      by_cases hp : p error = true
      · have hq : q o = true := by simpa [hp,Option.filter] using ho.symm
        simp [hp,hq,ih]
      · have hq : q o = false := by simpa [hp,Option.filter] using ho.symm
        simp [hp,hq,ih]

theorem argumentErrors_isEmpty (observations : List Observation) :
    ((observations.filterMap Observation.error).filter ToolError.isArgumentError).isEmpty =
      !observations.any Observation.isArgumentError := by
  have hlength := length_filter_errors (p := ToolError.isArgumentError)
    (q := Observation.isArgumentError) (fun o => by
      unfold Observation.error Observation.isArgumentError
      by_cases hc : o.errorCategory = some "tool_argument_error" <;> cases o.ok <;>
        simp [ToolError.isArgumentError,Option.filter,hc]) observations
  rw [Bool.eq_iff_iff,List.isEmpty_iff,← List.length_eq_zero_iff,hlength]
  simp [List.filter_eq_nil_iff]

/-- The observations and the two counts of failures. -/
def AgentState.tallies (state : AgentState) : List Observation × Nat × Nat :=
  (state.observations,state.failureCount,state.toolArgumentErrorRounds)

/-- What a recording adds to the tallies. -/
theorem recordObservations_tallies (state : AgentState) (observations : List Observation) :
    (recordObservations state observations).tallies =
      (state.observations++observations,
        state.failureCount+(observations.filter Observation.isExecutionError).length,
        state.toolArgumentErrorRounds +
          if observations.any Observation.isArgumentError then 1 else 0) := by
  have hexecution := length_filter_errors (p := fun error => !error.isArgumentError)
    (q := Observation.isExecutionError) (fun o => by
      unfold Observation.error Observation.isExecutionError
      by_cases hc : o.errorCategory = some "tool_argument_error" <;> cases o.ok <;>
        simp [ToolError.isArgumentError,Option.filter,hc]) observations
  have hround : (if ((observations.filterMap Observation.error).filter
      ToolError.isArgumentError).isEmpty = true then 0 else 1) =
        if observations.any Observation.isArgumentError then 1 else 0 := by
    rw [argumentErrors_isEmpty]
    cases observations.any Observation.isArgumentError <;> rfl
  have hstop : ∀ (p q : Prop) [Decidable p] [Decidable q] (u : AgentState)
      (l l' : ExecutionLimit), (if p then executionStopUpdates u l
        else if q then executionStopUpdates u l' else u).tallies = u.tallies := by
    intro p q _ _ u l l'
    split_ifs
    all_goals rfl
  unfold recordObservations
  extract_lets errors argumentErrors executionErrors
  rw [hstop,AgentState.tallies]
  exact Prod.ext rfl (Prod.ext (congrArg (state.failureCount+·) hexecution)
    (congrArg (state.toolArgumentErrorRounds+·) hround))

theorem mem_evidence {o : Observation} (hmem : o ∈ state.observations) (hok : o.ok = true) :
    o.evidence ∈ (executionSummary state).evidence :=
  List.mem_map_of_mem (List.mem_filter.mpr ⟨hmem,hok⟩)

theorem mem_residualRisks {o : Observation} (hmem : o ∈ state.observations) (hok : o.ok = false) :
    o.risk ∈ (executionSummary state).residualRisks := by
  have hrisk : o.risk ∈ (state.observations.filter fun o => !o.ok).map Observation.risk :=
    List.mem_map_of_mem (List.mem_filter.mpr ⟨hmem,by simp [hok]⟩)
  exact List.mem_append_left _ (List.mem_append_left _ hrisk)

end Tallies
end VermayAgent
