import VermayAgent.ExecutionBounds

/-! How an execution of the graph ends.
Every run that comes to the end has a reason for it, failures that have used up their budget let no
further work begin, and after its deadline an execution only finishes what has been let through. -/
namespace VermayAgent
open Library

section Reasons

variable {c : GraphComponents} {s : GraphState} {limit : ExecutionLimit}

theorem modelLimit_reason {reading : Reading} (h : modelLimit c s reading = some limit) :
    limit.reason ∈ [.canceled,.budgetExhausted,.repeatedFailure] := by
  rw [modelLimit,Option.or_eq_some_iff] at h
  rcases h with hcanceled | ⟨_,h⟩
  · rw [cancellationLimit_reason hcanceled]
    decide
  rw [modelCallLimit,Option.or_eq_some_iff] at h
  rcases h with helapsed | ⟨_,h⟩
  · rw [elapsedLimit_reason helapsed]
    decide
  · split_ifs at h
    · cases h
      simp
    · cases h
      simp

theorem toolCallLimit_reason {elapsed : ℚ} {requested : Nat}
    (h : toolCallLimit c s elapsed requested = some limit) : limit.reason = .budgetExhausted := by
  rw [toolCallLimit,Option.or_eq_some_iff] at h
  rcases h with helapsed | ⟨_,h⟩
  · exact elapsedLimit_reason helapsed
  · split_ifs at h
    cases h
    rfl

theorem loopStepLimit_reason {elapsed : ℚ} {next : Int}
    (h : loopStepLimit c s elapsed next = some limit) : limit.reason = .budgetExhausted := by
  rw [loopStepLimit,Option.or_eq_some_iff] at h
  rcases h with helapsed | ⟨_,h⟩
  · exact elapsedLimit_reason helapsed
  · split_ifs at h
    cases h
    rfl

end Reasons

section Endings

/-- The reasons for which an execution stops without an answer. -/
def stoppingReasons : List ExecutionStopReason :=
  [.canceled,.budgetExhausted,.repeatedFailure,.toolArgumentError]

/-- The reasons of an execution that ends with an answer. -/
def answeringReasons : List ExecutionStopReason := [.completed,.policyBlocked]

/-- What the stop reason of the state tells at each node. -/
structure Execution.Settled (e : Execution) : Prop where
  finished : e.node = .finished →
    (e.state.finalAnswer.isSome ∧
      ∃ reason ∈ answeringReasons, e.state.stopReason = some reason.value) ∨
    (e.state.finalAnswer = none ∧
      ∃ reason ∈ stoppingReasons, e.state.stopReason = some reason.value)
  approval : e.node = .approvalRequired →
    e.state.stopReason = some ExecutionStopReason.approvalRequired.value
  input : e.node = .userInputRequired →
    e.state.stopReason = some ExecutionStopReason.inputRequired.value
  loop : e.node = .incrementLoop → ∀ r, e.state.stopReason = some r →
    ∃ reason ∈ stoppingReasons, r = reason.value

variable {c : GraphComponents} {policy : ExecutionPolicy} {input : GraphInput} {e e' : Execution}

theorem settled_goTo {node : GraphNode} {s : GraphState} (hfinished : node ≠ .finished)
    (happroval : node ≠ .approvalRequired) (hinput : node ≠ .userInputRequired)
    (hloop : node ≠ .incrementLoop) : (Execution.goTo node s).Settled :=
  ⟨fun h => absurd h hfinished,fun h => absurd h happroval,fun h => absurd h hinput,
    fun h => absurd h hloop⟩

/-- An end without an answer, for one of the reasons to stop. -/
theorem settled_stopped {s : GraphState} {reason : ExecutionStopReason}
    (hanswer : s.finalAnswer = none) (hreason : s.stopReason = some reason.value)
    (hmem : reason ∈ stoppingReasons) : (Execution.goTo .finished s).Settled :=
  ⟨fun _ => .inr ⟨hanswer,reason,hmem,hreason⟩,by simp,by simp,by simp⟩

theorem settled_answered {s : GraphState} (reason : ExecutionStopReason)
    (hanswer : s.finalAnswer.isSome) (hreason : s.stopReason = some reason.value)
    (hmem : reason ∈ answeringReasons) : (Execution.goTo .finished s).Settled :=
  ⟨fun _ => .inl ⟨hanswer,reason,hmem,hreason⟩,by simp,by simp,by simp⟩

theorem Move.settled (h : Move c input e e') (hclean : e.Clean) (he : e.Settled) : e'.Settled := by
  cases h with
  | resumed value _ => exact ⟨he.finished,he.approval,he.input,he.loop⟩
  | modelStopped limit hlimit =>
    refine settled_stopped (hclean.answer (by simp)) rfl ?_
    have hreason : limit.reason ∈ [.canceled,.budgetExhausted,.repeatedFailure] := by
      rcases hlimit with h | ⟨_,h⟩
      · exact modelLimit_reason h
      · exact modelLimit_reason h
    exact List.mem_append_left [.toolArgumentError] hreason
  | modelRaised _ => exact ⟨by simp,by simp,by simp,by simp⟩
  | modelCompleted content _ _ => exact settled_answered .completed rfl rfl (by decide)
  | modelCalled content toolCalls _ _ _ =>
    exact settled_goTo (by simp) (by simp) (by simp) (by simp)
  | checkStopped permission limit hlimit =>
    refine settled_stopped (hclean.answer (by simp)) rfl ?_
    rcases hlimit with h | h
    · rw [cancellationLimit_reason h]
      decide
    · rw [toolCallLimit_reason h]
      decide
  | checkInput request reason _ => exact ⟨by simp,by simp,fun _ => rfl,by simp⟩
  | checkDenied permission _ => exact settled_goTo (by simp) (by simp) (by simp) (by simp)
  | checkApproval permission message detail _ _ _ _ _ _ _ _ =>
    exact ⟨by simp,fun _ => rfl,by simp,by simp⟩
  | checkAllowed permission _ _ _ _ _ _ _ =>
    exact settled_goTo (by simp) (by simp) (by simp) (by simp)
  | approvalWaits interrupt index decision _ =>
    exact ⟨he.finished,he.approval,he.input,he.loop⟩
  | approvalEnds approval _ =>
    cases approval.approved with
    | true => exact settled_goTo (by simp) (by simp) (by simp) (by simp)
    | false => exact settled_goTo (by simp) (by simp) (by simp) (by simp)
  | inputWaits interrupt => exact ⟨he.finished,he.approval,he.input,he.loop⟩
  | inputRaised => exact ⟨by simp,by simp,by simp,by simp⟩
  | inputAnswered resume resumes pending _ =>
    exact ⟨by simp,by simp,by simp,fun _ r hr => by cases hr⟩
  | rejected finalAnswer reason source =>
    exact settled_answered .policyBlocked rfl rfl (by decide)
  | toolsRan answers _ => exact settled_goTo (by simp) (by simp) (by simp) (by simp)
  | @recorded s resumes =>
    refine ⟨by simp,by simp,by simp,fun _ r hr => ?_⟩
    rcases recordObservations_stops s.toAgentState
      ((latestToolMessages s.messages).map fun message => normalizeToolObservation c.ledger c.text
        message s.loopIndex (observationArtifactRefs s.decisions message)) with h | h | ⟨h,_,_⟩
    · cases h.symm.trans hr
      exact ⟨.toolArgumentError,by decide,rfl⟩
    · cases h.symm.trans hr
      exact ⟨.repeatedFailure,by decide,rfl⟩
    · have hnone : s.stopReason = none := hclean.running (by simp)
      cases (hnone.symm.trans h.symm).trans hr
  | loopStopped limit hlimit =>
    refine settled_stopped (hclean.answer (by simp)) rfl ?_
    rw [loopStepLimit_reason hlimit]
    decide
  | loopHalted reason _ hreason =>
    obtain ⟨r,hmem,rfl⟩ := he.loop rfl reason hreason
    exact settled_stopped (hclean.answer (by simp)) hreason hmem
  | loopContinued _ _ => exact settled_goTo (by simp) (by simp) (by simp) (by simp)

theorem settled_run {maxElapsedSeconds : Option ℚ} {messages : List GraphMessage}
    {run : List GraphInput}
    (h : exec (graphStep c) run (.initial policy maxElapsedSeconds messages) = some e) :
    e.Clean ∧ e.Settled := by
  refine exec_invariant (I := fun e => e.Clean ∧ e.Settled) (fun input e e' he hstep => ?_)
    ⟨clean_initial policy maxElapsedSeconds messages,by simp,by simp,by simp,by simp⟩ h
  exact ⟨graphStep_clean he.1 hstep,(graphStep_move he.1 hstep).settled he.1 he.2⟩

theorem summary_stopReason {state : AgentState} {reason : ExecutionStopReason}
    (h : state.stopReason = some reason.value) :
    (executionSummary state).stopReason = reason.value := by
  change stopReasonFromState state = reason.value
  rw [stopReasonFromState,h,Option.filter_some,if_pos (decide_eq_true reason.value_ne)]

/-- An execution that has ended has a reason, which its summary names, and the summary claims
completion exactly for the two reasons that come with an answer. A waiting one names what it
waits for. -/
theorem execution_ends (c : GraphComponents) (policy : ExecutionPolicy)
    (maxElapsedSeconds : Option ℚ) (messages : List GraphMessage) (run : List GraphInput)
    (h : exec (graphStep c) run (.initial policy maxElapsedSeconds messages) = some e) :
    (e.node = .finished → ∃ reason ∈ answeringReasons ++ stoppingReasons,
      (executionSummary e.state.toAgentState).stopReason = reason.value ∧
      ((executionSummary e.state.toAgentState).completionClaimed = true ↔
        reason ∈ answeringReasons)) ∧
    (e.interrupt.isSome → (executionSummary e.state.toAgentState).completionClaimed = false ∧
      ((e.node = .approvalRequired ∧ (executionSummary e.state.toAgentState).stopReason =
          ExecutionStopReason.approvalRequired.value) ∨
        (e.node = .userInputRequired ∧ (executionSummary e.state.toAgentState).stopReason =
          ExecutionStopReason.inputRequired.value))) := by
  obtain ⟨hclean,hsettled⟩ := settled_run h
  constructor
  · intro hfinished
    rcases hsettled.finished hfinished with ⟨hanswer,reason,hmem,hreason⟩ |
      ⟨hanswer,reason,hmem,hreason⟩
    · exact ⟨reason,List.mem_append_left _ hmem,summary_stopReason hreason,
        iff_of_true hanswer hmem⟩
    · refine ⟨reason,List.mem_append_right _ hmem,summary_stopReason hreason,iff_of_false ?_ ?_⟩
      · change ¬e.state.finalAnswer.isSome = true
        rw [hanswer]
        exact Bool.false_ne_true
      · have hdisjoint : ∀ reason ∈ stoppingReasons, reason ∉ answeringReasons := by decide
        exact hdisjoint reason hmem
  · intro hinterrupt
    rcases hclean.interrupt hinterrupt with hnode | hnode
    · refine ⟨?_,.inl ⟨hnode,summary_stopReason (hsettled.approval hnode)⟩⟩
      change e.state.finalAnswer.isSome = false
      rw [hclean.answer (by rw [hnode]; rintro ⟨⟩)]
      rfl
    · refine ⟨?_,.inr ⟨hnode,summary_stopReason (hsettled.input hnode)⟩⟩
      change e.state.finalAnswer.isSome = false
      rw [hclean.answer (by rw [hnode]; rintro ⟨⟩)]
      rfl

theorem execution_ends_sample : ∃ e,
    exec (graphStep lookupComponents) lookupRun (.initial deployPolicy none lookupMessages) =
      some e ∧
    ∃ reason ∈ answeringReasons ++ stoppingReasons,
      (executionSummary e.state.toAgentState).stopReason = reason.value ∧
      ((executionSummary e.state.toAgentState).completionClaimed = true ↔
        reason ∈ answeringReasons) :=
  ⟨_,rfl,(execution_ends lookupComponents deployPolicy none lookupMessages lookupRun rfl).1 rfl⟩

end Endings

section Failures

/-- The failures that the observations of a state show, against the budgets of the policy. -/
structure Execution.Failing (policy : ExecutionPolicy) (e : Execution) : Prop where
  counted : e.state.failureCount = (e.state.observations.filter Observation.isExecutionError).length
  running : e.node ∈ [.callModel,.checkPermission,.approvalRequired,.userInputRequired,.tools,
      .recordToolMessages] → e.state.failureCount < policy.maxFailures ∧
    e.state.toolArgumentErrorRounds ≤ policy.maxToolArgumentCorrections
  loop : e.node = .incrementLoop → e.state.stopReason = none →
    e.state.failureCount < policy.maxFailures ∧
    e.state.toolArgumentErrorRounds ≤ policy.maxToolArgumentCorrections

variable {c : GraphComponents} {policy : ExecutionPolicy} {input : GraphInput} {e e' : Execution}

/-- Nodes behind which no work begins. -/
theorem failing_of_node {node : GraphNode} {s : GraphState} {resumes : List Json}
    (hcounted : s.failureCount = (s.observations.filter Observation.isExecutionError).length)
    (hnode : node = .finished ∨ node = .raised ∨ node = .rejectTool) :
    (Execution.mk s node resumes none).Failing policy := by
  rcases hnode with rfl | rfl | rfl <;> exact ⟨hcounted,by simp,by simp⟩

theorem Move.failing (h : Move c input e e') (hwithin : e.Within policy) (hclean : e.Clean)
    (he : e.Failing policy) : e'.Failing policy := by
  have hcounted := he.counted
  cases h with
  | resumed value _ => exact ⟨hcounted,he.running,he.loop⟩
  | modelStopped limit _ => exact failing_of_node hcounted (.inl rfl)
  | modelRaised _ => exact failing_of_node hcounted (.inr (.inl rfl))
  | modelCompleted content _ _ => exact failing_of_node hcounted (.inl rfl)
  | modelCalled content toolCalls _ _ _ =>
    exact ⟨hcounted,fun _ => he.running (by simp),by simp⟩
  | checkStopped permission limit _ => exact failing_of_node hcounted (.inl rfl)
  | checkInput request reason _ => exact ⟨hcounted,fun _ => he.running (by simp),by simp⟩
  | checkDenied permission _ => exact failing_of_node hcounted (.inr (.inr rfl))
  | checkApproval permission message detail _ _ _ _ _ _ _ _ =>
    exact ⟨hcounted,fun _ => he.running (by simp),by simp⟩
  | checkAllowed permission _ _ _ _ _ _ _ => exact ⟨hcounted,fun _ => he.running (by simp),by simp⟩
  | approvalWaits interrupt index decision _ => exact ⟨hcounted,he.running,he.loop⟩
  | approvalEnds approval _ =>
    cases approval.approved with
    | true => exact ⟨hcounted,fun _ => he.running (by simp),by simp⟩
    | false => exact failing_of_node hcounted (.inr (.inr rfl))
  | inputWaits interrupt => exact ⟨hcounted,he.running,he.loop⟩
  | inputRaised => exact failing_of_node hcounted (.inr (.inl rfl))
  | inputAnswered resume resumes pending _ =>
    exact ⟨hcounted,by simp,fun _ _ => he.running (by simp)⟩
  | rejected finalAnswer reason source => exact failing_of_node hcounted (.inl rfl)
  | toolsRan answers _ => exact ⟨hcounted,fun _ => he.running (by simp),by simp⟩
  | @recorded s resumes =>
    let observations := (latestToolMessages s.messages).map fun message =>
      normalizeToolObservation c.ledger c.text message s.loopIndex
        (observationArtifactRefs s.decisions message)
    have htallies := recordObservations_tallies s.toAgentState observations
    have hobservations : (recordObservations s.toAgentState observations).observations =
        s.observations ++ observations := congrArg Prod.fst htallies
    have hfailures : (recordObservations s.toAgentState observations).failureCount =
        s.failureCount+(observations.filter Observation.isExecutionError).length :=
      congrArg (fun t => t.2.1) htallies
    have hpolicy : s.executionPolicy = policy := hwithin.samePolicy
    have hrunning := he.running (by simp)
    refine ⟨?_,by simp,fun _ hnone => ?_⟩
    · change (recordObservations s.toAgentState observations).failureCount =
        ((recordObservations s.toAgentState observations).observations.filter _).length
      rw [hobservations,hfailures,List.filter_append,List.length_append]
      exact congrArg (·+_) hcounted
    · change (recordObservations s.toAgentState observations).stopReason = none at hnone
      change (recordObservations s.toAgentState observations).failureCount < _ ∧
        (recordObservations s.toAgentState observations).toolArgumentErrorRounds ≤ _
      rcases recordObservations_stops s.toAgentState observations with h | h | ⟨_,hless,hrounds⟩
      · cases h.symm.trans hnone
      · cases h.symm.trans hnone
      · rw [hpolicy] at hless hrounds
        refine ⟨hless,?_⟩
        rcases hrounds with hsame | hle
        · rw [hsame]
          exact hrunning.2
        · exact hle
  | loopStopped limit _ => exact failing_of_node hcounted (.inl rfl)
  | loopHalted reason _ _ => exact failing_of_node hcounted (.inl rfl)
  | loopContinued _ hreason => exact ⟨hcounted,fun _ => he.loop rfl hreason,by simp⟩

theorem failing_run {maxElapsedSeconds : Option ℚ} {messages : List GraphMessage}
    {run : List GraphInput}
    (h : exec (graphStep c) run (.initial policy maxElapsedSeconds messages) = some e) :
    e.Failing policy := by
  have hstart : (Execution.initial policy maxElapsedSeconds messages).Failing policy :=
    ⟨rfl,fun _ => ⟨policy.failures_pos,Nat.zero_le _⟩,by simp⟩
  have hinvariant := exec_invariant (I := fun e => e.Sound policy ∧ e.Failing policy)
    (fun input e e' he hstep => ⟨he.1.step hstep,
      (graphStep_move he.1.clean hstep).failing he.1.within he.1.clean he.2⟩)
    ⟨sound_initial policy maxElapsedSeconds messages,hstart⟩ h
  exact hinvariant.2

/-- A step that calls the model or runs the body of a tool finds fewer failed observations than the
policy allows, and no more rounds of invalid arguments. -/
theorem work_within_failures (c : GraphComponents) (policy : ExecutionPolicy)
    (maxElapsedSeconds : Option ℚ) (messages : List GraphMessage) (run : List GraphInput)
    (h : exec (graphStep c) run (.initial policy maxElapsedSeconds messages) = some e)
    (hwork : 0 < invokesModel c input e ∨ 0 < bodiesRun c input e) :
    (e.state.observations.filter Observation.isExecutionError).length < policy.maxFailures ∧
      e.state.toolArgumentErrorRounds ≤ policy.maxToolArgumentCorrections := by
  have hfailing := failing_run h
  rw [← hfailing.counted]
  refine hfailing.running ?_
  rcases hwork with hmodel | hbody
  · rw [invokesModel_node hmodel]
    decide
  · rw [bodiesRun_node hbody]
    decide

theorem work_within_failures_sample : ∃ e,
    exec (graphStep lookupComponents) (lookupRun.take 5)
      (.initial deployPolicy none lookupMessages) = some e ∧
    (e.state.observations.filter Observation.isExecutionError).length <
      deployPolicy.maxFailures ∧
    e.state.toolArgumentErrorRounds ≤ deployPolicy.maxToolArgumentCorrections :=
  ⟨_,rfl,work_within_failures lookupComponents deployPolicy none lookupMessages (lookupRun.take 5)
    rfl (.inl (by decide : 0 < invokesModel lookupComponents
      (lookupRun.getLast (List.cons_ne_nil _ _)) _))⟩

end Failures

section Deadline

/-- All that the step reads of the clock is past the limit. -/
def GraphInput.Late (limit : ℚ) : GraphInput → Prop
  | .model before after _ => limit < before.elapsed ∧ limit < after.elapsed
  | .permission reading _ => limit < reading.elapsed
  | .loop elapsed => limit < elapsed
  | _ => True

/-- The calls of a batch that has been let through, or waits for its approvals. -/
def batchLeft (e : Execution) : ℤ :=
  match e.node with
  | .approvalRequired | .tools => (latestToolCalls e.state.messages).length
  | _ => 0

variable {c : GraphComponents} {policy : ExecutionPolicy} {input : GraphInput} {e e' : Execution}
  {limit : ℚ}

theorem elapsedLimit_late {s : GraphState} {elapsed : ℚ} (hmax : s.maxElapsedSeconds = some limit)
    (hlate : limit < elapsed) : elapsedLimit c s elapsed ≠ none := by
  rw [elapsedLimit,hmax]
  simp only
  rw [if_neg (not_le.mpr hlate)]
  rintro ⟨⟩

theorem toolCallLimit_late {s : GraphState} {elapsed : ℚ} {requested : Nat}
    (hmax : s.maxElapsedSeconds = some limit) (hlate : limit < elapsed) :
    toolCallLimit c s elapsed requested ≠ none := by
  rw [toolCallLimit,Ne,Option.or_eq_none_iff]
  exact fun h => elapsedLimit_late hmax hlate h.1

theorem modelLimit_late {s : GraphState} {reading : Reading}
    (hmax : s.maxElapsedSeconds = some limit) (hlate : limit < reading.elapsed) :
    modelLimit c s reading ≠ none := by
  rw [modelLimit,Ne,Option.or_eq_none_iff,modelCallLimit,Option.or_eq_none_iff]
  exact fun h => elapsedLimit_late hmax hlate h.2.1

theorem loopStepLimit_late {s : GraphState} {elapsed : ℚ} {next : Int}
    (hmax : s.maxElapsedSeconds = some limit) (hlate : limit < elapsed) :
    loopStepLimit c s elapsed next ≠ none := by
  rw [loopStepLimit,Ne,Option.or_eq_none_iff]
  exact fun h => elapsedLimit_late hmax hlate h.1

theorem Move.maxElapsedSeconds (h : Move c input e e') :
    e'.state.maxElapsedSeconds = e.state.maxElapsedSeconds := by
  cases h <;> rfl

/-- An execution under a limit of its age. -/
structure Execution.Timed (policy : ExecutionPolicy) (limit : ℚ) (e : Execution) : Prop where
  sound : e.Sound policy
  limited : e.state.maxElapsedSeconds = some limit

theorem Execution.Timed.step (he : e.Timed policy limit)
    (h : graphStep c input e = some e') : e'.Timed policy limit :=
  ⟨he.sound.step h,(graphStep_move he.sound.clean h).maxElapsedSeconds.trans he.limited⟩

theorem Move.late (h : Move c input e e') (hlate : input.Late limit)
    (he : e.Timed policy limit) : invokesModel c input e = 0 ∧
      bodiesRun c input e+batchLeft e' ≤ batchLeft e ∧
      (e'.node = .finished → (e.node = .rejectTool ∧
          e'.state.stopReason = some ExecutionStopReason.policyBlocked.value) ∨
        e'.state.stopReason = some ExecutionStopReason.canceled.value ∨
        e'.state.stopReason = some ExecutionStopReason.budgetExhausted.value) := by
  have hmax := he.limited
  cases h with
  | @resumed e value hinterrupt =>
    obtain ⟨interrupt,hsome⟩ := Option.isSome_iff_exists.mp hinterrupt
    refine ⟨by simp [invokesModel,hsome],by simp [bodiesRun,hsome,batchLeft],fun hnode => ?_⟩
    rcases he.sound.clean.interrupt hinterrupt with h | h
    · cases h.symm.trans hnode
    · cases h.symm.trans hnode
  | @modelStopped s resumes before after outcome stop hlimit =>
    rcases hlimit with hbefore | ⟨hbefore,_⟩
    · refine ⟨by simp [invokesModel,hbefore],le_rfl,fun _ => .inr ?_⟩
      rw [modelLimit,Option.or_eq_some_iff] at hbefore
      rcases hbefore with h | ⟨_,h⟩
      · exact .inl (congrArg (fun r => some (ExecutionStopReason.value r))
          (cancellationLimit_reason h))
      · rw [modelCallLimit,Option.or_eq_some_iff] at h
        rcases h with h | ⟨h,_⟩
        · exact .inr (congrArg (fun r => some (ExecutionStopReason.value r))
            (elapsedLimit_reason h))
        · exact absurd h (elapsedLimit_late hmax hlate.1)
    · exact absurd hbefore (modelLimit_late hmax hlate.1)
  | modelRaised hbefore => exact absurd hbefore (modelLimit_late hmax hlate.1)
  | modelCompleted content hbefore _ => exact absurd hbefore (modelLimit_late hmax hlate.1)
  | modelCalled content toolCalls hbefore _ _ =>
    exact absurd hbefore (modelLimit_late hmax hlate.1)
  | checkStopped permission stop hlimit =>
    refine ⟨rfl,le_rfl,fun _ => .inr ?_⟩
    rcases hlimit with h | h
    · exact .inl (congrArg (fun r => some (ExecutionStopReason.value r))
        (cancellationLimit_reason h))
    · exact .inr (congrArg (fun r => some (ExecutionStopReason.value r)) (toolCallLimit_reason h))
  | checkInput request reason _ => exact ⟨rfl,le_rfl,by simp⟩
  | checkDenied permission _ => exact ⟨rfl,le_rfl,by simp⟩
  | checkApproval permission message detail _ _ hlimit _ _ _ _ _ =>
    exact absurd hlimit (toolCallLimit_late hmax hlate)
  | checkAllowed permission _ _ hlimit _ _ _ _ =>
    exact absurd hlimit (toolCallLimit_late hmax hlate)
  | approvalWaits interrupt index decision _ => exact ⟨rfl,by simp [bodiesRun,batchLeft],by simp⟩
  | approvalEnds approval _ =>
    cases approval.approved with
    | true =>
      exact ⟨rfl,by simp [bodiesRun,batchLeft,Execution.goTo,GraphState.clearPause],by simp⟩
    | false => exact ⟨rfl,by simp [bodiesRun,batchLeft,Execution.goTo],by simp⟩
  | inputWaits interrupt => exact ⟨rfl,le_rfl,by simp⟩
  | inputRaised => exact ⟨rfl,le_rfl,by simp⟩
  | inputAnswered resume resumes pending _ => exact ⟨rfl,le_rfl,by simp⟩
  | rejected finalAnswer reason source => exact ⟨rfl,le_rfl,fun _ => .inl ⟨rfl,rfl⟩⟩
  | @toolsRan s resumes answers hlength =>
    refine ⟨rfl,?_,by simp⟩
    have hexecuted := List.length_filter_le ToolRun.isExecuted (toolRuns c s answers)
    have hruns : (toolRuns c s answers).length = (latestToolCalls s.messages).length :=
      (toolsRan_block (he.sound.within.pending (by simp)) hlength).2
    simp only [bodiesRun,batchLeft,Execution.goTo]
    omega
  | recorded => exact ⟨rfl,le_rfl,by simp⟩
  | loopStopped stop hlimit =>
    exact ⟨rfl,le_rfl,fun _ => .inr (.inr (congrArg (fun r => some (ExecutionStopReason.value r))
      (loopStepLimit_reason hlimit)))⟩
  | loopHalted reason hlimit _ => exact absurd hlimit (loopStepLimit_late hmax hlate)
  | loopContinued hlimit _ => exact absurd hlimit (loopStepLimit_late hmax hlate)

/-- After the deadline no call of the model begins, and of the tools only the batch that had been
let through, or was waiting for its approvals, can still run. An execution that comes to its end
then does so because its budget is exhausted, unless it is canceled or its batch is rejected. -/
theorem late_work (c : GraphComponents) (policy : ExecutionPolicy) (limit : ℚ)
    (messages : List GraphMessage) (run late : List GraphInput)
    (h : exec (graphStep c) run (.initial policy (some limit) messages) = some e)
    (hlate : ∀ input ∈ late, input.Late limit) (hrun : exec (graphStep c) late e = some e') :
    spent (graphStep c) (invokesModel c) late e = 0 ∧
      spent (graphStep c) (bodiesRun c) late e ≤ batchLeft e ∧
      (e.node ≠ .finished → e'.node = .finished →
        e'.state.stopReason ∈ [some ExecutionStopReason.budgetExhausted.value,
          some ExecutionStopReason.canceled.value,
          some ExecutionStopReason.policyBlocked.value]) := by
  have hstart : (Execution.initial policy (some limit) messages).Timed policy limit :=
    ⟨sound_initial policy (some limit) messages,rfl⟩
  have htimed : e.Timed policy limit := exec_invariant (fun _ _ _ he h => he.step h) hstart h
  have hmoves : ∀ input e e', input.Late limit → e.Timed policy limit →
      graphStep c input e = some e' → _ := fun input e e' hlate he hstep =>
    (graphStep_move he.sound.clean hstep).late hlate he
  have hkeeps : ∀ input e e', GraphInput.Late limit input → Execution.Timed policy limit e →
      graphStep c input e = some e' → e'.Timed policy limit := fun _ _ _ _ he h => he.step h
  refine ⟨?_,?_,?_⟩
  · have hmodel := spent_le_of (invokesModel c) (fun _ => 0) hkeeps
      (fun input e e' hlate he hstep => by rw [(hmoves input e e' hlate he hstep).1]; rfl) hlate
      htimed hrun
    omega
  · have hbodies := spent_le_of (bodiesRun c) batchLeft hkeeps
      (fun input e e' hlate he hstep => (hmoves input e e' hlate he hstep).2.1) hlate htimed hrun
    have hleft : 0 ≤ batchLeft e' := by
      unfold batchLeft
      split <;> omega
    omega
  · intro hnode hfinished
    clear h hstart
    induction late generalizing e with
    | nil =>
      cases hrun
      exact absurd hfinished hnode
    | cons input late ih =>
      obtain ⟨e₁,hstep,hrest⟩ := exec_cons_eq_some.mp hrun
      rw [List.forall_mem_cons] at hlate
      by_cases hend : e₁.node = .finished
      · have hstuck : late = [] := by
          cases late with
          | nil => rfl
          | cons input' late =>
            obtain ⟨e₂,hstep',_⟩ := exec_cons_eq_some.mp hrest
            have hclean := (htimed.step hstep).sound.clean
            have hmove := graphStep_move hclean hstep'
            cases hmove with
            | resumed value hinterrupt =>
              rcases hclean.interrupt hinterrupt with h | h
              · cases h.symm.trans hend
              · cases h.symm.trans hend
            | _ => cases hend
        subst hstuck
        cases hrest
        rcases (hmoves input e e' hlate.1 htimed hstep).2.2 hend with ⟨_,h⟩ | h | h
        · rw [h]
          simp
        · rw [h]
          simp
        · rw [h]
          simp
      · exact ih hlate.2 hrest (htimed.step hstep) hend

/-- The deadline passes while the tool of the first loop runs. -/
def lateRun : List GraphInput := (lookupRun.drop 2).take 2 ++ [.loop 61]

theorem late_work_sample : ∃ e e',
    exec (graphStep lookupComponents) (lookupRun.take 2)
      (.initial deployPolicy (some 60) lookupMessages) = some e ∧
    exec (graphStep lookupComponents) lateRun e = some e' ∧
    spent (graphStep lookupComponents) (bodiesRun lookupComponents) lateRun e ≤ batchLeft e :=
  ⟨_,_,rfl,rfl,(late_work lookupComponents deployPolicy 60 lookupMessages (lookupRun.take 2)
    lateRun rfl (by simp [lateRun,lookupRun,GraphInput.Late]; norm_num) rfl).2.1⟩

end Deadline

end VermayAgent
