import VermayAgent.ExecutionGraph
import VermayAgent.Library.Budget

/-! What a step of the execution graph can do.
A move names the branch that a node takes and the edge that follows it; the keys of the state that
the edges read are kept clean between the loops. -/
namespace VermayAgent
open Library

section Reasons

theorem ExecutionStopReason.value_ne (reason : ExecutionStopReason) : reason.value ≠ "" := by
  cases reason <;> decide

theorem nonEmpty_value (reason : ExecutionStopReason) :
    nonEmpty (some reason.value) = some reason.value := by
  rw [nonEmpty,Option.filter_some,if_pos (decide_eq_true reason.value_ne)]

variable {c : GraphComponents} {s : GraphState}

@[simp] theorem stop_stopReason (limit : ExecutionLimit) :
    (s.stop limit).stopReason = some limit.reason.value := rfl

@[simp] theorem stop_finalAnswer (limit : ExecutionLimit) :
    (s.stop limit).finalAnswer = s.finalAnswer := rfl

@[simp] theorem stop_policy (limit : ExecutionLimit) :
    (s.stop limit).executionPolicy = s.executionPolicy := rfl

@[simp] theorem stop_counts (limit : ExecutionLimit) :
    (s.stop limit).modelCalls = s.modelCalls ∧ (s.stop limit).toolCalls = s.toolCalls ∧
      (s.stop limit).loopIndex = s.loopIndex ∧ (s.stop limit).maxLoops = s.maxLoops :=
  ⟨rfl,rfl,rfl,rfl⟩

theorem cancellationLimit_reason {canceled : Bool} {limit : ExecutionLimit}
    (h : cancellationLimit canceled = some limit) : limit.reason = .canceled := by
  cases canceled with
  | false => cases h
  | true =>
    cases h
    rfl

theorem elapsedLimit_reason {elapsed : ℚ} {limit : ExecutionLimit}
    (h : elapsedLimit c s elapsed = some limit) : limit.reason = .budgetExhausted := by
  rw [elapsedLimit] at h
  split at h
  · cases h
  · split_ifs at h
    cases h
    rfl

end Reasons

@[simp] theorem goTo_node (node : GraphNode) (s : GraphState) :
    (Execution.goTo node s).node = node := rfl

@[simp] theorem goTo_interrupt (node : GraphNode) (s : GraphState) :
    (Execution.goTo node s).interrupt = none := rfl

@[simp] theorem initial_node (policy : ExecutionPolicy) (maxElapsedSeconds : Option ℚ)
    (messages : List GraphMessage) :
    (Execution.initial policy maxElapsedSeconds messages).node = .callModel := rfl

@[simp] theorem initial_interrupt (policy : ExecutionPolicy) (maxElapsedSeconds : Option ℚ)
    (messages : List GraphMessage) :
    (Execution.initial policy maxElapsedSeconds messages).interrupt = none := rfl

/-- The keys of the state that the edges read, at each node. -/
structure Execution.Clean (e : Execution) : Prop where
  loops : e.state.maxLoops = e.state.executionPolicy.maxLoopSteps
  answer : e.node ≠ .finished → e.state.finalAnswer = none
  running : e.node ∈ [.callModel,.checkPermission,.tools,.recordToolMessages] →
    e.state.stopReason = none
  permission : e.node ∈ [.callModel,.checkPermission] → e.state.permission = none
  interrupt : e.interrupt.isSome → e.node = .approvalRequired ∨ e.node = .userInputRequired
  stops : ∀ reason, e.state.stopReason = some reason → reason ≠ ""
  reachable : e.node ≠ .maxLoops

/-- The state after a response of the model. -/
def GraphState.answered (s : GraphState) (content : Json) (toolCalls : List ToolCall) :
    GraphState :=
  {s with messages := s.messages ++ [.ai content toolCalls], modelCalls := s.modelCalls+1}

/-- The state after a final answer of the model. -/
def GraphState.completed (c : GraphComponents) (s : GraphState) (content : Json) : GraphState :=
  {s.answered content [] with
    finalAnswer := some (c.text.str content)
    stopReason := some ExecutionStopReason.completed.value
    stopDetail := .obj [("source",.str "model_final_answer")]
    stopMessage := none}

/-- The state with tool messages behind its messages. -/
def GraphState.append (s : GraphState) (messages : List ToolMessage) : GraphState :=
  {s with messages := s.messages ++ messages.map .tool}

/-- The state of the next loop. -/
def GraphState.nextLoop (s : GraphState) : GraphState :=
  {s with loopIndex := s.loopIndex+1, permission := none}

/-- What a step does, branch by branch. -/
inductive Move (c : GraphComponents) : GraphInput → Execution → Execution → Prop
  | resumed {e : Execution} (value : Json) (h : e.interrupt.isSome) :
      Move c (.resume value) e {e with resumes := e.resumes ++ [value], interrupt := none}
  | modelStopped {s : GraphState} {resumes : List Json} {before after : Reading}
      {outcome : ModelOutcome} (limit : ExecutionLimit)
      (h : modelLimit c s before = some limit ∨
        modelLimit c s before = none ∧ modelLimit c s after = some limit) :
      Move c (.model before after outcome) ⟨s,.callModel,resumes,none⟩
        (.goTo .finished (s.stop limit))
  | modelRaised {s : GraphState} {resumes : List Json} {before after : Reading}
      {outcome : ModelOutcome} (hbefore : modelLimit c s before = none) :
      Move c (.model before after outcome) ⟨s,.callModel,resumes,none⟩ ⟨s,.raised,resumes,none⟩
  | modelCompleted {s : GraphState} {resumes : List Json} {before after : Reading} (content : Json)
      (hbefore : modelLimit c s before = none) (hafter : modelLimit c s after = none) :
      Move c (.model before after (.response content [])) ⟨s,.callModel,resumes,none⟩
        (.goTo .finished (s.completed c content))
  | modelCalled {s : GraphState} {resumes : List Json} {before after : Reading} (content : Json)
      (toolCalls : List ToolCall) (hbefore : modelLimit c s before = none)
      (hafter : modelLimit c s after = none) (hcalls : toolCalls ≠ []) :
      Move c (.model before after (.response content toolCalls)) ⟨s,.callModel,resumes,none⟩
        (.goTo .checkPermission (s.answered content toolCalls))
  | checkStopped {s : GraphState} {resumes : List Json} {reading : Reading}
      {references : List (Option ToolInvocationReference)} (permission : Option Permission)
      (limit : ExecutionLimit)
      (h : cancellationLimit reading.canceled = some limit ∨
        toolCallLimit c s reading.elapsed (latestToolCalls s.messages).length = some limit) :
      Move c (.permission reading references) ⟨s,.checkPermission,resumes,none⟩
        (.goTo .finished ({s with permission := permission}.stop limit))
  | checkInput {s : GraphState} {resumes : List Json} {reading : Reading}
      {references : List (Option ToolInvocationReference)} (request : ToolCall) (reason : String)
      (hmem : request ∈ latestToolCalls s.messages) :
      Move c (.permission reading references) ⟨s,.checkPermission,resumes,none⟩
        (.goTo .userInputRequired ((s.permit ⟨.inputRequired,reason,some request,
          latestToolCalls s.messages,none,[]⟩).pause .inputRequired reason
            (toolCallIdDetail request)))
  | checkDenied {s : GraphState} {resumes : List Json} {reading : Reading}
      {references : List (Option ToolInvocationReference)} (permission : Permission)
      (h : latestToolCalls s.messages = [] ∨
        toolCallLimit c s reading.elapsed (latestToolCalls s.messages).length = none) :
      Move c (.permission reading references) ⟨s,.checkPermission,resumes,none⟩
        (.goTo .rejectTool (s.permit permission))
  | checkApproval {s : GraphState} {resumes : List Json} {reading : Reading}
      {references : List (Option ToolInvocationReference)} (permission : Permission)
      (message : String) (detail : Json)
      (hlength : references.length = (latestToolCalls s.messages).length)
      (hinput : ∀ call ∈ latestToolCalls s.messages, call.name ≠ requestUserInputToolName)
      (hlimit : toolCallLimit c s reading.elapsed (latestToolCalls s.messages).length = none)
      (hstatus : permission.status = .approvalRequired)
      (hcalls : permission.toolCalls = latestToolCalls s.messages)
      (hdecisions : permission.decisions =
        batchDecisions c (latestToolCalls s.messages) references)
      (hdenied : ∀ d ∈ permission.decisions, d.status ≠ .denied)
      (hwaits : ∃ d ∈ permission.decisions, d.status = .approvalRequired) :
      Move c (.permission reading references) ⟨s,.checkPermission,resumes,none⟩
        (.goTo .approvalRequired ((s.permit permission).pause .approvalRequired message detail))
  | checkAllowed {s : GraphState} {resumes : List Json} {reading : Reading}
      {references : List (Option ToolInvocationReference)} (permission : Permission)
      (hlength : references.length = (latestToolCalls s.messages).length)
      (hinput : ∀ call ∈ latestToolCalls s.messages, call.name ≠ requestUserInputToolName)
      (hlimit : toolCallLimit c s reading.elapsed (latestToolCalls s.messages).length = none)
      (hcalls : permission.toolCalls = latestToolCalls s.messages)
      (hdecisions : permission.decisions =
        batchDecisions c (latestToolCalls s.messages) references)
      (hstatus : permission.status = .allowed)
      (hallowed : c.tools.permissionGate.isSome →
        ∀ d ∈ permission.decisions, d.status = .allowed) :
      Move c (.permission reading references) ⟨s,.checkPermission,resumes,none⟩
        (.goTo .tools (s.permit permission))
  | approvalWaits {s : GraphState} {resumes : List Json} (interrupt : Interrupt) (index : Nat)
      (decision : ToolCallDecision)
      (h : ∀ permission, s.permission = some permission →
        approvalLoop c permission.approvalDecisions resumes 1 ⟨false,"approval rejected"⟩ =
          .waiting index decision) :
      Move c .node ⟨s,.approvalRequired,resumes,none⟩
        ⟨s,.approvalRequired,resumes,some interrupt⟩
  | approvalEnds {s : GraphState} {resumes : List Json} (approval : Approval)
      (h : ∀ permission, s.permission = some permission →
        approvalLoop c permission.approvalDecisions resumes 1 ⟨false,"approval rejected"⟩ =
          .finished approval) :
      Move c .node ⟨s,.approvalRequired,resumes,none⟩
        (.goTo (if approval.approved then .tools else .rejectTool)
          {s with approval := some approval}.clearPause)
  | inputWaits {s : GraphState} (interrupt : Interrupt) :
      Move c .node ⟨s,.userInputRequired,[],none⟩ ⟨s,.userInputRequired,[],some interrupt⟩
  | inputRaised {s : GraphState} {resumes : List Json} :
      Move c .node ⟨s,.userInputRequired,resumes,none⟩ ⟨s,.raised,resumes,none⟩
  | inputAnswered {s : GraphState} (resume : Json) (resumes : List Json)
      (pending : List ToolCall)
      (hpending : ∀ permission, s.permission = some permission → permission.toolCalls ≠ [] →
        pending = permission.toolCalls) :
      Move c .node ⟨s,.userInputRequired,resume::resumes,none⟩
        (.goTo .incrementLoop (s.append (pending.map fun call =>
          inputToolMessage (resumeText c resume) call)).clearPause)
  | rejected {s : GraphState} {resumes : List Json} (finalAnswer reason source : String) :
      Move c .node ⟨s,.rejectTool,resumes,none⟩
        (.goTo .finished (s.reject finalAnswer reason source))
  | toolsRan {s : GraphState} {resumes : List Json} (answers : List CallAnswers)
      (hlength : answers.length = (latestToolCalls s.messages).length) :
      Move c (.tools answers) ⟨s,.tools,resumes,none⟩
        (.goTo .recordToolMessages (s.append ((toolRuns c s answers).map (·.message))))
  | recorded {s : GraphState} {resumes : List Json} :
      Move c .node ⟨s,.recordToolMessages,resumes,none⟩
        (.goTo .incrementLoop (recordToolMessagesNode c s))
  | loopStopped {s : GraphState} {resumes : List Json} {elapsed : ℚ} (limit : ExecutionLimit)
      (h : loopStepLimit c s elapsed (s.loopIndex+1) = some limit) :
      Move c (.loop elapsed) ⟨s,.incrementLoop,resumes,none⟩
        (.goTo .finished (s.nextLoop.stop limit))
  | loopHalted {s : GraphState} {resumes : List Json} {elapsed : ℚ} (reason : String)
      (h : loopStepLimit c s elapsed (s.loopIndex+1) = none)
      (hreason : s.stopReason = some reason) :
      Move c (.loop elapsed) ⟨s,.incrementLoop,resumes,none⟩ (.goTo .finished s.nextLoop)
  | loopContinued {s : GraphState} {resumes : List Json} {elapsed : ℚ}
      (h : loopStepLimit c s elapsed (s.loopIndex+1) = none) (hreason : s.stopReason = none) :
      Move c (.loop elapsed) ⟨s,.incrementLoop,resumes,none⟩ (.goTo .callModel s.nextLoop)

section Inversion

variable {c : GraphComponents} {s : GraphState} {resumes : List Json}

theorem modelStopped_route {limit : ExecutionLimit} (hanswer : s.finalAnswer = none) :
    routeAfterModel (s.stop limit) = .finished := by
  rw [routeAfterModel,stop_finalAnswer,hanswer,stop_stopReason,nonEmpty_value]
  rfl

theorem latestToolCalls_append (messages : List GraphMessage) (content : Json)
    (toolCalls : List ToolCall) :
    latestToolCalls (messages ++ [.ai content toolCalls]) = toolCalls := by
  rw [latestToolCalls,List.reverse_append]
  rfl

theorem callModel_move {before after : Reading} {outcome : ModelOutcome}
    (hanswer : s.finalAnswer = none) (hrunning : s.stopReason = none) :
    Move c (.model before after outcome) ⟨s,.callModel,resumes,none⟩
      (Execution.finish ⟨s,.callModel,resumes,none⟩ routeAfterModel
        (callModelNode c s before after outcome)) := by
  unfold callModelNode
  cases hbefore : modelLimit c s before with
  | some limit =>
    simp only [Execution.finish,modelStopped_route hanswer]
    exact .modelStopped limit (.inl hbefore)
  | none =>
    simp only
    cases outcome with
    | failed => exact .modelRaised hbefore
    | providerError =>
      cases hafter : modelLimit c s after with
      | some limit =>
        simp only [Execution.finish,modelStopped_route hanswer]
        exact .modelStopped limit (.inr ⟨hbefore,hafter⟩)
      | none =>
        simp only
        exact .modelRaised hbefore
    | response content toolCalls =>
      cases hafter : modelLimit c s after with
      | some limit =>
        simp only [Execution.finish,modelStopped_route hanswer]
        exact .modelStopped limit (.inr ⟨hbefore,hafter⟩)
      | none =>
        simp only
        by_cases hdeclared : (declaredUnexecutedToolCall c content toolCalls).isSome = true
        · rw [if_pos hdeclared]
          exact .modelRaised hbefore
        rw [if_neg hdeclared]
        by_cases hcalls : toolCalls = []
        · subst hcalls
          exact .modelCompleted content hbefore hafter
        · rw [if_neg hcalls,Execution.finish]
          have hroute : routeAfterModel (s.answered content toolCalls) = .checkPermission := by
            rw [routeAfterModel]
            simp [GraphState.answered,hanswer,hrunning,nonEmpty,latestToolCalls_append,hcalls]
          change Move c _ _ (Execution.goTo (routeAfterModel (s.answered content toolCalls))
            (s.answered content toolCalls))
          rw [hroute]
          exact .modelCalled content toolCalls hbefore hafter hcalls

theorem routeAfterPermission_stop {limit : ExecutionLimit} {permission : Option Permission}
    (h : ∀ p, permission = some p → p.status = .budgetExhausted) :
    routeAfterPermission ({s with permission := permission}.stop limit) = .finished := by
  rw [routeAfterPermission]
  have hperm : ({s with permission := permission}.stop limit).permission = permission := rfl
  rw [hperm,stop_stopReason,nonEmpty_value]
  cases permission with
  | none => rfl
  | some p => simp [h p rfl]

theorem withPermission_none (h : s.permission = none) : {s with permission := none} = s := by
  cases s
  cases h
  rfl

theorem find?_none_status {decisions : List ToolCallDecision} {status : DecisionStatus}
    (h : decisions.find? (fun d => d.status = status) = none) :
    ∀ d ∈ decisions, d.status ≠ status := by
  intro d hd
  simpa using List.find?_eq_none.mp h d hd

theorem decideBatch_move {reading : Reading} {references : List (Option ToolInvocationReference)}
    (hrunning : s.stopReason = none)
    (hlength : references.length = (latestToolCalls s.messages).length)
    (hinput : ∀ call ∈ latestToolCalls s.messages, call.name ≠ requestUserInputToolName)
    (hlimit : toolCallLimit c s reading.elapsed (latestToolCalls s.messages).length = none) :
    Move c (.permission reading references) ⟨s,.checkPermission,resumes,none⟩
      (.goTo (routeAfterPermission (decideBatch c s (latestToolCalls s.messages)
        (batchDecisions c (latestToolCalls s.messages) references)))
          (decideBatch c s (latestToolCalls s.messages)
            (batchDecisions c (latestToolCalls s.messages) references))) := by
  rw [decideBatch]
  cases hgate : c.tools.permissionGate with
  | none => exact .checkAllowed _ hlength hinput hlimit rfl rfl rfl (by simp [hgate])
  | some gate =>
    simp only
    cases hdenied : (batchDecisions c (latestToolCalls s.messages) references).find?
        fun d => d.status = .denied with
    | some first =>
      simp only
      have hroute : routeAfterPermission (s.permit (first.permission .denied
          (latestToolCalls s.messages) (batchDecisions c (latestToolCalls s.messages)
            references))) = .rejectTool := by
        simp [routeAfterPermission,GraphState.permit,ToolCallDecision.permission,hrunning,nonEmpty]
      rw [hroute]
      exact .checkDenied _ (.inr hlimit)
    | none =>
      simp only
      cases hwaits : (batchDecisions c (latestToolCalls s.messages) references).find?
          fun d => d.status = .approvalRequired with
      | some first =>
        exact .checkApproval _ _ _ hlength hinput hlimit rfl rfl rfl (find?_none_status hdenied)
          ⟨first,List.mem_of_find?_eq_some hwaits,by simpa using List.find?_some hwaits⟩
      | none =>
        refine .checkAllowed _ hlength hinput hlimit rfl rfl rfl fun _ d hd => ?_
        have hnot := find?_none_status hdenied d hd
        have hnotWaits := find?_none_status hwaits d hd
        cases hstatus : d.status with
        | allowed => rfl
        | approvalRequired => exact absurd hstatus hnotWaits
        | denied => exact absurd hstatus hnot

theorem checkPermission_move {reading : Reading}
    {references : List (Option ToolInvocationReference)} (hrunning : s.stopReason = none)
    (hpermission : s.permission = none)
    (hlength : references.length = (latestToolCalls s.messages).length) :
    Move c (.permission reading references) ⟨s,.checkPermission,resumes,none⟩
      (.goTo (routeAfterPermission (checkPermissionNode c s reading references))
        (checkPermissionNode c s reading references)) := by
  rw [checkPermissionNode]
  cases hcanceled : cancellationLimit reading.canceled with
  | some limit =>
    have hroute : routeAfterPermission ({s with permission := none}.stop limit) = .finished :=
      routeAfterPermission_stop (by simp)
    rw [withPermission_none hpermission] at hroute
    have hmove : Move c (.permission reading references) ⟨s,.checkPermission,resumes,none⟩
        (.goTo .finished ({s with permission := none}.stop limit)) :=
      .checkStopped none limit (.inl hcanceled)
    rw [withPermission_none hpermission] at hmove
    simp only [hroute]
    exact hmove
  | none =>
    simp only
    by_cases hcalls : latestToolCalls s.messages = []
    · rw [if_pos hcalls]
      have hroute : routeAfterPermission (s.permit ⟨.denied,"missing tool call",none,[],none,[]⟩) =
          .rejectTool := by
        simp [routeAfterPermission,GraphState.permit,hrunning,nonEmpty]
      rw [hroute]
      exact .checkDenied _ (.inl hcalls)
    rw [if_neg hcalls]
    cases hinput : (latestToolCalls s.messages).find?
        fun toolCall => toolCall.name = requestUserInputToolName with
    | some request => exact .checkInput request _ (List.mem_of_find?_eq_some hinput)
    | none =>
      simp only
      cases hlimit : toolCallLimit c s reading.elapsed (latestToolCalls s.messages).length with
      | some limit =>
        simp only
        let permission : Permission :=
          ⟨.budgetExhausted,limit.message,none,latestToolCalls s.messages,none,[]⟩
        have hroute : routeAfterPermission ({s with permission := some permission}.stop limit) =
            .finished := by
          refine routeAfterPermission_stop fun p hp => ?_
          cases hp
          rfl
        change Move c _ _ (Execution.goTo (routeAfterPermission
          ({s with permission := some permission}.stop limit))
            ({s with permission := some permission}.stop limit))
        rw [hroute]
        exact .checkStopped _ limit (.inr hlimit)
      | none =>
        refine decideBatch_move hrunning hlength (fun call hcall => ?_) hlimit
        simpa using List.find?_eq_none.mp hinput call hcall

theorem approvalRequired_move :
    Move c .node ⟨s,.approvalRequired,resumes,none⟩
      (Execution.finish ⟨s,.approvalRequired,resumes,none⟩ routeAfterApproval
        (approvalRequiredNode c s resumes)) := by
  unfold approvalRequiredNode
  cases hloop : approvalLoop c (s.permission.getD ⟨.denied,"",none,[],none,[]⟩).approvalDecisions
      resumes 1 ⟨false,"approval rejected"⟩ with
  | finished approval =>
    have hroute : routeAfterApproval {s with approval := some approval}.clearPause =
        if approval.approved then .tools else .rejectTool := by
      obtain ⟨approved,reason⟩ := approval
      cases approved <;> rfl
    simp only [Execution.finish,hloop,hroute]
    refine .approvalEnds approval fun permission hpermission => ?_
    rw [hpermission] at hloop
    exact hloop
  | waiting index decision =>
    simp only [Execution.finish,hloop]
    refine .approvalWaits _ index decision fun permission hpermission => ?_
    rw [hpermission] at hloop
    exact hloop

theorem userInputRequired_move :
    Move c .node ⟨s,.userInputRequired,resumes,none⟩
      (Execution.finish ⟨s,.userInputRequired,resumes,none⟩ (fun _ => .incrementLoop)
        (userInputRequiredNode c s resumes)) := by
  unfold userInputRequiredNode
  dsimp only
  cases iterated ((dictArgs ((s.permission.getD ⟨.denied,"",none,[],none,[]⟩).toolCall.getD
      ⟨"",.null,none⟩)).member "choices") with
  | none => exact .inputRaised
  | some rawChoices =>
    cases resumes with
    | nil => exact .inputWaits _
    | cons resume resumes =>
      let permission := s.permission.getD ⟨.denied,"",none,[],none,[]⟩
      let pending := if permission.toolCalls = [] then
        [permission.toolCall.getD ⟨"",.null,none⟩] else permission.toolCalls
      have hmove : Move c .node ⟨s,.userInputRequired,resume::resumes,none⟩
          (.goTo .incrementLoop (s.append (pending.map fun call =>
            inputToolMessage (resumeText c resume) call)).clearPause) := by
        refine .inputAnswered resume resumes pending fun p hp hne => ?_
        have hsame : permission = p := by
          change s.permission.getD _ = p
          rw [hp]
          rfl
        change (if permission.toolCalls = [] then _ else _) = _
        rw [hsame,if_neg hne]
      rw [GraphState.append,List.map_map] at hmove
      exact hmove

theorem rejectTool_move :
    Move c .node ⟨s,.rejectTool,resumes,none⟩ (.goTo .finished (rejectToolNode s)) := by
  unfold rejectToolNode
  cases s.approval.filter fun approval => !approval.approved with
  | some approval => exact .rejected _ _ _
  | none => exact .rejected _ _ _

theorem tools_move {answers : List CallAnswers}
    (hlength : answers.length = (latestToolCalls s.messages).length) :
    Move c (.tools answers) ⟨s,.tools,resumes,none⟩
      (.goTo .recordToolMessages (toolsNode c s answers)) := by
  have hmove : Move c (.tools answers) ⟨s,.tools,resumes,none⟩
      (.goTo .recordToolMessages (s.append ((toolRuns c s answers).map (·.message)))) :=
    .toolsRan answers hlength
  rw [GraphState.append,List.map_map] at hmove
  exact hmove

theorem incrementLoop_move {elapsed : ℚ} (hloops : s.maxLoops = s.executionPolicy.maxLoopSteps)
    (hstops : ∀ reason, s.stopReason = some reason → reason ≠ "") :
    Move c (.loop elapsed) ⟨s,.incrementLoop,resumes,none⟩
      (.goTo (routeLoopLimit (incrementLoopNode c s elapsed)) (incrementLoopNode c s elapsed)) := by
  unfold incrementLoopNode
  cases hlimit : loopStepLimit c s elapsed (s.loopIndex+1) with
  | some limit =>
    have hroute : routeLoopLimit (s.nextLoop.stop limit) = .finished := by
      rw [routeLoopLimit,stop_stopReason,nonEmpty_value]
      rfl
    change Move c _ _ (Execution.goTo (routeLoopLimit (s.nextLoop.stop limit))
      (s.nextLoop.stop limit))
    rw [hroute]
    exact .loopStopped limit hlimit
  | none =>
    change Move c _ _ (Execution.goTo (routeLoopLimit s.nextLoop) s.nextLoop)
    cases hreason : s.stopReason with
    | some reason =>
      have hroute : routeLoopLimit s.nextLoop = .finished := by
        simp [routeLoopLimit,GraphState.nextLoop,hreason,nonEmpty,hstops reason hreason]
      rw [hroute]
      exact .loopHalted reason hlimit hreason
    | none =>
      have hwithin : s.loopIndex+1 ≤ (s.maxLoops : Int) := by
        rw [loopStepLimit,Option.or_eq_none_iff] at hlimit
        have hsteps := hlimit.2
        split_ifs at hsteps with h
        rw [hloops]
        omega
      have hroute : routeLoopLimit s.nextLoop = .callModel := by
        rw [routeLoopLimit]
        simp only [GraphState.nextLoop,hreason,nonEmpty,Option.filter_none,Option.isSome_none,
          Bool.false_eq_true,if_false]
        rw [if_neg (by omega)]
      rw [hroute]
      exact .loopContinued hlimit hreason

/-- A step from a clean execution is one of the moves. -/
theorem graphStep_move {input : GraphInput} {e e' : Execution} (he : e.Clean)
    (h : graphStep c input e = some e') : Move c input e e' := by
  obtain ⟨s,node,resumes,interrupt⟩ := e
  cases interrupt with
  | some interrupt =>
    cases input with
    | resume value =>
      cases h
      exact .resumed value rfl
    | _ => cases node <;> cases h
  | none =>
    cases node with
    | callModel =>
      cases input with
      | model before after outcome =>
        cases h
        exact callModel_move (he.answer (by simp)) (he.running (by simp))
      | _ => cases h
    | checkPermission =>
      cases input with
      | permission reading references =>
        simp only [graphStep] at h
        split_ifs at h with hlength
        cases h
        exact checkPermission_move (he.running (by simp)) (he.permission (by simp)) hlength
      | _ => cases h
    | approvalRequired =>
      cases input with
      | node =>
        cases h
        exact approvalRequired_move
      | _ => cases h
    | userInputRequired =>
      cases input with
      | node =>
        cases h
        exact userInputRequired_move
      | _ => cases h
    | rejectTool =>
      cases input with
      | node =>
        cases h
        exact rejectTool_move
      | _ => cases h
    | tools =>
      cases input with
      | tools answers =>
        simp only [graphStep] at h
        split_ifs at h with hlength
        cases h
        exact tools_move hlength
      | _ => cases h
    | recordToolMessages =>
      cases input with
      | node =>
        cases h
        exact .recorded
      | _ => cases h
    | incrementLoop =>
      cases input with
      | loop elapsed =>
        cases h
        exact incrementLoop_move he.loops he.stops
      | _ => cases h
    | maxLoops => exact absurd rfl he.reachable
    | finished => cases input <;> cases h
    | raised => cases input <;> cases h

end Inversion

section Cleanliness

variable {c : GraphComponents} {input : GraphInput} {e e' : Execution}

theorem clean_initial (policy : ExecutionPolicy) (maxElapsedSeconds : Option ℚ)
    (messages : List GraphMessage) :
    (Execution.initial policy maxElapsedSeconds messages).Clean where
  loops := rfl
  answer _ := rfl
  running _ := rfl
  permission _ := rfl
  interrupt h := by cases h
  stops reason h := by cases h
  reachable := by simp

/-- A node without interrupt is clean for what its state holds. -/
theorem clean_goTo {node : GraphNode} {s : GraphState}
    (hloops : s.maxLoops = s.executionPolicy.maxLoopSteps)
    (hanswer : node ≠ .finished → s.finalAnswer = none)
    (hrunning : node ∈ [.callModel,.checkPermission,.tools,.recordToolMessages] →
      s.stopReason = none)
    (hpermission : node ∈ [.callModel,.checkPermission] → s.permission = none)
    (hstops : ∀ reason, s.stopReason = some reason → reason ≠ "") (hnode : node ≠ .maxLoops) :
    (Execution.goTo node s).Clean :=
  ⟨hloops,hanswer,hrunning,hpermission,(fun h => by cases h),hstops,hnode⟩

/-- Where the reason to stop is one of the listed ones, it is not empty. -/
theorem stops_of_value {s : GraphState} (reason : ExecutionStopReason)
    (h : s.stopReason = some reason.value) : ∀ r, s.stopReason = some r → r ≠ "" := by
  intro r hr
  cases h.symm.trans hr
  exact reason.value_ne

theorem stops_of_none {s : GraphState} (h : s.stopReason = none) :
    ∀ r, s.stopReason = some r → r ≠ "" := by
  intro r hr
  cases h.symm.trans hr

theorem recordObservations_keeps (state : AgentState) (observations : List Observation) :
    (recordObservations state observations).finalAnswer = state.finalAnswer ∧
      (recordObservations state observations).loopIndex = state.loopIndex ∧
      (recordObservations state observations).executionPolicy = state.executionPolicy ∧
      (recordObservations state observations).modelCalls = state.modelCalls ∧
      (recordObservations state observations).toolCalls = state.toolCalls+observations.length := by
  simp only [recordObservations]
  split_ifs <;> exact ⟨rfl,rfl,rfl,rfl,rfl⟩

/-- The recording of a batch stops the execution for one of two reasons, or both budgets have
something left. -/
theorem recordObservations_stops (state : AgentState) (observations : List Observation) :
    (recordObservations state observations).stopReason =
        some ExecutionStopReason.toolArgumentError.value ∨
      (recordObservations state observations).stopReason =
        some ExecutionStopReason.repeatedFailure.value ∨
      (recordObservations state observations).stopReason = state.stopReason ∧
        (recordObservations state observations).failureCount < state.executionPolicy.maxFailures ∧
        ((recordObservations state observations).toolArgumentErrorRounds =
            state.toolArgumentErrorRounds ∨
          (recordObservations state observations).toolArgumentErrorRounds ≤
            state.executionPolicy.maxToolArgumentCorrections) := by
  unfold recordObservations
  dsimp only
  cases hnone : ((observations.filterMap Observation.error).filter
      ToolError.isArgumentError).isEmpty with
  | true =>
    simp only [Bool.not_true,Bool.false_eq_true,false_and,if_false,if_true,Nat.add_zero]
    by_cases hfailures : state.executionPolicy.maxFailures ≤ state.failureCount+
        ((observations.filterMap Observation.error).filter fun error =>
          !error.isArgumentError).length
    · rw [if_pos hfailures]
      exact .inr (.inl rfl)
    · rw [if_neg hfailures]
      exact .inr (.inr ⟨rfl,not_le.mp hfailures,.inl rfl⟩)
  | false =>
    simp only [Bool.not_false,true_and,Bool.false_eq_true,if_false]
    by_cases hrounds : state.executionPolicy.maxToolArgumentCorrections <
        state.toolArgumentErrorRounds+1
    · rw [if_pos hrounds]
      exact .inl rfl
    rw [if_neg hrounds]
    by_cases hfailures : state.executionPolicy.maxFailures ≤ state.failureCount+
        ((observations.filterMap Observation.error).filter fun error =>
          !error.isArgumentError).length
    · rw [if_pos hfailures]
      exact .inr (.inl rfl)
    · rw [if_neg hfailures]
      exact .inr (.inr ⟨rfl,not_le.mp hfailures,.inr (not_lt.mp hrounds)⟩)

theorem Move.clean (h : Move c input e e') (he : e.Clean) : e'.Clean := by
  cases h with
  | resumed value _ =>
    exact ⟨he.loops,he.answer,he.running,he.permission,(fun h => by cases h),he.stops,he.reachable⟩
  | modelStopped limit _ =>
    exact clean_goTo he.loops (fun h => absurd rfl h) (by simp) (by simp)
      (stops_of_value _ rfl) (by simp)
  | modelRaised _ =>
    exact ⟨he.loops,fun _ => he.answer (by simp),by simp,by simp,(fun h => by cases h),he.stops,
      by simp⟩
  | modelCompleted content _ _ =>
    exact clean_goTo he.loops (fun h => absurd rfl h) (by simp) (by simp)
      (stops_of_value .completed rfl) (by simp)
  | modelCalled content toolCalls _ _ _ =>
    exact clean_goTo he.loops (fun _ => he.answer (by simp)) (fun _ => he.running (by simp))
      (fun _ => he.permission (by simp)) he.stops (by simp)
  | checkStopped permission limit _ =>
    exact clean_goTo he.loops (fun h => absurd rfl h) (by simp) (by simp)
      (stops_of_value _ rfl) (by simp)
  | checkInput request reason _ =>
    exact clean_goTo he.loops (fun _ => he.answer (by simp)) (by simp) (by simp)
      (stops_of_value _ rfl) (by simp)
  | checkDenied permission _ =>
    exact clean_goTo he.loops (fun _ => he.answer (by simp)) (by simp) (by simp) he.stops (by simp)
  | checkApproval permission message detail _ _ _ _ _ _ _ _ =>
    exact clean_goTo he.loops (fun _ => he.answer (by simp)) (by simp) (by simp)
      (stops_of_value _ rfl) (by simp)
  | checkAllowed permission _ _ _ _ _ _ _ =>
    exact clean_goTo he.loops (fun _ => he.answer (by simp)) (fun _ => he.running (by simp))
      (by simp) he.stops (by simp)
  | approvalWaits interrupt index decision _ =>
    exact ⟨he.loops,he.answer,he.running,he.permission,fun _ => .inl rfl,he.stops,he.reachable⟩
  | approvalEnds approval _ =>
    refine clean_goTo he.loops (fun _ => he.answer (by simp)) (fun _ => rfl) (fun h => ?_)
      (stops_of_none rfl) (fun h => ?_)
    · split at h <;> simp at h
    · split at h <;> cases h
  | inputWaits interrupt =>
    exact ⟨he.loops,he.answer,he.running,he.permission,fun _ => .inr rfl,he.stops,he.reachable⟩
  | inputRaised =>
    exact ⟨he.loops,fun _ => he.answer (by simp),by simp,by simp,(fun h => by cases h),he.stops,
      by simp⟩
  | inputAnswered resume resumes pending _ =>
    exact clean_goTo he.loops (fun _ => he.answer (by simp)) (by simp) (by simp) (stops_of_none rfl)
      (by simp)
  | rejected finalAnswer reason source =>
    exact clean_goTo he.loops (fun h => absurd rfl h) (by simp) (by simp)
      (stops_of_value .policyBlocked rfl) (by simp)
  | toolsRan answers _ =>
    exact clean_goTo he.loops (fun _ => he.answer (by simp)) (fun _ => he.running (by simp))
      (by simp) he.stops (by simp)
  | @recorded s resumes =>
    obtain ⟨hanswer,_,hpolicy,_,_⟩ := recordObservations_keeps s.toAgentState
      ((latestToolMessages s.messages).map fun message => normalizeToolObservation c.ledger c.text
        message s.loopIndex (observationArtifactRefs s.decisions message))
    refine clean_goTo (he.loops.trans (congrArg _ hpolicy.symm))
      (fun _ => hanswer.trans (he.answer (by simp))) (by simp) (by simp) (fun r hr => ?_) (by simp)
    rcases recordObservations_stops s.toAgentState _ with h | h | ⟨h,_,_⟩
    · cases h.symm.trans hr
      exact ExecutionStopReason.value_ne _
    · cases h.symm.trans hr
      exact ExecutionStopReason.value_ne _
    · exact he.stops r (h.symm.trans hr)
  | loopStopped limit _ =>
    exact clean_goTo he.loops (fun h => absurd rfl h) (by simp) (by simp)
      (stops_of_value _ rfl) (by simp)
  | loopHalted reason _ _ =>
    exact clean_goTo he.loops (fun h => absurd rfl h) (by simp) (by simp) he.stops (by simp)
  | loopContinued _ hreason =>
    exact clean_goTo he.loops (fun _ => he.answer (by simp)) (fun _ => hreason) (fun _ => rfl)
      he.stops (by simp)

theorem graphStep_clean (he : e.Clean) (h : graphStep c input e = some e') : e'.Clean :=
  (graphStep_move he h).clean he

end Cleanliness

end VermayAgent
