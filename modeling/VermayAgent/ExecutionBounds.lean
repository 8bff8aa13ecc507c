import VermayAgent.ExecutionMoves

/-! How much one execution of the graph can do.
The counters of the state and the messages of the current batch bound the calls of the model, the
bodies of tools and the number of steps, resumes included. -/
namespace VermayAgent
open Library

section Batches

variable {messages : List GraphMessage} {toolMessages : List ToolMessage}

theorem dropWhile_tools (h : toolMessages ≠ []) (rest : List GraphMessage) :
    ((toolMessages.map GraphMessage.tool).reverse ++ rest).dropWhile
      (fun m => m.toolMessage.isNone) = (toolMessages.map GraphMessage.tool).reverse ++ rest := by
  obtain ⟨last,front,hfront⟩ := List.exists_cons_of_ne_nil (List.reverse_ne_nil_iff.mpr h)
  rw [← List.map_reverse,hfront]
  rfl

theorem takeWhile_tools (toolMessages : List ToolMessage) (content : Json)
    (toolCalls : List ToolCall) (rest : List GraphMessage) :
    (toolMessages.map GraphMessage.tool ++ .ai content toolCalls::rest).takeWhile
      (fun m => m.toolMessage.isSome) = toolMessages.map GraphMessage.tool := by
  induction toolMessages with
  | nil => rfl
  | cons message toolMessages ih =>
    rw [List.map_cons,List.cons_append,List.takeWhile_cons_of_pos rfl,ih]

/-- The tool messages behind the last message of the model are the latest ones. -/
theorem latestToolMessages_block (h : toolMessages ≠ []) (content : Json)
    (toolCalls : List ToolCall) :
    latestToolMessages (messages ++ .ai content toolCalls::toolMessages.map .tool) =
      toolMessages := by
  have hreverse : (messages ++ .ai content toolCalls::toolMessages.map GraphMessage.tool).reverse =
      (toolMessages.map GraphMessage.tool).reverse ++ .ai content toolCalls::messages.reverse := by
    simp
  rw [latestToolMessages,hreverse,dropWhile_tools h,← List.map_reverse,takeWhile_tools,
    ← List.map_reverse,List.reverse_reverse,List.filterMap_map]
  exact List.filterMap_some

end Batches

section Approvals

variable {c : GraphComponents} {decisions : List ToolCallDecision} {resumes : List Json}
  {permission : Permission}

/-- The loop waits where the recorded values end, and they have all approved. -/
theorem approvalLoop_waiting {start index : Nat} {approval : Approval}
    {decision : ToolCallDecision}
    (h : approvalLoop c decisions resumes start approval = .waiting index decision) :
    resumes.length < decisions.length ∧ ∀ v ∈ resumes, (readApproval c v).approved = true := by
  induction decisions generalizing resumes start approval with
  | nil => cases h
  | cons d decisions ih =>
    cases resumes with
    | nil => simp
    | cons v resumes =>
      simp only [approvalLoop] at h
      split_ifs at h with happroved
      obtain ⟨hlength,hall⟩ := ih h
      rw [List.forall_mem_cons,List.length_cons,List.length_cons]
      exact ⟨by omega,happroved,hall⟩

/-- The loop ends with an approval only if there is a value for each decision and each of them
approves. -/
theorem approvalLoop_approved {start : Nat} {approval result : Approval}
    (hne : decisions ≠ [])
    (h : approvalLoop c decisions resumes start approval = .finished result)
    (happroved : result.approved = true) :
    decisions.length ≤ resumes.length ∧
      ∀ v ∈ resumes.take decisions.length, (readApproval c v).approved = true := by
  induction decisions generalizing resumes start approval with
  | nil => exact absurd rfl hne
  | cons d decisions ih =>
    cases resumes with
    | nil => cases h
    | cons v resumes =>
      simp only [approvalLoop] at h
      split_ifs at h with hv
      · cases decisions with
        | nil => simpa using hv
        | cons d' decisions =>
          obtain ⟨hlength,hall⟩ := ih (List.cons_ne_nil _ _) h
          rw [List.length_cons,List.take_succ_cons,List.forall_mem_cons]
          exact ⟨Nat.succ_le_succ hlength,hv,hall⟩
      · cases h
        exact absurd happroved hv

theorem approvalDecisions_eq (h : ∃ d ∈ permission.decisions, d.status = .approvalRequired) :
    permission.approvalDecisions =
      permission.decisions.filter fun d => d.status = .approvalRequired := by
  obtain ⟨d,hd,hstatus⟩ := h
  have hne : permission.decisions.filter (fun d => d.status = .approvalRequired) ≠ [] :=
    List.ne_nil_of_mem (List.mem_filter.mpr ⟨hd,by simpa using hstatus⟩)
  rw [Permission.approvalDecisions]
  split
  · next hnil => exact absurd hnil hne
  · rfl

theorem length_batchDecisions {toolCalls : List ToolCall}
    {references : List (Option ToolInvocationReference)}
    (h : references.length = toolCalls.length) :
    (batchDecisions c toolCalls references).length = toolCalls.length := by
  rw [batchDecisions,List.length_zipWith,h,Nat.min_self]

end Approvals

/-- What the counters of an execution under a policy allow at each node. -/
structure Execution.Within (policy : ExecutionPolicy) (e : Execution) : Prop where
  samePolicy : e.state.executionPolicy = policy
  loop_pos : 1 ≤ e.state.loopIndex
  loop_le : e.node ≠ .finished → e.state.loopIndex ≤ policy.maxLoopSteps
  model_le : e.state.modelCalls ≤ policy.maxModelCalls
  tool_le : e.state.toolCalls ≤ policy.maxToolCalls
  pending : e.node ∈ [.checkPermission,.approvalRequired,.userInputRequired,.tools] →
    ∃ messages content toolCalls, toolCalls ≠ [] ∧
      e.state.messages = messages ++ [.ai content toolCalls]
  batch : e.node ∈ [.approvalRequired,.tools] →
    e.state.toolCalls+(latestToolCalls e.state.messages).length ≤ policy.maxToolCalls
  recorded : e.node = .recordToolMessages →
    e.state.toolCalls+(latestToolMessages e.state.messages).length ≤ policy.maxToolCalls
  waiting : e.node = .approvalRequired → ∃ permission, e.state.permission = some permission ∧
    e.resumes.length ≤ permission.approvalDecisions.length ∧
    (e.interrupt.isSome → e.resumes.length < permission.approvalDecisions.length) ∧
    permission.approvalDecisions ≠ [] ∧
    permission.approvalDecisions.length ≤ (latestToolCalls e.state.messages).length
  asked : e.node = .userInputRequired → e.resumes.length ≤ 1 ∧
    (e.interrupt.isSome → e.resumes = [])

section Preservation

variable {c : GraphComponents} {policy : ExecutionPolicy} {input : GraphInput} {e e' : Execution}
  {s : GraphState}

theorem within_initial (policy : ExecutionPolicy) (maxElapsedSeconds : Option ℚ)
    (messages : List GraphMessage) :
    (Execution.initial policy maxElapsedSeconds messages).Within policy where
  samePolicy := rfl
  loop_pos := le_rfl
  loop_le _ := by
    have h := policy.loopSteps_pos
    show (1 : Int) ≤ policy.maxLoopSteps
    omega
  model_le := Nat.zero_le _
  tool_le := Nat.zero_le _
  pending h := by simp [Execution.initial] at h
  batch h := by simp [Execution.initial] at h
  recorded h := by cases h
  waiting h := by cases h
  asked h := by cases h

theorem toolCallLimit_none {elapsed : ℚ} {requested : Nat}
    (h : toolCallLimit c s elapsed requested = none) :
    s.toolCalls+requested ≤ s.executionPolicy.maxToolCalls := by
  rw [toolCallLimit,Option.or_eq_none_iff] at h
  have hcalls := h.2
  split_ifs at hcalls with hmore
  omega

theorem modelLimit_none {reading : Reading} (h : modelLimit c s reading = none) :
    s.modelCalls < s.executionPolicy.maxModelCalls ∧
      s.failureCount < s.executionPolicy.maxFailures := by
  rw [modelLimit,Option.or_eq_none_iff,modelCallLimit,Option.or_eq_none_iff] at h
  have hcalls := h.2.2
  split_ifs at hcalls with hmodel hfailures
  omega

theorem loopStepLimit_none {elapsed : ℚ} {next : Int}
    (h : loopStepLimit c s elapsed next = none) : next ≤ s.executionPolicy.maxLoopSteps := by
  rw [loopStepLimit,Option.or_eq_none_iff] at h
  have hsteps := h.2
  split_ifs at hsteps with hmore
  omega

/-- At the end nothing is left to be bounded. -/
theorem within_finished (hpolicy : s.executionPolicy = policy) (hpos : 1 ≤ s.loopIndex)
    (hmodel : s.modelCalls ≤ policy.maxModelCalls) (htool : s.toolCalls ≤ policy.maxToolCalls) :
    (Execution.goTo .finished s).Within policy where
  samePolicy := hpolicy
  loop_pos := hpos
  loop_le h := absurd rfl h
  model_le := hmodel
  tool_le := htool
  pending h := by simp at h
  batch h := by simp at h
  recorded h := by cases h
  waiting h := by cases h
  asked h := by cases h

/-- The messages of a batch that has run are the latest ones, one for each of its calls. -/
theorem toolsRan_block {answers : List CallAnswers}
    (hpending : ∃ messages content toolCalls, toolCalls ≠ [] ∧
      s.messages = messages ++ [.ai content toolCalls])
    (hlength : answers.length = (latestToolCalls s.messages).length) :
    latestToolMessages (s.append ((toolRuns c s answers).map (·.message))).messages =
        (toolRuns c s answers).map (·.message) ∧
      (toolRuns c s answers).length = (latestToolCalls s.messages).length := by
  obtain ⟨messages,content,toolCalls,hcalls,hmessages⟩ := hpending
  have hruns : (toolRuns c s answers).length = (latestToolCalls s.messages).length := by
    rw [toolRuns,List.length_zipWith,hlength,Nat.min_self]
  refine ⟨?_,hruns⟩
  change latestToolMessages (s.messages ++ _) = _
  rw [hmessages,List.append_assoc]
  refine latestToolMessages_block ?_ content toolCalls
  rw [← List.length_pos_iff,List.length_map,hruns,hmessages,latestToolCalls_append]
  exact List.length_pos_iff.mpr hcalls

theorem Move.within (h : Move c input e e') (he : e.Within policy) : e'.Within policy := by
  cases h with
  | @resumed e value hinterrupt =>
    refine ⟨he.samePolicy,he.loop_pos,he.loop_le,he.model_le,he.tool_le,he.pending,he.batch,
      he.recorded,fun hnode => ?_,fun hnode => ?_⟩
    · obtain ⟨permission,hpermission,_,hwaits,hne,hlength⟩ := he.waiting hnode
      refine ⟨permission,hpermission,?_,(fun h => by cases h),hne,hlength⟩
      have hless := hwaits hinterrupt
      rw [List.length_append,List.length_singleton]
      omega
    · obtain ⟨_,hnone⟩ := he.asked hnode
      refine ⟨?_,(fun h => by cases h)⟩
      show (e.resumes ++ [value]).length ≤ 1
      rw [hnone hinterrupt]
      rfl
  | modelStopped limit _ =>
    exact within_finished he.samePolicy he.loop_pos he.model_le he.tool_le
  | modelRaised _ =>
    exact ⟨he.samePolicy,he.loop_pos,fun _ => he.loop_le (by simp),he.model_le,he.tool_le,by simp,
      by simp,by simp,by simp,by simp⟩
  | modelCompleted content hbefore _ =>
    refine within_finished he.samePolicy he.loop_pos ?_ he.tool_le
    have hless := (modelLimit_none hbefore).1
    rw [he.samePolicy] at hless
    exact hless
  | @modelCalled s resumes before after content toolCalls hbefore _ hcalls =>
    have hless := (modelLimit_none hbefore).1
    rw [he.samePolicy] at hless
    exact ⟨he.samePolicy,he.loop_pos,fun _ => he.loop_le (by simp),hless,he.tool_le,
      fun _ => ⟨s.messages,content,toolCalls,hcalls,rfl⟩,by simp,by simp,by simp,by simp⟩
  | checkStopped permission limit _ =>
    exact within_finished he.samePolicy he.loop_pos he.model_le he.tool_le
  | checkInput request reason _ =>
    exact ⟨he.samePolicy,he.loop_pos,fun _ => he.loop_le (by simp),he.model_le,he.tool_le,
      fun _ => he.pending (by simp),by simp,by simp,by simp,
      fun _ => ⟨Nat.zero_le 1,fun _ => rfl⟩⟩
  | checkDenied permission _ =>
    exact ⟨he.samePolicy,he.loop_pos,fun _ => he.loop_le (by simp),he.model_le,he.tool_le,
      by simp,by simp,by simp,by simp,by simp⟩
  | checkApproval permission message detail hlength _ hlimit _ _ hdecisions _ hwaits =>
    have hroom := toolCallLimit_none hlimit
    rw [he.samePolicy] at hroom
    refine ⟨he.samePolicy,he.loop_pos,fun _ => he.loop_le (by simp),he.model_le,he.tool_le,
      fun _ => he.pending (by simp),fun _ => hroom,by simp,fun _ => ⟨permission,rfl,Nat.zero_le _,
        (fun h => by cases h),?_,?_⟩,by simp⟩
    · rw [approvalDecisions_eq hwaits]
      obtain ⟨d,hd,hstatus⟩ := hwaits
      exact List.ne_nil_of_mem (List.mem_filter.mpr ⟨hd,by simpa using hstatus⟩)
    · rw [approvalDecisions_eq hwaits]
      refine (List.length_filter_le _ _).trans ?_
      rw [hdecisions,length_batchDecisions hlength]
      rfl
  | checkAllowed permission _ _ hlimit _ _ _ _ =>
    have hroom := toolCallLimit_none hlimit
    rw [he.samePolicy] at hroom
    exact ⟨he.samePolicy,he.loop_pos,fun _ => he.loop_le (by simp),he.model_le,he.tool_le,
      fun _ => he.pending (by simp),fun _ => hroom,by simp,by simp,by simp⟩
  | approvalWaits interrupt index decision hloop =>
    refine ⟨he.samePolicy,he.loop_pos,he.loop_le,he.model_le,he.tool_le,he.pending,he.batch,
      he.recorded,fun hnode => ?_,by simp⟩
    obtain ⟨permission,hpermission,hle,_,hne,hlength⟩ := he.waiting hnode
    exact ⟨permission,hpermission,hle,fun _ => (approvalLoop_waiting (hloop permission
      hpermission)).1,hne,hlength⟩
  | @approvalEnds s resumes approval _ =>
    cases hresult : approval.approved with
    | true =>
      exact ⟨he.samePolicy,he.loop_pos,fun _ => he.loop_le (by simp),he.model_le,he.tool_le,
        fun _ => he.pending (by simp),fun _ => he.batch (by simp),by simp,by simp,by simp⟩
    | false =>
      exact ⟨he.samePolicy,he.loop_pos,fun _ => he.loop_le (by simp),he.model_le,he.tool_le,
        by simp,by simp,by simp,by simp,by simp⟩
  | inputWaits interrupt =>
    exact ⟨he.samePolicy,he.loop_pos,he.loop_le,he.model_le,he.tool_le,he.pending,he.batch,
      he.recorded,by simp,fun _ => ⟨Nat.zero_le 1,fun _ => rfl⟩⟩
  | inputRaised =>
    exact ⟨he.samePolicy,he.loop_pos,fun _ => he.loop_le (by simp),he.model_le,he.tool_le,by simp,
      by simp,by simp,by simp,by simp⟩
  | inputAnswered resume resumes pending _ =>
    exact ⟨he.samePolicy,he.loop_pos,fun _ => he.loop_le (by simp),he.model_le,he.tool_le,
      by simp,by simp,by simp,by simp,by simp⟩
  | rejected finalAnswer reason source =>
    exact within_finished he.samePolicy he.loop_pos he.model_le he.tool_le
  | @toolsRan s resumes answers hlength =>
    obtain ⟨hblock,hruns⟩ := toolsRan_block (he.pending (by simp)) hlength
    refine ⟨he.samePolicy,he.loop_pos,fun _ => he.loop_le (by simp),he.model_le,he.tool_le,
      by simp,by simp,fun _ => ?_,by simp,by simp⟩
    change s.toolCalls+(latestToolMessages (s.append _).messages).length ≤ _
    rw [hblock,List.length_map,hruns]
    exact he.batch (by simp)
  | @recorded s resumes =>
    obtain ⟨_,hloop,hpolicy,hmodel,htools⟩ := recordObservations_keeps s.toAgentState
      ((latestToolMessages s.messages).map fun message => normalizeToolObservation c.ledger c.text
        message s.loopIndex (observationArtifactRefs s.decisions message))
    refine ⟨hpolicy.trans he.samePolicy,hloop.symm ▸ he.loop_pos,
      fun _ => hloop.symm ▸ he.loop_le (by simp),hmodel.symm ▸ he.model_le,?_,by simp,
      by simp,by simp,by simp,by simp⟩
    rw [List.length_map] at htools
    exact htools.symm ▸ he.recorded rfl
  | @loopStopped s resumes elapsed limit _ =>
    refine within_finished he.samePolicy ?_ he.model_le he.tool_le
    have hpos : 1 ≤ s.loopIndex := he.loop_pos
    show (1 : Int) ≤ s.loopIndex+1
    omega
  | @loopHalted s resumes elapsed reason _ _ =>
    refine within_finished he.samePolicy ?_ he.model_le he.tool_le
    have hpos : 1 ≤ s.loopIndex := he.loop_pos
    show (1 : Int) ≤ s.loopIndex+1
    omega
  | @loopContinued s resumes elapsed hlimit _ =>
    have hpos : 1 ≤ s.loopIndex := he.loop_pos
    have hnext := loopStepLimit_none hlimit
    rw [he.samePolicy] at hnext
    refine ⟨he.samePolicy,?_,fun _ => hnext,he.model_le,he.tool_le,by simp,
      by simp,by simp,by simp,by simp⟩
    show (1 : Int) ≤ s.loopIndex+1
    omega

end Preservation

section Budgets

/-- Whether the step calls the model. -/
def invokesModel (c : GraphComponents) (input : GraphInput) (e : Execution) : ℕ :=
  match e.interrupt,e.node,input with
  | none,.callModel,.model before _ _ => if (modelLimit c e.state before).isNone then 1 else 0
  | _,_,_ => 0

/-- How many bodies of tools the step runs. -/
def bodiesRun (c : GraphComponents) (input : GraphInput) (e : Execution) : ℕ :=
  match e.interrupt,e.node,input with
  | none,.tools,.tools answers => ((toolRuns c e.state answers).filter ToolRun.isExecuted).length
  | _,_,_ => 0

theorem invokesModel_node {c : GraphComponents} {input : GraphInput} {e : Execution}
    (h : 0 < invokesModel c input e) : e.node = .callModel := by
  unfold invokesModel at h
  split at h
  · next hnode => exact hnode
  · cases h

theorem bodiesRun_node {c : GraphComponents} {input : GraphInput} {e : Execution}
    (h : 0 < bodiesRun c input e) : e.node = .tools := by
  unfold bodiesRun at h
  split at h
  · next hnode => exact hnode
  · cases h

/-- The calls of the model that are left. -/
def modelBudget (policy : ExecutionPolicy) (e : Execution) : ℤ :=
  match e.node with
  | .finished | .raised => 0
  | _ => policy.maxModelCalls-e.state.modelCalls

/-- The loops that are left to begin. -/
def loopBudget (policy : ExecutionPolicy) (e : Execution) : ℤ :=
  match e.node with
  | .finished | .raised => 0
  | .callModel => policy.maxLoopSteps+1-e.state.loopIndex
  | _ => policy.maxLoopSteps-e.state.loopIndex

/-- The tool calls that are left, without those of a batch that has run. -/
def toolBudget (policy : ExecutionPolicy) (e : Execution) : ℤ :=
  match e.node with
  | .recordToolMessages =>
    policy.maxToolCalls-e.state.toolCalls-(latestToolMessages e.state.messages).length
  | _ => policy.maxToolCalls-e.state.toolCalls

/-- The steps that are left: six for each loop, and two for each approval that can still be
asked for. -/
def stepBudget (policy : ExecutionPolicy) (e : Execution) : ℤ :=
  let loops : ℤ := policy.maxLoopSteps-e.state.loopIndex
  let calls : ℤ := policy.maxToolCalls-e.state.toolCalls
  let asked : ℤ := e.resumes.length
  let waits : ℤ := if e.interrupt.isSome then 1 else 0
  match e.node with
  | .callModel => 6*loops+6+2*calls
  | .checkPermission => 6*loops+5+2*calls
  | .approvalRequired => 6*loops+4+2*(calls-asked)-waits
  | .userInputRequired => 6*loops+4+2*calls-2*asked-waits
  | .tools => 6*loops+3+2*(calls-(latestToolCalls e.state.messages).length)
  | .recordToolMessages => 6*loops+2+2*(calls-(latestToolMessages e.state.messages).length)
  | .incrementLoop => 6*loops+1+2*calls
  | .rejectTool | .maxLoops => 1
  | .finished | .raised => 0

variable {c : GraphComponents} {policy : ExecutionPolicy} {input : GraphInput} {e e' : Execution}
  {s : GraphState}

theorem modelBudget_nonneg (he : e.Within policy) : 0 ≤ modelBudget policy e := by
  have hmodel := he.model_le
  rw [modelBudget]
  split <;> omega

theorem loopBudget_nonneg (he : e.Within policy) : 0 ≤ loopBudget policy e := by
  have hloop := he.loop_le
  rw [loopBudget]
  split
  · exact le_rfl
  · exact le_rfl
  · next hnode =>
    have hle := hloop (by rw [hnode]; rintro ⟨⟩)
    omega
  · next hfinished _ _ =>
    have hle := hloop hfinished
    omega

theorem toolBudget_nonneg (he : e.Within policy) : 0 ≤ toolBudget policy e := by
  have htool := he.tool_le
  rw [toolBudget]
  split
  · next hnode =>
    have hrecorded := he.recorded hnode
    omega
  · omega

theorem Move.modelBudget_le (h : Move c input e e') (he : e.Within policy) :
    invokesModel c input e+modelBudget policy e' ≤ modelBudget policy e := by
  have hmodel := he.model_le
  cases h with
  | @resumed e value hinterrupt =>
    obtain ⟨interrupt,hinterrupt⟩ := Option.isSome_iff_exists.mp hinterrupt
    simp [invokesModel,hinterrupt,modelBudget]
  | @modelStopped s resumes before after outcome limit hlimit =>
    have hmodel : s.modelCalls ≤ policy.maxModelCalls := he.model_le
    rcases hlimit with hbefore | ⟨hbefore,_⟩
    · simp only [invokesModel,hbefore,modelBudget,Execution.goTo]
      simp only [Option.isNone_some,Bool.false_eq_true,if_false]
      omega
    · have hless := (modelLimit_none hbefore).1
      rw [he.samePolicy] at hless
      simp only [invokesModel,hbefore,modelBudget,Execution.goTo]
      simp only [Option.isNone_none,if_true]
      omega
  | @modelRaised s resumes before after outcome hbefore =>
    have hless := (modelLimit_none hbefore).1
    rw [he.samePolicy] at hless
    simp only [invokesModel,hbefore,modelBudget]
    simp only [Option.isNone_none,if_true]
    omega
  | @modelCompleted s resumes before after content hbefore _ =>
    have hless := (modelLimit_none hbefore).1
    rw [he.samePolicy] at hless
    simp only [invokesModel,hbefore,modelBudget,Execution.goTo]
    simp only [Option.isNone_none,if_true]
    omega
  | @modelCalled s resumes before after content toolCalls hbefore _ _ =>
    simp only [invokesModel,hbefore,modelBudget,Execution.goTo,GraphState.answered]
    simp only [Option.isNone_none,if_true]
    omega
  | @approvalEnds s resumes approval _ =>
    cases hresult : approval.approved <;>
      simp [invokesModel,modelBudget,Execution.goTo,GraphState.clearPause]
  | @recorded s resumes =>
    have hcalls : (recordToolMessagesNode c s).modelCalls = s.modelCalls :=
      (recordObservations_keeps s.toAgentState _).2.2.2.1
    simp [invokesModel,modelBudget,Execution.goTo,hcalls]
  | _ =>
    simp only [invokesModel,modelBudget,Execution.goTo,GraphState.permit,GraphState.pause,
      GraphState.clearPause,GraphState.append,GraphState.nextLoop] at hmodel ⊢
    omega

theorem Move.loopBudget_le (h : Move c input e e') (he : e.Within policy) (he' : e'.Within policy) :
    invokesModel c input e+loopBudget policy e' ≤ loopBudget policy e := by
  have hnonneg := loopBudget_nonneg he'
  cases h with
  | @resumed e value hinterrupt =>
    obtain ⟨interrupt,hinterrupt⟩ := Option.isSome_iff_exists.mp hinterrupt
    simp [invokesModel,hinterrupt,loopBudget]
  | @modelStopped s resumes before after outcome limit _ =>
    have hloop : s.loopIndex ≤ policy.maxLoopSteps := he.loop_le (by simp)
    simp only [invokesModel,loopBudget,Execution.goTo]
    split <;> omega
  | @modelRaised s resumes before after outcome hbefore =>
    have hloop : s.loopIndex ≤ policy.maxLoopSteps := he.loop_le (by simp)
    simp only [invokesModel,loopBudget]
    split <;> omega
  | @modelCompleted s resumes before after content hbefore _ =>
    have hloop : s.loopIndex ≤ policy.maxLoopSteps := he.loop_le (by simp)
    simp only [invokesModel,loopBudget,Execution.goTo]
    split <;> omega
  | @modelCalled s resumes before after content toolCalls hbefore _ _ =>
    simp only [invokesModel,loopBudget,Execution.goTo,GraphState.answered]
    split <;> omega
  | @approvalEnds s resumes approval _ =>
    cases hresult : approval.approved <;>
      simp [invokesModel,loopBudget,Execution.goTo,GraphState.clearPause]
  | @recorded s resumes =>
    have hloop : (recordToolMessagesNode c s).loopIndex = s.loopIndex :=
      (recordObservations_keeps s.toAgentState _).2.1
    simp [invokesModel,loopBudget,Execution.goTo,hloop]
  | @loopContinued s resumes elapsed _ _ =>
    simp only [invokesModel,loopBudget,Execution.goTo,GraphState.nextLoop]
    omega
  | _ =>
    have hloop := he.loop_le (by simp)
    simp only [invokesModel,loopBudget,Execution.goTo,GraphState.permit,GraphState.pause,
      GraphState.clearPause,GraphState.append] at hloop ⊢
    omega

/-- What the recording adds to the counter of tool calls. -/
theorem recordToolMessagesNode_toolCalls (s : GraphState) :
    (recordToolMessagesNode c s).toolCalls =
      s.toolCalls+(latestToolMessages s.messages).length := by
  have hkeeps := (recordObservations_keeps s.toAgentState
    ((latestToolMessages s.messages).map fun message => normalizeToolObservation c.ledger c.text
      message s.loopIndex (observationArtifactRefs s.decisions message))).2.2.2.2
  rw [List.length_map] at hkeeps
  exact hkeeps

theorem Move.toolBudget_le (h : Move c input e e') (he : e.Within policy) :
    bodiesRun c input e+toolBudget policy e' ≤ toolBudget policy e := by
  cases h with
  | @resumed e value hinterrupt =>
    obtain ⟨interrupt,hinterrupt⟩ := Option.isSome_iff_exists.mp hinterrupt
    simp [bodiesRun,hinterrupt,toolBudget]
  | @approvalEnds s resumes approval _ =>
    cases hresult : approval.approved <;>
      simp [bodiesRun,toolBudget,Execution.goTo,GraphState.clearPause]
  | @toolsRan s resumes answers hlength =>
    obtain ⟨hblock,_⟩ := toolsRan_block (c := c) (he.pending (by simp)) hlength
    have hexecuted := List.length_filter_le ToolRun.isExecuted (toolRuns c s answers)
    simp only [bodiesRun,toolBudget,Execution.goTo,hblock,List.length_map]
    simp only [GraphState.append]
    omega
  | @recorded s resumes =>
    simp only [bodiesRun,toolBudget,Execution.goTo,recordToolMessagesNode_toolCalls]
    omega
  | _ =>
    simp only [bodiesRun,toolBudget,Execution.goTo,GraphState.permit,GraphState.pause,
      GraphState.clearPause,GraphState.append,GraphState.nextLoop,GraphState.answered,
      GraphState.completed,GraphState.reject,stop_counts]
    omega

theorem stepBudget_nonneg (he : e.Within policy) : 0 ≤ stepBudget policy e := by
  have htool := he.tool_le
  have hloop := he.loop_le
  rw [stepBudget]
  cases hnode : e.node with
  | approvalRequired =>
    obtain ⟨_,_,hasked,_,_,hwaits⟩ := he.waiting hnode
    have hbatch := he.batch (by simp [hnode])
    have hle := hloop (by rw [hnode]; rintro ⟨⟩)
    simp only
    split_ifs <;> omega
  | userInputRequired =>
    have hasked := (he.asked hnode).1
    have hle := hloop (by rw [hnode]; rintro ⟨⟩)
    simp only
    split_ifs <;> omega
  | tools =>
    have hbatch := he.batch (by simp [hnode])
    have hle := hloop (by rw [hnode]; rintro ⟨⟩)
    simp only
    omega
  | recordToolMessages =>
    have hrecorded := he.recorded hnode
    have hle := hloop (by rw [hnode]; rintro ⟨⟩)
    simp only
    omega
  | finished => exact le_rfl
  | raised => exact le_rfl
  | rejectTool => simp
  | maxLoops => simp
  | _ =>
    have hle := hloop (by rw [hnode]; rintro ⟨⟩)
    simp only
    omega

theorem Move.stepBudget_le (h : Move c input e e') (hclean : e.Clean) (he : e.Within policy) :
    1+stepBudget policy e' ≤ stepBudget policy e := by
  cases h with
  | @resumed e value hinterrupt =>
    obtain ⟨interrupt,hsome⟩ := Option.isSome_iff_exists.mp hinterrupt
    rcases hclean.interrupt hinterrupt with hnode | hnode
    · simp only [stepBudget,hnode,hsome,List.length_append,List.length_singleton]
      simp only [Option.isSome_some,Option.isSome_none,if_true,Bool.false_eq_true,if_false]
      omega
    · simp only [stepBudget,hnode,hsome,List.length_append,List.length_singleton]
      simp only [Option.isSome_some,Option.isSome_none,if_true,Bool.false_eq_true,if_false]
      omega
  | @modelStopped s resumes before after outcome limit _ =>
    have hloop : s.loopIndex ≤ policy.maxLoopSteps := he.loop_le (by simp)
    have htool : s.toolCalls ≤ policy.maxToolCalls := he.tool_le
    simp only [stepBudget,Execution.goTo]
    omega
  | @modelRaised s resumes before after outcome _ =>
    have hloop : s.loopIndex ≤ policy.maxLoopSteps := he.loop_le (by simp)
    have htool : s.toolCalls ≤ policy.maxToolCalls := he.tool_le
    simp only [stepBudget]
    omega
  | @modelCompleted s resumes before after content _ _ =>
    have hloop : s.loopIndex ≤ policy.maxLoopSteps := he.loop_le (by simp)
    have htool : s.toolCalls ≤ policy.maxToolCalls := he.tool_le
    simp only [stepBudget,Execution.goTo]
    omega
  | modelCalled content toolCalls _ _ _ =>
    simp only [stepBudget,Execution.goTo,GraphState.answered]
    omega
  | @checkStopped s resumes reading references permission limit _ =>
    have hloop : s.loopIndex ≤ policy.maxLoopSteps := he.loop_le (by simp)
    have htool : s.toolCalls ≤ policy.maxToolCalls := he.tool_le
    simp only [stepBudget,Execution.goTo]
    omega
  | checkInput request reason _ =>
    simp only [stepBudget,Execution.goTo,GraphState.permit,GraphState.pause,List.length_nil]
    simp only [Option.isSome_none,Bool.false_eq_true,if_false]
    omega
  | @checkDenied s resumes reading references permission _ =>
    have hloop : s.loopIndex ≤ policy.maxLoopSteps := he.loop_le (by simp)
    have htool : s.toolCalls ≤ policy.maxToolCalls := he.tool_le
    simp only [stepBudget,Execution.goTo]
    omega
  | checkApproval permission message detail _ _ _ _ _ _ _ _ =>
    simp only [stepBudget,Execution.goTo,GraphState.permit,GraphState.pause,List.length_nil]
    simp only [Option.isSome_none,Bool.false_eq_true,if_false]
    omega
  | checkAllowed permission _ _ _ _ _ _ _ =>
    simp only [stepBudget,Execution.goTo,GraphState.permit]
    omega
  | approvalWaits interrupt index decision _ =>
    simp only [stepBudget]
    simp only [Option.isSome_some,Option.isSome_none,if_true,Bool.false_eq_true,if_false]
    omega
  | @approvalEnds s resumes approval _ =>
    obtain ⟨permission,_,hasked,_,_,hwaits⟩ := he.waiting rfl
    have hbatch : s.toolCalls+(latestToolCalls s.messages).length ≤ policy.maxToolCalls :=
      he.batch (by simp)
    have hloop : s.loopIndex ≤ policy.maxLoopSteps := he.loop_le (by simp)
    have hcalls : resumes.length ≤ (latestToolCalls s.messages).length := hasked.trans hwaits
    cases happroved : approval.approved with
    | true =>
      simp only [stepBudget,Execution.goTo,GraphState.clearPause,if_true,Option.isSome_none,
        Bool.false_eq_true,if_false]
      omega
    | false =>
      simp only [stepBudget,Execution.goTo,Option.isSome_none,Bool.false_eq_true,if_false]
      omega
  | inputWaits interrupt =>
    simp only [stepBudget]
    simp only [Option.isSome_some,Option.isSome_none,if_true,Bool.false_eq_true,if_false]
    omega
  | @inputRaised s resumes =>
    have hasked : resumes.length ≤ 1 := (he.asked rfl).1
    have hloop : s.loopIndex ≤ policy.maxLoopSteps := he.loop_le (by simp)
    have htool : s.toolCalls ≤ policy.maxToolCalls := he.tool_le
    simp only [stepBudget,Option.isSome_none,Bool.false_eq_true,if_false]
    omega
  | @inputAnswered s resume resumes pending _ =>
    have hasked : (resume::resumes).length ≤ 1 := (he.asked rfl).1
    simp only [stepBudget,Execution.goTo,GraphState.clearPause,GraphState.append,
      Option.isSome_none,Bool.false_eq_true,if_false]
    omega
  | rejected finalAnswer reason source => exact le_rfl
  | @toolsRan s resumes answers hlength =>
    obtain ⟨hblock,hruns⟩ := toolsRan_block (c := c) (he.pending (by simp)) hlength
    simp only [stepBudget,Execution.goTo,hblock,List.length_map,hruns]
    simp only [GraphState.append]
    omega
  | @recorded s resumes =>
    have hloop : (recordToolMessagesNode c s).loopIndex = s.loopIndex :=
      (recordObservations_keeps s.toAgentState _).2.1
    simp only [stepBudget,Execution.goTo,hloop,recordToolMessagesNode_toolCalls]
    omega
  | @loopStopped s resumes elapsed limit _ =>
    have hloop : s.loopIndex ≤ policy.maxLoopSteps := he.loop_le (by simp)
    have htool : s.toolCalls ≤ policy.maxToolCalls := he.tool_le
    simp only [stepBudget,Execution.goTo]
    omega
  | @loopHalted s resumes elapsed reason _ _ =>
    have hloop : s.loopIndex ≤ policy.maxLoopSteps := he.loop_le (by simp)
    have htool : s.toolCalls ≤ policy.maxToolCalls := he.tool_le
    simp only [stepBudget,Execution.goTo]
    omega
  | loopContinued _ _ =>
    simp only [stepBudget,Execution.goTo,GraphState.nextLoop]
    omega

end Budgets

section Runs

variable {c : GraphComponents} {policy : ExecutionPolicy} {input : GraphInput} {e e' : Execution}

/-- A clean execution within its policy. -/
structure Execution.Sound (policy : ExecutionPolicy) (e : Execution) : Prop where
  clean : e.Clean
  within : e.Within policy

theorem sound_initial (policy : ExecutionPolicy) (maxElapsedSeconds : Option ℚ)
    (messages : List GraphMessage) :
    (Execution.initial policy maxElapsedSeconds messages).Sound policy :=
  ⟨clean_initial policy maxElapsedSeconds messages,within_initial policy maxElapsedSeconds messages⟩

theorem Execution.Sound.step (he : e.Sound policy) (h : graphStep c input e = some e') :
    e'.Sound policy :=
  ⟨graphStep_clean he.clean h,(graphStep_move he.clean h).within he.within⟩

theorem Execution.Sound.run (he : e.Sound policy) {run : List GraphInput}
    (h : exec (graphStep c) run e = some e') : e'.Sound policy :=
  exec_invariant (fun _ _ _ he h => he.step h) he h

/-- A node that is not the last one can run, and an interrupted one can be resumed. -/
theorem graphStep_enabled (c : GraphComponents) (he : e.Clean) (hfinished : e.node ≠ .finished)
    (hraised : e.node ≠ .raised) : ∃ input e', graphStep c input e = some e' := by
  obtain ⟨s,node,resumes,interrupt⟩ := e
  cases interrupt with
  | some interrupt => exact ⟨.resume .null,_,rfl⟩
  | none =>
    cases node with
    | callModel => exact ⟨.model ⟨false,0⟩ ⟨false,0⟩ .failed,_,rfl⟩
    | checkPermission =>
      exact ⟨.permission ⟨false,0⟩ ((latestToolCalls s.messages).map fun _ => none),_,
        if_pos (by rw [List.length_map])⟩
    | tools =>
      let answers : CallAnswers := ⟨true,none,true,⟨"",false,none⟩,⟨"",none,"",.null⟩⟩
      exact ⟨.tools ((latestToolCalls s.messages).map fun _ => answers),_,
        if_pos (by rw [List.length_map])⟩
    | incrementLoop => exact ⟨.loop 0,_,rfl⟩
    | finished => exact absurd rfl hfinished
    | raised => exact absurd rfl hraised
    | maxLoops => exact absurd rfl he.reachable
    | _ => exact ⟨.node,_,rfl⟩

/-- Over all its resumes, an execution calls the model at most as often as the policy allows calls
and loops, runs at most as many bodies of tools as it allows, and comes to its end after a number
of steps that the policy bounds. -/
theorem execution_bounded (c : GraphComponents) (policy : ExecutionPolicy)
    (maxElapsedSeconds : Option ℚ) (messages : List GraphMessage) (run : List GraphInput)
    (h : exec (graphStep c) run (.initial policy maxElapsedSeconds messages) = some e) :
    spent (graphStep c) (invokesModel c) run (.initial policy maxElapsedSeconds messages) ≤
        min policy.maxModelCalls policy.maxLoopSteps ∧
      spent (graphStep c) (bodiesRun c) run (.initial policy maxElapsedSeconds messages) ≤
        policy.maxToolCalls ∧
      run.length ≤ 6*policy.maxLoopSteps+2*policy.maxToolCalls ∧
      (e.node ≠ .finished → e.node ≠ .raised → ∃ input e', graphStep c input e = some e') := by
  have hstart := sound_initial policy maxElapsedSeconds messages
  have hend := hstart.run h
  have hkeeps : ∀ input e e', e.Sound policy → graphStep c input e = some e' → e'.Sound policy :=
    fun _ _ _ he h => he.step h
  refine ⟨le_min ?_ ?_,?_,?_,graphStep_enabled c hend.clean⟩
  · have hmodel := spent_le (invokesModel c) (modelBudget policy) hkeeps
      (fun _ _ _ he h => (graphStep_move he.clean h).modelBudget_le he.within) hstart h
    have hleft := modelBudget_nonneg hend.within
    simp only [modelBudget,Execution.initial,GraphState.initial,buildInitialState] at hmodel hleft ⊢
    omega
  · have hloops := spent_le (invokesModel c) (loopBudget policy) hkeeps
      (fun _ _ _ he h => (graphStep_move he.clean h).loopBudget_le he.within (he.step h).within)
      hstart h
    have hleft := loopBudget_nonneg hend.within
    simp only [loopBudget,Execution.initial,GraphState.initial,buildInitialState] at hloops hleft ⊢
    omega
  · have htools := spent_le (bodiesRun c) (toolBudget policy) hkeeps
      (fun _ _ _ he h => (graphStep_move he.clean h).toolBudget_le he.within) hstart h
    have hleft := toolBudget_nonneg hend.within
    simp only [toolBudget,Execution.initial,GraphState.initial,buildInitialState] at htools hleft ⊢
    omega
  · have hsteps := spent_le (fun _ _ => 1) (stepBudget policy) hkeeps
      (fun _ _ _ he h => (graphStep_move he.clean h).stepBudget_le he.clean he.within) hstart h
    have hleft := stepBudget_nonneg hend.within
    rw [spent_one h] at hsteps
    simp only [stepBudget,Execution.initial,GraphState.initial,buildInitialState] at hsteps hleft
    omega

def lookupCall : ToolCall := ⟨"lookup",.obj [],some "call-1"⟩

def lookupComponents : GraphComponents where
  tools := deployTools
  toolNames := ["lookup"]
  hasRecorder := false
  declaresToolCall _ _ := false
  ledger := deployEnv
  text := deployText
  fixed3 _ := ""
  round3 := id

def lookupMessages : List GraphMessage := [.human (.str "What runs?")]

/-- One loop with a tool, then the answer. -/
def lookupRun : List GraphInput :=
  [.model ⟨false,0⟩ ⟨false,0⟩ (.response (.str "") [lookupCall]),
    .permission ⟨false,0⟩ [none],
    .tools [⟨false,none,false,⟨"",false,none⟩,⟨"call-1",some "lookup","success",.str "api"⟩⟩],
    .node,.loop 0,
    .model ⟨false,0⟩ ⟨false,0⟩ (.response (.str "api") [])]

theorem execution_bounded_sample : ∃ e,
    exec (graphStep lookupComponents) lookupRun (.initial deployPolicy none lookupMessages) =
      some e ∧
    spent (graphStep lookupComponents) (bodiesRun lookupComponents) lookupRun
      (.initial deployPolicy none lookupMessages) ≤ deployPolicy.maxToolCalls ∧
    lookupRun.length ≤ 6*deployPolicy.maxLoopSteps+2*deployPolicy.maxToolCalls := by
  refine ⟨_,rfl,?_⟩
  obtain ⟨_,htools,hsteps,_⟩ :=
    execution_bounded lookupComponents deployPolicy none lookupMessages lookupRun rfl
  exact ⟨htools,hsteps⟩

end Runs

end VermayAgent
