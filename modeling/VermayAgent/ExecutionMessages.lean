import VermayAgent.ExecutionBounds

/-! The messages that a call of the model sees.
Behind the first messages stand whole rounds: a message of the model with tool calls, and for each
of its calls, in their order, the message of a tool that answers it. -/
namespace VermayAgent
open Library

/-- The message of a tool carries the id of the call that it answers. -/
def AnswersCall (toolCall : ToolCall) (message : ToolMessage) : Prop :=
  ∀ id, toolCall.id = some id → id ≠ "" → message.toolCallId = id

/-- Whole rounds of calls and their answers. -/
inductive Rounds : Nat → List GraphMessage → Prop
  | none : Rounds 0 []
  | round {n : Nat} {messages : List GraphMessage} (h : Rounds n messages) (content : Json)
      (toolCalls : List ToolCall) (answers : List ToolMessage) (hcalls : toolCalls ≠ [])
      (hanswers : List.Forall₂ AnswersCall toolCalls answers) :
      Rounds (n+1) (messages ++ .ai content toolCalls::answers.map .tool)

/-- Behind the first messages stand `n` rounds. -/
def Answered (first : List GraphMessage) (n : Nat) (messages : List GraphMessage) : Prop :=
  ∃ rounds, messages = first ++ rounds ∧ Rounds n rounds

/-- Behind the rounds stands a message of the model whose calls have no answers yet. -/
def Unanswered (first : List GraphMessage) (n : Nat) (messages : List GraphMessage) : Prop :=
  ∃ answered content toolCalls, toolCalls ≠ [] ∧
    messages = answered ++ [.ai content toolCalls] ∧ Answered first n answered

/-- What `ToolNode` says of the messages that the tools give it. -/
def NamesCalls : GraphInput → Execution → Prop
  | .tools answers, e => List.Forall₂ (fun toolCall (a : CallAnswers) =>
      AnswersCall toolCall a.response) (latestToolCalls e.state.messages) answers
  | _, _ => True

section Answers

theorem blockedToolMessage_answers (toolCall : ToolCall) (message : Option String) :
    AnswersCall toolCall (blockedToolMessage toolCall message) := by
  intro id hid hne
  rw [blockedToolMessage,hid]
  simp [Option.filter,hne]

theorem inputToolMessage_answers (answer : String) (toolCall : ToolCall) :
    AnswersCall toolCall (inputToolMessage answer toolCall) := by
  intro id hid hne
  rw [inputToolMessage,hid]
  simp [nonEmpty,Option.filter,hne]

variable {c : GraphComponents}

/-- However a call of the batch ends, its message answers it. -/
theorem toolCallWrapper_answers {decisions : List ToolCallDecision} {toolCall : ToolCall}
    {answers : CallAnswers} (h : AnswersCall toolCall answers.response) :
    AnswersCall toolCall (toolCallWrapper c decisions toolCall answers).message := by
  unfold toolCallWrapper
  split
  · exact blockedToolMessage_answers toolCall _
  split
  · exact h
  split
  · exact h
  split
  · exact blockedToolMessage_answers toolCall _
  split
  · exact blockedToolMessage_answers toolCall _
  split
  · exact blockedToolMessage_answers toolCall _
  · exact h

theorem toolRuns_answers {decisions : List ToolCallDecision} {toolCalls : List ToolCall}
    {answers : List CallAnswers}
    (h : List.Forall₂ (fun toolCall (a : CallAnswers) => AnswersCall toolCall a.response)
      toolCalls answers) :
    List.Forall₂ AnswersCall toolCalls
      ((List.zipWith (toolCallWrapper c decisions) toolCalls answers).map (·.message)) := by
  induction h with
  | nil => exact .nil
  | cons hhead _ ih => exact .cons (toolCallWrapper_answers hhead) ih

theorem inputAnswers (answer : String) (toolCalls : List ToolCall) :
    List.Forall₂ AnswersCall toolCalls (toolCalls.map (inputToolMessage answer)) := by
  induction toolCalls with
  | nil => exact .nil
  | cons toolCall toolCalls ih => exact .cons (inputToolMessage_answers answer toolCall) ih

variable {first messages : List GraphMessage} {n : Nat}

/-- With its answers an unanswered message is one more round. -/
theorem Unanswered.answer (h : Unanswered first n messages) {answers : List ToolMessage}
    (hanswers : List.Forall₂ AnswersCall (latestToolCalls messages) answers) :
    Answered first (n+1) (messages ++ answers.map .tool) := by
  obtain ⟨answered,content,toolCalls,hcalls,hmessages,rounds,hrounds,hn⟩ := h
  rw [hmessages,latestToolCalls_append] at hanswers
  refine ⟨rounds ++ .ai content toolCalls::answers.map .tool,?_,
    .round hn content toolCalls answers hcalls hanswers⟩
  rw [hmessages,hrounds]
  simp only [List.append_assoc,List.cons_append,List.nil_append]

end Answers

/-- The messages of an execution at each of its nodes. -/
structure Execution.History (first : List GraphMessage) (e : Execution) : Prop where
  asking : e.node = .callModel → e.state.loopIndex = e.state.modelCalls+1 ∧
    Answered first e.state.modelCalls e.state.messages
  pending : e.node ∈ [.checkPermission,.approvalRequired,.userInputRequired,.tools] →
    ∃ n, e.state.modelCalls = n+1 ∧ e.state.loopIndex = n+1 ∧ Unanswered first n e.state.messages
  asked : e.node = .userInputRequired → ∃ permission, e.state.permission = some permission ∧
    permission.toolCalls = latestToolCalls e.state.messages
  closed : e.node ∈ [.recordToolMessages,.incrementLoop] →
    e.state.loopIndex = e.state.modelCalls ∧ Answered first e.state.modelCalls e.state.messages

section Runs

variable {c : GraphComponents} {policy : ExecutionPolicy} {input : GraphInput} {e e' : Execution}
  {first : List GraphMessage}

/-- At the ends there is nothing to keep. -/
theorem history_of_node (h : e.node ∈ [.finished,.raised,.rejectTool]) : e.History first := by
  simp only [List.mem_cons,List.not_mem_nil,or_false] at h
  constructor <;> intro hnode <;> rcases h with h | h | h <;> rw [h] at hnode <;>
    simp at hnode

/-- The message of the model stays unanswered while its batch is decided on. -/
theorem history_pending {s : GraphState} {node : GraphNode} {resumes : List Json}
    {interrupt : Option Interrupt} (hnode : node ∈ [.checkPermission,.approvalRequired,.tools])
    (h : ∃ n, s.modelCalls = n+1 ∧ s.loopIndex = n+1 ∧ Unanswered first n s.messages) :
    (Execution.mk s node resumes interrupt).History first := by
  simp only [List.mem_cons,List.not_mem_nil,or_false] at hnode
  refine ⟨fun h => ?_,fun _ => h,fun h => ?_,fun h => ?_⟩
  · simp only at h
    rcases hnode with rfl | rfl | rfl <;> cases h
  · simp only at h
    rcases hnode with rfl | rfl | rfl <;> cases h
  · rcases hnode with rfl | rfl | rfl <;> simp at h

theorem history_closed {s : GraphState} {node : GraphNode}
    (hnode : node ∈ [.recordToolMessages,.incrementLoop])
    (h : s.loopIndex = s.modelCalls ∧ Answered first s.modelCalls s.messages) :
    (Execution.goTo node s).History first := by
  simp only [List.mem_cons,List.not_mem_nil,or_false] at hnode
  refine ⟨fun h => ?_,fun h => ?_,fun h => ?_,fun _ => h⟩
  · simp only [Execution.goTo] at h
    rcases hnode with rfl | rfl <;> cases h
  · rcases hnode with rfl | rfl <;> simp [Execution.goTo] at h
  · simp only [Execution.goTo] at h
    rcases hnode with rfl | rfl <;> cases h

theorem Move.history (h : Move c input e e') (hnames : NamesCalls input e)
    (he : e.History first) : e'.History first := by
  cases h with
  | resumed value _ => exact ⟨he.asking,he.pending,he.asked,he.closed⟩
  | modelStopped limit _ => exact history_of_node (by simp)
  | modelRaised _ => exact history_of_node (by simp)
  | modelCompleted content _ _ => exact history_of_node (by simp)
  | @modelCalled s resumes before after content toolCalls _ _ hcalls =>
    obtain ⟨hloop,hanswered⟩ := he.asking rfl
    exact history_pending (by simp) ⟨s.modelCalls,rfl,hloop,s.messages,content,toolCalls,hcalls,rfl,
      hanswered⟩
  | checkStopped permission limit _ => exact history_of_node (by simp)
  | @checkInput s resumes reading references request reason _ =>
    exact ⟨by simp,fun _ => he.pending (by simp),fun _ => ⟨_,rfl,rfl⟩,
      fun h => by simp at h⟩
  | checkDenied permission _ => exact history_of_node (by simp)
  | checkApproval permission message detail _ _ _ _ _ _ _ _ =>
    exact history_pending (by simp) (he.pending (by simp))
  | checkAllowed permission _ _ _ _ _ _ _ => exact history_pending (by simp) (he.pending (by simp))
  | approvalWaits interrupt index decision _ =>
    exact ⟨he.asking,he.pending,he.asked,he.closed⟩
  | approvalEnds approval _ =>
    cases approval.approved with
    | true => exact history_pending (by simp) (he.pending (by simp))
    | false => exact history_of_node (by simp)
  | inputWaits interrupt => exact ⟨he.asking,he.pending,he.asked,he.closed⟩
  | inputRaised => exact history_of_node (by simp)
  | @inputAnswered s resume resumes pending hpending =>
    obtain ⟨n,hmodel,hloop,hunanswered⟩ := he.pending (by simp)
    obtain ⟨permission,hpermission,hcalls⟩ := he.asked rfl
    have hne : permission.toolCalls ≠ [] := by
      obtain ⟨answered,content,toolCalls,hne,hmessages,_⟩ := hunanswered
      rw [hcalls,hmessages,latestToolCalls_append]
      exact hne
    have hbatch : pending = latestToolCalls s.messages :=
      (hpending permission hpermission hne).trans hcalls
    refine history_closed (by simp) ⟨?_,?_⟩
    · change s.loopIndex = s.modelCalls
      rw [hloop,hmodel]
      rfl
    · change Answered first s.modelCalls (s.messages ++ _)
      rw [hmodel,hbatch]
      exact hunanswered.answer (inputAnswers (resumeText c resume) _)
  | rejected finalAnswer reason source => exact history_of_node (by simp)
  | @toolsRan s resumes answers _ =>
    obtain ⟨n,hmodel,hloop,hunanswered⟩ := he.pending (by simp)
    refine history_closed (by simp) ⟨?_,?_⟩
    · change s.loopIndex = s.modelCalls
      rw [hloop,hmodel]
      rfl
    · change Answered first s.modelCalls (s.messages ++ _)
      rw [hmodel]
      exact hunanswered.answer (toolRuns_answers hnames)
  | @recorded s resumes =>
    obtain ⟨_,hloop,_,hmodel,_⟩ := recordObservations_keeps s.toAgentState
      ((latestToolMessages s.messages).map fun message => normalizeToolObservation c.ledger c.text
        message s.loopIndex (observationArtifactRefs s.decisions message))
    obtain ⟨hindex,hanswered⟩ := he.closed (by simp)
    refine history_closed (by simp) ⟨?_,?_⟩
    · exact hloop.trans (hindex.trans (congrArg _ hmodel.symm))
    · exact hmodel.symm ▸ hanswered
  | loopStopped limit _ => exact history_of_node (by simp)
  | loopHalted reason _ _ => exact history_of_node (by simp)
  | @loopContinued s resumes elapsed _ _ =>
    obtain ⟨hindex,hanswered⟩ := he.closed (by simp)
    refine ⟨fun _ => ⟨?_,hanswered⟩,fun h => by simp at h,by simp,
      fun h => by simp at h⟩
    change s.loopIndex+1 = s.modelCalls+1
    exact congrArg (·+1) hindex

/-- Whenever the model is called it sees the first messages, unchanged, and behind them as many
rounds as it has been called before, in each of which every call has its answer. -/
theorem model_sees_rounds (c : GraphComponents) (policy : ExecutionPolicy)
    (maxElapsedSeconds : Option ℚ) (messages : List GraphMessage) (run : List GraphInput)
    (hnames : Guarded (graphStep c) NamesCalls run (.initial policy maxElapsedSeconds messages))
    (h : exec (graphStep c) run (.initial policy maxElapsedSeconds messages) = some e)
    (hcalls : 0 < invokesModel c input e) :
    e.state.loopIndex = e.state.modelCalls+1 ∧
      Answered messages e.state.modelCalls e.state.messages := by
  have hstart : (Execution.initial policy maxElapsedSeconds messages).Sound policy ∧
      (Execution.initial policy maxElapsedSeconds messages).History messages := by
    refine ⟨sound_initial policy maxElapsedSeconds messages,fun _ => ⟨rfl,[],?_,.none⟩,by simp,
      by simp,      (by simp)⟩
    exact (List.append_nil messages).symm
  have hend := exec_invariant_guarded (I := fun e => e.Sound policy ∧ e.History messages)
    (fun input e e' he hnames hstep => ⟨he.1.step hstep,
      (graphStep_move he.1.clean hstep).history hnames he.2⟩) hstart hnames h
  exact hend.2.asking (invokesModel_node hcalls)

theorem model_sees_rounds_sample : ∃ e,
    exec (graphStep lookupComponents) (lookupRun.take 5)
      (.initial deployPolicy none lookupMessages) = some e ∧
    Answered lookupMessages 1 e.state.messages := by
  refine ⟨_,rfl,(model_sees_rounds lookupComponents deployPolicy none lookupMessages
    (lookupRun.take 5) ?_ rfl (by decide : 0 < invokesModel lookupComponents
      (lookupRun.getLast (List.cons_ne_nil _ _)) _)).2⟩
  refine ⟨trivial,fun s₁ h₁ => ⟨trivial,fun s₂ h₂ => ⟨?_,fun _ _ => ⟨trivial,fun _ _ => ⟨trivial,
    fun _ _ => trivial⟩⟩⟩⟩⟩
  cases h₁
  cases h₂
  exact .cons (fun id hid _ => Option.some.inj hid) .nil

end Runs

end VermayAgent
