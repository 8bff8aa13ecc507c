import VermayAgent.ToolOutcomes

/-! The execution graph of a local task: its nodes, its edges and its interrupts.
A step runs one node. What the node learns from the world stands in the label of the step: the
clock, the cancellation flag, the answer of the model, the references of the ledger, the outcomes
of the tools and the values of a resume. -/
namespace VermayAgent
open Library

/-- `REQUEST_USER_INPUT_TOOL_NAME`. -/
def requestUserInputToolName : String := "request_user_input"

/-- A message of the state. -/
inductive GraphMessage where
  | system (content : Json)
  | human (content : Json)
  | ai (content : Json) (toolCalls : List ToolCall)
  | tool (message : ToolMessage)

inductive PermissionStatus where
  | denied | inputRequired | budgetExhausted | allowed | approvalRequired
deriving DecidableEq, Repr

/-- The `permission` of the state. -/
structure Permission where
  status : PermissionStatus
  reason : String
  toolCall : Option ToolCall
  toolCalls : List ToolCall
  invocation : Option AttachedInvocation
  decisions : List ToolCallDecision

structure Approval where
  approved : Bool
  reason : String
deriving DecidableEq

/-- The state of the graph; `maxElapsedSeconds` is the last limit of its policy. -/
structure GraphState extends AgentState where
  messages : List GraphMessage
  permission : Option Permission
  approval : Option Approval
  maxLoops : Nat
  maxElapsedSeconds : Option ℚ

/-- `GraphComponents`, with what it takes from its surroundings: the pattern search for a declared
call, the texts of values and the formats of a number of seconds. -/
structure GraphComponents where
  tools : GraphTools
  toolNames : List String
  hasRecorder : Bool
  declaresToolCall : String → String → Bool
  ledger : LedgerEnv
  text : TextEnv
  fixed3 : ℚ → String
  round3 : ℚ → ℚ

section Initial

/-- The messages of `build_initial_state`. -/
def initialMessages (systemPrompt : Option String) (contextMessages historyMessages :
    List GraphMessage) (userInput : String) : List GraphMessage :=
  ((nonEmpty systemPrompt).map fun prompt => GraphMessage.system (.str prompt)).toList ++
    contextMessages ++ historyMessages ++ [.human (.str userInput)]

/-- `build_initial_state`. -/
def GraphState.initial (policy : ExecutionPolicy) (maxElapsedSeconds : Option ℚ)
    (messages : List GraphMessage) : GraphState where
  toAgentState := buildInitialState policy
  messages := messages
  permission := none
  approval := none
  maxLoops := policy.maxLoopSteps
  maxElapsedSeconds := maxElapsedSeconds

end Initial

section Limits

variable (c : GraphComponents) (s : GraphState)

/-- `_elapsed_limit`, at a reading of `elapsed_seconds`. -/
def elapsedLimit (elapsed : ℚ) : Option ExecutionLimit :=
  match s.maxElapsedSeconds with
  | none => none
  | some limit =>
    if elapsed ≤ limit then none
    else some ⟨.budgetExhausted,
      "Execution budget exhausted: elapsed time (" ++ c.fixed3 elapsed ++
        "s) exceeded the limit (" ++ c.fixed3 limit ++ "s).",
      .obj [("limit",.str "max_elapsed_seconds"),("limit_value",.num limit),
        ("observed_value",.num (c.round3 elapsed))]⟩

def modelCallLimit (elapsed : ℚ) : Option ExecutionLimit :=
  (elapsedLimit c s elapsed).or
    (if s.executionPolicy.maxModelCalls ≤ s.modelCalls then
      some ⟨.budgetExhausted,
        "Execution budget exhausted: maximum model calls (" ++
          toString s.executionPolicy.maxModelCalls ++ ") reached.",
        limitDetail "max_model_calls" s.executionPolicy.maxModelCalls s.modelCalls⟩
    else if s.executionPolicy.maxFailures ≤ s.failureCount then
      some ⟨.repeatedFailure,
        "Execution stopped after " ++ toString s.failureCount ++ " tool failure(s).",
        limitDetail "max_failures" s.executionPolicy.maxFailures s.failureCount⟩
    else none)

def toolCallLimit (elapsed : ℚ) (requestedCalls : Nat) : Option ExecutionLimit :=
  (elapsedLimit c s elapsed).or
    (if s.executionPolicy.maxToolCalls < s.toolCalls+requestedCalls then
      some ⟨.budgetExhausted,
        "Execution budget exhausted: requested tool calls would exceed the limit (" ++
          toString s.executionPolicy.maxToolCalls ++ ").",
        .obj [("limit",.str "max_tool_calls"),
          ("limit_value",.num s.executionPolicy.maxToolCalls),("observed_value",.num s.toolCalls),
          ("requested_value",.num requestedCalls)]⟩
    else none)

def loopStepLimit (elapsed : ℚ) (nextLoopIndex : Int) : Option ExecutionLimit :=
  (elapsedLimit c s elapsed).or
    (if (s.executionPolicy.maxLoopSteps : Int) < nextLoopIndex then
      some ⟨.budgetExhausted,
        "Execution budget exhausted: maximum loop steps (" ++
          toString s.executionPolicy.maxLoopSteps ++ ") reached.",
        .obj [("limit",.str "max_loop_steps"),
          ("limit_value",.num s.executionPolicy.maxLoopSteps),
          ("observed_value",.num (nextLoopIndex-1 : Int))]⟩
    else none)

/-- `_cancellation_limit`, at a reading of the registry. -/
def cancellationLimit (canceled : Bool) : Option ExecutionLimit :=
  if canceled then
    some ⟨.canceled,"Task cancellation was requested. Execution stopped at a safe boundary.",
      .obj [("source",.str "control_plane_cancellation")]⟩
  else none

/-- `_execution_stop_updates`. -/
def GraphState.stop (limit : ExecutionLimit) : GraphState :=
  {s with toAgentState := executionStopUpdates s.toAgentState limit}

/-- `_pause_updates`. -/
def GraphState.pause (reason : ExecutionStopReason) (message : String) (detail : Json) :
    GraphState :=
  {s with stopReason := some reason.value, stopDetail := detail, stopMessage := some message}

/-- `_clear_pause_updates`. -/
def GraphState.clearPause : GraphState :=
  {s with stopReason := none, stopDetail := .null, stopMessage := none}

end Limits

section Messages

def GraphMessage.toolMessage : GraphMessage → Option ToolMessage
  | tool message => some message
  | _ => none

def GraphMessage.toolCalls : GraphMessage → Option (List ToolCall)
  | ai _ toolCalls => some toolCalls
  | _ => none

/-- The tool calls of `latest_ai_message`. -/
def latestToolCalls (messages : List GraphMessage) : List ToolCall :=
  (messages.reverse.findSome? GraphMessage.toolCalls).getD []

/-- `_latest_tool_messages`: the last block of tool messages. -/
def latestToolMessages (messages : List GraphMessage) : List ToolMessage :=
  ((messages.reverse.dropWhile fun m => m.toolMessage.isNone).takeWhile
    fun m => m.toolMessage.isSome).reverse.filterMap GraphMessage.toolMessage

end Messages

/-- What a node asks the user for. -/
inductive Interrupt where
  | approvalRequired (toolCall : ToolCall) (permission : Permission)
      (approvalIndex approvalCount : Nat) (message : String)
      (invocation : Option AttachedInvocation)
  | userInputRequired (prompt : String) (choices : List String) (toolCallId : String)

/-- How the run of a node ends. -/
inductive NodeResult where
  | updated (state : GraphState)
  | interrupted (interrupt : Interrupt)
  | raised

section ModelNode

/-- A reading of the cancellation flag and of `elapsed_seconds`. -/
structure Reading where
  canceled : Bool
  elapsed : ℚ

inductive ModelOutcome where
  | response (content : Json) (toolCalls : List ToolCall)
  | providerError
  | failed

variable (c : GraphComponents) (s : GraphState)

/-- The limit that `call_model` looks at before and after the call. -/
def modelLimit (reading : Reading) : Option ExecutionLimit :=
  (cancellationLimit reading.canceled).or (modelCallLimit c s reading.elapsed)

/-- `_declared_unexecuted_tool_call`. -/
def declaredUnexecutedToolCall (content : Json) (toolCalls : List ToolCall) : Option String :=
  match content with
  | .str content => if toolCalls = [] then c.toolNames.find? (c.declaresToolCall content) else none
  | _ => none

def callModelNode (before after : Reading) (outcome : ModelOutcome) : NodeResult :=
  match modelLimit c s before with
  | some limit => .updated (s.stop limit)
  | none =>
    match outcome with
    | .failed => .raised
    | .providerError =>
      match modelLimit c s after with
      | some limit => .updated (s.stop limit)
      | none => .raised
    | .response content toolCalls =>
      match modelLimit c s after with
      | some limit => .updated (s.stop limit)
      | none =>
        if (declaredUnexecutedToolCall c content toolCalls).isSome then .raised
        else
          let answered := {s with
            messages := s.messages ++ [.ai content toolCalls]
            modelCalls := s.modelCalls+1}
          if toolCalls = [] then
            .updated {answered with
              finalAnswer := some (c.text.str content)
              stopReason := some ExecutionStopReason.completed.value
              stopDetail := .obj [("source",.str "model_final_answer")]
              stopMessage := none}
          else .updated answered

end ModelNode

section PermissionNode

variable (c : GraphComponents) (s : GraphState)

/-- The decisions on the calls of a batch, with the references that the recorder gives. -/
def batchDecisions (toolCalls : List ToolCall)
    (references : List (Option ToolInvocationReference)) : List ToolCallDecision :=
  List.zipWith (fun toolCall reference =>
    (gateDecision c.tools toolCall).1.attach (if c.hasRecorder then reference else none))
    toolCalls references

/-- The permission that repeats the fields of one decision. -/
def ToolCallDecision.permission (decision : ToolCallDecision) (status : PermissionStatus)
    (toolCalls : List ToolCall) (decisions : List ToolCallDecision) : Permission :=
  ⟨status,decision.reason,some decision.toolCall,toolCalls,decision.invocation,decisions⟩

def toolCallIdDetail (toolCall : ToolCall) : Json :=
  .obj [("tool_call_id",.str (toolCall.id.getD ""))]

def GraphState.permit (permission : Permission) : GraphState :=
  {s with permission := some permission}

/-- The end of `check_permission_node`: the decisions are made. -/
def decideBatch (toolCalls : List ToolCall) (decisions : List ToolCallDecision) : GraphState :=
  match c.tools.permissionGate with
  | none => s.permit
      ⟨.allowed,"no permission gate configured",none,toolCalls,none,decisions⟩
  | some _ =>
    match decisions.find? fun d => d.status = .denied with
    | some first => s.permit (first.permission .denied toolCalls decisions)
    | none =>
      match decisions.find? fun d => d.status = .approvalRequired with
      | some first =>
        (s.permit (first.permission .approvalRequired toolCalls decisions)).pause .approvalRequired
          (if first.reason = "" then "approval required" else first.reason)
          (toolCallIdDetail first.toolCall)
      | none => s.permit ⟨.allowed,"all tool calls allowed",none,toolCalls,none,decisions⟩

def checkPermissionNode (reading : Reading) (references : List (Option ToolInvocationReference)) :
    GraphState :=
  let toolCalls := latestToolCalls s.messages
  match cancellationLimit reading.canceled with
  | some limit => s.stop limit
  | none =>
    if toolCalls = [] then s.permit ⟨.denied,"missing tool call",none,[],none,[]⟩
    else
      match toolCalls.find? fun toolCall => toolCall.name = requestUserInputToolName with
      | some request =>
        let reason := "the model requires additional user input"
        (s.permit ⟨.inputRequired,reason,some request,toolCalls,none,[]⟩).pause .inputRequired
          reason (toolCallIdDetail request)
      | none =>
        match toolCallLimit c s reading.elapsed toolCalls.length with
        | some limit =>
          (s.permit ⟨.budgetExhausted,limit.message,none,toolCalls,none,[]⟩).stop limit
        | none => decideBatch c s toolCalls (batchDecisions c toolCalls references)

end PermissionNode

section Interrupts

variable (c : GraphComponents) (s : GraphState)

/-- The answer to an approval request that a resume value gives. -/
def readApproval (resume : Json) : Approval :=
  if resume.isObject then
    let approved := (resume.member "approved").truthy
    ⟨approved,if (resume.member "reason").truthy then c.text.str (resume.member "reason")
      else if approved then "approved" else "approval rejected"⟩
  else ⟨resume.truthy,if resume.truthy then "approved" else "approval rejected"⟩

/-- The decisions of a permission that wait for an approval. -/
def Permission.approvalDecisions (permission : Permission) : List ToolCallDecision :=
  match permission.decisions.filter fun d => d.status = .approvalRequired with
  | [] =>
    match permission.toolCall with
    | some toolCall => [⟨.approvalRequired,permission.reason,toolCall,permission.invocation⟩]
    | none => []
  | decisions => decisions

/-- How the loop of the approvals ends. -/
inductive ApprovalProgress where
  | finished (approval : Approval)
  | waiting (index : Nat) (decision : ToolCallDecision)

/-- The loop of `approval_required_node`: the recorded resume values answer the first interrupts,
and the first one that has no value interrupts the node. -/
def approvalLoop : List ToolCallDecision → List Json → Nat → Approval → ApprovalProgress
  | [], _, _, approval => .finished approval
  | decision::_, [], index, _ => .waiting index decision
  | _::decisions, resume::resumes, index, _ =>
    let approval := readApproval c resume
    if approval.approved then approvalLoop decisions resumes (index+1) approval
    else .finished approval

def approvalRequiredNode (resumes : List Json) : NodeResult :=
  let permission := s.permission.getD ⟨.denied,"",none,[],none,[]⟩
  let decisions := permission.approvalDecisions
  match approvalLoop c decisions resumes 1 ⟨false,"approval rejected"⟩ with
  | .finished approval => .updated {s with approval := some approval}.clearPause
  | .waiting index decision =>
    let reason := if decision.reason = "" then "approval required" else decision.reason
    .interrupted (.approvalRequired decision.toolCall permission index decisions.length
      ("Approval required for tool call: " ++ reason) decision.invocation)

/-- `_text_from_input_parts`. -/
def textFromInputParts (parts : Json) : String :=
  match parts with
  | .arr items => "\n".intercalate (items.filterMap fun part =>
      if part.isObject ∧ part.member "text" ≠ .null then some (c.text.str (part.member "text"))
      else none)
  | _ => ""

/-- The text that a resume value answers with. -/
def resumeText (resume : Json) : String :=
  let fromParts := if resume.isObject then textFromInputParts c (resume.member "parts") else ""
  let fromText := if fromParts = "" ∧ resume.isObject then strOrEmpty c.text (resume.member "text")
    else fromParts
  if fromText = "" then strOrEmpty c.text resume else fromText

/-- The message that stands for a call when the user has been asked. -/
def inputToolMessage (answer : String) (toolCall : ToolCall) : ToolMessage :=
  let name := if toolCall.name = "" then "tool" else toolCall.name
  {
    toolCallId := (nonEmpty toolCall.id).getD name
    name := some name
    status := "success"
    content := .str (if name = requestUserInputToolName then answer
      else "Tool call deferred because additional user input was required.")}

/-- The values that a loop over a value goes through, if it is one that can be gone through. -/
def iterated : Json → Option (List Json)
  | .arr items => some items
  | .obj fields => some (fields.map fun field => .str field.1)
  | .str text => some (text.toList.map fun c => .str (String.ofList [c]))
  | value => if value.truthy then none else some []

/-- `user_input_required_node`. -/
def userInputRequiredNode (resumes : List Json) : NodeResult :=
  let permission := s.permission.getD ⟨.denied,"",none,[],none,[]⟩
  let toolCall := permission.toolCall.getD ⟨"",.null,none⟩
  let arguments := dictArgs toolCall
  match iterated (arguments.member "choices") with
  | none => .raised
  | some rawChoices =>
    match resumes with
    | [] =>
      let prompt :=
        if (arguments.member "prompt").truthy then c.text.str (arguments.member "prompt")
        else "Please provide the information required to continue."
      let choices := (rawChoices.map c.text.str).filter fun choice => strip choice ≠ ""
      .interrupted (.userInputRequired prompt choices
        ((nonEmpty toolCall.id).getD "request-user-input"))
    | resume::_ =>
      let pending := if permission.toolCalls = [] then [toolCall] else permission.toolCalls
      let toolMessages := pending.map fun call => GraphMessage.tool
        (inputToolMessage (resumeText c resume) call)
      .updated {s with messages := s.messages ++ toolMessages}.clearPause

end Interrupts

section ToolsNode

/-- What the world answers to the wrapper of one call: two readings of the cancellation flag, what
is prepared if the decisions have no reference, what the ledger says to the beginning, and the
message of the tool. -/
structure CallAnswers where
  canceled : Bool
  prepared : Option ToolInvocationReference
  canceledLate : Bool
  execution : ToolInvocationExecution
  response : ToolMessage

/-- How a call of the batch ends; only an executed one has run the body of its tool. -/
inductive ToolRun where
  | blocked (message : ToolMessage)
  | executed (message : ToolMessage)

def ToolRun.message : ToolRun → ToolMessage
  | blocked message => message
  | executed message => message

def ToolRun.isExecuted : ToolRun → Bool
  | blocked _ => false
  | executed _ => true

variable (c : GraphComponents) (s : GraphState)

def cancellationMessage : Option String := (cancellationLimit true).map (·.message)

/-- `tool_call_wrapper`; what it does to the ledger stands with the ledger. -/
def toolCallWrapper (decisions : List ToolCallDecision) (toolCall : ToolCall)
    (answers : CallAnswers) : ToolRun :=
  if answers.canceled then .blocked (blockedToolMessage toolCall cancellationMessage)
  else if !c.hasRecorder then .executed answers.response
  else
    match (invocationReferenceForToolCall decisions toolCall).or answers.prepared with
    | none => .executed answers.response
    | some reference =>
      if reference.executionBlocked then
        .blocked (blockedToolMessage toolCall reference.blockedReason)
      else if answers.canceledLate then
        .blocked (blockedToolMessage toolCall cancellationMessage)
      else if !answers.execution.execute then
        .blocked (blockedToolMessage toolCall answers.execution.message)
      else .executed answers.response

/-- The decisions that the state holds. -/
def GraphState.decisions : List ToolCallDecision := (s.permission.map (·.decisions)).getD []

/-- How `ToolNode` runs the calls of the last message of the model. -/
def toolRuns (answers : List CallAnswers) : List ToolRun :=
  List.zipWith (toolCallWrapper c s.decisions) (latestToolCalls s.messages) answers

def toolsNode (answers : List CallAnswers) : GraphState :=
  let toolMessages := (toolRuns c s answers).map fun run => GraphMessage.tool run.message
  {s with messages := s.messages ++ toolMessages}

end ToolsNode

section LastNodes

variable (c : GraphComponents) (s : GraphState)

def recordToolMessagesNode : GraphState :=
  let recorded := recordToolMessages c.ledger c.text s.decisions s.toAgentState
    (latestToolMessages s.messages)
  {s with toAgentState := recorded}

def incrementLoopNode (elapsed : ℚ) : GraphState :=
  let next := {s with loopIndex := s.loopIndex+1, permission := none}
  match loopStepLimit c s elapsed (s.loopIndex+1) with
  | some limit => next.stop limit
  | none => next

def maxLoopsNode : GraphState :=
  s.stop ⟨.budgetExhausted,
    "Execution budget exhausted: maximum loop steps (" ++ toString s.maxLoops ++ ") reached.",
    .obj [("limit",.str "max_loop_steps"),("limit_value",.num s.maxLoops),
      ("observed_value",.num (max 0 (s.loopIndex-1) : Int))]⟩

/-- The end of `reject_tool_node`. -/
def GraphState.reject (finalAnswer reason source : String) : GraphState :=
  {s with
    finalAnswer := some finalAnswer
    stopReason := some ExecutionStopReason.policyBlocked.value
    stopDetail := .obj [("reason",.str reason),("source",.str source)]
    stopMessage := none}

def rejectToolNode : GraphState :=
  match s.approval.filter fun approval => !approval.approved with
  | some approval =>
    let reason := if approval.reason = "" then "approval rejected" else approval.reason
    s.reject ("Tool call rejected by approval: " ++ reason) reason "approval_rejected"
  | none =>
    let reason := ((s.permission.map (·.reason)).filter fun r => r ≠ "").getD "tool call rejected"
    s.reject ((if s.permission.map Permission.status = some .approvalRequired then
      "Tool call requires approval: " else "Tool call rejected: ") ++ reason) reason
      "permission_denied"

end LastNodes

inductive GraphNode where
  | callModel | checkPermission | approvalRequired | userInputRequired | rejectTool | tools
  | recordToolMessages | incrementLoop | maxLoops
  | finished  -- `END`
  | raised  -- a node has raised
deriving DecidableEq, Repr

section Routing

variable (s : GraphState)

/-- `route_after_model` and its edges. -/
def routeAfterModel : GraphNode :=
  if s.finalAnswer.isSome then .finished
  else if (nonEmpty s.stopReason).isSome then .finished
  else if latestToolCalls s.messages ≠ [] then .checkPermission
  else .finished

def routeAfterPermission : GraphNode :=
  match s.permission.map Permission.status with
  | some .allowed => .tools
  | some .inputRequired => .userInputRequired
  | some .approvalRequired => .approvalRequired
  | _ => if (nonEmpty s.stopReason).isSome then .finished else .rejectTool

def routeAfterApproval : GraphNode :=
  if s.approval.any (·.approved) then .tools else .rejectTool

def routeLoopLimit : GraphNode :=
  if (nonEmpty s.stopReason).isSome then .finished
  else if (s.maxLoops : Int) < s.loopIndex then .maxLoops
  else .callModel

end Routing

/-- An execution between two nodes, or at an interrupt: the resume values are those recorded for
the node that is next. -/
structure Execution where
  state : GraphState
  node : GraphNode
  resumes : List Json
  interrupt : Option Interrupt

/-- What one step learns from the world. -/
inductive GraphInput where
  | model (before after : Reading) (outcome : ModelOutcome)
  | permission (reading : Reading) (references : List (Option ToolInvocationReference))
  | tools (answers : List CallAnswers)
  | loop (elapsed : ℚ)
  | node
  | resume (value : Json)

namespace Execution

def initial (policy : ExecutionPolicy) (maxElapsedSeconds : Option ℚ)
    (messages : List GraphMessage) : Execution :=
  ⟨GraphState.initial policy maxElapsedSeconds messages,.callModel,[],none⟩

def goTo (node : GraphNode) (state : GraphState) : Execution := ⟨state,node,[],none⟩

/-- The execution after the run of a node. -/
def finish (e : Execution) (route : GraphState → GraphNode) : NodeResult → Execution
  | .updated state => goTo (route state) state
  | .interrupted interrupt => {e with interrupt := some interrupt}
  | .raised => {e with node := .raised}

end Execution

/-- One step of the graph: a node, or the resume of an interrupted one. `ToolNode` gives one
message for each call, with the id of the call. -/
def graphStep (c : GraphComponents) (input : GraphInput) (e : Execution) : Option Execution :=
  match e.interrupt,e.node,input with
  | some _,_,.resume value => some {e with resumes := e.resumes ++ [value], interrupt := none}
  | none,.callModel,.model before after outcome =>
    some (e.finish routeAfterModel (callModelNode c e.state before after outcome))
  | none,.checkPermission,.permission reading references =>
    let state := checkPermissionNode c e.state reading references
    if references.length = (latestToolCalls e.state.messages).length then
      some (.goTo (routeAfterPermission state) state)
    else none
  | none,.approvalRequired,.node =>
    some (e.finish routeAfterApproval (approvalRequiredNode c e.state e.resumes))
  | none,.userInputRequired,.node =>
    some (e.finish (fun _ => .incrementLoop) (userInputRequiredNode c e.state e.resumes))
  | none,.rejectTool,.node => some (.goTo .finished (rejectToolNode e.state))
  | none,.tools,.tools answers =>
    if answers.length = (latestToolCalls e.state.messages).length then
      some (.goTo .recordToolMessages (toolsNode c e.state answers))
    else none
  | none,.recordToolMessages,.node =>
    some (.goTo .incrementLoop (recordToolMessagesNode c e.state))
  | none,.incrementLoop,.loop elapsed =>
    let state := incrementLoopNode c e.state elapsed
    some (.goTo (routeLoopLimit state) state)
  | none,.maxLoops,.node => some (.goTo .finished (maxLoopsNode e.state))
  | _,_,_ => none

end VermayAgent
