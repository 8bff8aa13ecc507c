import VermayAgent.ExecutionBounds

/-! Which answers a batch of tool calls has had before it runs.
The answers are read off the run itself: the values of the resumes since the last look at the
permissions. -/
namespace VermayAgent
open Library

/-- The values of the resumes since the permissions were last looked at. -/
def answersSince (run : List GraphInput) : List Json :=
  run.foldl (fun answers input =>
    match input with
    | .permission _ _ => []
    | .resume value => answers ++ [value]
    | _ => answers) []

section Answers

variable {c : GraphComponents} {run : List GraphInput}

theorem answersSince_snoc (run : List GraphInput) (input : GraphInput) :
    answersSince (run ++ [input]) =
      match input with
      | .permission _ _ => []
      | .resume value => answersSince run ++ [value]
      | _ => answersSince run := by
  rw [answersSince,List.foldl_append]
  rfl

/-- Without a gate nothing waits for an approval. -/
theorem batchDecisions_ungated {toolCalls : List ToolCall}
    {references : List (Option ToolInvocationReference)} (h : c.tools.permissionGate = none) :
    ∀ d ∈ batchDecisions c toolCalls references, d.status ≠ .approvalRequired := by
  intro d hd
  induction toolCalls generalizing references with
  | nil => cases hd
  | cons call toolCalls ih =>
    cases references with
    | nil => cases hd
    | cons reference references =>
      rw [batchDecisions,List.zipWith_cons_cons,List.mem_cons] at hd
      rcases hd with rfl | hd
      · rw [gateDecision,h]
        cases (if c.hasRecorder = true then reference else none) with
        | none => simp [ToolCallDecision.attach]
        | some reference =>
          rw [ToolCallDecision.attach]
          split <;> simp
      · exact ih hd

/-- Answers that approve are passed over, and the first that does not ends the loop. -/
theorem approvalLoop_rejected {decisions : List ToolCallDecision} {resumes : List Json} {v : Json}
    (start : Nat) (approval : Approval) (hlength : resumes.length < decisions.length)
    (hall : ∀ w ∈ resumes, (readApproval c w).approved = true)
    (hv : (readApproval c v).approved = false) :
    approvalLoop c decisions (resumes ++ [v]) start approval = .finished (readApproval c v) := by
  induction decisions generalizing resumes start approval with
  | nil => cases hlength
  | cons d decisions ih =>
    cases resumes with
    | nil =>
      simp only [List.nil_append,approvalLoop]
      rw [if_neg (by rw [hv]; exact Bool.false_ne_true)]
    | cons w resumes =>
      rw [List.forall_mem_cons] at hall
      simp only [List.cons_append,approvalLoop]
      rw [if_pos hall.1]
      exact ih _ _ (by simpa using hlength) hall.2

end Answers

section Batches

variable (c : GraphComponents)

/-- The decisions on the current batch, none of which denies it unless there is no gate. -/
def BatchDecided (s : GraphState) (permission : Permission) : Prop :=
  s.permission = some permission ∧
  (∃ references, references.length = (latestToolCalls s.messages).length ∧
    permission.decisions = batchDecisions c (latestToolCalls s.messages) references) ∧
  (∀ call ∈ latestToolCalls s.messages, call.name ≠ requestUserInputToolName) ∧
  (c.tools.permissionGate.isSome → ∀ d ∈ permission.decisions, d.status ≠ .denied)

/-- What the answers of the run have to do with the batch that is decided on. -/
structure Approving (run : List GraphInput) (e : Execution) : Prop where
  asked : e.node = .approvalRequired → answersSince run = e.resumes ∧
    (e.interrupt.isSome → ∀ v ∈ e.resumes, (readApproval c v).approved = true) ∧
    ∃ permission, BatchDecided c e.state permission ∧
      ∃ d ∈ permission.decisions, d.status = .approvalRequired
  running : e.node = .tools → (∀ v ∈ answersSince run, (readApproval c v).approved = true) ∧
    ∃ permission, BatchDecided c e.state permission ∧ (answersSince run).length =
      (permission.decisions.filter fun d => d.status = .approvalRequired).length

variable {c} {policy : ExecutionPolicy} {run : List GraphInput} {input : GraphInput}
  {e e' : Execution}

/-- Away from the batch there is nothing to keep. -/
theorem approving_of_node (hasked : e.node ≠ .approvalRequired) (hrunning : e.node ≠ .tools) :
    Approving c run e :=
  ⟨fun h => absurd h hasked,fun h => absurd h hrunning⟩

theorem Move.approving (h : Move c input e e') (hsound : e.Sound policy)
    (he : Approving c run e) : Approving c (run ++ [input]) e' := by
  cases h with
  | @resumed e value hinterrupt =>
    refine ⟨fun hnode => ?_,fun hnode => ?_⟩
    · obtain ⟨hanswers,_,hdecided⟩ := he.asked hnode
      refine ⟨?_,(fun h => by cases h),hdecided⟩
      rw [answersSince_snoc,hanswers]
    · rcases hsound.clean.interrupt hinterrupt with h | h
      · cases h.symm.trans hnode
      · cases h.symm.trans hnode
  | checkApproval permission message detail hlength hinput _ _ _ hdecisions hdenied hwaits =>
    refine ⟨fun _ => ⟨?_,(fun h => by cases h),permission,⟨rfl,⟨_,hlength,hdecisions⟩,hinput,
      fun _ => hdenied⟩,hwaits⟩,by simp⟩
    rw [answersSince_snoc]
    rfl
  | checkAllowed permission hlength hinput _ _ hdecisions _ hallowed =>
    refine ⟨by simp,fun _ => ?_⟩
    rw [answersSince_snoc]
    refine ⟨by simp,permission,⟨rfl,⟨_,hlength,hdecisions⟩,hinput,fun hgate d hd => ?_⟩,?_⟩
    · rw [hallowed hgate d hd]
      decide
    · have hnone : ∀ d ∈ permission.decisions, d.status ≠ .approvalRequired := by
        intro d hd
        cases hgate : c.tools.permissionGate with
        | none =>
          rw [hdecisions] at hd
          exact batchDecisions_ungated hgate d hd
        | some gate =>
          rw [hallowed (by rw [hgate]; rfl) d hd]
          decide
      symm
      rw [List.length_nil,List.length_eq_zero_iff,List.filter_eq_nil_iff]
      intro d hd
      simpa using hnone d hd
  | approvalWaits interrupt index decision hloop =>
    obtain ⟨hanswers,_,permission,hdecided,hwaits⟩ := he.asked rfl
    refine ⟨fun _ => ⟨?_,fun _ => (approvalLoop_waiting (hloop permission hdecided.1)).2,permission,
      hdecided,hwaits⟩,by simp⟩
    rw [answersSince_snoc]
    exact hanswers
  | @approvalEnds s resumes approval hloop =>
    obtain ⟨hanswers,_,permission,hdecided,hwaits⟩ := he.asked rfl
    obtain ⟨permission',hpermission',hasked,_,hne,_⟩ := hsound.within.waiting rfl
    cases hdecided.1.symm.trans hpermission'
    cases happroved : approval.approved with
    | false => exact approving_of_node (by simp) (by simp)
    | true =>
      obtain ⟨hlength,hall⟩ := approvalLoop_approved hne (hloop permission hdecided.1) happroved
      have hsame : resumes.length = permission.approvalDecisions.length :=
        le_antisymm hasked hlength
      rw [← hsame,List.take_length] at hall
      refine ⟨by simp,fun _ => ?_⟩
      rw [answersSince_snoc]
      change answersSince run = resumes at hanswers
      simp only [hanswers]
      exact ⟨hall,permission,hdecided,by rw [hsame,approvalDecisions_eq hwaits]⟩
  | _ => exact approving_of_node (by simp) (by simp)

theorem approving_run {maxElapsedSeconds : Option ℚ} {messages : List GraphMessage}
    (h : exec (graphStep c) run (.initial policy maxElapsedSeconds messages) = some e) :
    Approving c run e := by
  have htraced : e.Sound policy ∧ Approving c run e := by
    refine exec_traced (J := fun run e => e.Sound policy ∧ Approving c run e)
      ⟨sound_initial policy maxElapsedSeconds messages,approving_of_node (by simp) (by simp)⟩
      (fun run input e e' he hstep => ?_) h
    exact ⟨he.1.step hstep,(graphStep_move he.1.clean hstep).approving he.1 he.2⟩
  exact htraced.2

/-- When a body of the batch runs, the user has not been asked for an input by it, no call of it
is denied if there is a gate, and each of its approvals has been given, one answer for each in
their order. -/
theorem batch_approved (c : GraphComponents) (policy : ExecutionPolicy)
    (maxElapsedSeconds : Option ℚ) (messages : List GraphMessage) (run : List GraphInput)
    (h : exec (graphStep c) run (.initial policy maxElapsedSeconds messages) = some e)
    (hbody : 0 < bodiesRun c input e) :
    ∃ permission, BatchDecided c e.state permission ∧
      (answersSince run).length =
        (permission.decisions.filter fun d => d.status = .approvalRequired).length ∧
      ∀ v ∈ answersSince run, (readApproval c v).approved = true := by
  obtain ⟨hall,permission,hdecided,hlength⟩ := (approving_run h).running (bodiesRun_node hbody)
  exact ⟨permission,hdecided,hlength,hall⟩

/-- The reason that is given for a rejection. -/
def Approval.rejection (approval : Approval) : String :=
  if approval.reason = "" then "approval rejected" else approval.reason

variable (c) in
/-- An execution in which an approval has been refused, on its way to the end. -/
inductive Refused (v : Json) : Execution → Prop
  | answered {s : GraphState} {resumes : List Json} {permission : Permission}
      (hpermission : s.permission = some permission)
      (hlength : resumes.length < permission.approvalDecisions.length)
      (hall : ∀ w ∈ resumes, (readApproval c w).approved = true) :
      Refused v ⟨s,.approvalRequired,resumes ++ [v],none⟩
  | rejecting {s : GraphState} (h : s.approval = some (readApproval c v)) :
      Refused v (.goTo .rejectTool s)
  | finished {s : GraphState}
      (hreason : s.stopReason = some ExecutionStopReason.policyBlocked.value)
      (hanswer : s.finalAnswer =
        some ("Tool call rejected by approval: " ++ (readApproval c v).rejection)) :
      Refused v (.goTo .finished s)

/-- The steps from a refusal to the end. -/
def refusalSteps (e : Execution) : ℤ :=
  match e.node with
  | .approvalRequired => 2
  | .rejectTool => 1
  | _ => 0

theorem routeAfterApproval_refused {s : GraphState} {approval : Approval}
    (h : s.approval = some approval) (happroved : approval.approved = false) :
    routeAfterApproval s = .rejectTool := by
  rw [routeAfterApproval,h,Option.any_some,happroved]
  rfl

theorem Refused.step {v : Json} (h : Refused c v e) (hv : (readApproval c v).approved = false)
    (hstep : graphStep c input e = some e') :
    Refused c v e' ∧ 1+refusalSteps e' ≤ refusalSteps e := by
  cases h with
  | @answered s resumes permission hpermission hlength hall =>
    cases input with
    | node =>
      have hloop := approvalLoop_rejected 1 ⟨false,"approval rejected"⟩ hlength hall hv
      simp only [graphStep,approvalRequiredNode,hpermission,Option.getD_some,hloop] at hstep
      cases hstep
      rw [Execution.finish,routeAfterApproval_refused rfl hv]
      exact ⟨.rejecting rfl,le_rfl⟩
    | _ => cases hstep
  | @rejecting s happroval =>
    cases input with
    | node =>
      cases hstep
      change Refused c v (.goTo .finished (rejectToolNode s)) ∧ _
      rw [rejectToolNode,happroval,Option.filter_some,if_pos (by rw [hv]; rfl)]
      exact ⟨.finished rfl rfl,le_rfl⟩
    | _ => cases hstep
  | finished _ _ => cases input <;> cases hstep

/-- After one refusal the execution goes to its end, in at most two steps and without any body of
a tool or call of the model, and its answer is the reason of the refusal. -/
theorem refused_batch_ends (c : GraphComponents) (policy : ExecutionPolicy)
    (maxElapsedSeconds : Option ℚ) (messages : List GraphMessage) (run rest : List GraphInput)
    (v : Json) (h : exec (graphStep c) run (.initial policy maxElapsedSeconds messages) = some e)
    (hnode : e.node = .approvalRequired) (hinterrupt : e.interrupt.isSome)
    (hv : (readApproval c v).approved = false)
    (hrest : exec (graphStep c) (.resume v::rest) e = some e') :
    spent (graphStep c) (bodiesRun c) (.resume v::rest) e = 0 ∧
      spent (graphStep c) (invokesModel c) (.resume v::rest) e = 0 ∧ rest.length ≤ 2 ∧
      (e'.node = .finished → e'.state.stopReason = some ExecutionStopReason.policyBlocked.value ∧
        e'.state.finalAnswer =
          some ("Tool call rejected by approval: " ++ (readApproval c v).rejection)) := by
  obtain ⟨_,happroved,_⟩ := (approving_run h).asked hnode
  have hsound := (sound_initial policy maxElapsedSeconds messages).run h
  obtain ⟨permission,hpermission,_,hwaits,_⟩ := hsound.within.waiting hnode
  obtain ⟨s,node,resumes,interrupt⟩ := e
  obtain ⟨interrupt,hsome⟩ := Option.isSome_iff_exists.mp hinterrupt
  subst hsome hnode
  obtain ⟨e₁,hresume,hrun⟩ := exec_cons_eq_some.mp hrest
  cases hresume
  have hrefused : Refused c v ⟨s,.approvalRequired,resumes ++ [v],none⟩ :=
    .answered hpermission (hwaits rfl) (happroved rfl)
  have hkeeps : ∀ input e e', Refused c v e → graphStep c input e = some e' → Refused c v e' :=
    fun _ _ _ he h => (he.step hv h).1
  have hfree (cost : GraphInput → Execution → ℕ)
      (hcost : ∀ input e, Refused c v e → cost input e = 0) :
      spent (graphStep c) cost rest ⟨s,.approvalRequired,resumes ++ [v],none⟩ = 0 := by
    have hspent := spent_le cost (fun _ => 0) hkeeps
      (fun input e _ he _ => by rw [hcost input e he]; rfl) hrefused hrun
    omega
  have hsteps := spent_le (fun _ _ => 1) refusalSteps hkeeps
    (fun _ _ _ he h => (he.step hv h).2) hrefused hrun
  rw [spent_one hrun] at hsteps
  have hend := exec_invariant hkeeps hrefused hrun
  refine ⟨?_,?_,?_,fun hfinished => ?_⟩
  · rw [spent_cons rfl,hfree]
    · rfl
    · intro input e he
      cases he <;> cases input <;> rfl
  · rw [spent_cons rfl,hfree]
    · rfl
    · intro input e he
      cases he <;> cases input <;> rfl
  · have hleft : 0 ≤ refusalSteps e' := by
      unfold refusalSteps
      split <;> omega
    have hall : refusalSteps ⟨s,.approvalRequired,resumes ++ [v],none⟩ = 2 := rfl
    omega
  · cases hend with
    | answered _ _ _ => cases hfinished
    | rejecting _ => cases hfinished
    | finished hreason hanswer => exact ⟨hreason,hanswer⟩

def guardedComponents : GraphComponents :=
  {lookupComponents with
    tools := ⟨some fun _ => ⟨false,true,"changes the cluster"⟩,deployTools.toolMetadata⟩}

/-- The execution waits for the approval of its first call. -/
def guardedRun : List GraphInput :=
  [.model ⟨false,0⟩ ⟨false,0⟩ (.response (.str "") [lookupCall]),.permission ⟨false,0⟩ [none],.node]

def answerOf (approved : Bool) : Json := .obj [("approved",.bool approved),("reason",.null)]

theorem batch_approved_sample : ∃ e,
    exec (graphStep guardedComponents) (guardedRun ++ [.resume (answerOf true),.node])
      (.initial deployPolicy none lookupMessages) = some e ∧
    ∃ permission, BatchDecided guardedComponents e.state permission ∧
      (answersSince (guardedRun ++ [.resume (answerOf true),.node])).length =
        (permission.decisions.filter fun d => d.status = .approvalRequired).length ∧
      ∀ v ∈ answersSince (guardedRun ++ [.resume (answerOf true),.node]),
        (readApproval guardedComponents v).approved = true :=
  ⟨_,rfl,batch_approved guardedComponents deployPolicy none lookupMessages
    (guardedRun ++ [.resume (answerOf true),.node]) rfl
    (by decide : 0 < bodiesRun guardedComponents (.tools
      [⟨false,none,false,⟨"",false,none⟩,⟨"call-1",some "lookup","success",.str "api"⟩⟩]) _)⟩

theorem refused_batch_ends_sample : ∃ e e',
    exec (graphStep guardedComponents) guardedRun (.initial deployPolicy none lookupMessages) =
      some e ∧
    exec (graphStep guardedComponents) [.resume (answerOf false),.node,.node] e = some e' ∧
    spent (graphStep guardedComponents) (bodiesRun guardedComponents)
      [.resume (answerOf false),.node,.node] e = 0 :=
  ⟨_,_,rfl,rfl,(refused_batch_ends guardedComponents deployPolicy none lookupMessages guardedRun
    [.node,.node] (answerOf false) rfl rfl rfl rfl rfl).1⟩

end Batches

end VermayAgent
