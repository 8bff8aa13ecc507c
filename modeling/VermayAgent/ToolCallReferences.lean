import VermayAgent.LedgerFacts

/-! The ledger references of a batch of tool calls.
The permission node prepares a record for each call and keeps its id in the decision; the tool
wrapper finds the reference again by comparing its call with those of the decisions. -/
namespace VermayAgent
open Library Txn MainAgentStore

namespace Library.Json

mutual

/-- Equality of the decoded values as dictionaries, lists, numbers and strings: `True` is 1, and
the members of an object have no order. -/
def pyEq : Json → Json → Bool
  | null, null => true
  | bool a, bool b => a = b
  | bool a, num b => (if a then 1 else 0) = b
  | num a, bool b => a = (if b then 1 else 0)
  | num a, num b => a = b
  | str a, str b => a = b
  | arr a, arr b => pyEqItems a b
  | obj a, obj b => a.length = b.length && pyEqFields a b
  | _, _ => false

def pyEqItems : List Json → List Json → Bool
  | [], [] => true
  | a::as, b::bs => pyEq a b && pyEqItems as bs
  | _, _ => false

def pyEqFields : List (String × Json) → List (String × Json) → Bool
  | [], _ => true
  | (k,a)::as, bs =>
    (match bs.lookup k with
      | some b => pyEq a b
      | none => false) && pyEqFields as bs

end

end Library.Json

/-- What the permission gate says of a call. -/
structure PermissionDecision where
  allowed : Bool
  requiresApproval : Bool
  reason : String

inductive DecisionStatus where
  | allowed | approvalRequired | denied
deriving DecidableEq, Repr

/-- What a decision keeps of the reference that was prepared for it. -/
structure AttachedInvocation where
  invocationId : InvocationId
  argumentsDigest : String
  invocationStatus : String
  executionBlocked : Bool
deriving DecidableEq, Repr

/-- One entry of the `decisions` of a permission. -/
structure ToolCallDecision where
  status : DecisionStatus
  reason : String
  toolCall : ToolCall
  invocation : Option AttachedInvocation

/-- The parts of the graph that decide on a call: the gate, if there is one, and the normalised
metadata of the tools by name. -/
structure GraphTools where
  permissionGate : Option (ToolCall → PermissionDecision)
  toolMetadata : String → ToolMetadata

/-- What the ledger calls of one batch share: the thread and the loop index of the state. -/
structure ToolBatch where
  runtimeThreadId : Option ThreadId
  loopIndex : Int

/-- `int(state.get("loop_index") or 1)`. -/
def ToolBatch.ledgerLoopIndex (batch : ToolBatch) : Int :=
  if batch.loopIndex = 0 then 1 else batch.loopIndex

def PermissionDecision.status (decision : PermissionDecision) : DecisionStatus :=
  if decision.requiresApproval then .approvalRequired
  else if decision.allowed then .allowed
  else .denied

section Nodes

variable (env : LedgerEnv) (tools : GraphTools) (batch : ToolBatch)

/-- The decision on a call before the ledger is asked. -/
def gateDecision (toolCall : ToolCall) : ToolCallDecision × Bool :=
  match tools.permissionGate with
  | none => (⟨.allowed,"no permission gate configured",toolCall,none⟩,false)
  | some check =>
    (⟨(check toolCall).status,(check toolCall).reason,toolCall,none⟩,
      (check toolCall).requiresApproval)

def ToolInvocationReference.attached (reference : ToolInvocationReference) : AttachedInvocation :=
  ⟨reference.invocationId,reference.argumentsDigest,reference.status,reference.executionBlocked⟩

/-- The decision with the reference written into it; a blocked effect denies the call. -/
def ToolCallDecision.attach (decision : ToolCallDecision) :
    Option ToolInvocationReference → ToolCallDecision
  | none => decision
  | some reference =>
    if reference.executionBlocked then
      {decision with
        invocation := some reference.attached
        status := .denied
        reason := (reference.blockedReason.filter fun s => s ≠ "").getD
          "Tool invocation will not be replayed automatically."}
    else {decision with invocation := some reference.attached}

def attachInvocationReference (decision : ToolCallDecision) (approvalRequired : Bool)
    (now : Nat) : StoreTxn ToolCallDecision :=
  decision.attach <$> MainAgentToolInvocationLedger.prepare env batch.runtimeThreadId
    batch.ledgerLoopIndex decision.toolCall (tools.toolMetadata decision.toolCall.name)
    approvalRequired now

/-- The decision on one call of the batch. -/
def decideToolCall (toolCall : ToolCall) (now : Nat) : StoreTxn ToolCallDecision :=
  attachInvocationReference env tools batch (gateDecision tools toolCall).1
    (gateDecision tools toolCall).2 now

/-- The decisions of `check_permission_node` on a list of calls. Each preparation is a transaction
of its own, and `others` is what else is done to the ledger before it. -/
inductive Decides : List ToolCall → AgentDb → List ToolCallDecision → AgentDb → Prop
  | nil (db : AgentDb) : Decides [] db [] db
  | cons {toolCall : ToolCall} {toolCalls : List ToolCall} {db db₁ db₂ : AgentDb}
      {decision : ToolCallDecision} {decisions : List ToolCallDecision}
      (others : List LedgerOp) (now : Nat)
      (h : (decideToolCall env tools batch toolCall now).run (LedgerOp.history env others db) =
        .ok (decision,db₁))
      (hrest : Decides toolCalls db₁ decisions db₂) :
      Decides (toolCall::toolCalls) db (decision::decisions) db₂

/-- `dict(call.get("args") or {})`. -/
def dictArgs (toolCall : ToolCall) : Json :=
  if toolCall.args.truthy then toolCall.args else .obj []

/-- `_same_tool_call`. -/
def sameToolCall (candidate toolCall : ToolCall) : Bool :=
  match candidate.id,toolCall.id with
  | some candidateId,some toolCallId => candidateId = toolCallId
  | _,_ => candidate.name = toolCall.name && (dictArgs candidate).pyEq (dictArgs toolCall)

/-- The reference that a decision gives to a call. -/
def ToolCallDecision.reference (decision : ToolCallDecision) : Option ToolInvocationReference :=
  decision.invocation.map fun invocation =>
    ⟨invocation.invocationId,invocation.argumentsDigest,
      if invocation.invocationStatus = "" then "prepared" else invocation.invocationStatus,
      invocation.executionBlocked,
      if invocation.executionBlocked then some decision.reason else none⟩

/-- `_invocation_reference_for_tool_call`: the first decision of a same call that has one. -/
def invocationReferenceForToolCall (decisions : List ToolCallDecision) (toolCall : ToolCall) :
    Option ToolInvocationReference :=
  match decisions with
  | [] => none
  | decision::decisions =>
    if sameToolCall decision.toolCall toolCall then
      decision.reference.or (invocationReferenceForToolCall decisions toolCall)
    else invocationReferenceForToolCall decisions toolCall

/-- The reference under which the wrapper runs a call: the one found in the decisions, or one
that is prepared now. -/
def wrapperReference (decisions : List ToolCallDecision) (toolCall : ToolCall) (now : Nat) :
    StoreTxn (Option ToolInvocationReference) :=
  match invocationReferenceForToolCall decisions toolCall with
  | some reference => pure (some reference)
  | none => MainAgentToolInvocationLedger.prepare env batch.runtimeThreadId batch.ledgerLoopIndex
      toolCall (tools.toolMetadata toolCall.name) false now

end Nodes

section References

variable {env : LedgerEnv} {tools : GraphTools} {batch : ToolBatch} {db db' db₁ : AgentDb}
  {toolCall : ToolCall} {toolCalls : List ToolCall} {decisions : List ToolCallDecision}
  {id : InvocationId}

/-- The record `id` exists and is that of the tool and the arguments of the call. -/
def OwnRecord (env : LedgerEnv) (db : AgentDb) (id : InvocationId) (toolCall : ToolCall) : Prop :=
  ∃ r, db.invocation id = some r ∧ r.toolName = toolCall.name ∧
    r.argumentsDigest = env.argumentsDigest toolCall.args

theorem OwnRecord.of_advances {r r' : ToolInvocationRecord} (hr' : db'.invocation id = some r')
    (ha : Advances r r') (hname : r.toolName = toolCall.name)
    (hdigest : r.argumentsDigest = env.argumentsDigest toolCall.args) :
    OwnRecord env db' id toolCall := by
  have hname' := congrArg NewToolInvocation.toolName ha.identity
  have hdigest' := congrArg NewToolInvocation.argumentsDigest ha.identity
  exact ⟨r',hr',hname'.trans hname,hdigest'.trans hdigest⟩

/-- What a record is about never changes. -/
theorem OwnRecord.history (h : OwnRecord env db id toolCall) (ops : List LedgerOp) :
    OwnRecord env (LedgerOp.history env ops db) id toolCall := by
  obtain ⟨r,hr,hname,hdigest⟩ := h
  obtain ⟨r',hr',ha⟩ := history_advances env ops hr
  exact .of_advances hr' ha hname hdigest

theorem OwnRecord.moves {begun : Option InvocationId} {created : Option NewToolInvocation}
    (h : OwnRecord env db id toolCall) (hm : Moves begun created db db') :
    OwnRecord env db' id toolCall := by
  obtain ⟨r,hr,hname,hdigest⟩ := h
  obtain ⟨r',hr',ha⟩ := hm.advances hr
  exact .of_advances hr' ha hname hdigest

theorem latestInvocation_mem {rows : List ToolInvocationRecord} {r : ToolInvocationRecord}
    (h : latestInvocation rows = some r) : r ∈ rows := by
  induction rows generalizing r with
  | nil => cases h
  | cons a rows ih =>
    cases hl : latestInvocation rows with
    | none =>
      simp only [latestInvocation,hl,Option.some.injEq] at h
      exact h ▸ List.mem_cons_self
    | some b =>
      simp only [latestInvocation,hl] at h
      split at h
      · cases h
        exact List.mem_cons_self
      · cases h
        exact List.mem_cons_of_mem a (ih hl)

/-- The row that comes back from a creation is stored and has the columns that were asked for. -/
theorem createOrGetToolInvocation_ok {new : NewToolInvocation} {now : Nat}
    {r : ToolInvocationRecord}
    (h : (createOrGetToolInvocation new now).run db = .ok (r,db')) :
    db'.invocation r.invocationId = some r ∧ r.toolName = new.toolName ∧
      r.argumentsDigest = new.argumentsDigest := by
  simp only [createOrGetToolInvocation,bind_ok,require_ok,getToolInvocation_ok] at h
  obtain ⟨_,_,⟨_,rfl⟩,_,_,⟨_,rfl⟩,_,db₁,ho,o,_,⟨hget,rfl⟩,h⟩ := h
  cases requireInvocationOwner_keeps (v := id) new _ _ _ ho
  cases o with
  | some existing =>
    simp only [validateToolInvocationIdentity,bind_ok,require_ok,pure_ok] at h
    obtain ⟨_,_,⟨hv,rfl⟩,rfl,rfl⟩ := h
    exact ⟨Table.key_of_get hget ▸ hget,hv.2.2.2.2.2.1,hv.2.2.2.2.2.2⟩
  | none =>
    simp only [getToolInvocationByExecutionIdentity,bind_ok,run_select,Except.ok.injEq,
      Prod.mk.injEq] at h
    obtain ⟨_,_,⟨hfound,rfl⟩,h⟩ := h
    split at h
    · simp only [validateToolInvocationIdentity,bind_ok,require_ok,pure_ok] at h
      obtain ⟨_,_,⟨hv,rfl⟩,rfl,rfl⟩ := h
      exact ⟨Table.get_of_mem (List.mem_of_find?_eq_some hfound),hv.2.2.2.2.2.1,
        hv.2.2.2.2.2.2⟩
    · simp only [bind_ok,getToolInvocation_ok,orFail_ok] at h
      obtain ⟨_,_,hi,_,_,⟨hget',rfl⟩,hsome,rfl⟩ := h
      rw [hsome] at hget'
      refine ⟨Table.key_of_get hget' ▸ hget',?_⟩
      rcases (@insertToolInvocation_moves none _ _ _ _ _ hi).row new.invocationId with
        hrow | ⟨_,new',now',hnew,hrow⟩ | ⟨r₁,_,hr₁,_⟩
      · exact absurd (hrow.symm.trans hget') (by simp [AgentDb.invocation] at hget ⊢; simp [hget])
      · cases hnew
        cases hrow.symm.trans hget'
        exact ⟨rfl,rfl⟩
      · exact absurd (hget.symm.trans hr₁) (by simp)

/-- The reference for a request names a stored record of its effect. -/
theorem prepareNew_ok {new : NewToolInvocation} {now : Nat}
    {reference : ToolInvocationReference}
    (h : (MainAgentToolInvocationLedger.prepareNew new now).run db = .ok (some reference,db')) :
    ∃ r, db'.invocation reference.invocationId = some r ∧ r.toolName = new.toolName ∧
      r.argumentsDigest = new.argumentsDigest := by
  obtain ⟨prior,db₁,hp,h⟩ := (bind_ok _ _).mp h
  split at h
  · rename_i r hr
    simp only [pure_ok,Option.some.injEq] at h
    obtain ⟨rfl,rfl⟩ := h
    obtain ⟨o,_,hget,hp⟩ := (bind_ok _ _).mp hp
    obtain ⟨_,rfl⟩ := getToolInvocation_ok.mp hget
    cases o with
    | some _ =>
      simp only [pure_ok] at hp
      rw [← hp.1] at hr
      cases hr
    | none =>
      simp only [findLatestToolInvocationForEffect,run_select,Except.ok.injEq,Prod.mk.injEq] at hp
      obtain ⟨hlatest,rfl⟩ := hp
      have hprior := (Option.filter_eq_some_iff.mp hr).1
      have hmem := latestInvocation_mem (hlatest.trans hprior)
      obtain ⟨hmem,heffect⟩ := List.mem_filter.mp hmem
      have heffect := of_decide_eq_true heffect
      exact ⟨r,Table.get_of_mem hmem,heffect.2⟩
  · obtain ⟨r,hr,hreference⟩ := (map_ok _ _).mp h
    cases hreference
    obtain ⟨hget,hnew⟩ := createOrGetToolInvocation_ok hr
    refine ⟨r,?_,hnew⟩
    unfold MainAgentToolInvocationLedger.referenceOf
    split
    · exact hget
    · exact hget

/-- A prepared reference names a stored record of the call's own effect. -/
theorem prepare_ok {thread : Option ThreadId} {loopIndex : Int} {metadata : ToolMetadata}
    {approvalRequired : Bool} {now : Nat} {reference : ToolInvocationReference}
    (h : (MainAgentToolInvocationLedger.prepare env thread loopIndex toolCall metadata
      approvalRequired now).run db = .ok (some reference,db')) :
    OwnRecord env db' reference.invocationId toolCall := by
  unfold MainAgentToolInvocationLedger.prepare at h
  split at h
  · cases h
  · rename_i thread
    by_cases hthread : thread = ""
    · rw [if_pos hthread] at h
      cases h
    · rw [if_neg hthread] at h
      obtain ⟨_,_,hs,h⟩ := (bind_ok _ _).mp h
      cases hs
      split at h
      · cases h
      · rename_i new hnew
        have hname : new.toolName = toolCall.name ∧
            new.argumentsDigest = env.argumentsDigest toolCall.args := by
          unfold MainAgentToolInvocationLedger.invocationRequest at hnew
          split at hnew
          · cases hnew
          · split at hnew
            · cases hnew
            · cases hnew
              exact ⟨rfl,rfl⟩
        obtain ⟨r,hr,hrname,hrdigest⟩ := prepareNew_ok h
        exact ⟨r,hr,hrname.trans hname.1,hrdigest.trans hname.2⟩

theorem gateDecision_toolCall (tools : GraphTools) (toolCall : ToolCall) :
    (gateDecision tools toolCall).1.toolCall = toolCall ∧
      (gateDecision tools toolCall).1.invocation = none := by
  unfold gateDecision
  split
  · exact ⟨rfl,rfl⟩
  · exact ⟨rfl,rfl⟩

theorem attach_toolCall (decision : ToolCallDecision)
    (reference : Option ToolInvocationReference) :
    (decision.attach reference).toolCall = decision.toolCall := by
  cases reference with
  | none => rfl
  | some reference =>
    simp only [ToolCallDecision.attach]
    split
    · rfl
    · rfl

theorem attach_invocation (decision : ToolCallDecision) (reference : ToolInvocationReference) :
    (decision.attach (some reference)).invocation = some reference.attached := by
  simp only [ToolCallDecision.attach]
  split
  · rfl
  · rfl

/-- The reference in a decision, where it has one, is to a record of the call it is about. -/
def ToolCallDecision.Own (env : LedgerEnv) (db : AgentDb) (decision : ToolCallDecision) : Prop :=
  ∀ invocation, decision.invocation = some invocation →
    OwnRecord env db invocation.invocationId decision.toolCall

theorem decideToolCall_ok {now : Nat} {decision : ToolCallDecision}
    (h : (decideToolCall env tools batch toolCall now).run db = .ok (decision,db')) :
    decision.toolCall = toolCall ∧ decision.Own env db' := by
  obtain ⟨reference,hprepare,rfl⟩ := (map_ok _ _).mp h
  obtain ⟨hcall,hnone⟩ := gateDecision_toolCall tools toolCall
  rw [hcall] at hprepare
  refine ⟨(attach_toolCall _ _).trans hcall,fun invocation hinvocation => ?_⟩
  rw [attach_toolCall,hcall]
  cases reference with
  | none => cases hnone.symm.trans hinvocation
  | some reference =>
    rw [attach_invocation] at hinvocation
    cases hinvocation
    exact prepare_ok hprepare

theorem decideToolCall_moves {now : Nat} {decision : ToolCallDecision}
    (h : (decideToolCall env tools batch toolCall now).run db = .ok (decision,db')) :
    ∃ created, Moves none created db db' := by
  obtain ⟨_,hprepare,_⟩ := (map_ok _ _).mp h
  exact ⟨_,prepare_moves hprepare⟩

theorem OwnRecord.decides {toolCall' : ToolCall} (h : OwnRecord env db id toolCall')
    (hd : Decides env tools batch toolCalls db decisions db') :
    OwnRecord env db' id toolCall' := by
  induction hd with
  | nil => exact h
  | cons others now hrun _ ih =>
    obtain ⟨_,hm⟩ := decideToolCall_moves hrun
    exact ih ((h.history others).moves hm)

/-- Each decision is about its call, and its reference is to a record of that call. -/
theorem Decides.own (hd : Decides env tools batch toolCalls db decisions db') :
    decisions.map (·.toolCall) = toolCalls ∧ ∀ d ∈ decisions, d.Own env db' := by
  induction hd with
  | nil => exact ⟨rfl,by simp⟩
  | cons others now hrun hrest ih =>
    obtain ⟨hcall,hown⟩ := decideToolCall_ok hrun
    refine ⟨congrArg₂ List.cons hcall ih.1,fun d hd => ?_⟩
    rcases List.mem_cons.mp hd with rfl | hd
    · exact fun invocation hinvocation => (hown invocation hinvocation).decides hrest
    · exact ih.2 d hd

/-- The decision whose reference a call is given. -/
def matchingDecision (decisions : List ToolCallDecision) (toolCall : ToolCall) :
    Option ToolCallDecision :=
  decisions.find? fun d => d.invocation.isSome && sameToolCall d.toolCall toolCall

theorem invocationReferenceForToolCall_eq (decisions : List ToolCallDecision)
    (toolCall : ToolCall) : invocationReferenceForToolCall decisions toolCall =
      (matchingDecision decisions toolCall).bind (·.reference) := by
  induction decisions with
  | nil => rfl
  | cons d decisions ih =>
    rw [invocationReferenceForToolCall,matchingDecision,List.find?_cons]
    cases hs : sameToolCall d.toolCall toolCall with
    | false =>
      rw [if_neg (by simp),Bool.and_false,ih]
      rfl
    | true =>
      cases hi : d.invocation with
      | none =>
        rw [if_pos rfl,Option.isSome_none,Bool.false_and,ToolCallDecision.reference,hi,ih]
        rfl
      | some invocation =>
        rw [if_pos rfl,Option.isSome_some,Bool.true_and,ToolCallDecision.reference,hi]
        simp [ToolCallDecision.reference,hi]

/-- Whatever reference the wrapper runs the call under, it is to a record of the call's own tool
and arguments, then and ever after. -/
def RunsUnderOwnRecord (env : LedgerEnv) (tools : GraphTools) (batch : ToolBatch)
    (decisions : List ToolCallDecision) (db : AgentDb) (toolCall : ToolCall) : Prop :=
  ∀ (before after : List LedgerOp) (now : Nat) (reference : ToolInvocationReference)
    (db' : AgentDb), (wrapperReference env tools batch decisions toolCall now).run
      (LedgerOp.history env before db) = .ok (some reference,db') →
    OwnRecord env (LedgerOp.history env after db') reference.invocationId toolCall

/-- The call and the first call with a record that is taken for the same one name the same tool
and have the same arguments digest. -/
def FirstMatchAgrees (env : LedgerEnv) (decisions : List ToolCallDecision) (toolCall : ToolCall) :
    Prop :=
  ∀ d, matchingDecision decisions toolCall = some d → d.toolCall.name = toolCall.name ∧
    env.argumentsDigest d.toolCall.args = env.argumentsDigest toolCall.args

theorem runsUnderOwnRecord_iff (hown : ∀ d ∈ decisions, d.Own env db) :
    RunsUnderOwnRecord env tools batch decisions db toolCall ↔
      FirstMatchAgrees env decisions toolCall := by
  have hlookup := invocationReferenceForToolCall_eq decisions toolCall
  cases hm : matchingDecision decisions toolCall with
  | none =>
    rw [hm] at hlookup
    refine iff_of_true (fun before after now reference db' h => ?_) fun d hd => ?_
    · simp only [wrapperReference,hlookup,Option.bind_none] at h
      exact (prepare_ok h).history after
    · cases hm.symm.trans hd
  | some d =>
    obtain ⟨hmem,htracked⟩ := And.intro (List.mem_of_find?_eq_some hm) (List.find?_some hm)
    obtain ⟨invocation,hinvocation⟩ :=
      Option.isSome_iff_exists.mp (Bool.and_eq_true_iff.mp htracked).1
    have hreference : d.reference.isSome = true := by simp [ToolCallDecision.reference,hinvocation]
    obtain ⟨reference,hreference⟩ := Option.isSome_iff_exists.mp hreference
    have hid : reference.invocationId = invocation.invocationId := by
      simp only [ToolCallDecision.reference,hinvocation,Option.map_some,Option.some.injEq]
        at hreference
      exact hreference ▸ rfl
    have hrun : ∀ now db, (wrapperReference env tools batch decisions toolCall now).run db =
        .ok (some reference,db) := by
      intro now db
      simp [wrapperReference,hlookup,hm,hreference]
    have hrecord := hown d hmem invocation hinvocation
    constructor
    · intro h d' hd'
      cases hm.symm.trans hd'
      obtain ⟨r,hr,hname,hdigest⟩ := h [] [] 0 reference db (hrun 0 db)
      obtain ⟨r',hr',hname',hdigest'⟩ := hrecord
      rw [hid] at hr
      cases hr.symm.trans hr'
      exact ⟨hname'.symm.trans hname,hdigest'.symm.trans hdigest⟩
    · intro h before after now reference' db' h'
      cases (hrun now _).symm.trans h'
      obtain ⟨hname,hdigest⟩ := h d hm
      obtain ⟨r,hr,hrname,hrdigest⟩ := (hrecord.history before).history after
      exact ⟨r,hid ▸ hr,hrname.trans hname,hrdigest.trans hdigest⟩

/-- Calls with ids that differ are taken for no other call. -/
theorem firstMatchAgrees_of_distinct (hd : Decides env tools batch toolCalls db decisions db')
    (hids : (toolCalls.map (·.id)).Nodup) (hsome : ∀ c ∈ toolCalls, c.id.isSome = true)
    (hmem : toolCall ∈ toolCalls) : FirstMatchAgrees env decisions toolCall := by
  intro d hmatch
  have hdmem : d.toolCall ∈ toolCalls :=
    hd.own.1 ▸ List.mem_map_of_mem (List.mem_of_find?_eq_some hmatch)
  have htracked := List.find?_some hmatch
  have hsame := (Bool.and_eq_true_iff.mp htracked).2
  obtain ⟨i,hi⟩ := Option.isSome_iff_exists.mp (hsome _ hdmem)
  obtain ⟨j,hj⟩ := Option.isSome_iff_exists.mp (hsome _ hmem)
  have hij : i = j := by simpa [sameToolCall,hi,hj] using hsame
  have heq : d.toolCall = toolCall :=
    List.inj_on_of_nodup_map hids hdmem hmem (hi.trans (hij ▸ hj.symm))
  exact heq ▸ ⟨rfl,rfl⟩

end References

section Sample

/-- The decisions on a list of calls when nothing else is done in between. -/
def decideToolCalls (env : LedgerEnv) (tools : GraphTools) (batch : ToolBatch) :
    List ToolCall → StoreTxn (List ToolCallDecision)
  | [] => pure []
  | toolCall::toolCalls => do
    let decision ← decideToolCall env tools batch toolCall 1
    let decisions ← decideToolCalls env tools batch toolCalls
    return decision::decisions

theorem decides_of_run {env : LedgerEnv} {tools : GraphTools} {batch : ToolBatch}
    {toolCalls : List ToolCall} {db db' : AgentDb} {decisions : List ToolCallDecision}
    (h : (decideToolCalls env tools batch toolCalls).run db = .ok (decisions,db')) :
    Decides env tools batch toolCalls db decisions db' := by
  induction toolCalls generalizing db decisions with
  | nil =>
    obtain ⟨rfl,rfl⟩ := pure_ok.mp h
    exact .nil db
  | cons toolCall toolCalls ih =>
    simp only [decideToolCalls,bind_ok,pure_ok] at h
    obtain ⟨decision,_,hrun,_,_,hrest,rfl,rfl⟩ := h
    exact .cons [] 1 hrun (ih hrest)

/-- SHA-256 on the texts that the deployments below hash. -/
def deployEnv : LedgerEnv where
  sha256 text :=
    if text = "task|thread|1|call-1|deploy|" ++
        "50189f0051e905b98cb344325662839db888944707b7303f18408fe8298fd842" then
      "0d87ddfbd7e1459bd07af3a85241b18f4ac6a99c44084ffc19e5974c6831a8d4"
    else if text = "task|thread|1|call-1|deploy|" ++
        "d1275e7871d59cd96e8c1cb9970d0095e6d10b7b55697de0a9c9fff34a5d9737" then
      "7a00cba634f2a600bc8650d5410cd0f554c915bb8e124e1c6e48db14af5fb952"
    else "1c7931f693a855b3bda758250e2d0f8d59512c7330acdd3954c3f06f6e174f40"
  argumentsDigest args :=
    if args = .obj [("env",.str "staging")] then
      "50189f0051e905b98cb344325662839db888944707b7303f18408fe8298fd842"
    else "d1275e7871d59cd96e8c1cb9970d0095e6d10b7b55697de0a9c9fff34a5d9737"
  jsonLoads _ := none
  jsonDumps _ := ""

def deployTools : GraphTools := ⟨none,fun _ => sampleMetadata⟩

def deployCall (environment callId : String) : ToolCall :=
  ⟨"deploy",.obj [("env",.str environment)],some callId⟩

def deployBatch : ToolBatch := ⟨some "thread",1⟩

/-- Two calls whose ids are those given, on the two environments. -/
def deployCalls (first second : String) : List ToolCall :=
  [deployCall "staging" first,deployCall "production" second]

/-- What is found for the second call of such a batch. -/
def deployMatch (first second : String) : Option (Option Json) :=
  match (decideToolCalls deployEnv deployTools deployBatch (deployCalls first second)).run
    sampleDb with
  | .ok (decisions,_) => some ((matchingDecision decisions (deployCall "production" second)).map
      (·.toolCall.args))
  | .error _ => none

theorem deployMatch_decides {first second : String} {args : Json}
    (h : deployMatch first second = some (some args)) :
    ∃ decisions db d, Decides deployEnv deployTools deployBatch (deployCalls first second)
      sampleDb decisions db ∧
      matchingDecision decisions (deployCall "production" second) = some d ∧
        d.toolCall.args = args := by
  unfold deployMatch at h
  split at h
  · rename_i decisions db hrun
    obtain ⟨d,hd,hargs⟩ := Option.map_eq_some_iff.mp (Option.some.inj h)
    exact ⟨decisions,db,d,decides_of_run hrun,hd,hargs⟩
  · cases h

end Sample
end VermayAgent
