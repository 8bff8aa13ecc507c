import VermayAgent.CoreEvents
import VermayAgent.ExecutionSummaries
import VermayAgent.TaskFrames

/-! What became of the tool calls of a run: in the ledger, in the observations and in the summary.
The calls of a batch run side by side, so that all they do to the ledger is one history of
operations in which each finds its own. -/
namespace VermayAgent
open Library Txn MainAgentStore MainAgentToolInvocationLedger

section Wrapper

variable (env : LedgerEnv) (tools : GraphTools) (batch : ToolBatch)
  (decisions : List ToolCallDecision) (db : AgentDb) (ops : List LedgerOp) (toolCall : ToolCall)

/-- `_blocked_tool_message`. -/
def blockedToolMessage (toolCall : ToolCall) (message : Option String) : ToolMessage :=
  let toolName := if toolCall.name = "" then "tool" else toolCall.name
  {
    toolCallId := (toolCall.id.filter fun s => s ≠ "").getD ("blocked:" ++ toolName)
    name := some toolName
    status := "error"
    content := .str ((message.filter fun s => s ≠ "").getD "Tool invocation was blocked.")}

/-- The ledger before the operation at `i`. -/
def ledgerAt (i : Nat) : AgentDb := LedgerOp.history env (ops.take i) db

/-- The reference under which the wrapper runs a call: that of the decisions, or what the operation
at `i` prepares. -/
inductive Referenced (i : Nat) : Option ToolInvocationReference → Prop
  | found {reference : ToolInvocationReference}
      (h : invocationReferenceForToolCall decisions toolCall = some reference) :
      Referenced i (some reference)
  | prepared {reference : Option ToolInvocationReference} {db' : AgentDb} (now : Nat)
      (hnone : invocationReferenceForToolCall decisions toolCall = none)
      (hop : ops[i]? = some (.prepare batch.runtimeThreadId batch.ledgerLoopIndex toolCall
        (tools.toolMetadata toolCall.name) false now))
      (h : (prepare env batch.runtimeThreadId batch.ledgerLoopIndex toolCall
        (tools.toolMetadata toolCall.name) false now).run (ledgerAt env db ops i) =
          .ok (reference,db')) :
      Referenced i reference

/-- How the wrapper answers a call, with the invocation that the call is recorded under. -/
inductive RanTool : Option InvocationId → ToolMessage → Prop
  | stopped (reason : String)
      (hcancel : ∀ reference, invocationReferenceForToolCall decisions toolCall = some reference →
        .cancel reference.invocationId reason ∈ ops) :
      RanTool ((invocationReferenceForToolCall decisions toolCall).map (·.invocationId))
        (blockedToolMessage toolCall (some reason))
  | unledgered (i : Nat) (message : ToolMessage)
      (href : Referenced env tools batch decisions db ops toolCall i none)
      (hid : some message.toolCallId = toolCall.id) :
      RanTool none message
  | refused (i : Nat) (reference : ToolInvocationReference)
      (href : Referenced env tools batch decisions db ops toolCall i (some reference))
      (hblocked : reference.executionBlocked = true) :
      RanTool (some reference.invocationId) (blockedToolMessage toolCall reference.blockedReason)
  | stoppedLate (i : Nat) (reference : ToolInvocationReference) (reason : String)
      (href : Referenced env tools batch decisions db ops toolCall i (some reference))
      (hcancel : .cancel reference.invocationId reason ∈ ops) :
      RanTool (some reference.invocationId) (blockedToolMessage toolCall (some reason))
  | held (i j : Nat) (reference : ToolInvocationReference) (execution : ToolInvocationExecution)
      (db' : AgentDb)
      (href : Referenced env tools batch decisions db ops toolCall i (some reference))
      (hop : ops[j]? = some (.begin reference.invocationId))
      (hrun : (beginExecution reference.invocationId).run (ledgerAt env db ops j) =
        .ok (execution,db'))
      (hheld : execution.execute = false) :
      RanTool (some reference.invocationId) (blockedToolMessage toolCall execution.message)
  | raised (invocation : Option InvocationId) (message : ToolMessage)
      (hstatus : message.status = "error") (hid : some message.toolCallId = toolCall.id) :
      RanTool invocation message
  | finished (i j k : Nat) (reference : ToolInvocationReference) (message : ToolMessage)
      (r : ToolInvocationRecord) (db' : AgentDb)
      (href : Referenced env tools batch decisions db ops toolCall i (some reference))
      (hfree : reference.executionBlocked = false) (hij : i ≤ j) (hjk : j < k)
      (hbegin : ops[j]? = some (.begin reference.invocationId))
      (hexecutes : (LedgerOp.begin reference.invocationId).executes reference.invocationId
        (ledgerAt env db ops j) = true)
      (hfinish : ops[k]? = some (.finish reference.invocationId message.response))
      (hrun : (finishExecution env reference.invocationId message.response).run
        (ledgerAt env db ops k) = .ok (r,db'))
      (hid : some message.toolCallId = toolCall.id) :
      RanTool (some reference.invocationId) message

end Wrapper

section Runs

/-- An observation with the invocation that its call is recorded under. -/
structure Recorded where
  invocation : Option InvocationId
  observation : Observation

/-- The runs of one execution from a ledger and a state, with what each batch has recorded. -/
inductive Runs (env : LedgerEnv) (text : TextEnv) (tools : GraphTools) (db₀ : AgentDb)
    (s₀ : AgentState) : AgentDb → AgentState → List (List Recorded) → Prop
  | start : Runs env text tools db₀ s₀ db₀ s₀ []
  | other {db : AgentDb} {s s' : AgentState} {rounds : List (List Recorded)}
      (ops : List LedgerOp) (hsame : s'.tallies = s.tallies)
      (h : Runs env text tools db₀ s₀ db s rounds) :
      Runs env text tools db₀ s₀ (LedgerOp.history env ops db) s' rounds
  | batch {db db₁ : AgentDb} {s s' : AgentState} {rounds : List (List Recorded)}
      (thread : Option ThreadId) (toolCalls : List ToolCall) (ids : List String)
      (decisions : List ToolCallDecision) (ops : List LedgerOp)
      (outcomes : List (Option InvocationId × ToolMessage))
      (hids : toolCalls.map (·.id) = ids.map some) (hnodup : ids.Nodup)
      (hdecides : Decides env tools ⟨thread,s.loopIndex⟩ toolCalls db decisions db₁)
      (hsame : s'.tallies = s.tallies ∧ s'.loopIndex = s.loopIndex)
      (hran : List.Forall₂ (fun toolCall o =>
        RanTool env tools ⟨thread,s.loopIndex⟩ decisions db₁ ops toolCall o.1 o.2)
        toolCalls outcomes)
      (h : Runs env text tools db₀ s₀ db s rounds) :
      Runs env text tools db₀ s₀ (LedgerOp.history env ops db₁)
        (recordToolMessages env text decisions s' (outcomes.map (·.2)))
        (rounds++[outcomes.map fun o => ⟨o.1,normalizeToolObservation env text o.2 s'.loopIndex
          (observationArtifactRefs decisions o.2)⟩])

end Runs

section Tracking

variable {env : LedgerEnv} {tools : GraphTools} {batch : ToolBatch} {db db' : AgentDb}
  {toolCall : ToolCall} {toolCalls : List ToolCall} {decisions : List ToolCallDecision}

/-- The agent that the task of a thread is assigned to. -/
def threadAgent (thread : ThreadId) (db : AgentDb) : Option (Option AgentId) :=
  (db.tasks.rows.find? fun r => r.runtimeThreadId = thread).map (·.assignedAgentId)

theorem threadAgent_ignores (thread : ThreadId) : IgnoresProgress (threadAgent thread) where
  tasks db p f hf horigin := by
    have hthread : ∀ r, (f r).runtimeThreadId = r.runtimeThreadId := fun r =>
      congrArg TaskOrigin.runtimeThreadId (horigin r)
    have hagent : ∀ r, (f r).assignedAgentId = r.assignedAgentId := fun r =>
      congrArg TaskOrigin.assignedAgentId (horigin r)
    simp only [threadAgent,Table.update,List.find?_map,Option.map_map]
    refine congrArg₂ Option.map (funext fun r => ?_) (congrArg (db.tasks.rows.find? ·)
      (funext fun r => ?_))
    · simp only [Function.comp]
      split
      · exact hagent r
      · rfl
    · simp only [Function.comp]
      split
      · rw [hthread]
      · rfl
  taskEvents _ _ _ := rfl
  pendingContinuations _ _ := rfl
  queuedExecutions _ _ := rfl
  toolInvocations _ _ := rfl

theorem history_threadAgent (env : LedgerEnv) (thread : ThreadId) (ops : List LedgerOp)
    (db : AgentDb) : threadAgent thread (LedgerOp.history env ops db) = threadAgent thread db := by
  have hv := threadAgent_ignores thread
  induction ops generalizing db with
  | nil => rfl
  | cons op ops ih =>
    rw [LedgerOp.history_cons,ih]
    refine (LedgerOp.txn_keeps hv.toolInvocations (fun _ _ _ _ _ => ?_)
      (fun _ _ _ _ => hv.appendTaskEvent _ _ _) env op).commit db
    exact hv.upsertArtifact (fun _ _ _ => rfl) _ _ _

/-- The ledger keeps a record of the call. -/
def tracksCall (db : AgentDb) (thread : Option ThreadId) (toolCall : ToolCall)
    (metadata : ToolMetadata) : Bool :=
  match thread with
  | none => false
  | some thread => thread ≠ "" && threadAgent thread db = some none && !metadata.readOnly &&
      toolCall.name ≠ ""

theorem invocationRequest_isSome (env : LedgerEnv) (toolCall : ToolCall)
    (task : Option TaskRecord) (thread : ThreadId) (loopIndex : Int) (metadata : ToolMetadata)
    (approvalRequired : Bool) :
    (invocationRequest env task thread loopIndex toolCall metadata approvalRequired).isSome =
      (decide (task.map (·.assignedAgentId) = some none) && !metadata.readOnly &&
        decide (toolCall.name ≠ "")) := by
  cases task with
  | none => rfl
  | some task =>
    simp only [invocationRequest,Option.map_some]
    by_cases ha : task.assignedAgentId = none <;> cases metadata.readOnly <;>
      by_cases hn : toolCall.name = "" <;> simp [ha,hn]

theorem prepareNew_isSome {new : NewToolInvocation} {now : Nat}
    {reference : Option ToolInvocationReference}
    (h : (prepareNew new now).run db = .ok (reference,db')) : reference.isSome = true := by
  obtain ⟨_,_,_,h⟩ := (bind_ok _ _).mp h
  split at h
  · obtain ⟨rfl,_⟩ := pure_ok.mp h
    rfl
  · obtain ⟨_,_,rfl⟩ := (map_ok _ _).mp h
    rfl

/-- A preparation gives a reference exactly to the calls that are recorded. -/
theorem prepare_isSome {thread : Option ThreadId} {loopIndex : Int} {metadata : ToolMetadata}
    {approvalRequired : Bool} {now : Nat} {reference : Option ToolInvocationReference}
    (h : (prepare env thread loopIndex toolCall metadata approvalRequired now).run db
      = .ok (reference,db')) : reference.isSome = tracksCall db thread toolCall metadata := by
  cases thread with
  | none =>
    obtain ⟨rfl,_⟩ := pure_ok.mp h
    rfl
  | some thread =>
    unfold prepare at h
    by_cases hthread : thread = ""
    · simp only [hthread,if_true] at h
      obtain ⟨rfl,_⟩ := pure_ok.mp h
      simp [tracksCall,hthread]
    · simp only [hthread,if_false] at h
      obtain ⟨task,_,hs,h⟩ := (bind_ok _ _).mp h
      cases hs
      have hrequest := invocationRequest_isSome env toolCall
        (db.tasks.rows.find? fun r => r.runtimeThreadId = thread) thread loopIndex metadata
        approvalRequired
      have htracks : tracksCall db (some thread) toolCall metadata =
          (decide ((db.tasks.rows.find? fun r => r.runtimeThreadId = thread).map
            (·.assignedAgentId) = some none) && !metadata.readOnly &&
              decide (toolCall.name ≠ "")) := by
        simp [tracksCall,hthread,threadAgent]
      rw [htracks,← hrequest]
      split at h
      · rename_i hnew
        obtain ⟨rfl,_⟩ := pure_ok.mp h
        rw [hnew]
        rfl
      · rename_i new hnew
        rw [hnew,prepareNew_isSome h]
        rfl

theorem tracksCall_history (env : LedgerEnv) (ops : List LedgerOp) (thread : Option ThreadId)
    (metadata : ToolMetadata) : tracksCall (LedgerOp.history env ops db) thread toolCall metadata =
      tracksCall db thread toolCall metadata := by
  cases thread with
  | none => rfl
  | some thread => simp only [tracksCall,history_threadAgent]

theorem decideToolCall_prepares {now : Nat} {decision : ToolCallDecision}
    (h : (decideToolCall env tools batch toolCall now).run db = .ok (decision,db')) :
    decision.invocation.isSome =
        tracksCall db batch.runtimeThreadId toolCall (tools.toolMetadata toolCall.name) ∧
      ∃ op : LedgerOp, db' = op.apply env db := by
  obtain ⟨reference,hprepare,rfl⟩ := (map_ok _ _).mp h
  obtain ⟨hcall,hnone⟩ := gateDecision_toolCall tools toolCall
  rw [hcall] at hprepare
  refine ⟨?_,.prepare batch.runtimeThreadId batch.ledgerLoopIndex toolCall
    (tools.toolMetadata toolCall.name) (gateDecision tools toolCall).2 now,?_⟩
  · rw [← prepare_isSome hprepare]
    cases reference with
    | none => exact congrArg Option.isSome hnone
    | some reference => rw [attach_invocation]; rfl
  · have hrun : (LedgerOp.txn env (.prepare batch.runtimeThreadId batch.ledgerLoopIndex toolCall
        (tools.toolMetadata toolCall.name) (gateDecision tools toolCall).2 now)).run db =
          .ok ((),db') := (map_ok _ _).mpr ⟨reference,hprepare,rfl⟩
    exact (commit_ok hrun).symm

/-- Deciding on a batch is a history of operations, and it tracks what the ledger records. -/
theorem Decides.tracked (hd : Decides env tools batch toolCalls db decisions db') :
    (∃ ops, db' = LedgerOp.history env ops db) ∧ ∀ d ∈ decisions, d.invocation.isSome =
      tracksCall db' batch.runtimeThreadId d.toolCall (tools.toolMetadata d.toolCall.name) := by
  induction hd with
  | nil db => exact ⟨⟨[],rfl⟩,by simp⟩
  | @cons toolCall _ db _ _ decision _ others now hrun _ ih =>
    obtain ⟨htracked,op,rfl⟩ := decideToolCall_prepares hrun
    obtain ⟨⟨ops,rfl⟩,hrest⟩ := ih
    refine ⟨⟨others++op::ops,by rw [LedgerOp.history_append,LedgerOp.history_cons]⟩,
      fun d hmem => ?_⟩
    rcases List.mem_cons.mp hmem with rfl | hmem
    · rw [(decideToolCall_ok hrun).1,htracked]
      exact (tracksCall_history env (op::ops) _ _).symm
    · exact hrest d hmem

end Tracking

section Ledger

variable {env : LedgerEnv} {text : TextEnv} {db db' : AgentDb} {id : InvocationId}
  {message : ToolMessage} {r : ToolInvocationRecord}

/-- Success is stored with its row, whichever run of the body reports it. -/
theorem completeToolInvocationSuccess_ok {parts : List Json} {metadata : Json}
    (h : (completeToolInvocationSuccess id parts metadata).run db = .ok (r,db')) :
    db'.invocation id = some r ∧ r.status = .succeeded := by
  obtain ⟨r₀,_,h₁,h⟩ := (bind_ok _ _).mp h
  obtain ⟨hr₀,rfl⟩ := requireToolInvocation_ok.mp h₁
  split at h
  · rename_i hs
    obtain ⟨rfl,rfl⟩ := pure_ok.mp h
    exact ⟨hr₀,hs⟩
  · simp only [bind_ok,require_ok,updateToolInvocations_ok,getToolInvocation_ok,orFail_ok] at h
    obtain ⟨_,_,_,_,_,_,_,_,_,_,_,rfl,_,_,⟨hget,rfl⟩,rfl,rfl⟩ := h
    refine ⟨hget,?_⟩
    rw [AgentDb.invocation,Table.get_update] at hget
    obtain ⟨r₁,hr₁,hr⟩ := Option.map_eq_some_iff.mp hget
    rw [if_pos (decide_eq_true (Table.key_of_get hr₁))] at hr
    exact hr ▸ rfl

/-- A running row ends as succeeded exactly if the observation of its message is good. -/
theorem finishExecution_status {r₀ : ToolInvocationRecord} (hr₀ : db.invocation id = some r₀)
    (hrunning : r₀.status = .running) (loopIndex : Int) (refs : List ArtifactId)
    (h : (finishExecution env id message.response).run db = .ok (r,db')) :
    db'.invocation id = some r ∧ (r.status = .succeeded ↔
      (normalizeToolObservation env text message loopIndex refs).ok = true) := by
  rw [← failedToolResponse_none_iff]
  unfold finishExecution at h
  cases hfailed : failedToolResponse env message.response with
  | none =>
    rw [hfailed] at h
    obtain ⟨hget,hs⟩ := completeToolInvocationSuccess_ok h
    exact ⟨hget,iff_of_true hs rfl⟩
  | some error =>
    rw [hfailed] at h
    simp only [markToolInvocationUncertain,bind_ok,requireToolInvocation_ok] at h
    obtain ⟨_,_,⟨hr,rfl⟩,h⟩ := h
    cases hr₀.symm.trans hr
    simp only [hrunning,reduceCtorEq,if_false,List.mem_cons,List.not_mem_nil,or_self,
      bind_ok,updateToolInvocations_ok,getToolInvocation_ok,orFail_ok] at h
    obtain ⟨_,_,rfl,_,_,⟨hget,rfl⟩,rfl,rfl⟩ := h
    refine ⟨hget,iff_of_false (fun hs => ?_) (by simp)⟩
    rw [AgentDb.invocation,Table.get_update] at hget
    obtain ⟨r₁,hr₁,hr⟩ := Option.map_eq_some_iff.mp hget
    rw [if_pos (decide_eq_true (Table.key_of_get hr₁))] at hr
    cases hr ▸ hs

/-- No row is stored under the empty id. -/
theorem apply_unnamed (op : LedgerOp) (h : db.invocation "" = none) :
    (op.apply env db).invocation "" = none := by
  rcases (op.apply_moves env db).row "" with hrow | ⟨_,new,now,hnew,hrow⟩ | ⟨_,_,hr,_⟩
  · exact hrow.trans h
  · have hempty : (new.record now).invocationId = "" := Table.key_of_get hrow
    cases op with
    | createOrGet new' now' =>
      obtain rfl : new' = new := Option.some.inj hnew
      have hraises : ∀ r db', (createOrGetToolInvocation new' now').run db ≠ .ok (r,db') := by
        intro r db' hrun
        simp only [createOrGetToolInvocation,bind_ok,require_ok] at hrun
        obtain ⟨_,_,_,_,_,⟨hnamed,_⟩,_⟩ := hrun
        exact hnamed.1 hempty
      rcases commit_cases (LedgerOp.txn env (.createOrGet new' now')) db with hc | ⟨_,hc⟩
      · rw [LedgerOp.apply,hc]
        exact h
      · obtain ⟨r,hc,_⟩ := (map_ok _ _).mp hc
        exact (hraises r _ hc).elim
    | prepare thread loopIndex call metadata approvalRequired now' =>
      cases thread with
      | none => cases hnew
      | some thread =>
        simp only [LedgerOp.requested] at hnew
        split at hnew
        · cases hnew
        · unfold invocationRequest at hnew
          split at hnew
          · cases hnew
          · split at hnew
            · cases hnew
            · cases hnew
              have hid : "inv-" ++ firstChars 32 _ = "" := hempty
              simpa using congrArg String.length hid
    | _ => cases hnew
  · cases h.symm.trans hr

theorem history_unnamed (ops : List LedgerOp) (h : db.invocation "" = none) :
    (LedgerOp.history env ops db).invocation "" = none := by
  induction ops generalizing db with
  | nil => exact h
  | cons op ops ih => exact ih (apply_unnamed op h)

/-- The effect is recorded as done. -/
def Succeeded (db : AgentDb) (id : InvocationId) : Prop :=
  ∃ r, db.invocation id = some r ∧ r.status = .succeeded

theorem Succeeded.history (h : Succeeded db id) (ops : List LedgerOp) :
    Succeeded (LedgerOp.history env ops db) id := by
  obtain ⟨r,hr,hs⟩ := h
  obtain ⟨r',hr',ha⟩ := history_advances env ops hr
  exact ⟨r',hr',(ha.ended (by simp [hs,ToolInvocationStatus.ended])).trans hs⟩

/-- What is done has its result stored, under the id that an observation can tell. -/
theorem Succeeded.artifact (h : Succeeded db id) (hok : LedgerOk db) :
    ∃ r, db.invocation id = some r ∧ r.status = .succeeded ∧
      r.resultArtifactId = some (id ++ ":result") ∧
        HasArtifact db.artifacts (id ++ ":result") r.taskId := by
  obtain ⟨r,hr,hs⟩ := h
  have hrow := hok id r hr
  obtain ⟨artifactId,hresult⟩ := Option.isSome_iff_exists.mp (hrow.result.mpr hs)
  obtain ⟨hid,hartifact⟩ := hrow.artifact artifactId hresult
  have hkey : r.invocationId = id := Table.key_of_get hr
  rw [hkey] at hid
  exact ⟨r,hr,hs,hid ▸ hresult,hid ▸ hartifact⟩

end Ledger

section Calls

variable {env : LedgerEnv} {text : TextEnv} {tools : GraphTools} {batch : ToolBatch}
  {db₀ db : AgentDb} {ops : List LedgerOp} {toolCall : ToolCall} {toolCalls : List ToolCall}
  {ids : List String} {decisions : List ToolCallDecision} {message : ToolMessage}
  {reference : ToolInvocationReference} {invocation : Option InvocationId}

theorem findSome?_unique {α β : Type} {f : α → Option β} {l : List α} {a : α} {b : β}
    (hmem : a ∈ l) (ha : f a = some b) (hf : ∀ a' ∈ l, (f a').isSome = true → a' = a) :
    l.findSome? f = some b := by
  cases h : l.findSome? f with
  | none =>
    rw [List.findSome?_eq_none_iff] at h
    cases (h a hmem).symm.trans ha
  | some b' =>
    obtain ⟨a',hmem',ha'⟩ := List.exists_of_findSome?_eq_some h
    cases hf a' hmem' (by rw [ha']; rfl)
    exact ha'.symm.trans ha

/-- In a batch with distinct ids the decision that a call is run under is the one that its message
is traced to. -/
theorem observationArtifactRefs_eq (hids : toolCalls.map (·.id) = ids.map some)
    (hnodup : ids.Nodup) (hcalls : decisions.map (·.toolCall) = toolCalls)
    (hfound : invocationReferenceForToolCall decisions toolCall = some reference)
    (hnamed : reference.invocationId ≠ "") (hid : some message.toolCallId = toolCall.id) :
    observationArtifactRefs decisions message = [reference.invocationId ++ ":result"] := by
  have hdistinct : (decisions.map fun d => d.toolCall.id).Nodup := by
    have hmap : (decisions.map fun d => d.toolCall.id) = ids.map some := by
      rw [← hids,← hcalls,List.map_map]
      rfl
    exact hmap ▸ hnodup.map (Option.some_injective _)
  have hsome : ∀ d ∈ decisions, ∃ i, d.toolCall.id = some i := by
    intro d hd
    have hidmem : d.toolCall.id ∈ ids.map some :=
      hids ▸ List.mem_map_of_mem (hcalls ▸ List.mem_map_of_mem hd)
    obtain ⟨i,_,hi⟩ := List.mem_map.mp hidmem
    exact ⟨i,hi.symm⟩
  rw [invocationReferenceForToolCall_eq] at hfound
  obtain ⟨d,hmatch,hreference⟩ := Option.bind_eq_some_iff.mp hfound
  obtain ⟨attached,hattached,rfl⟩ := Option.map_eq_some_iff.mp hreference
  have hdmem : d ∈ decisions := List.mem_of_find?_eq_some hmatch
  obtain ⟨i,hi⟩ := hsome d hdmem
  have hsame : d.toolCall.id = some message.toolCallId := by
    have hmatched := List.find?_some hmatch
    have hmatched := (Bool.and_eq_true_iff.mp hmatched).2
    simp only [sameToolCall,hi,← hid,decide_eq_true_eq] at hmatched
    rw [hi,hmatched]
  have hfirst : (decisions.findSome? fun d =>
      if d.toolCall.id.getD "" = message.toolCallId then
        (d.invocation.map (·.invocationId)).filter fun id => id ≠ ""
      else none) = some attached.invocationId := by
    refine findSome?_unique hdmem ?_ fun d' hd' hisSome => ?_
    · have hname : attached.invocationId ≠ "" := hnamed
      simp [hsame,hattached,Option.filter,hname]
    · obtain ⟨i',hi'⟩ := hsome d' hd'
      have heq : d'.toolCall.id = some message.toolCallId := by
        by_contra hne
        rw [if_neg (by rw [hi'] at hne ⊢; simpa using hne)] at hisSome
        cases hisSome
      exact List.inj_on_of_nodup_map hdistinct hd' hdmem (heq.trans hsame.symm)
  simp only [observationArtifactRefs,hfirst]

/-- A call that the ledger records has been given its reference by the decision on it. -/
theorem Referenced.of_decides (hdecides : Decides env tools batch toolCalls db₀ decisions db)
    (hmem : toolCall ∈ toolCalls) (hids : toolCalls.map (·.id) = ids.map some) {i : Nat}
    (h : Referenced env tools batch decisions db ops toolCall i (some reference)) :
    invocationReferenceForToolCall decisions toolCall = some reference := by
  cases h with
  | found h => exact h
  | prepared now hnone hop h =>
    have htracks : tracksCall db batch.runtimeThreadId toolCall
        (tools.toolMetadata toolCall.name) = true := by
      rw [← tracksCall_history env (ops.take i)]
      exact (prepare_isSome h).symm
    obtain ⟨d,hdmem,rfl⟩ := List.mem_map.mp (hdecides.own.1 ▸ hmem)
    have htracked := (hdecides.tracked.2 d hdmem).trans htracks
    have hidmem : d.toolCall.id ∈ ids.map some := hids ▸ List.mem_map_of_mem hmem
    obtain ⟨j,_,hj⟩ := List.mem_map.mp hidmem
    have hmatch : (matchingDecision decisions d.toolCall).isSome = true := by
      refine List.find?_isSome.mpr ⟨d,hdmem,?_⟩
      simp [htracked,sameToolCall,← hj]
    obtain ⟨d',hd'⟩ := Option.isSome_iff_exists.mp hmatch
    have hinvocation := List.find?_some hd'
    have hinvocation := (Bool.and_eq_true_iff.mp hinvocation).1
    obtain ⟨attached,hattached⟩ := Option.isSome_iff_exists.mp hinvocation
    rw [invocationReferenceForToolCall_eq,hd'] at hnone
    simp [ToolCallDecision.reference,hattached] at hnone

theorem normalizeToolObservation_error (h : message.status = "error") (loopIndex : Int)
    (refs : List ArtifactId) :
    (normalizeToolObservation env text message loopIndex refs).ok = false := by
  rw [normalizeToolObservation_ok,h]
  rfl

/-- A good message of a call that is recorded comes from an effect that is recorded as done, and
its observation cites the result. -/
theorem RanTool.cited (hdecides : Decides env tools batch toolCalls db₀ decisions db)
    (hmem : toolCall ∈ toolCalls) (hids : toolCalls.map (·.id) = ids.map some)
    (hnodup : ids.Nodup) (hunnamed : db.invocation "" = none)
    (h : RanTool env tools batch decisions db ops toolCall invocation message) (loopIndex : Int)
    (hok : (normalizeToolObservation env text message loopIndex
      (observationArtifactRefs decisions message)).ok = true) {id : InvocationId}
    (hinvocation : invocation = some id) :
    Succeeded (LedgerOp.history env ops db) id ∧
      observationArtifactRefs decisions message = [id ++ ":result"] := by
  have hbad : ∀ reason, ¬(normalizeToolObservation env text (blockedToolMessage toolCall reason)
      loopIndex (observationArtifactRefs decisions (blockedToolMessage toolCall reason))).ok
        = true := fun reason hgood => by
    cases (normalizeToolObservation_error rfl _ _).symm.trans hgood
  cases h with
  | stopped reason hcancel => exact (hbad _ hok).elim
  | unledgered i message href hid => cases hinvocation
  | refused i reference href hblocked => exact (hbad _ hok).elim
  | stoppedLate i reference reason href hcancel => exact (hbad _ hok).elim
  | held i j reference execution db' href hop hrun hheld => exact (hbad _ hok).elim
  | raised invocation message hstatus hid =>
    cases (normalizeToolObservation_error hstatus _ _).symm.trans hok
  | finished i j k reference message r db' href hfree hij hjk hbegin hexecutes hfinish hrun hid =>
    cases hinvocation
    have hfound := href.of_decides hdecides hmem hids
    have hsuccess := (failedToolResponse_none_iff _ _).mpr hok
    have hcomplete := hrun
    simp only [finishExecution,hsuccess] at hcomplete
    obtain ⟨hget,hstatus⟩ := completeToolInvocationSuccess_ok hcomplete
    have hnamed : reference.invocationId ≠ "" := by
      intro hempty
      obtain ⟨_,_,h₁,_⟩ := (bind_ok _ _).mp hcomplete
      have hr := (requireToolInvocation_ok.mp h₁).1
      rw [hempty] at hr
      cases (history_unnamed (ops.take k) hunnamed).symm.trans hr
    refine ⟨?_,observationArtifactRefs_eq hids hnodup hdecides.own.1 hfound hnamed hid⟩
    have hafter : LedgerOp.history env ops db =
        LedgerOp.history env (ops.drop (k+1)) db' := by
      obtain ⟨hk,hop⟩ := List.getElem?_eq_some_iff.mp hfinish
      have hops : ops = ops.take k++ops[k]::ops.drop (k+1) := by simp
      have happly : (LedgerOp.finish reference.invocationId message.response).apply env
          (LedgerOp.history env (ops.take k) db) = db' := by
        have hrun' : (LedgerOp.txn env (.finish reference.invocationId message.response)).run
            (ledgerAt env db ops k) = .ok ((),db') := (map_ok _ _).mpr ⟨r,hrun,rfl⟩
        exact commit_ok hrun'
      rw [hop] at hops
      conv_lhs => rw [hops,LedgerOp.history_append,LedgerOp.history_cons,happly]
    rw [hafter]
    exact Succeeded.history ⟨r,hget,hstatus⟩ _

end Calls

section Report

variable {env : LedgerEnv} {text : TextEnv} {tools : GraphTools} {db₀ db : AgentDb}
  {s : AgentState} {rounds : List (List Recorded)}

def Recorded.failed (recorded : Recorded) : Bool := recorded.observation.isExecutionError

def Recorded.argumentFailed (recorded : Recorded) : Bool := recorded.observation.isArgumentError

/-- What the steps of a run keep. -/
structure RunRecorded (env : LedgerEnv) (db₀ db : AgentDb) (s : AgentState)
    (rounds : List (List Recorded)) : Prop where
  history : ∃ ops, db = LedgerOp.history env ops db₀
  tallies : s.tallies = (rounds.flatten.map (·.observation),
    (rounds.flatten.filter Recorded.failed).length,
    (rounds.filter (·.any Recorded.argumentFailed)).length)
  cited : ∀ recorded ∈ rounds.flatten, recorded.observation.ok = true →
    ∀ id, recorded.invocation = some id →
      Succeeded db id ∧ id ++ ":result" ∈ recorded.observation.artifactRefs

theorem mem_artifactRefs {data : Json} {refs : List ArtifactId} {artifactId : ArtifactId}
    (h : artifactId ∈ refs) : artifactId ∈ artifactRefs data refs :=
  List.mem_eraseDups.mpr (List.mem_append_left _ (List.mem_append_left _ h))

/-- The recording of a batch adds its round to the tallies. -/
theorem recordToolMessages_tallies {s s' : AgentState} {decisions : List ToolCallDecision}
    {outcomes : List (Option InvocationId × ToolMessage)} {round : List Recorded}
    (hround : round = outcomes.map fun o => ⟨o.1,normalizeToolObservation env text o.2 s'.loopIndex
      (observationArtifactRefs decisions o.2)⟩)
    (hsame : s'.tallies = s.tallies)
    (h : s.tallies = (rounds.flatten.map (·.observation),
      (rounds.flatten.filter Recorded.failed).length,
      (rounds.filter (·.any Recorded.argumentFailed)).length)) :
    (recordToolMessages env text decisions s' (outcomes.map (·.2))).tallies =
      ((rounds++[round]).flatten.map (·.observation),
        ((rounds++[round]).flatten.filter Recorded.failed).length,
        ((rounds++[round]).filter (·.any Recorded.argumentFailed)).length) := by
  have hobservations : (outcomes.map (·.2)).map (fun message => normalizeToolObservation env text
      message s'.loopIndex (observationArtifactRefs decisions message)) =
        round.map (·.observation) := by
    rw [hround,List.map_map,List.map_map]
    rfl
  have htallies := hsame.trans h
  simp only [AgentState.tallies,Prod.mk.injEq] at htallies
  obtain ⟨hobserved,hfailures,hrounds⟩ := htallies
  rw [recordToolMessages,hobservations,recordObservations_tallies,hobserved,hfailures,hrounds]
  refine Prod.ext ?_ (Prod.ext ?_ ?_)
  · simp
  · simp only [List.filter_map,List.length_map,List.flatten_append,List.flatten_singleton,
      List.filter_append,List.length_append]
    rfl
  · have hany : (round.map (·.observation)).any Observation.isArgumentError =
        round.any Recorded.argumentFailed := by
      rw [List.any_map]
      rfl
    simp only [List.filter_append,List.length_append,hany]
    cases h : round.any Recorded.argumentFailed <;> simp [h]

theorem Runs.recorded {policy : ExecutionPolicy} (hunnamed : db₀.invocation "" = none)
    (h : Runs env text tools db₀ (buildInitialState policy) db s rounds) :
    RunRecorded env db₀ db s rounds := by
  induction h with
  | start => exact ⟨⟨[],rfl⟩,rfl,by simp⟩
  | other ops hsame _ ih =>
    obtain ⟨before,rfl⟩ := ih.history
    exact ⟨⟨before++ops,(LedgerOp.history_append env before ops db₀).symm⟩,hsame.trans ih.tallies,
      fun recorded hmem hok id hid =>
        ⟨(ih.cited recorded hmem hok id hid).1.history ops,(ih.cited recorded hmem hok id hid).2⟩⟩
  | @batch db db₁ s s' rounds thread toolCalls ids decisions ops outcomes hids hnodup hdecides hsame
      hran _ ih =>
    obtain ⟨before,rfl⟩ := ih.history
    obtain ⟨deciding,hdeciding⟩ := hdecides.tracked.1
    have hhistory : db₁ = LedgerOp.history env (before++deciding) db₀ := by
      rw [LedgerOp.history_append]
      exact hdeciding
    refine ⟨⟨before++deciding++ops,?_⟩,recordToolMessages_tallies rfl hsame.1 ih.tallies,?_⟩
    · rw [hhistory,← LedgerOp.history_append]
    · intro recorded hmem hok id hid
      rw [List.flatten_append,List.flatten_singleton,List.mem_append] at hmem
      rcases hmem with hmem | hmem
      · obtain ⟨hsucceeded,hrefs⟩ := ih.cited recorded hmem hok id hid
        exact ⟨hdeciding ▸ (hsucceeded.history deciding).history ops,hrefs⟩
      · obtain ⟨o,homem,rfl⟩ := List.mem_map.mp hmem
        obtain ⟨toolCall,hcall,hrun⟩ : ∃ toolCall ∈ toolCalls, RanTool env tools
            ⟨thread,s.loopIndex⟩ decisions db₁ ops toolCall o.1 o.2 := by
          obtain ⟨i,hi,rfl⟩ := List.getElem_of_mem homem
          have hlength := hran.length_eq
          exact ⟨toolCalls[i],List.getElem_mem _,hran.get (by omega) hi⟩
        obtain ⟨hsucceeded,hrefs⟩ := hrun.cited hdecides hcall hids hnodup
          (hhistory ▸ history_unnamed _ hunnamed) _ hok hid
        refine ⟨hsucceeded,mem_artifactRefs ?_⟩
        rw [hrefs]
        exact List.mem_singleton_self _

/-- What the summary of a run and the ledger say of what was recorded. -/
structure RunReport (db : AgentDb) (s : AgentState) (rounds : List (List Recorded)) : Prop where
  observations : s.observations = rounds.flatten.map (·.observation)
  evidence : ∀ recorded ∈ rounds.flatten, recorded.observation.ok = true →
    recorded.observation.evidence ∈ (executionSummary s).evidence ∧
    ∀ id, recorded.invocation = some id → ∃ r artifactId, db.invocation id = some r ∧
      r.status = .succeeded ∧ r.resultArtifactId = some artifactId ∧
      HasArtifact db.artifacts artifactId r.taskId ∧
      artifactId ∈ recorded.observation.evidence.artifactRefs
  risks : ∀ recorded ∈ rounds.flatten, recorded.observation.ok = false →
    recorded.observation.risk ∈ (executionSummary s).residualRisks ∧
      (recorded.failed = true ∨ recorded.argumentFailed = true)
  failures : (executionSummary s).failureCount = (rounds.flatten.filter Recorded.failed).length
  argumentRounds : (executionSummary s).toolArgumentErrorRounds =
    (rounds.filter (·.any Recorded.argumentFailed)).length

end Report

section Sample

def deployId : InvocationId := "inv-0d87ddfbd7e1459bd07af3a85241b18f"

def deployPolicy : ExecutionPolicy := .fromMaxLoops 5 (by decide)

/-- What ToolNode says of arguments that do not fit the schema of the tool. -/
def argumentErrorText : String :=
  "\x7b\"error_code\": \"tool_argument_error\", \"message\": \"env: field required\", " ++
    "\"ok\": false, \"retryable\": true\x7d"

/-- The environment of the deployments, which reads that text. -/
def argumentEnv : LedgerEnv := {deployEnv with
  jsonLoads := fun text => if text = argumentErrorText then
    some (.obj [("error_code",.str "tool_argument_error"),("message",.str "env: field required"),
      ("ok",.bool false),("retryable",.bool true)]) else none}

def deployMessage (status content : String) : ToolMessage :=
  ⟨"call-1",some "deploy",status,.str content⟩

def deployText : TextEnv := ⟨fun value => value.asString.getD "",fun _ => rfl⟩

/-- One deployment is decided on, begins and finishes with a message. -/
def deployFinishes (message : ToolMessage) : Bool :=
  match (decideToolCalls argumentEnv deployTools deployBatch
      [deployCall "staging" "call-1"]).run sampleDb with
  | .ok (decisions,db) =>
    let begun := LedgerOp.history argumentEnv [.begin deployId] db
    (invocationReferenceForToolCall decisions (deployCall "staging" "call-1")).map
        (fun reference => (reference.invocationId,reference.executionBlocked)) =
      some (deployId,false) &&
    (LedgerOp.begin deployId).executes deployId db &&
    ((finishExecution argumentEnv deployId message.response).run begun).toOption.isSome &&
    observationArtifactRefs decisions message = [deployId ++ ":result"]
  | .error _ => false

theorem deploy_runs (message : ToolMessage) (hid : message.toolCallId = "call-1")
    (hfinishes : deployFinishes message = true) :
    ∃ db s, Runs argumentEnv deployText deployTools sampleDb (buildInitialState deployPolicy) db s
      [[⟨some deployId,normalizeToolObservation argumentEnv deployText message 1
        [deployId ++ ":result"]⟩]] := by
  unfold deployFinishes at hfinishes
  split at hfinishes
  · rename_i decisions db hdecide
    simp only [Bool.and_eq_true,decide_eq_true_eq] at hfinishes
    obtain ⟨⟨⟨hreference,hexecutes⟩,hfinish⟩,hrefs⟩ := hfinishes
    obtain ⟨reference,hfound,hreference⟩ := Option.map_eq_some_iff.mp hreference
    obtain ⟨hname,hfree⟩ := Prod.mk.inj hreference
    obtain ⟨⟨r,db'⟩,hrun⟩ : ∃ result, (finishExecution argumentEnv deployId message.response).run
        (LedgerOp.history argumentEnv [.begin deployId] db) = .ok result := by
      cases h : (finishExecution argumentEnv deployId message.response).run
          (LedgerOp.history argumentEnv [.begin deployId] db) with
      | ok result => exact ⟨result,rfl⟩
      | error e =>
        rw [h] at hfinish
        cases hfinish
    have hran : RanTool argumentEnv deployTools deployBatch decisions db
        [.begin deployId,.finish deployId message.response] (deployCall "staging" "call-1")
        (some deployId) message := by
      rw [← hname] at hexecutes hrun ⊢
      exact .finished 0 0 1 reference message r db' (.found hfound) hfree le_rfl one_pos rfl
        hexecutes rfl hrun (congrArg some hid)
    have hdecides : Decides argumentEnv deployTools deployBatch [deployCall "staging" "call-1"]
      sampleDb decisions db := decides_of_run hdecide
    have hruns := @Runs.batch argumentEnv deployText deployTools sampleDb
      (buildInitialState deployPolicy) sampleDb db (buildInitialState deployPolicy)
      (buildInitialState deployPolicy) [] (some "thread") [deployCall "staging" "call-1"]
      ["call-1"] decisions [.begin deployId,.finish deployId message.response]
      [(some deployId,message)] rfl (List.nodup_singleton _) hdecides ⟨rfl,rfl⟩
      (.cons hran .nil) .start
    rw [List.map_singleton,List.map_singleton,hrefs] at hruns
    exact ⟨_,_,hruns⟩
  · cases hfinishes

end Sample
end VermayAgent
