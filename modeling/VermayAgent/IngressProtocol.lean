import VermayAgent.MessageDeliveries

/-! What comes of a message, whichever deliveries of it there are.
Seen from one message the server is a key that one delivery at most holds: its ingress row is the
fate of the key, and the rows that name the message are what is stored under it. -/
namespace VermayAgent
open Library MainAgentStore

/-- What is committed for a message, each with its context: messages of the agent that answer it,
tasks and delegations, and the tasks of the delegations. -/
@[ext] structure MessageOutcomes where
  replies : List (ContextId × MessageId)
  tasks : List (ContextId × TaskId)
  delegations : List (ContextId × String × Option TaskId)
deriving DecidableEq

namespace MessageOutcomes

instance : Zero MessageOutcomes := ⟨⟨[],[],[]⟩⟩

instance : Add MessageOutcomes :=
  ⟨fun v w => ⟨v.replies++w.replies,v.tasks++w.tasks,v.delegations++w.delegations⟩⟩

theorem add_eq (v w : MessageOutcomes) :
    v+w = ⟨v.replies++w.replies,v.tasks++w.tasks,v.delegations++w.delegations⟩ := rfl

theorem zero_eq : (0 : MessageOutcomes) = ⟨[],[],[]⟩ := rfl

theorem add_assoc (u v w : MessageOutcomes) : u+v+w = u+(v+w) := by
  simp [add_eq]

instance : AddZeroClass MessageOutcomes where
  zero_add v := rfl
  add_zero v := by
    rw [add_eq,zero_eq]
    simp

end MessageOutcomes

/-- The context of a message, and the columns that name its outcome. -/
abbrev OutcomeName := ContextId × Option MessageIngressOutcomeKind × Option String

/-- The outcome is the one that is named, in its context, and nothing else. -/
inductive Shows : OutcomeName → MessageOutcomes → Prop where
  | message (c : ContextId) (r : MessageId) : Shows (c,some .message,some r) ⟨[(c,r)],[],[]⟩
  | task (c : ContextId) (t : TaskId) : Shows (c,some .task,some t) ⟨[],[(c,t)],[]⟩
  | delegatedMessage (c : ContextId) (d : String) (r : MessageId) :
    Shows (c,some .delegation,some d) ⟨[(c,r)],[],[(c,d,none)]⟩
  | delegatedTask (c : ContextId) (d : String) (t : TaskId) :
    Shows (c,some .delegation,some d) ⟨[],[(c,t)],[(c,d,some t)]⟩

/-- Nothing of it lies in the context. -/
structure MessageOutcomes.Avoids (c : ContextId) (v : MessageOutcomes) : Prop where
  replies : ∀ r ∈ v.replies, r.1 ≠ c
  tasks : ∀ t ∈ v.tasks, t.1 ≠ c
  delegations : ∀ d ∈ v.delegations, d.1 ≠ c

theorem MessageOutcomes.avoids_zero (c : ContextId) : (0 : MessageOutcomes).Avoids c := by
  constructor <;> simp [zero_eq]

theorem Shows.avoids {c : ContextId} {n : OutcomeName} {v : MessageOutcomes} (h : Shows n v)
    (hn : n.1 ≠ c) : v.Avoids c := by
  cases h <;> constructor <;> simp_all

theorem Shows.unique {n n' : OutcomeName} {v : MessageOutcomes} (h : Shows n v)
    (h' : Shows n' v) : n = n' := by
  cases h <;> cases h' <;> rfl

theorem Shows.ne_zero {n : OutcomeName} {v : MessageOutcomes} (h : Shows n v) : v ≠ 0 := by
  cases h <;> simp [MessageOutcomes.zero_eq]

/-- A message of the agent in answer to another one, outside of any task. -/
def MessageRecord.Answers (m : MessageId) (r : MessageRecord) : Prop :=
  r.role = .agent ∧ r.taskId = none ∧ r.metadata.member "inputMessageId" = .str m

instance (m : MessageId) (r : MessageRecord) : Decidable (r.Answers m) := by
  unfold MessageRecord.Answers
  infer_instance

theorem IsReply.answers_iff {a m : MessageId} {c : ContextId} {r : MessageRecord}
    (h : IsReply a c r) : r.Answers m ↔ a = m := by
  rw [MessageRecord.Answers,h.role,h.taskId,h.inputMessageId]
  simp

namespace MessageRecords

def outcomes (s : MessageRecords) (m : MessageId) : MessageOutcomes where
  replies := (s.messages.rows.filter fun r => r.Answers m).map fun r => (r.contextId,r.messageId)
  tasks := (s.tasks.filter fun o => o.inputMessageId = m).map fun o => (o.contextId,o.taskId)
  delegations := (s.delegatedTasks.rows.filter fun d => d.inputMessageId = m).map fun d =>
    (d.contextId,d.delegationId,d.localTaskId)

/-- What the ingress row of a message says. -/
def fate (s : MessageRecords) (m : MessageId) : KeyFate OutcomeName :=
  match s.messageIngress.get m with
  | none => .free
  | some r =>
    match r.state with
    | .inProgress => .pending
    | .resolved => .done (r.contextId,r.outcomeKind,r.outcomeId)
    | .failed => .failed

/-- The context in which a message is reserved. -/
def contextOf (s : MessageRecords) (m : MessageId) : Option ContextId :=
  (s.messageIngress.get m).map (·.contextId)

section Rows

variable {s : MessageRecords} {m a : MessageId} {c : ContextId}

theorem fate_congr {s' : MessageRecords} (h : s'.messageIngress.get m = s.messageIngress.get m) :
    s'.fate m = s.fate m := by
  rw [fate,fate,h]

theorem fate_free : s.fate m = .free ↔ s.messageIngress.get m = none := by
  rw [fate]
  cases s.messageIngress.get m with
  | none => simp
  | some r => cases hstate : r.state <;> simp [hstate]

theorem fate_pending {r : MessageIngressRecord} (h : s.messageIngress.get m = some r)
    (hstate : r.state = .inProgress) : s.fate m = .pending := by
  simp only [fate,h,hstate]

theorem get_updateIngress_of_ne {f : MessageIngressRecord → MessageIngressRecord}
    {hf : ∀ r, (f r).messageId = r.messageId} (hne : m ≠ a) :
    (s.updateIngress a f hf).messageIngress.get m = s.messageIngress.get m := by
  rw [updateIngress,Table.get_update]
  cases hr : s.messageIngress.get m with
  | none => rfl
  | some r =>
    have hid : r.messageId = m := Table.key_of_get hr
    simp [hid,hne]

/-- What is decided no update of a row in progress reaches. -/
theorem get_updateIngress_decided {r : MessageIngressRecord}
    {f : MessageIngressRecord → MessageIngressRecord} {hf : ∀ r, (f r).messageId = r.messageId}
    (hr : s.messageIngress.get m = some r) (hstate : r.state ≠ .inProgress) :
    (s.updateIngress a f hf).messageIngress.get m = some r := by
  rw [updateIngress,Table.get_update,hr]
  simp [hstate]

theorem fate_updateIngress_of_ne {f : MessageIngressRecord → MessageIngressRecord}
    {hf : ∀ r, (f r).messageId = r.messageId} (hne : m ≠ a) :
    (s.updateIngress a f hf).fate m = s.fate m :=
  fate_congr (get_updateIngress_of_ne hne)

theorem contextOf_updateIngress {f : MessageIngressRecord → MessageIngressRecord}
    {hf : ∀ r, (f r).messageId = r.messageId} (hcontext : ∀ r, (f r).contextId = r.contextId) :
    (s.updateIngress a f hf).contextOf m = s.contextOf m := by
  rw [contextOf,contextOf,updateIngress,Table.get_update,Option.map_map]
  refine congrArg (Option.map · _) (funext fun r => ?_)
  rw [Function.comp_apply]
  split_ifs
  · exact hcontext r
  · rfl

theorem contextOf_routeIngress (decisionId : String) :
    (s.routeIngress a decisionId).contextOf m = s.contextOf m :=
  contextOf_updateIngress fun _ => rfl

theorem contextOf_resolveIngress (kind : MessageIngressOutcomeKind) (id : String) :
    (s.resolveIngress a kind id).contextOf m = s.contextOf m :=
  contextOf_updateIngress fun _ => rfl

theorem fate_routeIngress (decisionId : String) :
    (s.routeIngress a decisionId).fate m = s.fate m := by
  by_cases hm : m = a
  · subst hm
    rw [fate,fate,routeIngress,updateIngress,Table.get_update]
    cases hr : s.messageIngress.get m with
    | none => rfl
    | some r =>
      have hid : r.messageId = m := Table.key_of_get hr
      cases hstate : r.state <;> simp [hid,hstate,MessageIngressRecord.withRoute]
  · exact fate_updateIngress_of_ne hm

theorem get_resolveIngress {r : MessageIngressRecord} (kind : MessageIngressOutcomeKind)
    (id : String) (h : s.messageIngress.get m = some r) (hstate : r.state = .inProgress) :
    (s.resolveIngress m kind id).messageIngress.get m = some (r.resolve kind id) := by
  have hid : r.messageId = m := Table.key_of_get h
  rw [resolveIngress,updateIngress,Table.get_update,h]
  simp [hid,hstate]

theorem fate_resolveIngress {r : MessageIngressRecord} {kind : MessageIngressOutcomeKind}
    {id : String} (h : s.messageIngress.get m = some r) (hstate : r.state = .inProgress) :
    (s.resolveIngress m kind id).fate m = .done (r.contextId,some kind,some id) := by
  rw [fate,get_resolveIngress kind id h hstate]
  rfl

/-- A failure that finds the row in progress decides it, and leaves it alone otherwise. -/
theorem fate_failed {s' : MessageRecords} (error : IngressError)
    (h : s'.messageIngress.get m = (s.messageIngress.get m).map fun r =>
      if r.state = .inProgress then MainAgentStore.MessageIngressRecord.fail error r else r) :
    s'.fate m = (s.fate m).fail := by
  rw [fate,fate,h]
  cases s.messageIngress.get m with
  | none => rfl
  | some r =>
    cases hstate : r.state <;>
      simp [hstate,KeyFate.fail,MainAgentStore.MessageIngressRecord.fail]

theorem fate_failIngress (error : IngressError) :
    (s.failIngress m error).fate m = (s.fate m).fail := by
  refine fate_failed error ?_
  rw [failIngress,updateIngress,Table.get_update]
  cases hr : s.messageIngress.get m with
  | none => rfl
  | some r =>
    have hid : r.messageId = m := Table.key_of_get hr
    simp [hid]

theorem fate_inserted {r : MessageIngressRecord}
    {messageIngress : Table MessageIngressRecord.messageId} (hstate : r.state = .inProgress)
    (h : s.messageIngress.insert? r = some messageIngress) : s.fate r.messageId = .free ∧
      ∀ m, ({s with messageIngress} : MessageRecords).fate m =
        if m = r.messageId then .pending else s.fate m := by
  refine ⟨fate_free.mpr (Table.insert?_fresh h),fun m => ?_⟩
  have hget := Table.get_insert? h m
  by_cases hm : m = r.messageId
  · rw [if_pos hm.symm] at hget
    rw [if_pos hm]
    exact fate_pending hget hstate
  · rw [if_neg fun heq => hm heq.symm] at hget
    rw [if_neg hm]
    exact fate_congr hget

theorem get_routeIngress {r : MessageIngressRecord} (decisionId : String)
    (h : s.messageIngress.get m = some r) (hstate : r.state = .inProgress) :
    (s.routeIngress m decisionId).messageIngress.get m = some (r.withRoute decisionId) := by
  have hid : r.messageId = m := Table.key_of_get h
  rw [routeIngress,updateIngress,Table.get_update,h]
  simp [hid,hstate]

theorem outcomes_congr {s' : MessageRecords} (hmessages : s'.messages = s.messages)
    (htasks : s'.tasks = s.tasks) (hdelegatedTasks : s'.delegatedTasks = s.delegatedTasks) :
    s'.outcomes m = s.outcomes m := by
  rw [outcomes,outcomes,hmessages,htasks,hdelegatedTasks]

/-- What one more message adds. -/
theorem outcomes_message {r : MessageRecord} {messages : Table MessageRecord.messageId}
    (h : s.messages.insert? r = some messages) : ({s with messages} : MessageRecords).outcomes m =
      s.outcomes m+(if r.Answers m then ⟨[(r.contextId,r.messageId)],[],[]⟩ else 0) := by
  simp only [outcomes,Table.rows_insert? h,List.filter_append,List.map_append]
  by_cases hr : r.Answers m <;> simp [hr,MessageOutcomes.add_eq,MessageOutcomes.zero_eq]

theorem outcomes_task (o : TaskOrigin) :
    ({s with tasks := s.tasks++[o]} : MessageRecords).outcomes m =
      s.outcomes m+(if o.inputMessageId = m then ⟨[],[(o.contextId,o.taskId)],[]⟩ else 0) := by
  simp only [outcomes,List.filter_append,List.map_append]
  by_cases ho : o.inputMessageId = m <;>
    simp [ho,MessageOutcomes.add_eq,MessageOutcomes.zero_eq]

theorem outcomes_delegation {d : DelegatedTaskRecord}
    {delegatedTasks : Table DelegatedTaskRecord.delegationId}
    (h : s.delegatedTasks.insert? d = some delegatedTasks) :
    ({s with delegatedTasks} : MessageRecords).outcomes m =
      s.outcomes m+(if d.inputMessageId = m then
        ⟨[],[],[(d.contextId,d.delegationId,d.localTaskId)]⟩ else 0) := by
  simp only [outcomes,Table.rows_insert? h,List.filter_append,List.map_append]
  by_cases hd : d.inputMessageId = m <;>
    simp [hd,MessageOutcomes.add_eq,MessageOutcomes.zero_eq]

/-- Rows that lie elsewhere survive the deletion of a context. -/
theorem map_filter_delete {α β : Type} {p q : α → Bool} {f : α → ContextId × β} {rows : List α}
    (hq : ∀ r, q r = decide ((f r).1 ≠ c)) (h : ∀ x ∈ (rows.filter p).map f, x.1 ≠ c) :
    ((rows.filter q).filter p).map f = (rows.filter p).map f := by
  rw [List.filter_comm]
  refine congrArg (List.map f) (List.filter_eq_self.mpr fun r hr => ?_)
  rw [hq]
  exact decide_eq_true (h _ (List.mem_map_of_mem hr))

/-- What comes of a message outlives the contexts in which nothing of it lies. -/
theorem outcomes_deleted {db db' : AgentDb} {listed : List TaskId} {u : Unit}
    (havoids : (db.messageRecords.outcomes m).Avoids c)
    (h : (deleteTerminalContext c listed).run db = .ok (u,db')) :
    db'.messageRecords.outcomes m = db.messageRecords.outcomes m := by
  rw [deleteTerminalContext_records h]
  ext1
  · exact map_filter_delete (fun r => by simp) havoids.replies
  · exact map_filter_delete (fun r => by simp) havoids.tasks
  · exact map_filter_delete (fun r => by simp) havoids.delegations

theorem get_deleted {db db' : AgentDb} {listed : List TaskId} {u : Unit}
    (hcontext : db.messageRecords.contextOf m ≠ some c)
    (h : (deleteTerminalContext c listed).run db = .ok (u,db')) :
    db'.messageRecords.messageIngress.get m = db.messageRecords.messageIngress.get m := by
  rw [deleteTerminalContext_records h]
  refine (Table.get_delete ..).trans ?_
  rw [contextOf] at hcontext
  change (db.messageRecords.messageIngress.get m).filter _ = _
  cases hr : db.messageRecords.messageIngress.get m with
  | none => rfl
  | some r =>
    rw [hr] at hcontext
    have hne : r.contextId ≠ c := fun heq => hcontext (congrArg some heq)
    simp [Option.filter,hne]

/-- The progress of tasks touches no outcome of a message. -/
theorem outcomes_taskStep {s' : MessageRecords} (h : TaskStep s s') :
    s'.outcomes m = s.outcomes m ∧ s'.messageIngress = s.messageIngress := by
  cases h with
  | @message r messages t htask hstored hinsert =>
    have hunanswered : ¬r.Answers m := fun hr => by
      rw [MessageRecord.Answers,htask] at hr
      cases hr.2.1
    have hmessage := outcomes_message (m := m) hinsert
    rw [if_neg hunanswered,add_zero] at hmessage
    exact ⟨hmessage,rfl⟩
  | @delegation id status metadata htask =>
    refine ⟨?_,rfl⟩
    ext1
    · rfl
    · rfl
    · simp only [outcomes,Table.update,List.filter_map,List.map_map]
      have hsame : ∀ d : DelegatedTaskRecord, ((fun d : DelegatedTaskRecord =>
          decide (d.inputMessageId = m)) ∘ fun r => if decide (r.delegationId = id) = true then
            {r with
              status
              metadata} else r) d = decide (d.inputMessageId = m) := by
        intro d
        rw [Function.comp_apply]
        split_ifs <;> rfl
      rw [List.filter_congr fun d _ => hsame d]
      refine List.map_congr_left fun d _ => ?_
      rw [Function.comp_apply]
      split_ifs <;> rfl

end Rows

end MessageRecords

namespace DeliveryPhase

/-- The stage of a delivery of this message. -/
def stageOf (m : MessageId) (p : DeliveryPhase) : Option HolderStage :=
  if p.ticket.map (·.inputMessageId) = some m then p.stage else none

variable {p p' : DeliveryPhase} {m : MessageId} {a : AdmittedMessage}

theorem stageOf_ticket (h : p.ticket = some a) :
    p.stageOf m = if a.inputMessageId = m then p.stage else none := by
  simp [stageOf,h]

theorem stageOf_none (h : p.ticket = none) : p.stageOf m = none := by
  simp [stageOf,h]

theorem stageOf_congr (hticket : p'.ticket = p.ticket) (hstage : p'.stage = p.stage) :
    p'.stageOf m = p.stageOf m := by
  rw [stageOf,stageOf,hticket,hstage]

theorem stageOf_ne (h : p.ticket = some a) (hm : a.inputMessageId ≠ m) : p.stageOf m = none := by
  rw [stageOf_ticket h,if_neg hm]

/-- An admitted delivery holds its message. -/
theorem exists_stage (h : p.ticket = some a) : ∃ st, p.stage = some st := by
  cases p <;> first | exact ⟨_,rfl⟩ | cases h

end DeliveryPhase

namespace MessageServer

/-- The server as seen from one message. -/
def key (s : MessageServer) (m : MessageId) : KeyState DeliveryId OutcomeName MessageOutcomes where
  fate := s.db.messageRecords.fate m
  stored := s.db.messageRecords.outcomes m
  stage i := (s.deliveries i).bind fun d => d.phase.stageOf m
  consults := s.calls.count (m,.router)
  dispatches := s.calls.countP fun call => call.1 = m ∧ call.2 ≠ .router
  up := s.serving

/-- Every delivery is for the context in which its message is reserved. -/
def Tickets (s : MessageServer) (m : MessageId) : Prop :=
  ∀ i d a, s.deliveries i = some d → d.phase.ticket = some a → a.inputMessageId = m →
    ∀ c ∈ s.db.messageRecords.contextOf m, c = a.contextId

/-- The delivery was admitted for the message and has not ended. -/
def Holds (s : MessageServer) (m : MessageId) (i : DeliveryId) : Prop :=
  ∃ d a, s.deliveries i = some d ∧ d.phase.ticket = some a ∧ a.inputMessageId = m

end MessageServer

section Acting

variable {core : CoreEnv} {request : MainAgentRequest} {p p' : DeliveryPhase}
variable {s s' : MessageRecords} {calls : List (MessageId × IngressCall)} {m : MessageId}
variable {k : KeyState DeliveryId OutcomeName MessageOutcomes} {i : DeliveryId}

/-- The key after an event of a delivery. -/
def actedKey (k : KeyState DeliveryId OutcomeName MessageOutcomes) (m : MessageId)
    (i : DeliveryId) (p' : DeliveryPhase) (s' : MessageRecords)
    (calls : List (MessageId × IngressCall)) : KeyState DeliveryId OutcomeName MessageOutcomes where
  fate := s'.fate m
  stored := s'.outcomes m
  stage := Function.update k.stage i (p'.stageOf m)
  consults := k.consults+calls.count (m,.router)
  dispatches := k.dispatches+calls.countP fun call => call.1 = m ∧ call.2 ≠ .router
  up := k.up

/-- The delivery is for another message. -/
theorem acted_beside (hfate : k.fate = s.fate m) (hstored : k.stored = s.outcomes m)
    (hstage : k.stage i = p.stageOf m) (hfate' : s'.fate m = s.fate m)
    (hstored' : s'.outcomes m = s.outcomes m) (hstage' : p'.stageOf m = p.stageOf m)
    (hcalls : ∀ call ∈ calls, call.1 ≠ m) : actedKey k m i p' s' calls = k := by
  have hconsults : calls.count (m,IngressCall.router) = 0 := by
    rw [List.count_eq_zero]
    exact fun hmem => hcalls _ hmem rfl
  have hdispatches : (calls.countP fun call => call.1 = m ∧ call.2 ≠ .router) = 0 := by
    rw [List.countP_eq_zero]
    intro call hmem
    simp [hcalls call hmem]
  ext1
  · exact hfate'.trans hfate.symm
  · exact hstored'.trans hstored.symm
  · rw [actedKey,hstage',← hstage,Function.update_eq_self]
  · exact congrArg (k.consults+·) hconsults
  · exact congrArg (k.dispatches+·) hdispatches
  · rfl

/-- The delivery is for this message. -/
theorem acted_own {o : Option HolderStage} {c d : Nat} (hstage' : p'.stageOf m = o)
    (hconsults : calls.count (m,.router) = c)
    (hdispatches : (calls.countP fun call => call.1 = m ∧ call.2 ≠ .router) = d) :
    actedKey k m i p' s' calls = ⟨s'.fate m,s'.outcomes m,Function.update k.stage i o,k.consults+c,
      k.dispatches+d,k.up⟩ := by
  subst hstage' hconsults hdispatches
  rfl

theorem count_call {call : IngressCall} (hcall : call ≠ .router) :
    [(m,call)].count (m,IngressCall.router) = 0 ∧
      ([(m,call)].countP fun call => call.1 = m ∧ call.2 ≠ .router) = 1 := by
  simp [hcall]

/-- An admitted delivery acts on the key of its message, or is for another one. -/
theorem acted_cases {a : AdmittedMessage} (hfate : k.fate = s.fate m)
    (hstored : k.stored = s.outcomes m) (hstage : k.stage i = p.stageOf m)
    (hp : p.ticket = some a) (hp' : p'.ticket = some a ∨ p'.ticket = none)
    (hfate' : a.inputMessageId ≠ m → s'.fate m = s.fate m)
    (hstored' : a.inputMessageId ≠ m → s'.outcomes m = s.outcomes m)
    (hcalls : ∀ call ∈ calls, call.1 = a.inputMessageId)
    (hown : a.inputMessageId = m → k.stage i = p.stage →
      KeyState.Step Shows k (actedKey k m i p' s' calls)) :
    actedKey k m i p' s' calls = k ∨ KeyState.Step Shows k (actedKey k m i p' s' calls) := by
  by_cases hm : a.inputMessageId = m
  · right
    refine hown hm ?_
    rw [hstage,DeliveryPhase.stageOf_ticket hp,if_pos hm]
  · left
    refine acted_beside hfate hstored hstage (hfate' hm) (hstored' hm) ?_ fun call hmem hcall => ?_
    · rw [DeliveryPhase.stageOf_ne hp hm]
      rcases hp' with hp' | hp'
      · exact DeliveryPhase.stageOf_ne hp' hm
      · exact DeliveryPhase.stageOf_none hp'
    · exact hm ((hcalls call hmem).symm.trans hcall)

/-- A step of the work. -/
theorem acted_advance {a : AdmittedMessage} {st st' : HolderStage} {c d : Nat}
    (hfate : k.fate = s.fate m) (hstored : k.stored = s.outcomes m)
    (hstage : k.stage i = p.stageOf m) (hp : p.ticket = some a) (hp' : p'.ticket = some a)
    (hst : p.stage = some st) (hst' : p'.stage = some st')
    (hadvance : HolderStage.Advance st st' c d) (hfate' : s'.fate m = s.fate m)
    (hstored' : s'.outcomes m = s.outcomes m)
    (hcalls : ∀ call ∈ calls, call.1 = a.inputMessageId)
    (hconsults : a.inputMessageId = m → calls.count (m,.router) = c)
    (hdispatches : a.inputMessageId = m →
      (calls.countP fun call => call.1 = m ∧ call.2 ≠ .router) = d) :
    actedKey k m i p' s' calls = k ∨ KeyState.Step Shows k (actedKey k m i p' s' calls) := by
  refine acted_cases hfate hstored hstage hp (.inl hp') (fun _ => hfate') (fun _ => hstored') hcalls
    fun hm hnow => ?_
  have hnext : p'.stageOf m = some st' := by
    rw [DeliveryPhase.stageOf_ticket hp',if_pos hm,hst']
  rw [acted_own hnext (hconsults hm) (hdispatches hm),hfate',hstored',← hfate,← hstored]
  exact .advance i (hnow.trans hst) hadvance

/-- The transaction that commits an outcome. -/
theorem acted_commit {a : AdmittedMessage} {st : HolderStage} {d : Nat} {v : MessageOutcomes}
    {kind : MessageIngressOutcomeKind} {id : String} (hfate : k.fate = s.fate m)
    (hstored : k.stored = s.outcomes m) (hstage : k.stage i = p.stageOf m)
    (hp : p.ticket = some a) (hp' : p'.ticket = some a) (hst : p.stage = some st)
    (hst' : p'.stage = some .finished) (hcommits : KeyState.Commits st d)
    (hticket : ∀ a r, p.ticket = some a → a.inputMessageId = m →
      s.messageIngress.get m = some r → r.contextId = a.contextId)
    (hrow : ∃ r, s.messageIngress.get a.inputMessageId = some r ∧ r.state = .inProgress)
    (hfate' : ∀ r, s.messageIngress.get a.inputMessageId = some r → r.state = .inProgress →
      s'.fate a.inputMessageId = .done (r.contextId,some kind,some id))
    (hother : a.inputMessageId ≠ m → s'.fate m = s.fate m)
    (hstored' : s'.outcomes m = s.outcomes m+(if a.inputMessageId = m then v else 0))
    (hshows : Shows (a.contextId,some kind,some id) v)
    (hcalls : ∀ call ∈ calls, call.1 = a.inputMessageId)
    (hconsults : a.inputMessageId = m → calls.count (m,.router) = 0)
    (hdispatches : a.inputMessageId = m →
      (calls.countP fun call => call.1 = m ∧ call.2 ≠ .router) = d) :
    actedKey k m i p' s' calls = k ∨ KeyState.Step Shows k (actedKey k m i p' s' calls) := by
  refine acted_cases hfate hstored hstage hp (.inl hp') hother (fun hm => ?_) hcalls
    fun hm hnow => ?_
  · rw [hstored',if_neg hm,add_zero]
  · have hnext : p'.stageOf m = some .finished := by
      rw [DeliveryPhase.stageOf_ticket hp',if_pos hm,hst']
    obtain ⟨r,hr,hstate⟩ := hrow
    have hdone := hfate' r hr hstate
    rw [hm] at hr hdone
    rw [hticket a r hp hm hr] at hdone
    have hpending : k.fate = .pending := hfate.trans (MessageRecords.fate_pending hr hstate)
    rw [acted_own hnext (hconsults hm) (hdispatches hm),hdone,hstored',if_pos hm,← hstored]
    exact .commit i (hnow.trans hst) hcommits hpending hshows

/-- A delivery leaves its work. -/
theorem acted_fails {a : AdmittedMessage} {error : PyException} {last : DeliveryEnd}
    (hfate : k.fate = s.fate m) (hstored : k.stored = s.outcomes m)
    (hstage : k.stage i = p.stageOf m) (hp : p.ticket = some a) :
    actedKey k m i (.failing a error last) s [] = k ∨
      KeyState.Step Shows k (actedKey k m i (.failing a error last) s []) := by
  refine acted_cases hfate hstored hstage hp (.inl rfl) (fun _ => rfl) (fun _ => rfl) (by simp)
    fun hm hnow => ?_
  obtain ⟨st,hst⟩ := DeliveryPhase.exists_stage hp
  have hnext : (DeliveryPhase.failing a error last).stageOf m = some .failing := by
    rw [DeliveryPhase.stageOf_ticket rfl,if_pos hm]
    rfl
  rw [acted_own hnext rfl rfl,← hfate,← hstored]
  exact .fail i (hnow.trans hst)

/-- An event of a delivery is a step of the key of its message, and none for the others. -/
theorem acts_key (h : Acts core request p s p' s' calls) (hup : k.up = true)
    (hfate : k.fate = s.fate m) (hstored : k.stored = s.outcomes m)
    (hstage : k.stage i = p.stageOf m)
    (hticket : ∀ a r, p.ticket = some a → a.inputMessageId = m →
      s.messageIngress.get m = some r → r.contextId = a.contextId) :
    actedKey k m i p' s' calls = k ∨ KeyState.Step Shows k (actedKey k m i p' s' calls) := by
  cases h with
  | @admits s s' a newContextId hrole hmode hid hadmits =>
    obtain ⟨r,_,_,hrole,_,hinsert⟩ := hadmits.message
    obtain ⟨hfree,hreserved⟩ := MessageRecords.fate_inserted rfl hadmits.reservation
    have hfate' : s'.fate m = if m = a.inputMessageId then .pending else s.fate m := hreserved m
    have hstored' : s'.outcomes m = s.outcomes m := by
      have hunanswered : ¬r.Answers m := fun hr => by
        rw [MessageRecord.Answers,hrole] at hr
        cases hr.1
      have hmessage := MessageRecords.outcomes_message (m := m) hinsert
      rw [if_neg hunanswered,add_zero] at hmessage
      rw [← hmessage]
      exact MessageRecords.outcomes_congr rfl hadmits.tasks hadmits.delegatedTasks
    by_cases hm : a.inputMessageId = m
    · right
      have hnext : (DeliveryPhase.admitted a).stageOf m = some .claimed := by
        rw [DeliveryPhase.stageOf_ticket rfl,if_pos hm]
        rfl
      rw [if_pos hm.symm] at hfate'
      rw [hm] at hfree
      rw [acted_own hnext rfl rfl,hfate',hstored',← hstored]
      exact .claim i (hfate.trans hfree) hup
    · left
      rw [if_neg fun heq => hm heq.symm] at hfate'
      refine acted_beside hfate hstored hstage hfate' hstored' ?_ (by simp)
      rw [DeliveryPhase.stageOf_ne rfl hm,DeliveryPhase.stageOf_none rfl]
  | quiet hticket' hstage' hdecision hresult hdelegates =>
    exact .inl (acted_beside hfate hstored hstage rfl rfl
      (DeliveryPhase.stageOf_congr hticket' hstage') (by simp))
  | routes =>
    exact acted_advance hfate hstored hstage rfl rfl rfl rfl .consult rfl rfl (by simp)
      (fun hm => by simp [hm]) (fun hm => by simp [hm])
  | decides =>
    exact acted_advance hfate hstored hstage rfl rfl rfl rfl .answer rfl rfl (by simp)
      (fun _ => rfl) (fun _ => rfl)
  | targets hkind =>
    exact .inl (acted_beside hfate hstored hstage rfl rfl (DeliveryPhase.stageOf_congr rfl rfl)
      (by simp))
  | records hp hst hlocal hremote hcontext hrow hinsert =>
    exact acted_advance hfate hstored hstage hp rfl hst rfl .prepare
      (MessageRecords.fate_routeIngress _) rfl (by simp) (fun _ => rfl) (fun _ => rfl)
  | @accepts s a route newDecisionId taskId routeDecisions origin hkind hcontext hrow hinsert htask
      horigin hinput =>
    have hcall : IngressCall.acceptance ≠ .router := by decide
    refine acted_commit (v := ⟨[],[(a.contextId,taskId)],[]⟩) hfate hstored hstage rfl rfl rfl rfl
      .atOnce hticket hrow (fun r hr hstate => ?_) (fun hm => ?_) ?_ (.task a.contextId taskId)
      (by simp) (fun hm => by rw [hm,(count_call hcall).1])
      (fun hm => by rw [hm,(count_call hcall).2])
    · exact MessageRecords.fate_resolveIngress (r := r.withRoute newDecisionId)
        (MessageRecords.get_routeIngress newDecisionId hr hstate) hstate
    · refine (MessageRecords.fate_updateIngress_of_ne fun heq => hm heq.symm).trans ?_
      exact MessageRecords.fate_routeIngress _
    · have htaskOf := MessageRecords.outcomes_task (s := s) (m := m) origin
      rw [horigin,htask,hinput] at htaskOf
      exact htaskOf
  | @acceptFails s a route error =>
    have hcall : IngressCall.acceptance ≠ .router := by decide
    refine acted_cases hfate hstored hstage rfl (.inl rfl) (fun _ => rfl) (fun _ => rfl) (by simp)
      fun hm hnow => ?_
    have hnext : (DeliveryPhase.failing a error (.raised error)).stageOf m = some .failing := by
      rw [DeliveryPhase.stageOf_ticket rfl,if_pos hm]
      rfl
    rw [hm,acted_own hnext (count_call hcall).1 (count_call hcall).2,← hfate,← hstored]
    exact .dispatchFails i hnow
  | dispatches hp hp' hst hst' hdecision hcall =>
    exact acted_advance hfate hstored hstage hp hp' hst hst' .dispatch rfl rfl (by simp)
      (fun hm => by rw [hm,(count_call hcall).1]) (fun hm => by rw [hm,(count_call hcall).2])
  | @answers s p a decisionId r messages hp hst hdecision hreply hcontext hrow hinsert =>
    refine acted_commit (v := ⟨[(a.contextId,r.messageId)],[],[]⟩) hfate hstored hstage hp rfl hst
      rfl .dispatched hticket hrow (fun r hr hstate => MessageRecords.fate_resolveIngress hr hstate)
      (fun hm => MessageRecords.fate_updateIngress_of_ne fun heq => hm heq.symm) ?_
      (.message a.contextId r.messageId) (by simp) (fun _ => rfl) (fun _ => rfl)
    have hmessage := MessageRecords.outcomes_message (m := m) hinsert
    simp only [hreply.answers_iff,hreply.contextId] at hmessage
    exact hmessage
  | @delegatesMessage s p a decisionId agent r messages delegation delegatedTasks hp hst hdecision
      hreply hcontext hrow hinsert hdelegation hcontextId hinput hagent htask hkind hmetadata =>
    refine acted_commit (v := ⟨[(a.contextId,r.messageId)],[],
      [(a.contextId,delegation.delegationId,none)]⟩) hfate hstored hstage hp rfl hst
      rfl .dispatched hticket hrow (fun r hr hstate => MessageRecords.fate_resolveIngress hr hstate)
      (fun hm => MessageRecords.fate_updateIngress_of_ne fun heq => hm heq.symm) ?_
      (.delegatedMessage a.contextId delegation.delegationId r.messageId) (by simp) (fun _ => rfl)
      (fun _ => rfl)
    have hmessage := MessageRecords.outcomes_message (m := m) hinsert
    have hboth := MessageRecords.outcomes_delegation (s := {s with messages}) (m := m) hdelegation
    rw [hmessage,MessageOutcomes.add_assoc] at hboth
    simp only [hreply.answers_iff,hreply.contextId,hcontextId,hinput,htask] at hboth
    refine hboth.trans ?_
    by_cases hm : a.inputMessageId = m
    · rw [if_pos hm,if_pos hm,if_pos hm]
      rfl
    · rw [if_neg hm,if_neg hm,if_neg hm,add_zero]
  | @delegatesTask s p a decisionId agent taskId origin delegation delegatedTasks hp hst hdecision
      hcontext hrow htask horigin hinput hdelegation hcontextId hinput' hagent hlocal hkind =>
    refine acted_commit (v := ⟨[],[(a.contextId,taskId)],
      [(a.contextId,delegation.delegationId,some taskId)]⟩) hfate hstored hstage hp rfl hst
      rfl .dispatched hticket hrow (fun r hr hstate => MessageRecords.fate_resolveIngress hr hstate)
      (fun hm => MessageRecords.fate_updateIngress_of_ne fun heq => hm heq.symm) ?_
      (.delegatedTask a.contextId delegation.delegationId taskId) (by simp) (fun _ => rfl)
      (fun _ => rfl)
    have htaskOf := MessageRecords.outcomes_task (s := s) (m := m) origin
    have hboth := MessageRecords.outcomes_delegation (s := {s with tasks := s.tasks++[origin]})
      (m := m) hdelegation
    rw [htaskOf,MessageOutcomes.add_assoc] at hboth
    simp only [hcontextId,hinput,hinput',horigin,htask,hlocal] at hboth
    refine hboth.trans ?_
    by_cases hm : a.inputMessageId = m
    · rw [if_pos hm,if_pos hm,if_pos hm]
      rfl
    · rw [if_neg hm,if_neg hm,if_neg hm,add_zero]
  | fails hp => exact acted_fails hfate hstored hstage hp
  | @recordsFailure s a error last ingressError =>
    refine acted_cases hfate hstored hstage rfl (.inr rfl)
      (fun hm => MessageRecords.fate_updateIngress_of_ne fun heq => hm heq.symm) (fun _ => rfl)
      (by simp) fun hm hnow => ?_
    rw [hm,acted_own (DeliveryPhase.stageOf_none rfl) rfl rfl,MessageRecords.fate_failIngress,
      ← hfate]
    change KeyState.Step Shows k ⟨_,s.outcomes m,_,_,_,_⟩
    rw [← hstored]
    exact .recordFailure i hnow
  | @failureUnrecorded s a error last last' hnone =>
    refine acted_cases hfate hstored hstage rfl (.inr rfl) (fun _ => rfl) (fun _ => rfl) (by simp)
      fun hm hnow => ?_
    rw [hm] at hnone
    have hfree : k.fate = .free := hfate.trans (MessageRecords.fate_free.mpr hnone)
    have hfail : s.fate m = k.fate.fail := by
      rw [← hfate,hfree]
      rfl
    rw [acted_own (DeliveryPhase.stageOf_none rfl) rfl rfl,hfail,← hstored]
    exact .recordFailure i hnow
  | finishes =>
    refine acted_cases hfate hstored hstage rfl (.inr rfl) (fun _ => rfl) (fun _ => rfl) (by simp)
      fun hm hnow => ?_
    rw [acted_own (DeliveryPhase.stageOf_none rfl) rfl rfl,← hfate,← hstored]
    exact .finish i hnow

/-- The context of a message is set when it is admitted. -/
theorem acts_context (h : Acts core request p s p' s' calls) :
    ((∀ m, s'.contextOf m = s.contextOf m) ∧ (p'.ticket = p.ticket ∨ p'.ticket = none)) ∨
      ∃ a, p'.ticket = some a ∧ s.fate a.inputMessageId = .free ∧
        ∀ m, s'.contextOf m = if m = a.inputMessageId then some a.contextId else s.contextOf m := by
  cases h with
  | @admits _ _ a newContextId hrole hmode hid hadmits =>
    refine .inr ⟨a,rfl,(MessageRecords.fate_inserted rfl hadmits.reservation).1,fun m => ?_⟩
    rw [MessageRecords.contextOf,Table.get_insert? hadmits.reservation]
    by_cases hm : m = a.inputMessageId
    · have hself : (MessageIngressRecord.reserved a.inputMessageId a.contextId
          (core.fingerprint request.role request.parts request.metadata)).messageId = m := hm.symm
      rw [if_pos hself,if_pos hm]
      rfl
    · have hother : (MessageIngressRecord.reserved a.inputMessageId a.contextId
          (core.fingerprint request.role request.parts request.metadata)).messageId ≠ m :=
        fun heq => hm heq.symm
      rw [if_neg hother,if_neg hm]
      rfl
  | quiet hticket => exact .inl ⟨fun _ => rfl,.inl hticket⟩
  | routes => exact .inl ⟨fun _ => rfl,.inl rfl⟩
  | decides => exact .inl ⟨fun _ => rfl,.inl rfl⟩
  | targets => exact .inl ⟨fun _ => rfl,.inl rfl⟩
  | records hp =>
    exact .inl ⟨fun _ => MessageRecords.contextOf_routeIngress _,.inl hp.symm⟩
  | @accepts _ a route newDecisionId taskId routeDecisions origin =>
    refine .inl ⟨fun m => ?_,.inl rfl⟩
    refine (MessageRecords.contextOf_resolveIngress _ _).trans ?_
    exact MessageRecords.contextOf_routeIngress newDecisionId
  | acceptFails => exact .inl ⟨fun _ => rfl,.inl rfl⟩
  | dispatches hp hp' => exact .inl ⟨fun _ => rfl,.inl (hp'.trans hp.symm)⟩
  | answers hp =>
    exact .inl ⟨fun _ => MessageRecords.contextOf_resolveIngress _ _,.inl hp.symm⟩
  | delegatesMessage hp =>
    exact .inl ⟨fun _ => MessageRecords.contextOf_resolveIngress _ _,.inl hp.symm⟩
  | delegatesTask hp =>
    exact .inl ⟨fun _ => MessageRecords.contextOf_resolveIngress _ _,.inl hp.symm⟩
  | fails hp => exact .inl ⟨fun _ => rfl,.inl hp.symm⟩
  | recordsFailure =>
    exact .inl ⟨fun _ => MessageRecords.contextOf_updateIngress fun _ => rfl,.inr rfl⟩
  | failureUnrecorded => exact .inl ⟨fun _ => rfl,.inr rfl⟩
  | finishes => exact .inl ⟨fun _ => rfl,.inr rfl⟩

/-- No event of a delivery touches the row of a decided message. -/
theorem acts_row {r : MessageIngressRecord} (h : Acts core request p s p' s' calls)
    (hr : s.messageIngress.get m = some r) (hstate : r.state ≠ .inProgress) :
    s'.messageIngress.get m = some r := by
  cases h with
  | @admits _ _ a newContextId hrole hmode hid hadmits =>
    rw [Table.get_insert? hadmits.reservation]
    split_ifs with hm
    · have hfresh := Table.insert?_fresh hadmits.reservation
      rw [hm,hr] at hfresh
      cases hfresh
    · exact hr
  | @accepts _ a route newDecisionId taskId routeDecisions origin =>
    have hrouted : (s.routeIngress a.inputMessageId newDecisionId).messageIngress.get m =
        some r := MessageRecords.get_updateIngress_decided hr hstate
    exact MessageRecords.get_updateIngress_decided hrouted hstate
  | records | answers | delegatesMessage | delegatesTask | recordsFailure =>
    exact MessageRecords.get_updateIngress_decided hr hstate
  | _ => exact hr

end Acting

section Steps

variable {fingerprint : MessageRole → List Json → Json → String} {env : LedgerEnv}
variable {s s' : MessageServer} {m : MessageId}

/-- What is known of a message on any way that leaves its context. -/
structure Watched (m : MessageId) (s : MessageServer) : Prop where
  sound : (s.key m).Sound Shows
  tickets : s.Tickets m

theorem key_stage_eq {i : DeliveryId} {d : Delivery} (hd : s.deliveries i = some d) :
    (s.key m).stage i = d.phase.stageOf m := by
  change (s.deliveries i).bind _ = _
  rw [hd]
  rfl

/-- A delivery that holds the message is at work on it. -/
theorem key_stage {i : DeliveryId} {d : Delivery} {a : AdmittedMessage}
    (hd : s.deliveries i = some d) (ha : d.phase.ticket = some a) (hm : a.inputMessageId = m) :
    (s.key m).stage i ≠ none := by
  obtain ⟨st,hst⟩ := DeliveryPhase.exists_stage ha
  rw [key_stage_eq hd,DeliveryPhase.stageOf_ticket ha,if_pos hm,hst]
  simp

theorem holds_iff {i : DeliveryId} : s.Holds m i ↔ (s.key m).stage i ≠ none := by
  constructor
  · rintro ⟨d,a,hd,ha,hm⟩
    exact key_stage hd ha hm
  · intro hstage
    cases hd : s.deliveries i with
    | none =>
      refine absurd ?_ hstage
      change (s.deliveries i).bind _ = none
      rw [hd]
      rfl
    | some d =>
      rw [key_stage_eq hd] at hstage
      cases ha : d.phase.ticket with
      | none => exact absurd (DeliveryPhase.stageOf_none ha) hstage
      | some a =>
        refine ⟨d,a,hd,ha,?_⟩
        by_contra hm
        exact hstage (DeliveryPhase.stageOf_ne ha hm)

theorem key_deliver (i : DeliveryId) (d : Delivery) (r : DeliveryStep) :
    (s.deliver i d r).key m = actedKey (s.key m) m i r.1 r.2.1.messageRecords r.2.2 := by
  ext1
  · rfl
  · rfl
  · funext j
    by_cases hj : j = i
    · subst hj
      have hself : (actedKey (s.key m) m j r.1 r.2.1.messageRecords r.2.2).stage j =
          r.1.stageOf m := Function.update_self ..
      exact (key_stage_eq (Function.update_self ..)).trans hself.symm
    · have hother : (s.deliver i d r).deliveries j = s.deliveries j := Function.update_of_ne hj ..
      have hsame : (actedKey (s.key m) m i r.1 r.2.1.messageRecords r.2.2).stage j =
          (s.key m).stage j := Function.update_of_ne hj ..
      rw [hsame]
      change ((s.deliver i d r).deliveries j).bind _ = (s.deliveries j).bind _
      rw [hother]
  · exact List.count_append
  · exact List.countP_append
  · rfl

theorem delivery_acts {d : Delivery} {e : DeliveryEvent} {r : DeliveryStep}
    (h : d.act fingerprint s.config s.db e = some r) :
    Acts ⟨fingerprint,s.config.hasRemoteClient⟩ d.request d.phase s.db.messageRecords r.1
      r.2.1.messageRecords r.2.2 := by
  obtain ⟨p',db',calls⟩ := r
  exact Delivery.act_acts h

theorem deliver_key {i : DeliveryId} {d : Delivery} {e : DeliveryEvent} {r : DeliveryStep}
    (hs : Watched m s) (hup : s.serving = true) (hd : s.deliveries i = some d)
    (h : d.act fingerprint s.config s.db e = some r) :
    ((s.deliver i d r).key m = s.key m ∨
      KeyState.Step Shows (s.key m) ((s.deliver i d r).key m)) ∧ (s.deliver i d r).Tickets m := by
  have hacts := delivery_acts h
  constructor
  · rw [key_deliver]
    refine acts_key hacts hup rfl rfl (key_stage_eq hd) fun a r ha hm hr => ?_
    refine hs.tickets i d a hd ha hm r.contextId ?_
    rw [MessageRecords.contextOf,hr]
    rfl
  · intro j d' a hd' ha hm c hc
    by_cases hj : j = i
    · subst hj
      have hphase : d'.phase = r.1 := by
        rw [show (s.deliver j d r).deliveries j = _ from Function.update_self ..] at hd'
        cases hd'
        rfl
      rw [hphase] at ha
      rcases acts_context hacts with ⟨hcontext,hticket⟩ | ⟨b,hb,_,hcontext⟩
      · rw [MessageServer.deliver,hcontext m] at hc
        rcases hticket with hticket | hticket
        · exact hs.tickets j d a hd (hticket.symm.trans ha) hm c hc
        · cases hticket.symm.trans ha
      · cases hb.symm.trans ha
        rw [MessageServer.deliver,hcontext m,if_pos hm.symm] at hc
        exact (Option.some.inj hc).symm
    · rw [show (s.deliver i d r).deliveries j = _ from Function.update_of_ne hj ..] at hd'
      rcases acts_context hacts with ⟨hcontext,_⟩ | ⟨b,_,hfree,hcontext⟩
      · rw [MessageServer.deliver,hcontext m] at hc
        exact hs.tickets j d' a hd' ha hm c hc
      · rw [MessageServer.deliver,hcontext m] at hc
        split_ifs at hc with hb
        · rw [← hb] at hfree
          exact absurd ((hs.sound.free hfree).1 j) (key_stage hd' ha hm)
        · exact hs.tickets j d' a hd' ha hm c hc

/-- What the writes beside the deliveries do to a message. -/
inductive Beside (m : MessageId) (s s' : MessageRecords) : Prop where
  | quiet (houtcomes : s'.outcomes m = s.outcomes m)
      (hget : s'.messageIngress.get m = s.messageIngress.get m)
  | settled (c : ContextId) (t : TaskId) (hfree : s.fate m = .free)
      (hfate : s'.fate m = .done (c,some .task,some t))
      (houtcomes : s'.outcomes m = s.outcomes m+⟨[],[(c,t)],[]⟩)

theorem beside_of_same {db db' : AgentDb} (hmessages : db'.messages = db.messages)
    (htasks : db'.tasks = db.tasks) (hdelegatedTasks : db'.delegatedTasks = db.delegatedTasks)
    (hingress : db'.messageIngress = db.messageIngress) :
    Beside m db.messageRecords db'.messageRecords := by
  refine .quiet ?_ (congrArg (Table.get · m) hingress)
  refine MessageRecords.outcomes_congr hmessages ?_ hdelegatedTasks
  exact congrArg (fun tasks => tasks.rows.map TaskRecord.origin) htasks

theorem beside_taskMoves {s s' : MessageRecords} (h : Relation.ReflTransGen TaskStep s s') :
    Beside m s s' := by
  have hkeeps : s'.outcomes m = s.outcomes m ∧ s'.messageIngress = s.messageIngress := by
    induction h with
    | refl => exact ⟨rfl,rfl⟩
    | tail _ hstep ih =>
      have hlast := MessageRecords.outcomes_taskStep (m := m) hstep
      exact ⟨hlast.1.trans ih.1,hlast.2.trans ih.2⟩
  exact .quiet hkeeps.1 (congrArg (Table.get · m) hkeeps.2)

/-- A retry in its own message: no delivery takes part, and the message comes with its task. -/
theorem beside_acceptRetry {core : CoreEnv} {taskId : TaskId} {ids : MainAgentCore.RetryIds}
    {seen : TaskRecord} {inputMessage : MessageRecord} {task : TaskRecord} {created : Bool}
    {db db' : AgentDb} (hmessage : db.messages.get ids.messageId = none)
    (hingress : db.messageIngress.get ids.messageId = none)
    (h : (MainAgentCore.acceptRetry core taskId ids seen inputMessage).run db =
      .ok ((task,created),db')) : Beside m db.messageRecords db'.messageRecords := by
  rcases acceptRetry_records hmessage hingress h with hsame | ⟨message,messages,row,messageIngress,
    decision,routeDecisions,origin,_,hrole,_,_,hinsert,hrow,hcontext,hstate,hreserve,_,_,_,htask,
    horigin,hinput,hrecords⟩
  · rw [hsame]
    exact .quiet rfl rfl
  · have hget := Table.get_insert? hreserve m
    have houtcomes : db'.messageRecords.outcomes m = db.messageRecords.outcomes m+
        (if ids.messageId = m then ⟨[],[(message.contextId,ids.taskId)],[]⟩ else 0) := by
      have hunanswered : ¬message.Answers m := fun hr => by
        rw [MessageRecord.Answers,hrole] at hr
        cases hr.1
      have hwritten := MessageRecords.outcomes_message (s := db.messageRecords) (m := m) hinsert
      rw [if_neg hunanswered,add_zero] at hwritten
      have htaskOf := MessageRecords.outcomes_task (s := {db.messageRecords with messages})
        (m := m) origin
      rw [hwritten,htask,horigin,hinput] at htaskOf
      rw [hrecords]
      exact htaskOf
    let s₁ : MessageRecords := {db.messageRecords with messageIngress}
    rw [hrow] at hget
    by_cases hm : ids.messageId = m
    · subst hm
      rw [if_pos rfl] at houtcomes hget
      refine .settled message.contextId ids.taskId (MessageRecords.fate_free.mpr hingress) ?_
        houtcomes
      have hrouted : (s₁.routeIngress ids.messageId decision.decisionId).messageIngress.get
          ids.messageId = some (row.withRoute decision.decisionId) :=
        MessageRecords.get_routeIngress decision.decisionId hget hstate
      rw [hrecords,← hcontext]
      exact MessageRecords.fate_resolveIngress (r := row.withRoute decision.decisionId) hrouted
        hstate
    · have hne : m ≠ ids.messageId := fun heq => hm heq.symm
      rw [if_neg hm,add_zero] at houtcomes
      rw [if_neg hm] at hget
      have hrouted : (s₁.routeIngress ids.messageId decision.decisionId).messageIngress.get m =
          messageIngress.get m := MessageRecords.get_updateIngress_of_ne hne
      refine .quiet houtcomes ?_
      rw [hrecords]
      exact (MessageRecords.get_updateIngress_of_ne hne).trans (hrouted.trans hget)

/-- The writes beside the deliveries, as long as the context of the message is not deleted. -/
theorem commit_beside {core : CoreEnv} {x : AgentTxn} {db : AgentDb}
    (havoids : ∀ c, db.messageRecords.contextOf m ≠ some c →
      (db.messageRecords.outcomes m).Avoids c)
    (hbeside : ServerStep.isBeside db x = true)
    (hkept : ∀ c listed, x = .deleteTerminalContext c listed →
      db.messageRecords.contextOf m ≠ some c) :
    Beside m db.messageRecords (x.commit core env db).messageRecords := by
  rcases AgentTxn.maintenance_keeps
      (v := fun db => (db.messages,db.tasks,db.delegatedTasks,db.messageIngress)) core env
      (fun _ _ => rfl) (fun _ _ => rfl) x with ⟨y,rfl⟩ | ⟨c,listed,rfl⟩ | hk
  · have hcommit : AgentTxn.commit core env (.core y) db = (y.txn core env).commit db :=
      Txn.commit_map _ _ _
    rw [hcommit]
    simp only [ServerStep.isBeside,Bool.and_eq_true,Bool.not_eq_true'] at hbeside
    rcases Txn.commit_cases (y.txn core env) db with hnone | ⟨action,hrun⟩
    · rw [hnone]
      exact .quiet rfl rfl
    · cases hretry : y.retryMessage with
      | none =>
        exact beside_taskMoves (CoreTxn.txn_taskMoves core env hbeside.1 hretry _ _ _ hrun)
      | some id =>
        cases y with
        | retryTask taskId ids seen inputMessage =>
          obtain ⟨⟨task,created⟩,hretried,_⟩ := (Txn.map_ok _ _).mp hrun
          have hnew := hbeside.2
          simp only [CoreTxn.retryMessage,Option.all_some,Bool.and_eq_true,
            Option.isNone_iff_eq_none] at hnew
          exact beside_acceptRetry hnew.1 hnew.2 hretried
        | _ => cases hretry
  · have hcontext := hkept c listed rfl
    rcases Txn.commit_cases (deleteTerminalContext c listed) db with hnone | ⟨u,hrun⟩
    · rw [AgentTxn.commit,AgentTxn.txn,hnone]
      exact .quiet rfl rfl
    · exact .quiet (MessageRecords.outcomes_deleted (havoids c hcontext) hrun)
        (MessageRecords.get_deleted hcontext hrun)
  · have hkeeps := hk.commit (s := db)
    simp only [Prod.mk.injEq] at hkeeps
    exact beside_of_same hkeeps.1 hkeeps.2.1 hkeeps.2.2.1 hkeeps.2.2.2

/-- What startup does to the rows of messages: every one in progress fails. -/
theorem failInProgress_get {db db' : AgentDb} {error : IngressError} {ids : List MessageId}
    (h : (failInProgressMessageIngresses error).run db = .ok (ids,db')) (m : MessageId) :
    db'.messageIngress.get m = (db.messageIngress.get m).map fun r =>
      if r.state = .inProgress then MainAgentStore.MessageIngressRecord.fail error r else r := by
  cases h
  refine (Table.get_update _ _ _ (MainAgentStore.MessageIngressRecord.fail_messageId error)
    m).trans ?_
  cases hr : db.messageIngress.get m with
  | none => rfl
  | some r =>
    obtain ⟨hmem,hid⟩ := Table.get_eq_some_iff.mp hr
    by_cases hstate : r.state = .inProgress
    · have hlisted : r.messageId ∈ (db.messageIngress.rows.filter fun r =>
          r.state = .inProgress).map (·.messageId) :=
        List.mem_map_of_mem (List.mem_filter.mpr ⟨hmem,decide_eq_true hstate⟩)
      simp [hlisted,hstate]
    · simp [hstate]

theorem forEachTask_keeps {γ : Type} {v : AgentDb → γ}
    {f : TaskRecord → StartupReconciliationOutcome → AgentDb → PassResult}
    (hf : ∀ task o db, v (f task o db).2 = v db) (tasks : List TaskRecord)
    (o : StartupReconciliationOutcome) (db : AgentDb) : v (forEachTask f tasks o db).2 = v db := by
  induction tasks generalizing o db with
  | nil => rfl
  | cons task tasks ih =>
    have hhead := hf task o db
    rw [forEachTask]
    split
    · rename_i o' db' hrun
      rw [hrun] at hhead
      exact (ih o' db').trans hhead
    · rename_i error db' hrun
      rw [hrun] at hhead
      exact hhead

theorem recordRecoveryFailure_messageRecords (t : TaskId) (errorCode errorMessage : String)
    (o : StartupReconciliationOutcome) (db : AgentDb) :
    (recordRecoveryFailure t errorCode errorMessage o db).2.messageRecords = db.messageRecords := by
  rw [recordRecoveryFailure]
  split
  · rename_i task db' hrun
    exact messageRecords_ignores.recordRuntimeRecoveryFailure _ _ _ _ _ hrun
  · rfl

theorem recoverQueuedTask_messageRecords (limit : RecursionLimit) (worker : Option LocalWorker)
    (task : TaskRecord) (o : StartupReconciliationOutcome) (db : AgentDb) :
    (recoverQueuedTask limit worker task o db).2.messageRecords = db.messageRecords := by
  rw [recoverQueuedTask]
  split
  · rfl
  · exact recordRecoveryFailure_messageRecords ..
  · rfl

/-- Startup touches the messages first, whether or not it gets to its end. -/
theorem reconcileStartup_fails (limit : RecursionLimit) (worker : Option LocalWorker)
    (db : AgentDb) : ∃ ids db₁,
      (failInProgressMessageIngresses staleMessageError).run db = .ok (ids,db₁) ∧
      (reconcileStartup limit worker db).2.messageRecords = db₁.messageRecords := by
  obtain ⟨ids,db₁,hrun⟩ : ∃ ids db₁,
      (failInProgressMessageIngresses staleMessageError).run db = .ok (ids,db₁) := ⟨_,_,rfl⟩
  refine ⟨ids,db₁,hrun,?_⟩
  rw [reconcileStartup,hrun]
  have hinterrupted := forEachTask_keeps (v := AgentDb.messageRecords) (f := failInterruptedTask)
    (fun task => recordRecoveryFailure_messageRecords task.taskId _ _)
    (localTasksIn db₁ [.running,.cancelRequested]) ⟨[],[],[],ids⟩ db₁
  simp only
  split
  · rename_i error db₂ hpass
    rw [hpass] at hinterrupted
    exact hinterrupted
  · rename_i o db₂ hpass
    rw [hpass] at hinterrupted
    refine Eq.trans ?_ hinterrupted
    exact forEachTask_keeps (recoverQueuedTask_messageRecords limit worker) _ o db₂

theorem reconcileStartup_records (limit : RecursionLimit) (worker : Option LocalWorker)
    (db : AgentDb) (m : MessageId) :
    (reconcileStartup limit worker db).2.messageRecords.messageIngress.get m =
        (db.messageRecords.messageIngress.get m).map (fun r => if r.state = .inProgress then
          MainAgentStore.MessageIngressRecord.fail staleMessageError r else r) ∧
      (reconcileStartup limit worker db).2.messageRecords.outcomes m =
        db.messageRecords.outcomes m := by
  obtain ⟨ids,db₁,hrun,hrecords⟩ := reconcileStartup_fails limit worker db
  rw [hrecords]
  refine ⟨failInProgress_get hrun m,?_⟩
  cases hrun
  rfl

/-- The step does not delete the context of the message. -/
def KeepsContextOf (m : MessageId) (a : ServerStep) (s : MessageServer) : Prop :=
  ∀ c ∈ a.deletes, s.db.messageRecords.contextOf m ≠ some c

instance (m : MessageId) (a : ServerStep) (s : MessageServer) :
    Decidable (KeepsContextOf m a s) :=
  inferInstanceAs (Decidable (∀ c ∈ a.deletes, s.db.messageRecords.contextOf m ≠ some c))

/-- What is committed for a message lies in its context. -/
theorem Watched.avoids (hs : Watched m s) {c : ContextId}
    (hc : s.db.messageRecords.contextOf m ≠ some c) :
    (s.db.messageRecords.outcomes m).Avoids c := by
  by_cases hdone : ∃ n, (s.key m).fate = .done n
  · obtain ⟨n,hn⟩ := hdone
    refine (hs.sound.done n hn).avoids fun heq => hc ?_
    change s.db.messageRecords.fate m = _ at hn
    rw [MessageRecords.fate] at hn
    rw [MessageRecords.contextOf]
    cases hr : s.db.messageRecords.messageIngress.get m with
    | none =>
      rw [hr] at hn
      cases hn
    | some r =>
      cases hstate : r.state <;> simp only [hr,hstate] at hn <;> cases hn
      exact congrArg some heq
  · rw [show s.db.messageRecords.outcomes m = 0 from
      hs.sound.empty fun n hn => hdone ⟨n,hn⟩]
    exact MessageOutcomes.avoids_zero c

theorem write_beside {x : AgentTxn} (fingerprint : MessageRole → List Json → Json → String)
    (env : LedgerEnv) (hs : Watched m s) (hkept : KeepsContextOf m (.write x) s)
    (hbeside : ServerStep.isBeside s.db x = true) : Beside m s.db.messageRecords
      (x.commit ⟨fingerprint,s.config.hasRemoteClient⟩ env s.db).messageRecords := by
  refine commit_beside (fun c hc => hs.avoids hc) hbeside fun c listed hx => hkept c ?_
  rw [hx]
  rfl

/-- A write that is seen in the database only. -/
theorem key_write (db : AgentDb) : ({s with db} : MessageServer).key m =
    {s.key m with
      fate := db.messageRecords.fate m
      stored := db.messageRecords.outcomes m} := rfl

theorem key_receive {i : DeliveryId} {request : MainAgentRequest} {mode : DeliveryMode}
    (hnone : s.deliveries i = none) : ({s with
      deliveries := Function.update s.deliveries i (some ⟨request,mode,.opened⟩)} :
        MessageServer).key m = s.key m := by
  ext1
  · rfl
  · rfl
  · funext j
    change (Function.update s.deliveries i _ j).bind _ = (s.deliveries j).bind _
    by_cases hj : j = i
    · subst hj
      rw [Function.update_self,hnone]
      rfl
    · rw [Function.update_of_ne hj]
  · rfl
  · rfl
  · rfl

/-- Startup fails the message if it is in progress; then it serves, or has raised. -/
theorem start_key {config : ServerConfig} {limit : RecursionLimit} {worker : Option LocalWorker}
    (hs : Watched m s)
    (h : MessageServer.step fingerprint env (.start config limit worker) s = some s') :
    Relation.ReflTransGen (KeyState.Step Shows) (s.key m) (s'.key m) ∧ s'.Tickets m := by
  simp only [MessageServer.step,Option.ite_none_right_eq_some] at h
  obtain ⟨hdown,h⟩ := h
  obtain ⟨hget,houtcomes⟩ := reconcileStartup_records limit worker s.db m
  have hfate := MessageRecords.fate_failed _ hget
  have hrecover : KeyState.Step Shows (s.key m)
      {s.key m with
        fate := (reconcileStartup limit worker s.db).2.messageRecords.fate m
        stored := (reconcileStartup limit worker s.db).2.messageRecords.outcomes m} := by
    rw [hfate,houtcomes]
    exact .recover hdown
  have hnone : ∀ i d a, s.deliveries i = some d → d.phase.ticket = some a →
      a.inputMessageId ≠ m := fun i d a hd ha hm =>
    key_stage hd ha hm (hs.sound.down hdown i)
  split at h
  · rename_i o db hpass
    cases h
    rw [hpass] at hrecover hfate
    refine ⟨.tail (.single hrecover) (.restart hdown fun hpending => ?_),fun j d a hd ha hm =>
      absurd hm (hnone j d a hd ha)⟩
    change db.messageRecords.fate m = _ at hpending
    rw [hpending] at hfate
    cases hold : s.db.messageRecords.fate m <;> rw [hold] at hfate <;> cases hfate
  · rename_i error db hpass
    cases h
    rw [hpass] at hrecover
    exact ⟨.single hrecover,fun j d a hd ha hm => absurd hm (hnone j d a hd ha)⟩

/-- Each step of the server is a step of the key or none, or recovers the key and restarts it. -/
theorem step_key {a : ServerStep} (hs : Watched m s) (hkept : KeepsContextOf m a s)
    (h : MessageServer.step fingerprint env a s = some s') :
    Relation.ReflTransGen (KeyState.Step Shows) (s.key m) (s'.key m) ∧ s'.Tickets m := by
  cases a with
  | receive i request mode =>
    simp only [MessageServer.step,Option.ite_none_right_eq_some,Option.some.injEq] at h
    obtain ⟨⟨_,hnone⟩,rfl⟩ := h
    rw [Option.isNone_iff_eq_none] at hnone
    constructor
    · rw [key_receive hnone]
    · intro j d a hd ha hm c hc
      change Function.update s.deliveries i _ j = some d at hd
      by_cases hj : j = i
      · subst hj
        rw [Function.update_self] at hd
        cases hd
        cases ha
      · rw [Function.update_of_ne hj] at hd
        exact hs.tickets j d a hd ha hm c hc
  | deliver i e =>
    simp only [MessageServer.step,Option.ite_none_right_eq_some,Option.bind_eq_some_iff,
      Option.map_eq_some_iff] at h
    obtain ⟨⟨hup,_⟩,d,hd,r,hr,rfl⟩ := h
    obtain ⟨hkey,htickets⟩ := deliver_key hs hup hd hr
    refine ⟨?_,htickets⟩
    rcases hkey with hkey | hkey
    · rw [hkey]
    · exact .single hkey
  | write x =>
    simp only [MessageServer.step,Option.ite_none_right_eq_some,Option.some.injEq] at h
    obtain ⟨hbeside,rfl⟩ := h
    have hwrite := write_beside fingerprint env hs hkept hbeside
    have hkey := key_write (s := s) (m := m)
      (x.commit ⟨fingerprint,s.config.hasRemoteClient⟩ env s.db)
    cases hwrite with
    | quiet houtcomes hget =>
      rw [houtcomes,MessageRecords.fate_congr hget] at hkey
      rw [hkey]
      refine ⟨.refl,fun j d a hd ha hm c hc => ?_⟩
      rw [MessageRecords.contextOf,hget] at hc
      exact hs.tickets j d a hd ha hm c hc
    | settled c t hfree hfate houtcomes =>
      rw [houtcomes,hfate] at hkey
      rw [hkey]
      exact ⟨.single (.settle hfree (.task c t)),fun j d a hd ha hm =>
        absurd ((hs.sound.free hfree).1 j) (key_stage hd ha hm)⟩
  | crash =>
    cases h
    refine ⟨.single .crash,fun j d a hd => ?_⟩
    cases hd
  | start config limit worker => exact start_key hs h

theorem Watched.step {a : ServerStep} (hs : Watched m s) (hkept : KeepsContextOf m a s)
    (h : MessageServer.step fingerprint env a s = some s') : Watched m s' := by
  obtain ⟨hkey,htickets⟩ := step_key hs hkept h
  exact ⟨KeyState.sound_of_steps hs.sound hkey,htickets⟩

theorem watched_initial (config : ServerConfig) (m : MessageId) :
    Watched m (MessageServer.initial config) := by
  constructor
  · rw [show (MessageServer.initial config).key m = KeyState.start from rfl]
    exact KeyState.start_sound
  · intro i d a hd
    cases hd

/-- A run of the server is a run of the key of each message whose context it keeps. -/
theorem run_key {steps : List ServerStep} (hs : Watched m s)
    (hkept : Guarded (MessageServer.step fingerprint env) (KeepsContextOf m) steps s)
    (h : MessageServer.run fingerprint env steps s = some s') :
    Relation.ReflTransGen (KeyState.Step Shows) (s.key m) (s'.key m) ∧ Watched m s' := by
  induction steps generalizing s with
  | nil =>
    cases h
    exact ⟨.refl,hs⟩
  | cons a steps ih =>
    obtain ⟨s₁,h₁,h₂⟩ := exec_cons_eq_some.mp h
    obtain ⟨hrest,hend⟩ := ih (hs.step hkept.1 h₁) (hkept.2 s₁ h₁) h₂
    exact ⟨(step_key hs hkept.1 h₁).1.trans hrest,hend⟩

/-- No step touches the row of a decided message, but the deletion of its context. -/
theorem step_row {a : ServerStep} {r : MessageIngressRecord} (hs : Watched m s)
    (hkept : KeepsContextOf m a s) (h : MessageServer.step fingerprint env a s = some s')
    (hr : s.db.messageIngress.get m = some r) (hstate : r.state ≠ .inProgress) :
    s'.db.messageIngress.get m = some r := by
  cases a with
  | receive i request mode =>
    simp only [MessageServer.step,Option.ite_none_right_eq_some,Option.some.injEq] at h
    obtain ⟨_,rfl⟩ := h
    exact hr
  | deliver i e =>
    simp only [MessageServer.step,Option.ite_none_right_eq_some,Option.bind_eq_some_iff,
      Option.map_eq_some_iff] at h
    obtain ⟨_,d,_,x,hx,rfl⟩ := h
    exact acts_row (delivery_acts hx) hr hstate
  | write x =>
    simp only [MessageServer.step,Option.ite_none_right_eq_some,Option.some.injEq] at h
    obtain ⟨hbeside,rfl⟩ := h
    have hwrite := write_beside fingerprint env hs hkept hbeside
    cases hwrite with
    | quiet houtcomes hget => exact hget.trans hr
    | settled c t hfree =>
      cases (MessageRecords.fate_free.mp hfree).symm.trans hr
  | crash =>
    cases h
    exact hr
  | start config limit worker =>
    have hget := (reconcileStartup_records limit worker s.db m).1
    rw [show s.db.messageRecords.messageIngress.get m = some r from hr,Option.map_some,
      if_neg hstate] at hget
    simp only [MessageServer.step,Option.ite_none_right_eq_some] at h
    obtain ⟨_,h⟩ := h
    split at h
    all_goals
      rename_i hpass
      cases h
      rw [hpass] at hget
      exact hget

theorem run_row {steps : List ServerStep} {r : MessageIngressRecord} (hs : Watched m s)
    (hkept : Guarded (MessageServer.step fingerprint env) (KeepsContextOf m) steps s)
    (h : MessageServer.run fingerprint env steps s = some s')
    (hr : s.db.messageIngress.get m = some r) (hstate : r.state ≠ .inProgress) :
    s'.db.messageIngress.get m = some r := by
  induction steps generalizing s with
  | nil =>
    cases h
    exact hr
  | cons a steps ih =>
    obtain ⟨s₁,h₁,h₂⟩ := exec_cons_eq_some.mp h
    exact ih (hs.step hkept.1 h₁) (hkept.2 s₁ h₁) h₂ (step_row hs hkept.1 h₁ hr hstate)

end Steps

section Runs

variable {fingerprint : MessageRole → List Json → Json → String} {env : LedgerEnv}
variable {config : ServerConfig} {steps later : List ServerStep} {s s' : MessageServer}
variable {m : MessageId}

/-- However the deliveries of a message, the other writes, crashes and restarts interleave: the
router is asked about it once at most, it is dispatched once at most, and what is committed for it
is the outcome that its row names, or nothing. -/
theorem message_handled_once
    (hkept : Guarded (MessageServer.step fingerprint env) (KeepsContextOf m) steps
      (.initial config))
    (hrun : MessageServer.run fingerprint env steps (.initial config) = some s) :
    s.calls.count (m,.router) ≤ 1 ∧
      (s.calls.countP fun call => call.1 = m ∧ call.2 ≠ .router) ≤ 1 ∧
      (∀ name, s.db.messageRecords.fate m = .done name ↔
        Shows name (s.db.messageRecords.outcomes m)) ∧
      ((∀ name, s.db.messageRecords.fate m ≠ .done name) →
        s.db.messageRecords.outcomes m = 0) := by
  obtain ⟨_,hs⟩ := run_key (watched_initial config m) hkept hrun
  refine ⟨hs.sound.consults,hs.sound.dispatches,fun name => ⟨hs.sound.done name,fun hshows => ?_⟩,
    hs.sound.empty⟩
  by_cases hdone : ∃ n, (s.key m).fate = .done n
  · obtain ⟨n,hn⟩ := hdone
    exact hn.trans (congrArg _ ((hs.sound.done n hn).unique hshows))
  · exact absurd (hs.sound.empty fun n hn => hdone ⟨n,hn⟩) hshows.ne_zero

section Sample

def startSample : ServerStep :=
  .start ⟨false,true⟩ ⟨fun _ => true,fun _ => true⟩ none

/-- A message whose stream makes a task of it, and a duplicate that comes too early. -/
def duplicatedMessage : List ServerStep :=
  [startSample,.receive 0 sampleRequest .stream,.deliver 0 (.prepareRoute "msg-1" "context"),
    .receive 1 sampleRequest .send,.deliver 1 (.prepareRoute "msg-2" "context-2"),
    .deliver 0 .callRouter,.deliver 0 (.decide ⟨.localTask,none,"long work",none,.obj []⟩),
    .deliver 0 (.accept "route-1" "task" "thread")]

/-- The process ends before the stream has told the result; a duplicate comes after the restart. -/
def repeatedMessage : List ServerStep :=
  [.deliver 0 .started,.crash,startSample,.receive 2 sampleRequest .send,
    .deliver 2 (.prepareRoute "msg-3" "context-3")]

def sampleStep : ServerStep → MessageServer → Option MessageServer :=
  MessageServer.step sampleCore.fingerprint sampleEnv

def sampleServer : MessageServer := .initial ⟨false,true⟩

theorem duplicatedMessage_kept :
    Guarded sampleStep (KeepsContextOf "message") (duplicatedMessage++repeatedMessage)
      sampleServer := by
  decide +kernel

theorem duplicatedMessage_runs : ∃ s, exec sampleStep duplicatedMessage sampleServer = some s :=
  Option.isSome_iff_exists.mp (by decide +kernel)

end Sample

theorem message_handled_once_duplicated : ∃ s : MessageServer,
    MessageServer.run sampleCore.fingerprint sampleEnv duplicatedMessage (.initial ⟨false,true⟩) =
        some s ∧
      s.calls.count ("message",.router) ≤ 1 ∧
      (s.calls.countP fun call => call.1 = "message" ∧ call.2 ≠ .router) ≤ 1 ∧
      (∀ name, s.db.messageRecords.fate "message" = .done name ↔
        Shows name (s.db.messageRecords.outcomes "message")) ∧
      ((∀ name, s.db.messageRecords.fate "message" ≠ .done name) →
        s.db.messageRecords.outcomes "message" = 0) := by
  obtain ⟨s,hs⟩ := duplicatedMessage_runs
  exact ⟨s,hs,message_handled_once (guarded_append.mp duplicatedMessage_kept).1 hs⟩

/-- Whatever happens later: the row of a decided message stays as it is, nothing more is
committed for the message and nobody is called about it again. -/
theorem message_decided_once {r : MessageIngressRecord}
    (hkept : Guarded (MessageServer.step fingerprint env) (KeepsContextOf m) (steps++later)
      (.initial config))
    (hrun : MessageServer.run fingerprint env steps (.initial config) = some s)
    (hlater : MessageServer.run fingerprint env later s = some s')
    (hr : s.db.messageIngress.get m = some r) (hstate : r.state ≠ .inProgress) :
    s'.db.messageIngress.get m = some r ∧
      s'.db.messageRecords.outcomes m = s.db.messageRecords.outcomes m ∧
      s'.calls.count (m,.router) = s.calls.count (m,.router) ∧
      (s'.calls.countP fun call => call.1 = m ∧ call.2 ≠ .router) =
        s.calls.countP fun call => call.1 = m ∧ call.2 ≠ .router := by
  obtain ⟨hbefore,hafter⟩ := guarded_append.mp hkept
  obtain ⟨_,hs⟩ := run_key (watched_initial config m) hbefore hrun
  obtain ⟨hkey,_⟩ := run_key hs (hafter s hrun) hlater
  have hdecided : (s.key m).fate.decided = true := by
    change (s.db.messageRecords.fate m).decided = true
    rw [MessageRecords.fate,show s.db.messageRecords.messageIngress.get m = some r from hr]
    cases hr' : r.state with
    | inProgress => exact absurd hr' hstate
    | resolved | failed =>
      simp only [hr']
      rfl
  exact ⟨run_row hs (hafter s hrun) hlater hr hstate,
    KeyState.settled_of_steps hs.sound hdecided hkey⟩

theorem message_decided_once_repeated : ∃ (s s' : MessageServer) (r : MessageIngressRecord),
    MessageServer.run sampleCore.fingerprint sampleEnv duplicatedMessage (.initial ⟨false,true⟩) =
        some s ∧
      MessageServer.run sampleCore.fingerprint sampleEnv repeatedMessage s = some s' ∧
      s.db.messageIngress.get "message" = some r ∧ r.state = .resolved ∧
      s'.db.messageIngress.get "message" = some r ∧
      s'.db.messageRecords.outcomes "message" = s.db.messageRecords.outcomes "message" ∧
      s'.calls.count ("message",.router) = s.calls.count ("message",.router) ∧
      (s'.calls.countP fun call => call.1 = "message" ∧ call.2 ≠ .router) =
        s.calls.countP fun call => call.1 = "message" ∧ call.2 ≠ .router := by
  obtain ⟨s,hs⟩ := duplicatedMessage_runs
  obtain ⟨s',hs'⟩ : ∃ s', exec sampleStep repeatedMessage s = some s' := by
    have hall :
        (exec sampleStep (duplicatedMessage++repeatedMessage) sampleServer).isSome = true := by
      decide +kernel
    rw [exec_append,hs] at hall
    exact Option.isSome_iff_exists.mp hall
  have hrow : ((exec sampleStep duplicatedMessage sampleServer).bind fun s =>
      s.db.messageIngress.get "message").map (·.state) = some .resolved := by
    decide +kernel
  rw [hs] at hrow
  obtain ⟨r,hr,hstate⟩ := Option.map_eq_some_iff.mp hrow
  exact ⟨s,s',r,hs,hs',hr,hstate,message_decided_once duplicatedMessage_kept hs hs' hr
    (by simp [hstate])⟩

end Runs
end VermayAgent
