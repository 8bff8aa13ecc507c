import VermayAgent.MessageRecords
import VermayAgent.StartupReconciliation
import VermayAgent.Library.IdempotencyKey
import VermayAgent.Library.Transition

/-! Deliveries of top-level messages to one store.
A delivery is a call of `message/send` or the generator of `message/stream`. Its step is one
transaction, or the answer of something that it called; a generator is suspended where it
yields and can be closed there. Deliveries, the other writes of the application, crashes and
restarts interleave in any order. -/
namespace VermayAgent
open Library Txn MainAgentStore

abbrev DeliveryId := Nat

inductive DeliveryMode where
  | send | stream
deriving DecidableEq

/-- The message that a delivery was admitted for. -/
structure AdmittedMessage where
  contextId : ContextId
  inputMessageId : MessageId
deriving DecidableEq

/-- The work that a message can cause: the routing, and one way of answering it. -/
inductive IngressCall where
  | router | responder | acceptance | remoteSend
deriving DecidableEq

inductive DeliveryEnd where
  | returned (result : MainAgentResult)
  | raised (error : PyException)
  | closed
deriving DecidableEq

/-- The local variables of `_stream_local_message`. -/
structure DirectStream where
  message : AdmittedMessage
  decisionId : String
  assistantMessageId : MessageId
  fullText : String
  sequence : Nat
deriving DecidableEq

structure LocalMessageDelta where
  contextId : ContextId
  messageId : MessageId
  inputMessageId : MessageId
  routeDecisionId : String
  text : String
  sequence : Nat
deriving DecidableEq

def DirectStream.delta (s : DirectStream) (text : String) : LocalMessageDelta :=
  ⟨s.message.contextId,s.assistantMessageId,s.message.inputMessageId,s.decisionId,text,s.sequence⟩

/-- Where a delivery stands, with what it still needs. -/
inductive DeliveryPhase where
  | opened
  | admitted (message : AdmittedMessage)
  | routing (message : AdmittedMessage)
  | routed (message : AdmittedMessage) (route : MainAgentRouteDecision)
  | targeted (message : AdmittedMessage) (route : MainAgentRouteDecision) (targetAgentId : AgentId)
  | recorded (message : AdmittedMessage) (decisionId : String) (targetAgentId : Option AgentId)
  | responding (message : AdmittedMessage) (decisionId : String)
  | streaming (stream : DirectStream)
  | delivering (stream : DirectStream) (text : String)
  | responded (message : AdmittedMessage) (decisionId : String) (parts : List Json)
      (assistantMessageId : Option MessageId)
  | sending (message : AdmittedMessage) (decisionId : String) (targetAgentId : AgentId)
  | sent (message : AdmittedMessage) (decisionId : String) (targetAgentId : AgentId)
      (remote : RemoteAgentSendResult)
  | accepted (message : AdmittedMessage) (result : MainAgentResult)
  | committed (message : AdmittedMessage) (result : MainAgentResult)
  | failing (message : AdmittedMessage) (error : PyException) (last : DeliveryEnd)
  | replaying (result : MainAgentResult)
  | ended (last : DeliveryEnd)

structure Delivery where
  request : MainAgentRequest
  mode : DeliveryMode
  phase : DeliveryPhase

/-- The identifiers drawn for an outcome. -/
structure OutcomeIds where
  messageId : MessageId
  delegationId : String
  taskId : TaskId
  threadId : ThreadId

/-- What happens next in a delivery, with what the outside answers or draws. -/
inductive DeliveryEvent where
  | prepareRoute (newMessageId : MessageId) (newContextId : ContextId)
  | callRouter
  | decide (route : MainAgentRouteDecision)
  | checkTarget
  | recordRoute (newDecisionId : String)
  | accept (newDecisionId : String) (newTaskId : TaskId) (newThreadId : ThreadId)
  | call (assistantMessageId : MessageId)
  | respond (parts : List Json)
  | next (delta : Option String)
  | exhaust
  | answer (remote : RemoteAgentSendResult)
  | complete (ids : OutcomeIds)
  | started
  | fail (error : PyException)
  | recordFailure
  | resume
  | close

/-- `MainAgentStreamResult`: what a suspended generator has yielded. -/
inductive MainAgentStreamResult where
  | delta (delta : LocalMessageDelta)
  | result (result : MainAgentResult)
deriving DecidableEq

namespace DeliveryPhase

/-- The message that the delivery was admitted for. -/
def ticket : DeliveryPhase → Option AdmittedMessage
  | opened | replaying _ | ended _ => none
  | admitted a | routing a | routed a _ | targeted a _ _ | recorded a _ _ | responding a _
  | responded a _ _ _ | sending a _ _ | sent a _ _ _ | accepted a _ | committed a _
  | failing a _ _ => some a
  | streaming s | delivering s _ => some s.message

/-- The message of a delivery that is inside foreign code, where anything may be raised. -/
def foreign : DeliveryPhase → Option AdmittedMessage
  | admitted a | routing a | recorded a _ _ | responding a _ | sending a _ _ | accepted a _ => some a
  | streaming s => some s.message
  | _ => none

/-- The yield at which a generator is suspended. -/
def yielded : DeliveryPhase → Option MainAgentStreamResult
  | delivering s text => some (.delta (s.delta text))
  | committed _ result | replaying result => some (.result result)
  | _ => none

end DeliveryPhase

/-- What a restarted process is configured with. -/
structure ServerConfig where
  hasRemoteClient : Bool
  respondsIncrementally : Bool
deriving DecidableEq

namespace MainAgentCore

/-- The checks of `_handle_remote_agent` before it delegates. -/
def checkTarget (hasRemoteClient : Bool) (route : MainAgentRouteDecision) : StoreTxn AgentId := do
  let targetAgentId ← orFail route.targetAgentId
    (.valueError "remote_agent route requires metadata.targetAgentId")
  let agent ← orFail (← getRegisteredAgent targetAgentId)
    (.valueError ("unknown registered agent: " ++ targetAgentId))
  require (agent.enabled = true) (.valueError ("registered agent is disabled: " ++ targetAgentId))
  require (hasRemoteClient = true) (.valueError "remote_agent client is not configured")
  return targetAgentId

end MainAgentCore

/-- The phase after one event, the database and the calls that it made. -/
abbrev DeliveryStep := DeliveryPhase × AgentDb × List (MessageId × IngressCall)

namespace Delivery

open MainAgentCore

/-- A transaction of an admitted delivery; where it raises, the failure is recorded next. -/
def transact {α : Type} (message : AdmittedMessage) (x : StoreTxn α) (next : α → DeliveryPhase)
    (db : AgentDb) : DeliveryPhase × AgentDb :=
  match x.run db with
  | .ok (r,db') => (next r,db')
  | .error error => (.failing message error (.raised error),db)

variable (fingerprint : MessageRole → List Json → Json → String) (config : ServerConfig)

/-- The admission: `_prepare_message_route` up to the commit of its transaction. -/
def prepareRoute (request : MainAgentRequest) (newMessageId : MessageId) (newContextId : ContextId)
    (db : AgentDb) : DeliveryPhase × AgentDb :=
  match (prepareMessage ⟨fingerprint,config.hasRemoteClient⟩ request newMessageId newContextId).run
    db with
  | .ok (.existing result,db') => (.replaying result,db')
  | .ok (.admitted contextId messageId,db') => (.admitted ⟨contextId,messageId⟩,db')
  | .error error => (.ended (.raised error),db)

/-- The outcome of a remote agent's answer. -/
def completeRemote (a : AdmittedMessage) (decisionId : String) (targetAgentId : AgentId)
    (remote : RemoteAgentSendResult) (ids : OutcomeIds) (db : AgentDb) :
    DeliveryPhase × AgentDb :=
  if remote.kind = "message" then
    transact a (completeRemoteMessage a.contextId a.inputMessageId ids.messageId decisionId
        ids.delegationId targetAgentId remote)
      (fun message => .committed a (.remoteAgent a.contextId a.inputMessageId targetAgentId decisionId
        ids.delegationId (some message.messageId) none message.parts)) db
  else if remote.kind = "task" then
    transact a (completeRemoteTask a.contextId a.inputMessageId decisionId ids.delegationId
        targetAgentId remote ids.taskId ids.threadId)
      (fun task => .committed a (.remoteAgent a.contextId a.inputMessageId targetAgentId decisionId
        ids.delegationId none (some task.taskId) [])) db
  else
    let error := .valueError ("unsupported remote agent result kind: " ++ remote.kind)
    (.failing a error (.raised error),db)

instance (db : AgentDb) (id : MessageId) : Decidable (db.Unanswered id) :=
  decidable_of_iff ((db.messages.get id).all fun r => r.role = .user)
    (by simp [AgentDb.Unanswered,Option.all_eq_true])

/-- `_admit_message` and `_stream_admitted_message`, one event at a time. -/
def act (d : Delivery) (db : AgentDb) : DeliveryEvent → Option DeliveryStep
  | .prepareRoute newMessageId newContextId =>
    match d.phase with
    | .opened =>
      let r := prepareRoute fingerprint config d.request newMessageId newContextId db
      some (r.1,r.2,[])
    | _ => none
  | .callRouter =>
    match d.phase with
    | .admitted a => some (.routing a,db,[(a.inputMessageId,.router)])
    | _ => none
  | .decide route =>
    match d.phase with
    | .routing a => some (.routed a route,db,[])
    | _ => none
  | .checkTarget =>
    match d.phase with
    | .routed a route =>
      if route.kind = .remoteAgent then
        let r := transact a (checkTarget config.hasRemoteClient route) (.targeted a route) db
        some (r.1,r.2,[])
      else none
    | _ => none
  | .recordRoute newDecisionId =>
    let record := fun (a : AdmittedMessage) route targetAgentId =>
      let r := transact a
        (recordMessageIngressRoute a.contextId a.inputMessageId route newDecisionId)
        (fun decision => .recorded a decision.decisionId targetAgentId) db
      some (r.1,r.2,[])
    match d.phase with
    | .routed a route => if route.kind = .localMessage then record a route none else none
    | .targeted a route targetAgentId => record a route (some targetAgentId)
    | _ => none
  | .accept newDecisionId newTaskId newThreadId =>
    match d.phase with
    | .routed a route =>
      if route.kind = .localTask then
        let r := transact a (acceptLocalTask a.contextId a.inputMessageId route newDecisionId
            newTaskId newThreadId)
          (fun accepted => .accepted a (.localTask a.contextId accepted.2.taskId a.inputMessageId
            accepted.1.decisionId)) db
        some (r.1,r.2,[(a.inputMessageId,.acceptance)])
      else none
    | _ => none
  | .call assistantMessageId =>
    match d.phase with
    | .recorded a decisionId none =>
      if d.mode = .stream ∧ config.respondsIncrementally = true then
        some (.streaming ⟨a,decisionId,assistantMessageId,"",0⟩,db,[(a.inputMessageId,.responder)])
      else
        some (.responding a decisionId,db,[(a.inputMessageId,.responder)])
    | .recorded a decisionId (some targetAgentId) =>
      some (.sending a decisionId targetAgentId,db,[(a.inputMessageId,.remoteSend)])
    | _ => none
  | .respond parts =>
    match d.phase with
    | .responding a decisionId => some (.responded a decisionId parts none,db,[])
    | _ => none
  | .next delta =>
    match d.phase with
    | .streaming s =>
      match nonEmpty delta with
      | none => some (.streaming s,db,[])
      | some text => some (.delivering {s with
          fullText := s.fullText ++ text
          sequence := s.sequence+1} text,db,[])
    | _ => none
  | .exhaust =>
    match d.phase with
    | .streaming s => some (.responded s.message s.decisionId
        [.obj [("kind",.str "text"),("text",.str s.fullText)]] (some s.assistantMessageId),db,[])
    | _ => none
  | .answer remote =>
    match d.phase with
    | .sending a decisionId targetAgentId => some (.sent a decisionId targetAgentId remote,db,[])
    | _ => none
  | .complete ids =>
    match d.phase with
    | .responded a decisionId parts assistantMessageId =>
      let newMessageId := assistantMessageId.getD ids.messageId
      if db.Unanswered newMessageId then
        let r := transact a (completeLocalMessage a.contextId a.inputMessageId newMessageId decisionId
            parts)
          (fun message => .committed a (.localMessage a.contextId message.messageId a.inputMessageId
            decisionId message.parts)) db
        some (r.1,r.2,[])
      else none
    | .sent a decisionId targetAgentId remote =>
      if db.Unanswered ids.messageId then
        let r := completeRemote a decisionId targetAgentId remote ids db
        some (r.1,r.2,[])
      else none
    | _ => none
  | .started =>
    match d.phase with
    | .accepted a result => some (.committed a result,db,[])
    | _ => none
  | .fail error => d.phase.foreign.map fun a => (.failing a error (.raised error),db,[])
  | .recordFailure =>
    match d.phase with
    | .failing a error last =>
      match (recordMessageIngressFailure a.inputMessageId error).run db with
      | .ok (_,db') => some (.ended last,db',[])
      | .error error => some (.ended (.raised error),db,[])
    | _ => none
  | .resume =>
    match d.phase with
    | .delivering s _ => some (.streaming s,db,[])
    | .committed _ result | .replaying result => some (.ended (.returned result),db,[])
    | _ => none
  | .close =>
    if d.mode = .stream then
      match d.phase with
      | .opened | .replaying _ => some (.ended .closed,db,[])
      | .delivering s _ => some (.failing s.message .messageStreamAborted .closed,db,[])
      | .committed a _ => some (.failing a .messageStreamAborted .closed,db,[])
      | _ => none
    else none

end Delivery

namespace DeliveryPhase

/-- The delivery as the holder of its message. -/
def stage : DeliveryPhase → Option HolderStage
  | opened | replaying _ | ended _ => none
  | admitted _ => some .claimed
  | routing _ => some .consulting
  | routed _ _ | targeted _ _ _ => some .consulted
  | recorded _ _ _ => some .prepared
  | responding _ _ | streaming _ | delivering _ _ | responded _ _ _ _ | sending _ _ _
  | sent _ _ _ _ => some .dispatched
  | accepted _ _ | committed _ _ => some .finished
  | failing _ _ _ => some .failing

/-- The recorded route decision, with the agent that it delegates to. -/
def decision : DeliveryPhase → Option (String × Option AgentId)
  | recorded _ decisionId targetAgentId => some (decisionId,targetAgentId)
  | responding _ decisionId | responded _ decisionId _ _ => some (decisionId,none)
  | streaming s | delivering s _ => some (s.decisionId,none)
  | sending _ decisionId targetAgentId | sent _ decisionId targetAgentId _ =>
    some (decisionId,some targetAgentId)
  | _ => none

/-- The route of a delivery that has checked its target. -/
def delegates : DeliveryPhase → Option MainAgentRouteDecision
  | targeted _ route _ => some route
  | _ => none

/-- The committed result. -/
def result : DeliveryPhase → Option MainAgentResult
  | accepted _ result | committed _ result => some result
  | _ => none

end DeliveryPhase

/-- The part of the request's metadata that is checked without the store. -/
def SupportedRoute (metadata : Json) : Prop :=
  (if (metadata.member "executionMode").truthy then metadata.member "executionMode"
    else .str "auto") ∈ [Json.str "auto",.str "message",.str "task"]

/-- What one event of a delivery does, in the words of the rows of messages. -/
inductive Acts (core : CoreEnv) (request : MainAgentRequest) : DeliveryPhase → MessageRecords →
    DeliveryPhase → MessageRecords → List (MessageId × IngressCall) → Prop where
  | admits {s s' a newContextId} (hrole : request.role = .user)
      (hmode : SupportedRoute request.metadata)
      (hid : ∀ m, nonEmpty request.messageId = some m → a.inputMessageId = m)
      (hadmits : Admits core request a.inputMessageId a.contextId newContextId s s') :
    Acts core request .opened s (.admitted a) s' []
  | quiet {s p p'} (hticket : p'.ticket = p.ticket) (hstage : p'.stage = p.stage)
      (hdecision : p'.decision = p.decision) (hresult : p'.result = p.result)
      (hdelegates : p'.delegates = none) : Acts core request p s p' s []
  | routes {s a} :
    Acts core request (.admitted a) s (.routing a) s [(a.inputMessageId,.router)]
  | decides {s a route} : Acts core request (.routing a) s (.routed a route) s []
  | targets {s a route targetAgentId} (hkind : route.kind = .remoteAgent) :
    Acts core request (.routed a route) s (.targeted a route targetAgentId) s []
  | records {s p a route target newDecisionId routeDecisions} (hticket : p.ticket = some a)
      (hstage : p.stage = some .consulted) (hlocal : target = none → route.kind = .localMessage)
      (hremote : target ≠ none → p.delegates = some route)
      (hcontext : a.contextId ∈ s.contexts)
      (hrow : ∃ r, s.messageIngress.get a.inputMessageId = some r ∧ r.state = .inProgress)
      (hinsert : s.routeDecisions.insert?
        (route.record newDecisionId a.contextId a.inputMessageId) = some routeDecisions) :
    Acts core request p s (.recorded a newDecisionId target)
      (MessageRecords.routeIngress {s with routeDecisions} a.inputMessageId newDecisionId) []
  | accepts {s a route newDecisionId taskId routeDecisions origin}
      (hkind : route.kind = .localTask) (hcontext : a.contextId ∈ s.contexts)
      (hrow : ∃ r, s.messageIngress.get a.inputMessageId = some r ∧ r.state = .inProgress)
      (hinsert : s.routeDecisions.insert?
        (route.record newDecisionId a.contextId a.inputMessageId) = some routeDecisions)
      (htask : origin.taskId = taskId) (horigin : origin.contextId = a.contextId)
      (hinput : origin.inputMessageId = a.inputMessageId) :
    Acts core request (.routed a route) s
      (.accepted a (.localTask a.contextId taskId a.inputMessageId newDecisionId))
      (MessageRecords.resolveIngress
        {MessageRecords.routeIngress {s with routeDecisions} a.inputMessageId newDecisionId with
          tasks := s.tasks++[origin]} a.inputMessageId .task taskId) [(a.inputMessageId,.acceptance)]
  | acceptFails {s a route error} :
    Acts core request (.routed a route) s (.failing a error (.raised error)) s
      [(a.inputMessageId,.acceptance)]
  | dispatches {s p p' a call} (hticket : p.ticket = some a) (hticket' : p'.ticket = some a)
      (hstage : p.stage = some .prepared) (hstage' : p'.stage = some .dispatched)
      (hdecision : p'.decision = p.decision) (hcall : call ≠ .router) :
    Acts core request p s p' s [(a.inputMessageId,call)]
  | answers {s p a decisionId r messages} (hticket : p.ticket = some a)
      (hstage : p.stage = some .dispatched) (hdecision : p.decision = some (decisionId,none))
      (hreply : IsReply a.inputMessageId a.contextId r) (hcontext : a.contextId ∈ s.contexts)
      (hrow : ∃ r, s.messageIngress.get a.inputMessageId = some r ∧ r.state = .inProgress)
      (hinsert : s.messages.insert? r = some messages) :
    Acts core request p s
      (.committed a (.localMessage a.contextId r.messageId a.inputMessageId decisionId r.parts))
      (MessageRecords.resolveIngress {s with messages} a.inputMessageId .message r.messageId) []
  | delegatesMessage {s p a decisionId targetAgentId r messages delegation delegatedTasks}
      (hticket : p.ticket = some a) (hstage : p.stage = some .dispatched)
      (hdecision : p.decision = some (decisionId,some targetAgentId))
      (hreply : IsReply a.inputMessageId a.contextId r) (hcontext : a.contextId ∈ s.contexts)
      (hrow : ∃ r, s.messageIngress.get a.inputMessageId = some r ∧ r.state = .inProgress)
      (hinsert : s.messages.insert? r = some messages)
      (hdelegation : s.delegatedTasks.insert? delegation = some delegatedTasks)
      (hcontextId : delegation.contextId = a.contextId)
      (hinput : delegation.inputMessageId = a.inputMessageId)
      (hagent : delegation.remoteAgentId = targetAgentId)
      (htask : delegation.localTaskId = none) (hkind : delegation.resultKind = "message")
      (hmetadata : delegation.metadata = .obj [("localMessageId",.str r.messageId)]) :
    Acts core request p s
      (.committed a (.remoteAgent a.contextId a.inputMessageId targetAgentId decisionId
        delegation.delegationId (some r.messageId) none r.parts))
      (MessageRecords.resolveIngress
        {s with
          messages
          delegatedTasks} a.inputMessageId .delegation delegation.delegationId) []
  | delegatesTask {s p a decisionId targetAgentId taskId origin delegation delegatedTasks}
      (hticket : p.ticket = some a) (hstage : p.stage = some .dispatched)
      (hdecision : p.decision = some (decisionId,some targetAgentId))
      (hcontext : a.contextId ∈ s.contexts)
      (hrow : ∃ r, s.messageIngress.get a.inputMessageId = some r ∧ r.state = .inProgress)
      (htask : origin.taskId = taskId) (horigin : origin.contextId = a.contextId)
      (hinput : origin.inputMessageId = a.inputMessageId)
      (hdelegation : s.delegatedTasks.insert? delegation = some delegatedTasks)
      (hcontextId : delegation.contextId = a.contextId)
      (hinput' : delegation.inputMessageId = a.inputMessageId)
      (hagent : delegation.remoteAgentId = targetAgentId)
      (hlocal : delegation.localTaskId = some taskId) (hkind : delegation.resultKind = "task") :
    Acts core request p s
      (.committed a (.remoteAgent a.contextId a.inputMessageId targetAgentId decisionId
        delegation.delegationId none (some taskId) []))
      (MessageRecords.resolveIngress
        {s with
          tasks := s.tasks++[origin]
          delegatedTasks} a.inputMessageId .delegation delegation.delegationId) []
  | fails {s p a error last} (hticket : p.ticket = some a) :
    Acts core request p s (.failing a error last) s []
  | recordsFailure {s a error last} (ingressError : IngressError) :
    Acts core request (.failing a error last) s (.ended last)
      (s.failIngress a.inputMessageId ingressError) []
  | failureUnrecorded {s a error last last'}
      (hnone : s.messageIngress.get a.inputMessageId = none) :
    Acts core request (.failing a error last) s (.ended last') s []
  | finishes {s a result last} :
    Acts core request (.committed a result) s (.ended last) s []

namespace Delivery

open MainAgentCore

variable {core : CoreEnv} {request : MainAgentRequest} {db db' : AgentDb} {a : AdmittedMessage}
variable {p p' : DeliveryPhase} {calls : List (MessageId × IngressCall)}

/-- A transaction of a delivery commits, or the delivery fails with the error it raised. -/
theorem transact_cases {α : Type} {x : StoreTxn α} {next : α → DeliveryPhase}
    (h : transact a x next db = (p',db')) :
    (∃ r, x.run db = .ok (r,db') ∧ p' = next r) ∨
      ∃ error, p' = .failing a error (.raised error) ∧ db' = db := by
  unfold transact at h
  cases hx : x.run db with
  | ok r =>
    rw [hx] at h
    cases h
    exact .inl ⟨r.1,rfl,rfl⟩
  | error error =>
    rw [hx] at h
    cases h
    exact .inr ⟨error,rfl,rfl⟩

theorem checkTarget_reads {hasRemoteClient : Bool} {route : MainAgentRouteDecision}
    {agentId : AgentId} (h : (checkTarget hasRemoteClient route).run db = .ok (agentId,db')) :
    db' = db := by
  have hkeeps : Keeps id (checkTarget hasRemoteClient route) :=
    .bind (.orFail _ _) fun _ => .bind (.select _) fun _ => .bind (.orFail _ _) fun _ =>
      .bind (.require _ _) fun _ => .bind (.require _ _) fun _ => .pure _
  exact hkeeps _ _ _ h

theorem validateExplicitRouteMetadata_mode {env : CoreEnv} {metadata : Json} {u : Unit}
    (h : (validateExplicitRouteMetadata env metadata).run db = .ok (u,db')) :
    SupportedRoute metadata := by
  simp only [validateExplicitRouteMetadata,bind_ok,require_ok] at h
  obtain ⟨_,_,⟨hmode,_⟩,_⟩ := h
  exact hmode

variable {fingerprint : MessageRole → List Json → Json → String} {config : ServerConfig}
variable {d : Delivery} {e : DeliveryEvent}

theorem admit_acts {newMessageId : MessageId} {newContextId : ContextId}
    (h : prepareRoute fingerprint config request newMessageId newContextId db = (p',db')) :
    Acts ⟨fingerprint,config.hasRemoteClient⟩ request .opened db.messageRecords p'
      db'.messageRecords [] := by
  unfold prepareRoute at h
  cases hx : (prepareMessage ⟨fingerprint,config.hasRemoteClient⟩ request newMessageId
      newContextId).run db with
  | error error =>
    rw [hx] at h
    cases h
    exact .quiet rfl rfl rfl rfl rfl
  | ok r =>
    rw [hx] at h
    obtain ⟨prepared,db₁⟩ := r
    cases prepared with
    | existing result =>
      cases h
      rw [prepareMessage_existing hx]
      exact .quiet rfl rfl rfl rfl rfl
    | admitted c m =>
      cases h
      obtain ⟨hrole,hm,hroute,hadmits⟩ := prepareMessage_admitted hx
      refine .admits hrole (validateExplicitRouteMetadata_mode hroute) (fun m' hm' => ?_) hadmits
      rw [hm,hm']
      rfl

theorem checkTarget_acts {hasRemoteClient : Bool} {route : MainAgentRouteDecision}
    (hkind : route.kind = .remoteAgent)
    (h : transact a (checkTarget hasRemoteClient route) (.targeted a route) db = (p',db')) :
    Acts core request (.routed a route) db.messageRecords p' db'.messageRecords [] := by
  rcases transact_cases h with ⟨agentId,hx,rfl⟩ | ⟨error,rfl,rfl⟩
  · rw [checkTarget_reads hx]
    exact .targets hkind
  · exact .fails rfl

theorem recordRoute_acts {route : MainAgentRouteDecision} {target : Option AgentId}
    {newDecisionId : String} (hticket : p.ticket = some a) (hstage : p.stage = some .consulted)
    (hlocal : target = none → route.kind = .localMessage)
    (hremote : target ≠ none → p.delegates = some route)
    (h : transact a (recordMessageIngressRoute a.contextId a.inputMessageId route newDecisionId)
      (fun decision => .recorded a decision.decisionId target) db = (p',db')) :
    Acts core request p db.messageRecords p' db'.messageRecords [] := by
  rcases transact_cases h with ⟨decision,hx,rfl⟩ | ⟨error,rfl,rfl⟩
  · obtain ⟨rfl,hcontext,hrow,routeDecisions,hinsert,hrecords⟩ :=
      recordMessageIngressRoute_records hx
    rw [hrecords]
    exact .records hticket hstage hlocal hremote hcontext hrow hinsert
  · exact .fails hticket

theorem accept_acts {route : MainAgentRouteDecision} {newDecisionId : String}
    {newTaskId : TaskId} {newThreadId : ThreadId}
    (h : transact a (acceptLocalTask a.contextId a.inputMessageId route newDecisionId newTaskId
        newThreadId)
      (fun accepted => .accepted a (.localTask a.contextId accepted.2.taskId a.inputMessageId
        accepted.1.decisionId)) db = (p',db')) :
    Acts core request (.routed a route) db.messageRecords p' db'.messageRecords
      [(a.inputMessageId,.acceptance)] := by
  rcases transact_cases h with ⟨⟨decision,task⟩,hx,rfl⟩ | ⟨error,rfl,rfl⟩
  · obtain ⟨rfl,hkind,hid,hcontext,hrow,routeDecisions,origin,hinsert,htask,horigin,hinput,
      hrecords⟩ := acceptLocalTaskFromMessage_records hx
    rw [hrecords,show task.taskId = newTaskId from hid]
    exact .accepts hkind hcontext hrow hinsert htask horigin hinput
  · exact .acceptFails

theorem completeLocal_acts {decisionId : String} {parts : List Json} {id : MessageId}
    (hticket : p.ticket = some a) (hstage : p.stage = some .dispatched)
    (hdecision : p.decision = some (decisionId,none)) (hdrawn : db.Unanswered id)
    (h : transact a (completeLocalMessage a.contextId a.inputMessageId id decisionId parts)
      (fun message => .committed a (.localMessage a.contextId message.messageId a.inputMessageId
        decisionId message.parts)) db = (p',db')) :
    Acts core request p db.messageRecords p' db'.messageRecords [] := by
  rcases transact_cases h with ⟨r,hx,rfl⟩ | ⟨error,rfl,rfl⟩
  · obtain ⟨rfl,_,hreply,hcontext,hrow,messages,hinsert,hrecords⟩ :=
      completeLocalMessage_records hdrawn hx
    rw [hrecords]
    exact .answers hticket hstage hdecision hreply hcontext hrow hinsert
  · exact .fails hticket

theorem completeRemote_acts {decisionId : String} {targetAgentId : AgentId}
    {remote : RemoteAgentSendResult} {ids : OutcomeIds} (hdrawn : db.Unanswered ids.messageId)
    (h : completeRemote a decisionId targetAgentId remote ids db = (p',db')) :
    Acts core request (.sent a decisionId targetAgentId remote) db.messageRecords p'
      db'.messageRecords [] := by
  unfold completeRemote at h
  split at h
  · rcases transact_cases h with ⟨r,hx,rfl⟩ | ⟨error,rfl,rfl⟩
    · obtain ⟨hid,_,hreply,hcontext,hrow,messages,delegation,delegatedTasks,hinsert,hdelegation,
        hdelegationId,hcontextId,hinput,hagent,htask,hkind,hmetadata,hrecords⟩ :=
        completeRemoteMessage_records hdrawn hx
      rw [hrecords,← hdelegationId]
      rw [← hid] at hmetadata
      exact .delegatesMessage rfl rfl rfl hreply hcontext hrow hinsert hdelegation hcontextId hinput
        hagent htask hkind hmetadata
    · exact .fails rfl
  · split at h
    · rcases transact_cases h with ⟨task,hx,rfl⟩ | ⟨error,rfl,rfl⟩
      · obtain ⟨hid,hcontext,hinput,hmem,hrow,delegation,delegatedTasks,hdelegation,hdelegationId,
          hcontextId,hinput',hagent,hlocal,hkind,hrecords⟩ := completeRemoteTask_records hx
        rw [hrecords,← hdelegationId,hid]
        exact .delegatesTask rfl rfl rfl hmem hrow hid hcontext hinput hdelegation hcontextId hinput'
          hagent hlocal hkind
      · exact .fails rfl
    · cases h
      exact .fails rfl

theorem recordFailure_acts {error : PyException} {last : DeliveryEnd}
    {r : MessageIngressRecord}
    (h : (recordMessageIngressFailure a.inputMessageId error).run db = .ok (r,db')) :
    Acts core request (.failing a error last) db.messageRecords (.ended last) db'.messageRecords
      [] := by
  rw [failMessageIngress_records h]
  exact .recordsFailure _

/-- The failure of a message without a reservation is not recorded. -/
theorem recordFailure_error {m : MessageId} {error error' : PyException}
    (h : (recordMessageIngressFailure m error).run db = .error error') :
    db.messageRecords.messageIngress.get m = none := by
  cases hr : db.messageIngress.get m with
  | none => exact hr
  | some r =>
    simp [recordMessageIngressFailure,failMessageIngress,updateInProgressIngress,getMessageIngress,
      run_bind,Table.get_update,hr,orFail] at h

/-- What an event of a delivery does. -/
theorem act_acts (h : d.act fingerprint config db e = some (p',db',calls)) :
    Acts ⟨fingerprint,config.hasRemoteClient⟩ d.request d.phase db.messageRecords p'
      db'.messageRecords calls := by
  obtain ⟨request,mode,phase⟩ := d
  cases e with
  | prepareRoute newMessageId newContextId =>
    cases phase <;> simp only [act,Option.some.injEq,Prod.mk.injEq,reduceCtorEq] at h
    obtain ⟨rfl,rfl,rfl⟩ := h
    exact admit_acts rfl
  | callRouter =>
    cases phase <;> simp only [act,Option.some.injEq,Prod.mk.injEq,reduceCtorEq] at h
    obtain ⟨rfl,rfl,rfl⟩ := h
    exact .routes
  | decide route =>
    cases phase <;> simp only [act,Option.some.injEq,Prod.mk.injEq,reduceCtorEq] at h
    obtain ⟨rfl,rfl,rfl⟩ := h
    exact .decides
  | checkTarget =>
    cases phase <;> simp only [act,reduceCtorEq] at h
    split at h
    · rename_i hkind
      cases h
      exact checkTarget_acts hkind rfl
    · cases h
  | recordRoute newDecisionId =>
    cases phase <;> simp only [act,Option.some.injEq,Prod.mk.injEq,reduceCtorEq] at h
    · split at h
      · rename_i hkind
        cases h
        exact recordRoute_acts rfl rfl (fun _ => hkind) (fun hne => absurd rfl hne) rfl
      · cases h
    · obtain ⟨rfl,rfl,rfl⟩ := h
      exact recordRoute_acts rfl rfl (fun hne => by cases hne) (fun _ => rfl) rfl
  | accept newDecisionId newTaskId newThreadId =>
    cases phase <;> simp only [act,reduceCtorEq] at h
    split at h
    · cases h
      exact accept_acts rfl
    · cases h
  | call assistantMessageId =>
    cases phase <;> simp only [act,reduceCtorEq] at h
    rename_i a decisionId target
    cases target with
    | none =>
      simp only at h
      split at h
      · cases h
        exact .dispatches rfl rfl rfl rfl rfl (by decide)
      · cases h
        exact .dispatches rfl rfl rfl rfl rfl (by decide)
    | some targetAgentId =>
      cases h
      exact .dispatches rfl rfl rfl rfl rfl (by decide)
  | respond parts =>
    cases phase <;> simp only [act,Option.some.injEq,Prod.mk.injEq,reduceCtorEq] at h
    obtain ⟨rfl,rfl,rfl⟩ := h
    exact .quiet rfl rfl rfl rfl rfl
  | next delta =>
    cases phase <;> simp only [act,reduceCtorEq] at h
    split at h
    · cases h
      exact .quiet rfl rfl rfl rfl rfl
    · cases h
      exact .quiet rfl rfl rfl rfl rfl
  | exhaust =>
    cases phase <;> simp only [act,Option.some.injEq,Prod.mk.injEq,reduceCtorEq] at h
    obtain ⟨rfl,rfl,rfl⟩ := h
    exact .quiet rfl rfl rfl rfl rfl
  | answer remote =>
    cases phase <;> simp only [act,Option.some.injEq,Prod.mk.injEq,reduceCtorEq] at h
    obtain ⟨rfl,rfl,rfl⟩ := h
    exact .quiet rfl rfl rfl rfl rfl
  | complete ids =>
    cases phase <;> simp only [act,reduceCtorEq] at h
    · split at h
      · rename_i hdrawn
        cases h
        exact completeLocal_acts rfl rfl rfl hdrawn rfl
      · cases h
    · split at h
      · rename_i hdrawn
        cases h
        exact completeRemote_acts hdrawn rfl
      · cases h
  | started =>
    cases phase <;> simp only [act,Option.some.injEq,Prod.mk.injEq,reduceCtorEq] at h
    obtain ⟨rfl,rfl,rfl⟩ := h
    exact .quiet rfl rfl rfl rfl rfl
  | fail error =>
    simp only [act,Option.map_eq_some_iff,Prod.mk.injEq] at h
    obtain ⟨a,hforeign,rfl,rfl,rfl⟩ := h
    refine .fails ?_
    cases phase <;> simp only [DeliveryPhase.foreign,reduceCtorEq] at hforeign <;> exact hforeign
  | recordFailure =>
    cases phase <;> simp only [act,reduceCtorEq] at h
    split at h
    · cases h
      exact recordFailure_acts ‹_›
    · cases h
      exact .failureUnrecorded (recordFailure_error ‹_›)
  | resume =>
    cases phase <;> simp only [act,Option.some.injEq,Prod.mk.injEq,reduceCtorEq] at h
    · obtain ⟨rfl,rfl,rfl⟩ := h
      exact .quiet rfl rfl rfl rfl rfl
    · obtain ⟨rfl,rfl,rfl⟩ := h
      exact .finishes
    · obtain ⟨rfl,rfl,rfl⟩ := h
      exact .quiet rfl rfl rfl rfl rfl
  | close =>
    simp only [act] at h
    split at h
    · cases phase <;> simp only [Option.some.injEq,Prod.mk.injEq,reduceCtorEq] at h
      · obtain ⟨rfl,rfl,rfl⟩ := h
        exact .quiet rfl rfl rfl rfl rfl
      · obtain ⟨rfl,rfl,rfl⟩ := h
        exact .fails rfl
      · obtain ⟨rfl,rfl,rfl⟩ := h
        exact .fails rfl
      · obtain ⟨rfl,rfl,rfl⟩ := h
        exact .quiet rfl rfl rfl rfl rfl
    · cases h

end Delivery

/-- One store with the deliveries of the process that serves it. The calls and the contexts of
admitted messages are recorded for the statements about them. -/
structure MessageServer where
  db : AgentDb
  config : ServerConfig
  serving : Bool
  deliveries : DeliveryId → Option Delivery
  calls : List (MessageId × IngressCall)
  admittedContexts : List ContextId

/-- A step: of a delivery, of another part of the application, or of the process as a whole. -/
inductive ServerStep where
  | receive (i : DeliveryId) (request : MainAgentRequest) (mode : DeliveryMode)
  | deliver (i : DeliveryId) (e : DeliveryEvent)
  | write (x : AgentTxn)
  | crash
  | start (config : ServerConfig) (limit : RecursionLimit) (worker : Option LocalWorker)

namespace ServerStep

/-- A context gets an id that no message was ever admitted to. -/
def drawsNew (used : List ContextId) : DeliveryEvent → Bool
  | .prepareRoute _ newContextId => newContextId ∉ used
  | _ => true

/-- The writes of the application beside its deliveries; the id of a retry message is new. -/
def isBeside (db : AgentDb) : AgentTxn → Bool
  | .core x => !x.isIngress && x.retryMessage.all fun id =>
      (db.messages.get id).isNone && (db.messageIngress.get id).isNone
  | _ => true

/-- The context that the step deletes. -/
def deletes : ServerStep → Option ContextId
  | write (.deleteTerminalContext contextId _) => some contextId
  | _ => none

end ServerStep

namespace MessageServer

def initial (config : ServerConfig) : MessageServer :=
  ⟨.empty,config,false,fun _ => none,[],[]⟩

/-- The delivery after one of its events. -/
def deliver (s : MessageServer) (i : DeliveryId) (d : Delivery) (r : DeliveryStep) :
    MessageServer :=
  {s with
    db := r.2.1
    deliveries := Function.update s.deliveries i (some {d with phase := r.1})
    calls := s.calls++r.2.2
    admittedContexts := match r.1 with
      | .admitted a => a.contextId::s.admittedContexts
      | _ => s.admittedContexts}

variable (fingerprint : MessageRole → List Json → Json → String) (env : LedgerEnv)

def step : ServerStep → MessageServer → Option MessageServer
  | .receive i request mode,s =>
    if s.serving = true ∧ (s.deliveries i).isNone = true then
      some {s with deliveries := Function.update s.deliveries i (some ⟨request,mode,.opened⟩)}
    else none
  | .deliver i e,s =>
    if s.serving = true ∧ ServerStep.drawsNew s.admittedContexts e = true then
      (s.deliveries i).bind fun d => (d.act fingerprint s.config s.db e).map (s.deliver i d)
    else none
  | .write x,s =>
    if ServerStep.isBeside s.db x = true then
      some {s with db := x.commit ⟨fingerprint,s.config.hasRemoteClient⟩ env s.db}
    else none
  | .crash,s => some {s with
      deliveries := fun _ => none
      serving := false}
  | .start config limit worker,s =>
    if s.serving = false then
      match reconcileStartup limit worker s.db with
      | (.ok _,db) => some {s with
          db
          config
          serving := true}
      | (.error _,db) => some {s with db}
    else none

/-- The server after a sequence of steps. -/
def run (steps : List ServerStep) (s : MessageServer) : Option MessageServer :=
  exec (step fingerprint env) steps s

end MessageServer
end VermayAgent
