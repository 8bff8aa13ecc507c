import VermayAgent.IngressProtocol

/-! What a repeated message is answered.
The rows that an outcome names are written once. As long as the context stands, the result is told
again from them as the delivery that carried the message out told it. -/
namespace VermayAgent
open Library Txn MainAgentStore MainAgentCore

namespace MessageRecords

/-- The rows of a context are still there; of a delegation only the news of its task moves. -/
structure KeepsRows (c : ContextId) (s s' : MessageRecords) : Prop where
  messages : ∀ id r, s.messages.get id = some r → r.contextId = c → s'.messages.get id = some r
  routeDecisions : ∀ id r, s.routeDecisions.get id = some r → r.contextId = c →
    s'.routeDecisions.get id = some r
  tasks : ∀ o ∈ s.tasks, o.contextId = c → o ∈ s'.tasks
  delegatedTasks : ∀ id d, s.delegatedTasks.get id = some d → d.contextId = c →
    ∃ status metadata, (d.localTaskId = none → metadata = d.metadata) ∧
      s'.delegatedTasks.get id = some {d with
        status
        metadata}

section Rows

variable {c : ContextId} {s s₁ s' : MessageRecords}

/-- Nothing at all is taken away. -/
theorem keepsRows_of (hmessages : ∀ id r, s.messages.get id = some r → s'.messages.get id = some r)
    (hdecisions : ∀ id r, s.routeDecisions.get id = some r → s'.routeDecisions.get id = some r)
    (htasks : ∀ o ∈ s.tasks, o ∈ s'.tasks)
    (hdelegations : ∀ id d, s.delegatedTasks.get id = some d → s'.delegatedTasks.get id = some d) :
    KeepsRows c s s' where
  messages id r hr _ := hmessages id r hr
  routeDecisions id r hr _ := hdecisions id r hr
  tasks o ho _ := htasks o ho
  delegatedTasks id d hd _ := ⟨d.status,d.metadata,fun _ => rfl,hdelegations id d hd⟩

theorem KeepsRows.refl : KeepsRows c s s :=
  keepsRows_of (fun _ _ hr => hr) (fun _ _ hr => hr) (fun _ ho => ho) (fun _ _ hd => hd)

theorem KeepsRows.trans (h : KeepsRows c s s₁) (h' : KeepsRows c s₁ s') : KeepsRows c s s' where
  messages id r hr hc := h'.messages id r (h.messages id r hr hc) hc
  routeDecisions id r hr hc := h'.routeDecisions id r (h.routeDecisions id r hr hc) hc
  tasks o ho hc := h'.tasks o (h.tasks o ho hc) hc
  delegatedTasks id d hd hc := by
    obtain ⟨status,metadata,hmetadata,hget⟩ := h.delegatedTasks id d hd hc
    obtain ⟨status',metadata',hmetadata',hget'⟩ := h'.delegatedTasks id _ hget hc
    exact ⟨status',metadata',fun hlocal => (hmetadata' hlocal).trans (hmetadata hlocal),hget'⟩

end Rows

end MessageRecords

section Keeping

open MessageRecords

variable {c : ContextId} {core : CoreEnv} {request : MainAgentRequest} {p p' : DeliveryPhase}
variable {s s' : MessageRecords} {calls : List (MessageId × IngressCall)}

/-- The deliveries take no row away. -/
theorem acts_keepsRows (h : Acts core request p s p' s' calls) : KeepsRows c s s' := by
  cases h with
  | @admits _ _ a newContextId hrole hmode hid hadmits =>
    obtain ⟨r,_,_,_,_,hinsert⟩ := hadmits.message
    refine keepsRows_of (fun _ _ => Table.get_of_insert? hinsert) (fun id r hr => ?_)
      (fun o ho => ?_) (fun id d hd => ?_)
    · rw [hadmits.routeDecisions]
      exact hr
    · rw [hadmits.tasks]
      exact ho
    · rw [hadmits.delegatedTasks]
      exact hd
  | records hticket hstage hlocal hremote hcontext hrow hinsert =>
    exact keepsRows_of (fun _ _ hr => hr) (fun _ _ => Table.get_of_insert? hinsert)
      (fun _ ho => ho) (fun _ _ hd => hd)
  | accepts hkind hcontext hrow hinsert =>
    exact keepsRows_of (fun _ _ hr => hr) (fun _ _ => Table.get_of_insert? hinsert)
      (fun _ ho => List.mem_append_left _ ho) (fun _ _ hd => hd)
  | answers hticket hstage hdecision hreply hcontext hrow hinsert =>
    exact keepsRows_of (fun _ _ => Table.get_of_insert? hinsert) (fun _ _ hr => hr)
      (fun _ ho => ho) (fun _ _ hd => hd)
  | delegatesMessage hticket hstage hdecision hreply hcontext hrow hinsert hdelegation =>
    exact keepsRows_of (fun _ _ => Table.get_of_insert? hinsert) (fun _ _ hr => hr)
      (fun _ ho => ho) (fun _ _ => Table.get_of_insert? hdelegation)
  | delegatesTask hticket hstage hdecision hcontext hrow htask horigin hinput hdelegation =>
    exact keepsRows_of (fun _ _ hr => hr) (fun _ _ hr => hr)
      (fun _ ho => List.mem_append_left _ ho) (fun _ _ => Table.get_of_insert? hdelegation)
  | recordsFailure =>
    exact keepsRows_of (fun _ _ hr => hr) (fun _ _ hr => hr) (fun _ ho => ho) (fun _ _ hd => hd)
  | _ => exact .refl

/-- Nor does the progress of a task; only a delegation with a task gets news. -/
theorem taskStep_keepsRows (h : TaskStep s s') : KeepsRows c s s' := by
  cases h with
  | message htask hstored hinsert =>
    exact keepsRows_of (fun _ _ => Table.get_of_insert? hinsert) (fun _ _ hr => hr)
      (fun _ ho => ho) (fun _ _ hd => hd)
  | @delegation id status metadata htask =>
    constructor
    · exact fun _ _ hr _ => hr
    · exact fun _ _ hr _ => hr
    · exact fun _ ho _ => ho
    · intro id' d hd _
      have hget := Table.get_update s.delegatedTasks (fun r => r.delegationId = id)
        (fun r => {r with
          status
          metadata}) (fun _ => rfl) id'
      rw [hd,Option.map_some] at hget
      have hid' : d.delegationId = id' := Table.key_of_get hd
      by_cases hid : d.delegationId = id
      · rw [if_pos (decide_eq_true hid)] at hget
        refine ⟨status,metadata,fun hlocal => ?_,hget⟩
        have hsome := htask d (by rw [← hid,hid']; exact hd)
        rw [hlocal] at hsome
        cases hsome
      · rw [if_neg (by simpa using hid)] at hget
        exact ⟨d.status,d.metadata,fun _ => rfl,hget⟩

theorem taskMoves_keepsRows (h : Relation.ReflTransGen TaskStep s s') : KeepsRows c s s' := by
  induction h with
  | refl => exact .refl
  | tail _ hstep ih => exact ih.trans (taskStep_keepsRows hstep)

theorem acceptRetry_keepsRows {taskId : TaskId} {ids : RetryIds} {seen : TaskRecord}
    {inputMessage : MessageRecord} {task : TaskRecord} {created : Bool} {db db' : AgentDb}
    (hmessage : db.messages.get ids.messageId = none)
    (hingress : db.messageIngress.get ids.messageId = none)
    (h : (acceptRetry core taskId ids seen inputMessage).run db = .ok ((task,created),db')) :
    KeepsRows c db.messageRecords db'.messageRecords := by
  rcases acceptRetry_records hmessage hingress h with hsame | ⟨message,messages,row,messageIngress,
    decision,routeDecisions,origin,_,_,_,_,hinsert,_,_,_,_,_,_,hdecision,_,_,_,hrecords⟩
  · rw [hsame]
    exact .refl
  · rw [hrecords]
    exact keepsRows_of (fun _ _ => Table.get_of_insert? hinsert)
      (fun _ _ => Table.get_of_insert? hdecision) (fun _ ho => List.mem_append_left _ ho)
      (fun _ _ hd => hd)

/-- The deletion of another context. -/
theorem deleteTerminalContext_keepsRows {c' : ContextId} {listed : List TaskId} {u : Unit}
    {db db' : AgentDb} (hne : c' ≠ c)
    (h : (deleteTerminalContext c' listed).run db = .ok (u,db')) :
    KeepsRows c db.messageRecords db'.messageRecords := by
  have hother : ∀ c'' : ContextId, c'' = c → c'' ≠ c' := fun c'' hc heq => hne (heq.symm.trans hc)
  rw [deleteTerminalContext_records h]
  constructor
  · intro id r hr hc
    refine (Table.get_delete ..).trans ?_
    rw [show db.messages.get id = some r from hr]
    simp [Option.filter,hother _ hc]
  · intro id r hr hc
    refine (Table.get_delete ..).trans ?_
    rw [show db.routeDecisions.get id = some r from hr]
    simp [Option.filter,hother _ hc]
  · intro o ho hc
    exact List.mem_filter.mpr ⟨ho,by simpa using hother _ hc⟩
  · intro id d hd hc
    refine ⟨d.status,d.metadata,fun _ => rfl,(Table.get_delete ..).trans ?_⟩
    rw [show db.delegatedTasks.get id = some d from hd]
    simp [Option.filter,hother _ hc]

variable {env : LedgerEnv} {fingerprint : MessageRole → List Json → Json → String}

theorem commit_keepsRows {x : AgentTxn} {db : AgentDb} (hbeside : ServerStep.isBeside db x = true)
    (hkept : ∀ listed, x ≠ .deleteTerminalContext c listed) :
    KeepsRows c db.messageRecords (x.commit core env db).messageRecords := by
  rcases AgentTxn.maintenance_keeps
      (v := fun db => (db.messages,db.routeDecisions,db.tasks,db.delegatedTasks)) core env
      (fun _ _ => rfl) (fun _ _ => rfl) x with ⟨y,rfl⟩ | ⟨c',listed,rfl⟩ | hk
  · have hcommit : AgentTxn.commit core env (.core y) db = (y.txn core env).commit db :=
      commit_map _ _ _
    rw [hcommit]
    simp only [ServerStep.isBeside,Bool.and_eq_true,Bool.not_eq_true'] at hbeside
    rcases commit_cases (y.txn core env) db with hnone | ⟨action,hrun⟩
    · rw [hnone]
      exact .refl
    · cases hretry : y.retryMessage with
      | none =>
        exact taskMoves_keepsRows (CoreTxn.txn_taskMoves core env hbeside.1 hretry _ _ _ hrun)
      | some id =>
        cases y with
        | retryTask taskId ids seen inputMessage =>
          obtain ⟨⟨task,created⟩,hretried,_⟩ := (map_ok _ _).mp hrun
          have hnew := hbeside.2
          simp only [CoreTxn.retryMessage,Option.all_some,Bool.and_eq_true,
            Option.isNone_iff_eq_none] at hnew
          exact acceptRetry_keepsRows hnew.1 hnew.2 hretried
        | _ => cases hretry
  · rcases commit_cases (deleteTerminalContext c' listed) db with hnone | ⟨u,hrun⟩
    · rw [AgentTxn.commit,AgentTxn.txn,hnone]
      exact .refl
    · refine deleteTerminalContext_keepsRows (fun heq => hkept listed ?_) hrun
      rw [heq]
  · have hkeeps := hk.commit (s := db)
    simp only [Prod.mk.injEq] at hkeeps
    obtain ⟨hmessages,hdecisions,htasks,hdelegations⟩ := hkeeps
    refine keepsRows_of (fun id r hr => ?_) (fun id r hr => ?_) (fun o ho => ?_) fun id d hd => ?_
    · exact (congrArg (Table.get · id) hmessages).trans hr
    · exact (congrArg (Table.get · id) hdecisions).trans hr
    · have horigins := congrArg (fun tasks => tasks.rows.map TaskRecord.origin) htasks
      change o ∈ (x.commit core env db).tasks.rows.map TaskRecord.origin
      rw [AgentTxn.commit,horigins]
      exact ho
    · exact (congrArg (Table.get · id) hdelegations).trans hd

theorem reconcileStartup_keepsRows (limit : RecursionLimit) (worker : Option LocalWorker)
    (db : AgentDb) :
    KeepsRows c db.messageRecords (reconcileStartup limit worker db).2.messageRecords := by
  obtain ⟨ids,db₁,hrun,hrecords⟩ := reconcileStartup_fails limit worker db
  rw [hrecords]
  cases hrun
  exact keepsRows_of (fun _ _ hr => hr) (fun _ _ hr => hr) (fun _ ho => ho) (fun _ _ hd => hd)

/-- Only the deletion of a context takes its rows away. -/
theorem step_keepsRows {a : ServerStep} {s s' : MessageServer} (hkept : a.deletes ≠ some c)
    (h : MessageServer.step fingerprint env a s = some s') :
    KeepsRows c s.db.messageRecords s'.db.messageRecords := by
  cases a with
  | receive i request mode =>
    simp only [MessageServer.step,Option.ite_none_right_eq_some,Option.some.injEq] at h
    obtain ⟨_,rfl⟩ := h
    exact .refl
  | deliver i e =>
    simp only [MessageServer.step,Option.ite_none_right_eq_some,Option.bind_eq_some_iff,
      Option.map_eq_some_iff] at h
    obtain ⟨_,d,_,x,hx,rfl⟩ := h
    exact acts_keepsRows (delivery_acts hx)
  | write x =>
    simp only [MessageServer.step,Option.ite_none_right_eq_some,Option.some.injEq] at h
    obtain ⟨hbeside,rfl⟩ := h
    exact commit_keepsRows hbeside fun listed hx => hkept (by rw [hx]; rfl)
  | crash =>
    cases h
    exact .refl
  | start config limit worker =>
    have hrows := reconcileStartup_keepsRows (c := c) limit worker s.db
    simp only [MessageServer.step,Option.ite_none_right_eq_some] at h
    obtain ⟨_,h⟩ := h
    split at h
    all_goals
      rename_i hpass
      cases h
      rw [hpass] at hrows
      exact hrows

end Keeping

namespace MessageRecords

/-- The rows of an outcome, with what is told of them. -/
inductive Rebuilds (s : MessageRecords) (c : ContextId) (m : MessageId)
    (decision : RouteDecisionRecord) :
    Option MessageIngressOutcomeKind → Option String → MainAgentResult → Prop where
  | localMessage {r} (hkind : decision.kind = .localMessage)
      (hr : s.messages.get r.messageId = some r) (hcontext : r.contextId = c) :
    Rebuilds s c m decision (some .message) (some r.messageId)
      (.localMessage c r.messageId m decision.decisionId r.parts)
  | localTask {t} (hkind : decision.kind = .localTask) (ht : s.HasTask t c) :
    Rebuilds s c m decision (some .task) (some t) (.localTask c t m decision.decisionId)
  | remoteMessage {r d} (hkind : decision.kind = .remoteAgent)
      (hd : s.delegatedTasks.get d.delegationId = some d) (hdelegated : d.contextId = c)
      (hresult : d.resultKind = "message") (hlocal : d.localTaskId = none)
      (hmetadata : d.metadata = .obj [("localMessageId",.str r.messageId)])
      (hr : s.messages.get r.messageId = some r) (hcontext : r.contextId = c) :
    Rebuilds s c m decision (some .delegation) (some d.delegationId)
      (.remoteAgent c m d.remoteAgentId decision.decisionId d.delegationId (some r.messageId) none
        r.parts)
  | remoteTask {d t} (hkind : decision.kind = .remoteAgent)
      (hd : s.delegatedTasks.get d.delegationId = some d) (hdelegated : d.contextId = c)
      (hresult : d.resultKind = "task") (hlocal : d.localTaskId = some t) (ht : s.HasTask t c) :
    Rebuilds s c m decision (some .delegation) (some d.delegationId)
      (.remoteAgent c m d.remoteAgentId decision.decisionId d.delegationId none (some t) [])

/-- The route decision of a message, as its ingress row names it. -/
structure Routed (s : MessageRecords) (row : MessageIngressRecord)
    (decision : RouteDecisionRecord) : Prop where
  named : row.routeDecisionId = some decision.decisionId
  stored : s.routeDecisions.get decision.decisionId = some decision
  contextId : decision.contextId = row.contextId
  messageId : decision.messageId = row.messageId

/-- The result that an ingress row stands for. -/
def Told (s : MessageRecords) (row : MessageIngressRecord) (result : MainAgentResult) : Prop :=
  ∃ decision, s.Routed row decision ∧
    s.Rebuilds row.contextId row.messageId decision row.outcomeKind row.outcomeId result

variable {s s' : MessageRecords} {c : ContextId} {m : MessageId} {row : MessageIngressRecord}
variable {decision : RouteDecisionRecord} {result : MainAgentResult}
variable {kind : Option MessageIngressOutcomeKind} {id : Option String}

theorem Rebuilds.mono (h : s.Rebuilds c m decision kind id result) (hs : KeepsRows c s s') :
    s'.Rebuilds c m decision kind id result := by
  cases h with
  | localMessage hkind hr hcontext =>
    exact .localMessage hkind (hs.messages _ _ hr hcontext) hcontext
  | @localTask t hkind ht =>
    obtain ⟨o,ho,hid,hcontext⟩ := ht
    exact .localTask hkind ⟨o,hs.tasks o ho hcontext,hid,hcontext⟩
  | @remoteMessage r d hkind hd hdelegated hresult hlocal hmetadata hr hcontext =>
    obtain ⟨status,metadata,hsame,hd'⟩ := hs.delegatedTasks _ _ hd hdelegated
    rw [hsame hlocal] at hd'
    have hrebuilt := Rebuilds.remoteMessage (s := s') (m := m) (d := {d with status}) hkind hd'
      hdelegated hresult hlocal hmetadata (hs.messages _ _ hr hcontext) hcontext
    exact hrebuilt
  | @remoteTask d t hkind hd hdelegated hresult hlocal ht =>
    obtain ⟨status,metadata,_,hd'⟩ := hs.delegatedTasks _ _ hd hdelegated
    obtain ⟨o,ho,hid,hcontext⟩ := ht
    exact Rebuilds.remoteTask (s := s') (m := m) (d := {d with
      status
      metadata}) hkind hd' hdelegated hresult hlocal ⟨o,hs.tasks o ho hcontext,hid,hcontext⟩

theorem Routed.mono (h : s.Routed row decision) (hs : KeepsRows row.contextId s s') :
    s'.Routed row decision :=
  ⟨h.named,hs.routeDecisions _ _ h.stored h.contextId,h.contextId,h.messageId⟩

theorem Told.mono (h : s.Told row result) (hs : KeepsRows row.contextId s s') :
    s'.Told row result := by
  obtain ⟨decision,hrouted,hrebuilds⟩ := h
  exact ⟨decision,hrouted.mono hs,hrebuilds.mono hs⟩

end MessageRecords

/-- The message of the agent that a result names. -/
def MainAgentResult.outputMessageId : MainAgentResult → Option MessageId
  | .localMessage _ messageId _ _ _ => some messageId
  | .localTask _ _ _ _ => none
  | .remoteAgent _ _ _ _ _ messageId _ _ => messageId

section Telling

variable {db : AgentDb} {row : MessageIngressRecord} {result : MainAgentResult}

theorem exists_task {t : TaskId} {c : ContextId} (h : db.messageRecords.HasTask t c) :
    ∃ task, db.tasks.get t = some task ∧ task.taskId = t := by
  obtain ⟨o,ho,hid,_⟩ := h
  obtain ⟨task,htask,rfl⟩ := List.mem_map.mp ho
  exact ⟨task,Table.get_eq_some_iff.mpr ⟨htask,hid⟩,hid⟩

/-- The stored result is read off the rows. -/
theorem resultFromMessageIngress_told (h : db.messageRecords.Told row result)
    (hdrawn : result.outputMessageId ≠ some "") :
    (resultFromMessageIngress row).run db = .ok (result,db) := by
  obtain ⟨decision,⟨hnamed,hstored,hcontext,hmessage⟩,hrebuilds⟩ := h
  have hstored' : db.routeDecisions.get decision.decisionId = some decision := hstored
  generalize hkind : row.outcomeKind = kind at hrebuilds
  generalize hid : row.outcomeId = id at hrebuilds
  cases hrebuilds with
  | @localMessage r hroute hr _ =>
    have hr' : db.messages.get r.messageId = some r := hr
    simp [resultFromMessageIngress,hnamed,hkind,hid,run_bind,orFail,getRouteDecision,hstored',
      require,hcontext,hmessage,hroute,getMessage,hr']
  | @localTask t hroute ht =>
    obtain ⟨task,htask,rfl⟩ := exists_task ht
    simp [resultFromMessageIngress,hnamed,hkind,hid,run_bind,orFail,getRouteDecision,hstored',
      require,hcontext,hmessage,hroute,getTask,htask]
  | @remoteMessage r d hroute hd _ hresult _ hmetadata hr _ =>
    have hd' : db.delegatedTasks.get d.delegationId = some d := hd
    have hr' : db.messages.get r.messageId = some r := hr
    have hne : r.messageId ≠ "" := fun heq => hdrawn (congrArg some heq)
    have hmember : d.metadata.member "localMessageId" = .str r.messageId := by
      rw [hmetadata]
      rfl
    simp [resultFromMessageIngress,hnamed,hkind,hid,run_bind,orFail,getRouteDecision,hstored',
      require,hcontext,hmessage,hroute,getDelegatedTask,hd',hresult,delegatedMessage,hmember,hne,
      getMessage,hr']
  | @remoteTask d t hroute hd _ hresult hlocal ht =>
    have hd' : db.delegatedTasks.get d.delegationId = some d := hd
    obtain ⟨task,htask,rfl⟩ := exists_task ht
    simp [resultFromMessageIngress,hnamed,hkind,hid,run_bind,orFail,getRouteDecision,hstored',
      require,hcontext,hmessage,hroute,getDelegatedTask,hd',hresult,hlocal,getTask,htask]

end Telling

/-- What is stored of an admitted delivery: its reservation and its message. -/
structure Accounted (fingerprint : MessageRole → List Json → Json → String)
    (request : MainAgentRequest) (a : AdmittedMessage) (s : MessageRecords)
    (row : MessageIngressRecord) : Prop where
  stored : s.messageIngress.get a.inputMessageId = some row
  contextId : row.contextId = a.contextId
  requestFingerprint :
    row.requestFingerprint = fingerprint request.role request.parts request.metadata
  role : request.role = .user
  requested : request.contextId = none ∨ request.contextId = some a.contextId
  message : ∃ r, s.messages.get a.inputMessageId = some r ∧ r.contextId = a.contextId

/-- And of what it has got to: its route decision and its result. -/
structure OnRecord (fingerprint : MessageRole → List Json → Json → String)
    (request : MainAgentRequest) (p : DeliveryPhase) (a : AdmittedMessage) (s : MessageRecords)
    (row : MessageIngressRecord) : Prop extends Accounted fingerprint request a s row where
  decision : ∀ id target, p.decision = some (id,target) → ∃ decision : RouteDecisionRecord,
    decision.decisionId = id ∧ s.Routed row decision ∧
      decision.kind = if target = none then .localMessage else .remoteAgent
  result : ∀ result, p.result = some result → s.Told row result
  delegates : ∀ route, p.delegates = some route → route.kind = .remoteAgent

section Recording

open MessageRecords

variable {fingerprint : MessageRole → List Json → Json → String} {request : MainAgentRequest}
variable {p p' : DeliveryPhase} {a : AdmittedMessage} {s s' : MessageRecords}
variable {row row' : MessageIngressRecord} {core : CoreEnv}
variable {calls : List (MessageId × IngressCall)}

theorem Accounted.mono (h : Accounted fingerprint request a s row)
    (hs : KeepsRows a.contextId s s')
    (hrow : s'.messageIngress.get a.inputMessageId = some row')
    (hcontext : row'.contextId = row.contextId)
    (hfingerprint : row'.requestFingerprint = row.requestFingerprint) :
    Accounted fingerprint request a s' row' := by
  obtain ⟨r,hr,hc⟩ := h.message
  exact ⟨hrow,hcontext.trans h.contextId,hfingerprint.trans h.requestFingerprint,h.role,h.requested,
    r,hs.messages _ _ hr hc,hc⟩

/-- A phase that has recorded neither a decision nor a result. -/
theorem Accounted.recorded (h : Accounted fingerprint request a s row)
    (hdecision : p.decision = none) (hresult : p.result = none) (hdelegates : p.delegates = none) :
    OnRecord fingerprint request p a s row := by
  refine ⟨h,fun id target hp => ?_,fun result hp => ?_,fun route hp => ?_⟩
  · cases hdecision.symm.trans hp
  · cases hresult.symm.trans hp
  · cases hdelegates.symm.trans hp

/-- What others do leaves it all in place. -/
theorem OnRecord.mono (h : OnRecord fingerprint request p a s row)
    (hs : KeepsRows a.contextId s s')
    (hrow : s'.messageIngress.get a.inputMessageId = some row) :
    OnRecord fingerprint request p a s' row := by
  have hs' : KeepsRows row.contextId s s' := h.contextId.symm ▸ hs
  refine ⟨h.toAccounted.mono hs hrow rfl rfl,fun id target hp => ?_,
    fun result hp => (h.result result hp).mono hs',h.delegates⟩
  obtain ⟨decision,hid,hrouted,hkind⟩ := h.decision id target hp
  exact ⟨decision,hid,hrouted.mono hs',hkind⟩

/-- A delivery that has told its call waits for the answer. -/
theorem stage_dispatched (h : p.stage = some .dispatched) :
    p.result = none ∧ p.delegates = none := by
  cases p <;> first | exact ⟨rfl,rfl⟩ | cases h

/-- The committing step resolves the row that the delivery has worked on. -/
theorem Accounted.committed {result : MainAgentResult} {kind : MessageIngressOutcomeKind}
    {id : String} (h : Accounted fingerprint request a s row) (hs : KeepsRows a.contextId s s')
    (hrow : s'.messageIngress.get a.inputMessageId = some (row'.resolve kind id))
    (hcontext : row'.contextId = row.contextId)
    (hfingerprint : row'.requestFingerprint = row.requestFingerprint)
    (hdecision : p.decision = none) (hdelegates : p.delegates = none)
    (hresult : p.result = some result) (htold : s'.Told (row'.resolve kind id) result) :
    OnRecord fingerprint request p a s' (row'.resolve kind id) := by
  refine ⟨h.mono hs hrow hcontext hfingerprint,fun id target hp => ?_,fun result' hp => ?_,
    fun route hp => ?_⟩
  · cases hdecision.symm.trans hp
  · cases hresult.symm.trans hp
    exact htold
  · cases hdelegates.symm.trans hp

/-- The transaction that commits the result of a delivery with a recorded route. -/
theorem OnRecord.resolves (s₁ : MessageRecords) {decisionId id : String} {target : Option AgentId}
    {kind : MessageIngressOutcomeKind} {result : MainAgentResult}
    (h : OnRecord fingerprint request p a s row) (hdecision : p.decision = some (decisionId,target))
    (hrow : ∃ r, s.messageIngress.get a.inputMessageId = some r ∧ r.state = .inProgress)
    (hs : KeepsRows a.contextId s (s₁.resolveIngress a.inputMessageId kind id))
    (hingress : s₁.messageIngress = s.messageIngress)
    (hdecisions : s₁.routeDecisions = s.routeDecisions)
    (hrebuilds : ∀ decision : RouteDecisionRecord, decision.decisionId = decisionId →
      decision.kind = (if target = none then .localMessage else .remoteAgent) →
      s₁.Rebuilds a.contextId a.inputMessageId decision (some kind) (some id) result) :
    ∃ row', OnRecord fingerprint request (.committed a result) a
      (s₁.resolveIngress a.inputMessageId kind id) row' := by
  obtain ⟨row',hrow',hstate⟩ := hrow
  cases h.stored.symm.trans hrow'
  obtain ⟨decision,hid,hrouted,hkind⟩ := h.decision _ _ hdecision
  rw [← hingress] at hrow'
  have hrebuilt := hrebuilds decision hid hkind
  rw [← h.contextId,← show row.messageId = a.inputMessageId from Table.key_of_get hrow'] at hrebuilt
  have hstored : s₁.routeDecisions.get decision.decisionId = some decision := by
    rw [hdecisions]
    exact hrouted.stored
  refine ⟨row.resolve kind id,h.toAccounted.committed hs (get_resolveIngress kind id hrow' hstate)
    rfl rfl rfl rfl rfl ⟨decision,⟨hrouted.named,hstored,hrouted.contextId,hrouted.messageId⟩,?_⟩⟩
  exact hrebuilt.mono (keepsRows_of (fun _ _ hr => hr) (fun _ _ hr => hr) (fun _ ho => ho)
    fun _ _ hd => hd)

/-- An event of a delivery keeps the account of it. -/
theorem acts_recorded (h : Acts core request p s p' s' calls)
    (hbefore : p.ticket = some a → ∃ row, OnRecord core.fingerprint request p a s row)
    (hp' : p'.ticket = some a) : ∃ row, OnRecord core.fingerprint request p' a s' row := by
  have hkeeps : KeepsRows a.contextId s s' := acts_keepsRows h
  cases h with
  | @admits _ _ a newContextId hrole hmode hid hadmits =>
    cases hp'
    obtain ⟨r,hr,hc,_,_,hinsert⟩ := hadmits.message
    have hrow := Table.get_insert? hadmits.reservation a.inputMessageId
    have hmessage := Table.get_insert? hinsert a.inputMessageId
    rw [if_pos hr] at hmessage
    refine ⟨_,Accounted.recorded ⟨hrow.trans (if_pos rfl),rfl,rfl,hrole,?_,r,hmessage,hc⟩ rfl rfl
      rfl⟩
    rcases hadmits.contexts with ⟨_,hrequest,_⟩ | ⟨_,_,hrequest,_⟩
    · exact .inr hrequest
    · exact .inl hrequest
  | quiet hticket hstage hdecision hresult hdelegates =>
    obtain ⟨row,hrec⟩ := hbefore (hticket.symm.trans hp')
    refine ⟨row,hrec.toAccounted,fun id target hp => hrec.decision id target (hdecision ▸ hp),
      fun result hp => hrec.result result (hresult ▸ hp),fun route hp => ?_⟩
    cases hdelegates.symm.trans hp
  | routes =>
    cases hp'
    obtain ⟨row,hrec⟩ := hbefore rfl
    exact ⟨row,hrec.toAccounted.recorded rfl rfl rfl⟩
  | decides =>
    cases hp'
    obtain ⟨row,hrec⟩ := hbefore rfl
    exact ⟨row,hrec.toAccounted.recorded rfl rfl rfl⟩
  | @targets _ _ route targetAgentId hkind =>
    cases hp'
    obtain ⟨row,hrec⟩ := hbefore rfl
    refine ⟨row,hrec.toAccounted,fun id target hp => ?_,fun result hp => ?_,fun route' hp => ?_⟩
    · cases hp
    · cases hp
    · cases hp
      exact hkind
  | @records _ _ _ route target newDecisionId routeDecisions hticket hstage hlocal hremote hcontext
      hrow hinsert =>
    cases hp'
    obtain ⟨row,hrec⟩ := hbefore hticket
    obtain ⟨row',hrow',hstate⟩ := hrow
    cases hrec.stored.symm.trans hrow'
    have hget := Table.get_insert?_self hinsert
    refine ⟨row.withRoute newDecisionId,hrec.toAccounted.mono hkeeps
      (get_routeIngress newDecisionId hrow' hstate) rfl rfl,fun id target' hp => ?_,
      fun result hp => ?_,fun route' hp => ?_⟩
    · cases hp
      refine ⟨_,rfl,⟨rfl,hget,hrec.contextId.symm,(Table.key_of_get hrow').symm⟩,?_⟩
      split_ifs with htarget
      · exact hlocal htarget
      · exact hrec.delegates route (hremote htarget)
    · cases hp
    · cases hp
  | @accepts _ _ route newDecisionId taskId routeDecisions origin hkind hcontext hrow hinsert htask
      horigin hinput =>
    cases hp'
    obtain ⟨row,hrec⟩ := hbefore rfl
    obtain ⟨row',hrow',hstate⟩ := hrow
    cases hrec.stored.symm.trans hrow'
    have hget := Table.get_insert?_self hinsert
    have hrouted := get_routeIngress (s := s) newDecisionId hrow' hstate
    refine ⟨(row.withRoute newDecisionId).resolve .task taskId,hrec.toAccounted.committed hkeeps
      (get_resolveIngress .task taskId hrouted hstate) rfl rfl rfl rfl rfl
      ⟨_,⟨rfl,hget,hrec.contextId.symm,(Table.key_of_get hrow').symm⟩,?_⟩⟩
    have hmessage : row.messageId = a.inputMessageId := Table.key_of_get hrow'
    change Rebuilds _ row.contextId row.messageId _ _ _ _
    rw [hrec.contextId,hmessage]
    exact .localTask hkind
      ⟨origin,List.mem_append_right _ (List.mem_singleton_self _),htask,horigin⟩
  | acceptFails =>
    cases hp'
    obtain ⟨row,hrec⟩ := hbefore rfl
    exact ⟨row,hrec.toAccounted.recorded rfl rfl rfl⟩
  | dispatches hticket hticket' hstage hstage' hdecision hcall =>
    cases hticket'.symm.trans hp'
    obtain ⟨row,hrec⟩ := hbefore hticket
    obtain ⟨hresult,hdelegates⟩ := stage_dispatched hstage'
    refine ⟨row,hrec.toAccounted,fun id target hp => hrec.decision id target (hdecision ▸ hp),
      fun result hp => ?_,fun route hp => ?_⟩
    · cases hresult.symm.trans hp
    · cases hdelegates.symm.trans hp
  | @answers _ _ _ decisionId r messages hticket hstage hdecision hreply hcontext hrow hinsert =>
    cases hp'
    obtain ⟨row,hrec⟩ := hbefore hticket
    refine hrec.resolves {s with messages} hdecision hrow hkeeps rfl rfl
      fun decision hid hkind => ?_
    rw [← hid]
    exact .localMessage hkind (Table.get_insert?_self hinsert) hreply.contextId
  | @delegatesMessage _ _ _ decisionId targetAgentId r messages delegation delegatedTasks hticket
      hstage hdecision hreply hcontext hrow hinsert hdelegation hcontextId hinput hagent htask
      hkind' hmetadata =>
    cases hp'
    obtain ⟨row,hrec⟩ := hbefore hticket
    refine hrec.resolves {s with
      messages
      delegatedTasks} hdecision hrow hkeeps rfl rfl fun decision hid hkind => ?_
    rw [← hid,← hagent]
    exact .remoteMessage hkind (Table.get_insert?_self hdelegation) hcontextId hkind' htask
      hmetadata (Table.get_insert?_self hinsert) hreply.contextId
  | @delegatesTask _ _ _ decisionId targetAgentId taskId origin delegation delegatedTasks hticket
      hstage hdecision hcontext hrow htask horigin hinput hdelegation hcontextId hinput' hagent
      hlocal hkind' =>
    cases hp'
    obtain ⟨row,hrec⟩ := hbefore hticket
    refine hrec.resolves {s with
      tasks := s.tasks++[origin]
      delegatedTasks} hdecision hrow hkeeps rfl rfl fun decision hid hkind => ?_
    rw [← hid,← hagent]
    exact .remoteTask hkind (Table.get_insert?_self hdelegation) hcontextId hkind' hlocal
      ⟨origin,List.mem_append_right _ (List.mem_singleton_self _),htask,horigin⟩
  | fails hticket =>
    cases hp'
    obtain ⟨row,hrec⟩ := hbefore hticket
    exact ⟨row,hrec.toAccounted.recorded rfl rfl rfl⟩
  | recordsFailure => cases hp'
  | failureUnrecorded => cases hp'
  | finishes => cases hp'

/-- The row of a message changes only in the delivery that holds or claims it. -/
theorem acts_get {m : MessageId} (h : Acts core request p s p' s' calls)
    (hbefore : ∀ a, p.ticket = some a → a.inputMessageId ≠ m)
    (hafter : ∀ a, p'.ticket = some a → a.inputMessageId ≠ m) :
    s'.messageIngress.get m = s.messageIngress.get m := by
  cases h with
  | @admits _ _ a newContextId hrole hmode hid hadmits =>
    exact (Table.get_insert? hadmits.reservation m).trans (if_neg (hafter a rfl))
  | @records _ _ a route target newDecisionId routeDecisions hticket =>
    exact get_updateIngress_of_ne fun heq => hbefore a hticket heq.symm
  | @accepts _ a route newDecisionId taskId routeDecisions origin =>
    have hne : m ≠ a.inputMessageId := fun heq => hbefore a rfl heq.symm
    have hrouted : (s.routeIngress a.inputMessageId newDecisionId).messageIngress.get m =
        s.messageIngress.get m := get_updateIngress_of_ne hne
    exact (get_updateIngress_of_ne hne).trans hrouted
  | @answers _ _ a _ _ _ hticket =>
    exact get_updateIngress_of_ne fun heq => hbefore a hticket heq.symm
  | @delegatesMessage _ _ a _ _ _ _ _ _ hticket =>
    exact get_updateIngress_of_ne fun heq => hbefore a hticket heq.symm
  | @delegatesTask _ _ a _ _ _ _ _ _ hticket =>
    exact get_updateIngress_of_ne fun heq => hbefore a hticket heq.symm
  | @recordsFailure _ a _ _ ingressError =>
    exact get_updateIngress_of_ne fun heq => hbefore a rfl heq.symm
  | _ => rfl

end Recording

section Steps

open MessageRecords

variable {fingerprint : MessageRole → List Json → Json → String} {env : LedgerEnv}
variable {s s' : MessageServer} {m : MessageId} {x : ServerStep}

/-- The deliveries of the message are accounted for. -/
def Accounts (fingerprint : MessageRole → List Json → Json → String) (m : MessageId)
    (s : MessageServer) : Prop :=
  ∀ i d a, s.deliveries i = some d → d.phase.ticket = some a → a.inputMessageId = m →
    ∃ row, OnRecord fingerprint d.request d.phase a s.db.messageRecords row

theorem contextOf_stored {s : MessageRecords} {row : MessageIngressRecord}
    (h : s.messageIngress.get m = some row) : s.contextOf m = some row.contextId := by
  rw [contextOf,h]
  rfl

/-- The writes beside the deliveries leave the row of a message that has one. -/
theorem write_get {y : AgentTxn} (hs : Watched m s) (hkept : KeepsContextOf m (.write y) s)
    (hbeside : ServerStep.isBeside s.db y = true) {row : MessageIngressRecord}
    (hrow : s.db.messageIngress.get m = some row) :
    (y.commit ⟨fingerprint,s.config.hasRemoteClient⟩ env s.db).messageIngress.get m = some row := by
  have hwrite := write_beside fingerprint env hs hkept hbeside
  cases hwrite with
  | quiet houtcomes hget => exact hget.trans hrow
  | settled c t hfree => cases (fate_free.mp hfree).symm.trans hrow

theorem deliver_accounts {i : DeliveryId} {d : Delivery} {e : DeliveryEvent} {r : DeliveryStep}
    (hs : Watched m s) (ha : Accounts fingerprint m s) (hd : s.deliveries i = some d)
    (h : d.act fingerprint s.config s.db e = some r) :
    Accounts fingerprint m (s.deliver i d r) := by
  have hacts := delivery_acts h
  intro j d' a hd' hticket hm
  change Function.update s.deliveries i _ j = some d' at hd'
  by_cases hj : j = i
  · subst hj
    rw [Function.update_self] at hd'
    cases hd'
    exact acts_recorded hacts (fun hbefore => ha j d a hd hbefore hm) hticket
  · rw [Function.update_of_ne hj] at hd'
    obtain ⟨row,hrec⟩ := ha j d' a hd' hticket hm
    have hheld := key_stage hd' hticket hm
    have hother : ∀ b, d.phase.ticket = some b → b.inputMessageId ≠ m := fun b hb hbm =>
      hj (hs.sound.unique j i hheld (key_stage hd hb hbm))
    refine ⟨row,hrec.mono (acts_keepsRows hacts) ?_⟩
    rw [← hrec.stored,hm]
    refine acts_get hacts hother fun b hb hbm => ?_
    rcases acts_context hacts with ⟨_,hsame | hnone⟩ | ⟨b',hb',hfree,_⟩
    · exact hother b (hsame.symm.trans hb) hbm
    · cases hnone.symm.trans hb
    · cases hb'.symm.trans hb
      rw [hbm] at hfree
      exact hheld ((hs.sound.free hfree).1 j)

/-- Every step keeps the account of the deliveries of a message. -/
theorem step_accounts (hs : Watched m s) (ha : Accounts fingerprint m s)
    (hkept : KeepsContextOf m x s) (h : MessageServer.step fingerprint env x s = some s') :
    Accounts fingerprint m s' := by
  cases x with
  | receive i request mode =>
    simp only [MessageServer.step,Option.ite_none_right_eq_some,Option.some.injEq] at h
    obtain ⟨_,rfl⟩ := h
    intro j d a hd hticket hm
    change Function.update s.deliveries i _ j = some d at hd
    by_cases hj : j = i
    · subst hj
      rw [Function.update_self] at hd
      cases hd
      cases hticket
    · rw [Function.update_of_ne hj] at hd
      exact ha j d a hd hticket hm
  | deliver i e =>
    simp only [MessageServer.step,Option.ite_none_right_eq_some,Option.bind_eq_some_iff,
      Option.map_eq_some_iff] at h
    obtain ⟨_,d,hd,r,hr,rfl⟩ := h
    exact deliver_accounts hs ha hd hr
  | write y =>
    have hwrite := h
    simp only [MessageServer.step,Option.ite_none_right_eq_some,Option.some.injEq] at h
    obtain ⟨hbeside,rfl⟩ := h
    intro j d a hd hticket hm
    obtain ⟨row,hrec⟩ := ha j d a hd hticket hm
    have hrow : s.db.messageIngress.get m = some row := hm ▸ hrec.stored
    refine ⟨row,hrec.mono (step_keepsRows (fun hdeletes => hkept _ hdeletes ?_) hwrite) ?_⟩
    · rw [contextOf_stored hrow,hrec.contextId]
    · rw [hm]
      exact write_get hs hkept hbeside hrow
  | crash =>
    cases h
    intro j d a hd
    cases hd
  | start config limit worker =>
    simp only [MessageServer.step,Option.ite_none_right_eq_some] at h
    obtain ⟨hdown,h⟩ := h
    have hnone : ∀ j d a, s.deliveries j = some d → d.phase.ticket = some a →
        a.inputMessageId ≠ m := fun j d a hd hticket hm =>
      key_stage hd hticket hm (hs.sound.down hdown j)
    split at h
    all_goals
      cases h
      exact fun j d a hd hticket hm => absurd hm (hnone j d a hd hticket)

theorem run_accounts {steps : List ServerStep} (hs : Watched m s) (ha : Accounts fingerprint m s)
    (hkept : Guarded (MessageServer.step fingerprint env) (KeepsContextOf m) steps s)
    (h : MessageServer.run fingerprint env steps s = some s') : Accounts fingerprint m s' := by
  induction steps generalizing s with
  | nil =>
    cases h
    exact ha
  | cons x steps ih =>
    obtain ⟨s₁,h₁,h₂⟩ := exec_cons_eq_some.mp h
    exact ih (hs.step hkept.1 h₁) (step_accounts hs ha hkept.1 h₁) (hkept.2 s₁ h₁) h₂

/-- A message that has its result, with the rows that tell it. -/
structure OutcomeKept (fingerprint : MessageRole → List Json → Json → String)
    (request : MainAgentRequest) (a : AdmittedMessage) (s : MessageRecords)
    (row : MessageIngressRecord) (result : MainAgentResult) : Prop
    extends Accounted fingerprint request a s row where
  resolved : row.state = .resolved
  told : s.Told row result

/-- A delivery with a result has resolved its message. -/
theorem answered_of_result {i : DeliveryId} {d : Delivery} {a : AdmittedMessage}
    {result : MainAgentResult} (hs : Watched m s) (ha : Accounts fingerprint m s)
    (hd : s.deliveries i = some d) (hticket : d.phase.ticket = some a) (hm : a.inputMessageId = m)
    (hresult : d.phase.result = some result) :
    ∃ row, OutcomeKept fingerprint d.request a s.db.messageRecords row result := by
  obtain ⟨row,hrec⟩ := ha i d a hd hticket hm
  refine ⟨row,hrec.toAccounted,?_,hrec.result result hresult⟩
  have hfinished : d.phase.stage = some .finished := by
    cases hphase : d.phase <;> rw [hphase] at hresult <;> first | rfl | cases hresult
  have hstage : (s.key m).stage i = some .finished := by
    rw [key_stage_eq hd,DeliveryPhase.stageOf_ticket hticket,if_pos hm,hfinished]
  obtain ⟨n,hn⟩ := hs.sound.finished i hstage
  change s.db.messageRecords.fate m = _ at hn
  rw [fate,← hm,hrec.stored] at hn
  cases hstate : row.state with
  | resolved => rfl
  | inProgress | failed =>
    simp only [hstate] at hn
    cases hn

theorem OutcomeKept.step {request : MainAgentRequest} {a : AdmittedMessage}
    {row : MessageIngressRecord} {result : MainAgentResult} (hs : Watched a.inputMessageId s)
    (ha : OutcomeKept fingerprint request a s.db.messageRecords row result)
    (hkept : KeepsContextOf a.inputMessageId x s)
    (h : MessageServer.step fingerprint env x s = some s') :
    OutcomeKept fingerprint request a s'.db.messageRecords row result := by
  have hkeeps : KeepsRows a.contextId s.db.messageRecords s'.db.messageRecords := by
    refine step_keepsRows (fun hdeletes => hkept _ hdeletes ?_) h
    rw [contextOf_stored ha.stored,ha.contextId]
  have hrow := step_row hs hkept h ha.stored (by simp [ha.resolved])
  exact ⟨ha.toAccounted.mono hkeeps hrow rfl rfl,ha.resolved,
    ha.told.mono (ha.contextId.symm ▸ hkeeps)⟩

theorem OutcomeKept.run {steps : List ServerStep} {request : MainAgentRequest} {a : AdmittedMessage}
    {row : MessageIngressRecord} {result : MainAgentResult} (hs : Watched a.inputMessageId s)
    (ha : OutcomeKept fingerprint request a s.db.messageRecords row result)
    (hkept : Guarded (MessageServer.step fingerprint env) (KeepsContextOf a.inputMessageId) steps s)
    (h : MessageServer.run fingerprint env steps s = some s') :
    OutcomeKept fingerprint request a s'.db.messageRecords row result := by
  induction steps generalizing s with
  | nil =>
    cases h
    exact ha
  | cons x steps ih =>
    obtain ⟨s₁,h₁,h₂⟩ := exec_cons_eq_some.mp h
    exact ih (hs.step hkept.1 h₁) (ha.step hs hkept.1 h₁) (hkept.2 s₁ h₁) h₂

end Steps

/-- The request of an admitted message once more, under the id that the message got. -/
structure Repeats (request : MainAgentRequest) (a : AdmittedMessage)
    (request' : MainAgentRequest) : Prop where
  messageId : nonEmpty request'.messageId = some a.inputMessageId
  contextId : request'.contextId = none ∨ request'.contextId = some a.contextId
  role : request'.role = request.role
  parts : request'.parts = request.parts
  metadata : request'.metadata = request.metadata

section Repetition

variable {fingerprint : MessageRole → List Json → Json → String} {env : LedgerEnv}
variable {config : ServerConfig} {request request' : MainAgentRequest} {a : AdmittedMessage}
variable {row : MessageIngressRecord} {result : MainAgentResult}

/-- A repeated request comes back with the stored result, once its route is still allowed. -/
theorem prepareRoute_answered {db : AgentDb}
    (h : OutcomeKept fingerprint request a db.messageRecords row result)
    (hdrawn : result.outputMessageId ≠ some "") (hrepeats : Repeats request a request')
    (newMessageId : MessageId) (newContextId : ContextId) :
    Delivery.prepareRoute fingerprint config request' newMessageId newContextId db =
      (match (validateExplicitRouteMetadata ⟨fingerprint,config.hasRemoteClient⟩
        request'.metadata).run db with
        | .ok _ => .replaying result
        | .error error => .ended (.raised error),db) := by
  have hmessageId : row.messageId = a.inputMessageId := Table.key_of_get h.stored
  have hrow : db.messageIngress.get a.inputMessageId = some row := h.stored
  obtain ⟨r,hr,hc⟩ := h.message
  have hr' : db.messages.get row.messageId = some r := hmessageId ▸ hr
  have hfingerprint : fingerprint request'.role request'.parts request'.metadata =
      row.requestFingerprint := by
    rw [h.requestFingerprint,hrepeats.role,hrepeats.parts,hrepeats.metadata]
  have hcontext : request'.contextId = none ∨ request'.contextId = some row.contextId := by
    rw [h.contextId]
    exact hrepeats.contextId
  have hresult := resultFromMessageIngress_told h.told hdrawn
  have hexisting : (preparedExistingMessageIngress request' row.requestFingerprint row).run db =
      .ok (.existing result,db) := by
    have hget : (getMessage row.messageId).run db = .ok (some r,db) := by
      rw [getMessage,run_select,hr']
    rw [preparedExistingMessageIngress,run_bind_of (run_require_of hcontext _),
      run_bind_of (run_require_of rfl _),run_bind_of hget,run_bind_of (run_orFail_of rfl _),
      run_bind_of (run_require_of (hc.trans h.contextId.symm) _),h.resolved]
    exact run_bind_of hresult
  have hrole : request'.role = .user := hrepeats.role.trans h.role
  rw [Delivery.prepareRoute,prepareMessage,run_require_bind,if_pos hrole,run_bind]
  cases hroute : (validateExplicitRouteMetadata ⟨fingerprint,config.hasRemoteClient⟩
      request'.metadata).run db with
  | error error => rfl
  | ok x =>
    obtain ⟨u,db'⟩ := x
    cases validateExplicitRouteMetadata_reads hroute
    simp only [hrepeats.messageId,Option.getD_some,getMessageIngress,run_bind,run_select,hrow,
      hfingerprint,hexisting]

end Repetition

section Runs

variable {fingerprint : MessageRole → List Json → Json → String} {env : LedgerEnv}
variable {config : ServerConfig} {steps later : List ServerStep} {s s' : MessageServer}
variable {i : DeliveryId} {d d' : Delivery} {a : AdmittedMessage} {result : MainAgentResult}

/-- However much happens after a delivery has got its result: a repeated request is answered with
that result, writes nothing and calls nobody, unless its explicit route is not allowed any more. -/
theorem repeated_message_told
    (hkept : Guarded (MessageServer.step fingerprint env) (KeepsContextOf a.inputMessageId)
      (steps++later) (.initial config))
    (hrun : MessageServer.run fingerprint env steps (.initial config) = some s)
    (hlater : MessageServer.run fingerprint env later s = some s')
    (hd : s.deliveries i = some d) (hticket : d.phase.ticket = some a)
    (hresult : d.phase.result = some result) (hdrawn : result.outputMessageId ≠ some "")
    (hopened : d'.phase = .opened) (hrepeats : Repeats d.request a d'.request)
    (newMessageId : MessageId) (newContextId : ContextId) :
    d'.act fingerprint s'.config s'.db (.prepareRoute newMessageId newContextId) =
      some (match (validateExplicitRouteMetadata ⟨fingerprint,s'.config.hasRemoteClient⟩
        d'.request.metadata).run s'.db with
        | .ok _ => .replaying result
        | .error error => .ended (.raised error),s'.db,[]) := by
  obtain ⟨hbefore,hafter⟩ := guarded_append.mp hkept
  obtain ⟨_,hs⟩ := run_key (watched_initial config a.inputMessageId) hbefore hrun
  have hnone : Accounts fingerprint a.inputMessageId (.initial config) := fun i d a hd => by
    cases hd
  have haccounts := run_accounts (watched_initial config a.inputMessageId) hnone hbefore hrun
  obtain ⟨row,hanswered⟩ := answered_of_result hs haccounts hd hticket rfl hresult
  have hstill := hanswered.run hs (hafter s hrun) hlater
  simp only [Delivery.act,hopened]
  rw [prepareRoute_answered hstill hdrawn hrepeats]

/-- The duplicate after the restart gets the task that the interrupted stream had made. -/
theorem repeated_message_told_restarted : ∃ s s' : MessageServer,
    MessageServer.run sampleCore.fingerprint sampleEnv duplicatedMessage (.initial ⟨false,true⟩) =
        some s ∧
      MessageServer.run sampleCore.fingerprint sampleEnv
        [.deliver 0 .started,.crash,startSample] s = some s' ∧
      Delivery.act sampleCore.fingerprint s'.config ⟨sampleRequest,.send,.opened⟩ s'.db
          (.prepareRoute "msg-3" "context-3") =
        some (.replaying (.localTask "context" "task" "message" "route-1"),s'.db,[]) := by
  obtain ⟨s,hs⟩ := duplicatedMessage_runs
  obtain ⟨s',hs'⟩ : ∃ s', exec sampleStep [.deliver 0 .started,.crash,startSample] s = some s' := by
    have hall : (exec sampleStep (duplicatedMessage++[.deliver 0 .started,.crash,startSample])
        sampleServer).isSome = true := by
      decide +kernel
    rw [exec_append,hs] at hall
    exact Option.isSome_iff_exists.mp hall
  have hfacts : ((exec sampleStep duplicatedMessage sampleServer).bind (·.deliveries 0)).map
      (fun d => (d.phase.ticket,d.phase.result,d.request)) = some (some ⟨"context","message"⟩,
        some (.localTask "context" "task" "message" "route-1"),sampleRequest) := by
    decide +kernel
  rw [hs] at hfacts
  obtain ⟨d,hd,hd'⟩ := Option.map_eq_some_iff.mp hfacts
  simp only [Prod.mk.injEq] at hd'
  obtain ⟨hticket,hresult,hrequest⟩ := hd'
  have hkept : Guarded (MessageServer.step sampleCore.fingerprint sampleEnv)
      (KeepsContextOf (AdmittedMessage.mk "context" "message").inputMessageId)
      (duplicatedMessage++[.deliver 0 .started,.crash,startSample]) (.initial ⟨false,true⟩) := by
    decide +kernel
  have hid : nonEmpty sampleRequest.messageId = some "message" := by
    decide +kernel
  have hrepeats : Repeats d.request ⟨"context","message"⟩
      (Delivery.mk sampleRequest .send .opened).request :=
    ⟨hid,.inl rfl,by rw [hrequest],by rw [hrequest],by rw [hrequest]⟩
  have htold := repeated_message_told hkept hs hs' hd hticket hresult
    (by simp [MainAgentResult.outputMessageId]) rfl hrepeats "msg-3" "context-3"
  exact ⟨s,s',hs,hs',htold⟩

end Runs
end VermayAgent
