import VermayAgent.RetryLineage

/-! References within a context.
A message names its task, a retry its source and a record of receipt its outcome, in columns that
are no foreign keys. Whatever a transaction writes, such a name stays within one context. -/
namespace VermayAgent
open Library Txn MainAgentStore

namespace MessageRecords

def HasMessage (s : MessageRecords) (m : MessageId) (c : ContextId) : Prop :=
  ∃ r, s.messages.get m = some r ∧ r.contextId = c

/-- An outcome that is a message or a task is stored in the context. -/
def HasOutcome (s : MessageRecords) (kind : MessageIngressOutcomeKind) (id : String) (c : ContextId) :
    Prop :=
  match kind with
  | .message => s.HasMessage id c
  | .task => s.HasTask id c
  | .delegation => True

/-- The outcome of the record of receipt is in its context. -/
def OwnsOutcome (s : MessageRecords) (i : MessageIngressRecord) : Prop :=
  ∀ kind id, i.outcomeKind = some kind → i.outcomeId = some id → s.HasOutcome kind id i.contextId

structure Owned (s : MessageRecords) : Prop where
  messages : ∀ m ∈ s.messages.rows, ∀ t, m.taskId = some t → s.HasTask t m.contextId
  retries : ∀ o ∈ s.tasks, ∀ t, o.retryOfTaskId = some t → s.HasTask t o.contextId
  receipts : ∀ i ∈ s.messageIngress.rows, s.HasMessage i.messageId i.contextId
  outcomes : ∀ i ∈ s.messageIngress.rows, s.OwnsOutcome i

end MessageRecords

/-- One step of a transaction on the records of messages, other than a deletion. -/
inductive RecordStep : MessageRecords → MessageRecords → Prop where
  | contexts (s : MessageRecords) (contexts) : RecordStep s {s with contexts}
  | message {s r messages} (htask : ∀ t, r.taskId = some t → s.HasTask t r.contextId)
      (hinsert : s.messages.insert? r = some messages) : RecordStep s {s with messages}
  | receipt {s m c fingerprint messageIngress} (hmessage : s.HasMessage m c)
      (hinsert : s.messageIngress.insert? (.reserved m c fingerprint) = some messageIngress) :
      RecordStep s {s with messageIngress}
  | ingress {s p f hf} (hcontext : ∀ r, MessageIngressRecord.contextId (f r) = r.contextId)
      (houtcome : s.Owned → ∀ r ∈ s.messageIngress.rows, p r = true → s.OwnsOutcome (f r)) :
      RecordStep s {s with messageIngress := s.messageIngress.update p f hf}
  | decisions (s : MessageRecords) (routeDecisions) : RecordStep s {s with routeDecisions}
  | task {s o} (hretry : ∀ t, o.retryOfTaskId = some t → s.HasTask t o.contextId) :
      RecordStep s {s with tasks := s.tasks++[o]}
  | delegations (s : MessageRecords) (delegatedTasks) : RecordStep s {s with delegatedTasks}

namespace RecordStep

variable {s s' : MessageRecords} {t : TaskId} {m : MessageId} {c : ContextId}

theorem hasTask (hs : RecordStep s s') (h : s.HasTask t c) : s'.HasTask t c := by
  cases hs with
  | task =>
    obtain ⟨o,ho,heq⟩ := h
    exact ⟨o,List.mem_append_left _ ho,heq⟩
  | _ => exact h

theorem hasMessage (hs : RecordStep s s') (h : s.HasMessage m c) : s'.HasMessage m c := by
  cases hs with
  | message _ hinsert =>
    obtain ⟨r,hr,hcontext⟩ := h
    refine ⟨r,?_,hcontext⟩
    rw [Table.get_insert? hinsert,if_neg fun heq => ?_,hr]
    rw [← heq,Table.insert?_fresh hinsert] at hr
    cases hr
  | _ => exact h

theorem ownsOutcome (hs : RecordStep s s') {i : MessageIngressRecord} (h : s.OwnsOutcome i) :
    s'.OwnsOutcome i := by
  intro kind id hkind hid
  have hout := h kind id hkind hid
  cases kind with
  | message => exact hs.hasMessage hout
  | task => exact hs.hasTask hout
  | delegation => trivial

/-- No step lets a name point out of its context. -/
theorem owned (hs : RecordStep s s') (h : s.Owned) : s'.Owned := by
  have hmessages : ∀ r ∈ s.messages.rows, ∀ t, r.taskId = some t → s'.HasTask t r.contextId :=
    fun r hr t ht => hs.hasTask (h.messages r hr t ht)
  have hretries : ∀ o ∈ s.tasks, ∀ t, o.retryOfTaskId = some t → s'.HasTask t o.contextId :=
    fun o ho t ht => hs.hasTask (h.retries o ho t ht)
  have hreceipts : ∀ i ∈ s.messageIngress.rows, s'.HasMessage i.messageId i.contextId :=
    fun i hi => hs.hasMessage (h.receipts i hi)
  have houtcomes : ∀ i ∈ s.messageIngress.rows, s'.OwnsOutcome i :=
    fun i hi => hs.ownsOutcome (h.outcomes i hi)
  cases hs with
  | message htask hinsert =>
    refine ⟨fun r hr t ht => ?_,hretries,hreceipts,houtcomes⟩
    rcases (Table.mem_insert? hinsert).mp hr with hr | rfl
    · exact hmessages r hr t ht
    · exact htask t ht
  | receipt hmessage hinsert =>
    refine ⟨hmessages,hretries,fun i hi => ?_,fun i hi => ?_⟩
    · rcases (Table.mem_insert? hinsert).mp hi with hi | rfl
      · exact hreceipts i hi
      · exact hmessage
    · rcases (Table.mem_insert? hinsert).mp hi with hi | rfl
      · exact houtcomes i hi
      · exact fun kind id hkind => nomatch hkind
  | @ingress p f hf hcontext houtcome =>
    refine ⟨hmessages,hretries,fun i hi => ?_,fun i hi => ?_⟩
    all_goals
      obtain ⟨i₀,hi₀,rfl⟩ := List.mem_map.mp hi
      split
    · rw [hf,hcontext]
      exact hreceipts i₀ hi₀
    · exact hreceipts i₀ hi₀
    · exact houtcome h i₀ hi₀ ‹_›
    · exact houtcomes i₀ hi₀
  | task hretry =>
    refine ⟨hmessages,fun o ho t ht => ?_,hreceipts,houtcomes⟩
    rcases List.mem_append.mp ho with ho | ho
    · exact hretries o ho t ht
    · obtain rfl := List.mem_singleton.mp ho
      obtain ⟨o',ho',heq⟩ := hretry t ht
      exact ⟨o',List.mem_append_left _ ho',heq⟩
  | contexts | decisions | delegations => exact ⟨hmessages,hretries,hreceipts,houtcomes⟩

theorem of_taskStep (hs : TaskStep s s') : RecordStep s s' := by
  cases hs with
  | message htask hstored hinsert =>
    refine .message (fun t ht => ?_) hinsert
    cases htask.symm.trans ht
    exact hstored
  | delegation => exact .delegations s _

end RecordStep

variable {db db' : AgentDb} {t : TaskId} {c : ContextId} {m : MessageId}

/-- The records of messages move by these steps. -/
abbrev RecordMoves {α : Type} (x : StoreTxn α) : Prop :=
  Txn.Moves AgentDb.messageRecords RecordStep x

abbrev RecordsTo (db db' : AgentDb) : Prop :=
  Relation.ReflTransGen RecordStep db.messageRecords db'.messageRecords

theorem RecordsTo.hasTask (h : RecordsTo db db') (ht : db.messageRecords.HasTask t c) :
    db'.messageRecords.HasTask t c :=
  reflTransGen_invariant (I := fun s => s.HasTask t c) (fun _ _ hs h => hs.hasTask h) h ht

theorem RecordsTo.hasMessage (h : RecordsTo db db') (hm : db.messageRecords.HasMessage m c) :
    db'.messageRecords.HasMessage m c :=
  reflTransGen_invariant (I := fun s => s.HasMessage m c) (fun _ _ hs h => hs.hasMessage h) h hm

section Operations

/-- A message outside of tasks, stored now or before. -/
theorem appendMessage_recordsTo {id : MessageId} {role : MessageRole} {parts : List Json}
    {metadata : Json} {r : MessageRecord}
    (h : (appendMessage id c role parts none metadata).run db = .ok (r,db')) :
    RecordsTo db db' ∧ db'.messageRecords.HasMessage r.messageId c := by
  obtain ⟨_,⟨hget,hcontext,_,_,_,rfl⟩ | ⟨sequence,messages,hr,hinsert,hrecords⟩⟩ :=
    appendMessage_records h
  · have hkey : r.messageId = id := Table.key_of_get hget
    exact ⟨.refl,r,hkey ▸ hget,hcontext⟩
  · rw [RecordsTo,hrecords]
    have htask : r.taskId = none := congrArg MessageRecord.taskId hr
    have hcontext : r.contextId = c := congrArg MessageRecord.contextId hr
    refine ⟨.single (.message (fun t ht => ?_) hinsert),r,?_,hcontext⟩
    · rw [htask] at ht
      cases ht
    · exact (Table.get_insert? hinsert _).trans (if_pos rfl)

theorem createContext_moves (title : Option String) (metadata : Json) :
    RecordMoves (createContext c title metadata) := by
  intro db r db' h
  simp only [createContext,getContext,bind_ok,run_select,orFail_ok,write?_ok,
    Option.map_eq_some_iff,Except.ok.injEq,Prod.mk.injEq] at h
  obtain ⟨_,_,⟨contexts,_,rfl⟩,_,_,⟨rfl,rfl⟩,_,rfl⟩ := h
  exact .single (.contexts db.messageRecords _)

theorem reserveMessageIngress_moves (fingerprint : String) :
    RecordMoves (reserveMessageIngress m c fingerprint) := by
  rintro db ⟨row,created⟩ db' h
  have hmessage : db.messageRecords.HasMessage m c := by
    simp only [reserveMessageIngress,getContext,getMessage,bind_ok,run_select,orFail_ok,require_ok,
      Except.ok.injEq,Prod.mk.injEq] at h
    obtain ⟨_,_,⟨rfl,rfl⟩,_,_,⟨_,rfl⟩,_,_,⟨rfl,rfl⟩,r,_,⟨hr,rfl⟩,_,_,⟨hcontext,_⟩,_⟩ := h
    exact ⟨r,hr,hcontext⟩
  obtain ⟨_,_,rfl⟩ | ⟨_,rfl,messageIngress,hinsert,rfl⟩ := reserveMessageIngress_records h
  · rfl
  · exact .single (.receipt hmessage hinsert)

/-- An update of records of receipt that leaves their outcomes. -/
theorem updateInProgressIngress_moves {p : MessageIngressRecord → Bool}
    {f : MessageIngressRecord → MessageIngressRecord} {hf : ∀ r, (f r).messageId = r.messageId}
    (hcontext : ∀ r, (f r).contextId = r.contextId)
    (houtcome : ∀ r, (f r).outcomeKind = r.outcomeKind ∧ (f r).outcomeId = r.outcomeId) :
    RecordMoves (updateInProgressIngress p f hf) := by
  intro db u db' h
  cases h
  refine .single (@RecordStep.ingress _ _ f hf hcontext fun howned r hr _ kind id hkind hid => ?_)
  rw [(houtcome r).1] at hkind
  rw [(houtcome r).2] at hid
  rw [hcontext]
  exact howned.outcomes r hr kind id hkind hid

theorem failMessageIngress_moves (error : IngressError) :
    RecordMoves (failMessageIngress m error) :=
  (updateInProgressIngress_moves (f := MessageIngressRecord.fail error) (fun _ => rfl)
    fun _ => ⟨rfl,rfl⟩).bind fun _ =>
    (Keeps.select _).moves.bind fun _ => (Keeps.orFail _ _).moves

theorem failInProgressMessageIngresses_moves (error : IngressError) :
    RecordMoves (failInProgressMessageIngresses error) := by
  refine (Keeps.select _).moves.bind fun rows db ids db' h => ?_
  simp only [failMessageIngresses,run_statement,bind_ok,run_select,pure_ok,Except.ok.injEq,
    Prod.mk.injEq] at h
  obtain ⟨_,_,⟨_,rfl⟩,_,_,hfail,_,rfl⟩ := h
  exact updateInProgressIngress_moves (f := MessageIngressRecord.fail error) (fun _ => rfl)
    (fun _ => ⟨rfl,rfl⟩) _ _ _ hfail

theorem setMessageIngressRouteDecision_moves (decisionId : String) :
    RecordMoves (setMessageIngressRouteDecision m decisionId) := by
  intro db r db' h
  rw [(setMessageIngressRouteDecision_records h).2]
  exact .single (.ingress (fun _ => rfl) fun howned r hr _ => howned.outcomes r hr)

theorem recordRouteDecision_moves (record : RouteDecisionRecord) :
    RecordMoves (recordRouteDecision record) := by
  intro db d db' h
  obtain ⟨_,_,routeDecisions,_,rfl⟩ := recordRouteDecision_records h
  exact .single (.decisions db.messageRecords _)

theorem createDelegatedTask_moves (record : DelegatedTaskRecord) :
    RecordMoves (createDelegatedTask record) := by
  intro db d db' h
  obtain ⟨delegatedTasks,_,rfl⟩ := createDelegatedTask_records h
  exact .single (.delegations db.messageRecords _)

/-- The outcome of a message has to be in the context of its record of receipt. -/
theorem resolveMessageIngress_recordsTo {kind : MessageIngressOutcomeKind} {id : String}
    {r : MessageIngressRecord}
    (houtcome : db.messageRecords.Owned → ∀ r, db.messageIngress.get m = some r →
      db.messageRecords.HasOutcome kind id r.contextId)
    (h : (resolveMessageIngress m kind id).run db = .ok (r,db')) : RecordsTo db db' := by
  rw [RecordsTo,(resolveMessageIngress_records h).2]
  refine .single (.ingress (fun _ => rfl) fun howned r hr hp kind' id' hkind hid => ?_)
  have hkey : r.messageId = m := of_decide_eq_true (Bool.and_eq_true_iff.mp hp).1
  cases hkind
  cases hid
  exact houtcome howned r (hkey ▸ Table.get_of_mem hr)

/-- An outcome outside of messages and tasks. -/
theorem resolveDelegation_moves (id : String) :
    RecordMoves (resolveMessageIngress m .delegation id) := by
  intro db r db' h
  refine resolveMessageIngress_recordsTo ?_ h
  exact fun _ _ _ => trivial

/-- A retry is created where its source is stored. -/
theorem createTask_recordsTo {new : NewTask} {task : TaskRecord}
    (hretry : ∀ t, new.retryOfTaskId = some t → db.messageRecords.HasTask t new.contextId)
    (h : (createTask new).run db = .ok (task,db')) :
    RecordsTo db db' ∧ db'.messageRecords.HasTask new.taskId new.contextId ∧
      db'.messageRecords.HasMessage new.inputMessageId new.contextId := by
  obtain ⟨_,_,_,⟨sequence,horigin⟩,_⟩ := createTask_task h
  obtain ⟨hid,hcontext,_,_,hrecords⟩ := createTask_records h
  have hinput : db.messageRecords.HasMessage new.inputMessageId new.contextId := by
    simp only [createTask,getMessage,bind_ok,run_select,require_ok,orFail_ok,Except.ok.injEq,
      Prod.mk.injEq] at h
    obtain ⟨_,_,⟨rfl,rfl⟩,r,_,⟨hr,rfl⟩,_,_,⟨hcontext,_⟩,_⟩ := h
    exact ⟨r,hr,hcontext⟩
  rw [RecordsTo,hrecords]
  refine ⟨.single (.task fun t ht => ?_),⟨task.origin,List.mem_append_right _ List.mem_cons_self,
    hid,hcontext⟩,hinput⟩
  rw [horigin] at ht ⊢
  exact hretry t ht

end Operations

section Transactions

open MainAgentCore

theorem resolveContextId_moves (contextId : Option ContextId) (newContextId : ContextId)
    (title : Option String) : RecordMoves (resolveContextId contextId newContextId title) := by
  cases contextId with
  | none => exact (createContext_moves _ _).bind fun _ => (Keeps.pure _).moves
  | some contextId =>
    exact (Keeps.select _).moves.bind fun _ => (Keeps.orFail _ _).moves.bind fun _ =>
      (Keeps.pure _).moves

theorem prepareMessage_moves (core : CoreEnv) (request : MainAgentRequest) (id : MessageId)
    (contextId : ContextId) : RecordMoves (prepareMessage core request id contextId) := by
  have hexisting : ∀ fingerprint ingress,
      RecordMoves (preparedExistingMessageIngress request fingerprint ingress) :=
    fun _ _ => (preparedExistingMessageIngress_keeps _ _ _).moves
  have hroute : RecordMoves (validateExplicitRouteMetadata core request.metadata) := by
    intro db u db' h
    rw [validateExplicitRouteMetadata_reads h]
  refine (Keeps.require _ _).moves.bind fun _ => hroute.bind fun _ =>
    (Keeps.select _).moves.bind fun o => ?_
  cases o with
  | some ingress => exact hexisting _ _
  | none =>
    exact (Keeps.select _).moves.bind fun _ => (Keeps.require _ _).moves.bind fun _ =>
      (resolveContextId_moves _ _ _).bind fun _ =>
      Moves.bind (fun _ _ _ h => (appendMessage_recordsTo h).1) fun _ =>
      (reserveMessageIngress_moves _).bind fun _ => .ite (hexisting _ _) (Keeps.pure _).moves

theorem recordMessageIngressRoute_moves (route : MainAgentRouteDecision) (decisionId : String) :
    RecordMoves (recordMessageIngressRoute c m route decisionId) :=
  (recordRouteDecision_moves _).bind fun _ => (setMessageIngressRouteDecision_moves _).bind
    fun _ => (Keeps.pure _).moves

/-- The answer is stored in the context of the message's record of receipt. -/
theorem completeLocalMessage_recordsTo {id : MessageId} {decisionId : String} {parts : List Json}
    {r : MessageRecord}
    (hcontext : ∀ row, db.messageIngress.get m = some row → row.contextId = c)
    (h : (completeLocalMessage c m id decisionId parts).run db = .ok (r,db')) :
    RecordsTo db db' := by
  simp only [completeLocalMessage,bind_ok,pure_ok] at h
  obtain ⟨_,db₁,happend,_,_,hresolve,rfl,rfl⟩ := h
  obtain ⟨hmoved,hmessage⟩ := appendMessage_recordsTo happend
  have hingress : db₁.messageIngress = db.messageIngress :=
    appendMessage_keeps (v := AgentDb.messageIngress) (fun _ _ => rfl) (fun _ _ => rfl) _ _ _ _ _ _
      _ _ _ happend
  have houtcome : ∀ row, db₁.messageIngress.get m = some row →
      db₁.messageRecords.HasMessage _ row.contextId := fun row hrow => by
    rw [hcontext row (hingress ▸ hrow)]
    exact hmessage
  exact hmoved.trans (resolveMessageIngress_recordsTo (fun _ => houtcome) hresolve)

theorem completeRemoteMessage_moves (id : MessageId) (decisionId delegationId : String)
    (agentId : AgentId) (remote : RemoteAgentSendResult) :
    RecordMoves (completeRemoteMessage c m id decisionId delegationId agentId remote) :=
  Moves.bind (fun _ _ _ h => (appendMessage_recordsTo h).1) fun _ =>
    (createDelegatedTask_moves _).bind fun _ =>
    (resolveDelegation_moves _).bind fun _ => (Keeps.pure _).moves

theorem completeRemoteTask_moves (decisionId delegationId : String) (agentId : AgentId)
    (remote : RemoteAgentSendResult) (taskId : TaskId) (threadId : ThreadId) :
    RecordMoves (completeRemoteTask c m decisionId delegationId agentId remote taskId threadId) :=
  (Keeps.orFail _ _).moves.bind fun _ =>
    Moves.bind (fun _ _ _ h => (createTask_recordsTo (fun t ht => by cases ht) h).1) fun _ =>
    (messageRecords_ignores.appendTaskEvent _ _ _).moves.bind fun _ =>
    (createDelegatedTask_moves _).bind fun _ =>
    (resolveDelegation_moves _).bind fun _ => (Keeps.pure _).moves

/-- The accepted task is stored in the context of its message, with its source beside it. -/
theorem acceptLocalTaskFromMessage_recordsTo {a : LocalTaskAcceptance}
    {result : RouteDecisionRecord × TaskRecord}
    (hretry : ∀ t, a.retryOfTaskId = some t →
      db.messageRecords.HasTask t a.decision.contextId)
    (h : (acceptLocalTaskFromMessage a).run db = .ok (result,db')) : RecordsTo db db' := by
  simp only [acceptLocalTaskFromMessage,createLocalTask,bind_ok,require_ok,pure_ok,ite_run] at h
  obtain ⟨_,_,⟨_,rfl⟩,decision,db₁,hdecision,_,db₂,hroute,_,_,⟨created,db₃,hcreate,_,db₄,
    hevent,rfl,rfl⟩,_,db₅,hresolve,h⟩ := h
  have hmoved₂ : RecordsTo db db₂ := (recordRouteDecision_moves _ _ _ _ hdecision).trans
    (setMessageIngressRouteDecision_moves _ _ _ _ hroute)
  obtain ⟨hmoved₃,htask,hmessage⟩ :=
    createTask_recordsTo (fun t ht => hmoved₂.hasTask (hretry t ht)) hcreate
  have hevents := messageRecords_ignores.appendTaskEvent _ _ _ _ _ _ hevent
  have hid : created.taskId = a.taskId := (createTask_records hcreate).1
  have houtcome : db₄.messageRecords.Owned → ∀ row,
      db₄.messageIngress.get a.decision.messageId = some row →
        db₄.messageRecords.HasTask created.taskId row.contextId := by
    intro howned row hrow
    obtain ⟨r,hr,hcontext⟩ := howned.receipts row (Table.mem_of_get hrow)
    obtain ⟨r',hr',hcontext'⟩ := hmessage
    have hkey : row.messageId = a.decision.messageId := Table.key_of_get hrow
    rw [hevents,hkey] at hr
    cases hr.symm.trans hr'
    rw [hevents,hid,← hcontext,hcontext']
    exact htask
  have hmoved₄ : RecordsTo db₃ db₄ := by rw [RecordsTo,hevents]
  have hmoved₅ : RecordsTo db₄ db₅ := resolveMessageIngress_recordsTo houtcome hresolve
  have hlast : db'.messageRecords = db₅.messageRecords := by
    split at h
    · simp only [bind_ok,pure_ok] at h
      obtain ⟨_,db₆,hqueue,_,_,henqueue,_,rfl⟩ := h
      rw [messageRecords_ignores.enqueueTaskExecution _ _ _ _ _ _ _ henqueue,
        messageRecords_ignores.transitionLocalTask _ _ _ _ _ _ hqueue]
    · rw [(pure_ok.mp h).2]
  rw [RecordsTo,hlast]
  exact hmoved₂.trans (hmoved₃.trans (hmoved₄.trans hmoved₅))

theorem retryableFailedLocalTask_get {task : TaskRecord}
    (h : (retryableFailedLocalTask t).run db = .ok (task,db')) :
    db.tasks.get t = some task := by
  simp only [retryableFailedLocalTask,getTask,bind_ok,run_select,orFail_ok,Except.ok.injEq,
    Prod.mk.injEq] at h
  obtain ⟨_,_,⟨rfl,rfl⟩,task',_,⟨htask,rfl⟩,_,_,_,_,_,_,_,_,_,_,_,_,_,_,_,h⟩ := h
  exact htask.trans (congrArg some (pure_ok.mp h).1)

theorem acceptRetry_moves (core : CoreEnv) (ids : RetryIds) (seen : TaskRecord)
    (inputMessage : MessageRecord) :
    RecordMoves (acceptRetry core t ids seen inputMessage) := by
  intro db result db' h
  rw [acceptRetry_eq] at h
  simp only [getDirectTaskRetry,bind_ok,run_select,Except.ok.injEq,Prod.mk.injEq] at h
  obtain ⟨source,_,hsource,o,_,⟨_,rfl⟩,h⟩ := h
  have hstored := hasTask_of_get (retryableFailedLocalTask_get hsource)
  cases retryableFailedLocalTask_ok hsource
  cases o with
  | some existing => rw [(pure_ok.mp h).2]
  | none =>
    have hkey : source.taskId = t := Table.key_of_get (retryableFailedLocalTask_get hsource)
    simp only [storeRetry,bind_ok,pure_ok] at h
    obtain ⟨message,db₁,happend,_,db₂,hreserve,_,db₃,haccept,_,db₄,hevent,_,db₅,hevent',_,rfl⟩ := h
    have hmoved : RecordsTo db db₂ := (appendMessage_recordsTo happend).1.trans
      (reserveMessageIngress_moves _ _ _ _ hreserve)
    have hsource : ∀ t', some source.taskId = some t' →
        db₂.messageRecords.HasTask t' source.contextId := by
      rintro t' ht'
      rw [← Option.some.inj ht',hkey]
      exact hmoved.hasTask hstored
    have haccepted := acceptLocalTaskFromMessage_recordsTo hsource haccept
    have hevents : db₅.messageRecords = db₃.messageRecords :=
      (messageRecords_ignores.appendTaskEvent _ _ _ _ _ _ hevent').trans
        (messageRecords_ignores.appendTaskEvent _ _ _ _ _ _ hevent)
    rw [hevents]
    exact hmoved.trans haccepted

/-- An answer to a message goes to the context that the message was received in. -/
def CoreTxn.AnswersIn (db : AgentDb) : CoreTxn → Prop
  | .completeLocalMessage c m _ _ _ =>
    ∀ row, db.messageIngress.get m = some row → row.contextId = c
  | _ => True

theorem CoreTxn.recordsTo (core : CoreEnv) (env : LedgerEnv) {x : CoreTxn}
    {a : Option PostCommitAction} (hanswers : x.AnswersIn db)
    (h : (x.txn core env).run db = .ok (a,db')) : RecordsTo db db' := by
  have hrecords : ∀ {α : Type} {x : StoreTxn α} {f : α → Option PostCommitAction},
      RecordMoves x → (f <$> x).run db = .ok (a,db') → RecordsTo db db' :=
    fun hx h => hx.map _ _ _ _ h
  cases x with
  | prepareMessage => exact hrecords (prepareMessage_moves _ _ _ _) h
  | recordMessageIngressFailure => exact hrecords (failMessageIngress_moves _) h
  | recordMessageIngressRoute => exact hrecords (recordMessageIngressRoute_moves _ _) h
  | completeLocalMessage =>
    obtain ⟨_,h,_⟩ := (map_ok _ _).mp h
    exact completeLocalMessage_recordsTo hanswers h
  | acceptLocalTask =>
    obtain ⟨_,h,_⟩ := (map_ok _ _).mp h
    exact acceptLocalTaskFromMessage_recordsTo (fun t ht => by cases ht) h
  | completeRemoteMessage => exact hrecords (completeRemoteMessage_moves _ _ _ _ _) h
  | completeRemoteTask => exact hrecords (completeRemoteTask_moves _ _ _ _ _ _) h
  | retryTask => exact hrecords (acceptRetry_moves _ _ _ _) h
  | failInProgressMessageIngresses => exact hrecords (failInProgressMessageIngresses_moves _) h
  | _ => exact (CoreTxn.txn_taskMoves core env rfl rfl).mono (fun _ _ => .of_taskStep) _ _ _ h

/-- A deleted context takes along whatever its rows refer to. -/
theorem MessageRecords.Owned.deletion {taskIds : List TaskId} {u : Unit} (h : db.messageRecords.Owned)
    (hrun : (deleteContextRows c taskIds).run db = .ok (u,db')) : db'.messageRecords.Owned := by
  have hdb := deleteContextRows_ok hrun
  have hmessages : db'.messages = db.messages.delete fun r => r.contextId = c := by rw [hdb]
  have hingress : db'.messageIngress = db.messageIngress.delete fun r => r.contextId = c := by
    rw [hdb]
  have htasks : db'.tasks = db.tasks.delete fun r => r.contextId = c := by rw [hdb]
  have hmem : ∀ o, o ∈ db'.messageRecords.tasks ↔ o ∈ db.messageRecords.tasks ∧ o.contextId ≠ c := by
    intro o
    simp only [AgentDb.messageRecords,htasks,Table.delete,List.mem_map,List.mem_filter]
    constructor
    · rintro ⟨r,⟨hr,hne⟩,rfl⟩
      exact ⟨⟨r,hr,rfl⟩,by simpa [TaskRecord.origin] using hne⟩
    · rintro ⟨⟨r,hr,rfl⟩,hne⟩
      exact ⟨r,⟨hr,by simpa [TaskRecord.origin] using hne⟩,rfl⟩
  have htask : ∀ {t c'}, c' ≠ c → db.messageRecords.HasTask t c' →
      db'.messageRecords.HasTask t c' := by
    rintro t c' hne ⟨o,ho,rfl,rfl⟩
    exact ⟨o,(hmem o).mpr ⟨ho,hne⟩,rfl,rfl⟩
  have hmessage : ∀ {m c'}, c' ≠ c → db.messageRecords.HasMessage m c' →
      db'.messageRecords.HasMessage m c' := by
    rintro m c' hne ⟨r,hr,rfl⟩
    refine ⟨r,?_,rfl⟩
    have hget : db.messages.get m = some r := hr
    change db'.messages.get m = some r
    rw [hmessages,Table.get_delete,hget]
    simp [Option.filter,hne]
  constructor
  · intro r hr t ht
    have hr : r ∈ db'.messages.rows := hr
    rw [hmessages] at hr
    obtain ⟨hr,hne⟩ := List.mem_filter.mp hr
    exact htask (by simpa using hne) (h.messages r hr t ht)
  · intro o ho t ht
    obtain ⟨ho,hne⟩ := (hmem o).mp ho
    exact htask hne (h.retries o ho t ht)
  all_goals
    intro i hi
    have hi : i ∈ db'.messageIngress.rows := hi
    rw [hingress] at hi
    obtain ⟨hi,hne⟩ := List.mem_filter.mp hi
    have hne : i.contextId ≠ c := by simpa using hne
  · exact hmessage hne (h.receipts i hi)
  · intro kind id hkind hid
    have hout := h.outcomes i hi kind id hkind hid
    cases kind with
    | message => exact hmessage hne hout
    | task => exact htask hne hout
    | delegation => trivial

theorem MessageRecords.owned_empty : AgentDb.empty.messageRecords.Owned := by
  constructor
  all_goals
    intro r hr
    cases hr

end Transactions
end VermayAgent
