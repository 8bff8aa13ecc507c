import VermayAgent.Library.Connections
import VermayAgent.AgentTxns
import VermayAgent.TaskFrames

/-! The rows that record a message and what it led to.
Most of their columns are written once. Here stands what each transaction writes of them, in the
words of the rows alone; the progress of tasks only adds messages of those tasks. -/
namespace VermayAgent
open Library Txn MainAgentStore

structure MessageRecords where
  contexts : List ContextId
  messages : Table MessageRecord.messageId
  messageIngress : Table MessageIngressRecord.messageId
  routeDecisions : Table RouteDecisionRecord.decisionId
  tasks : List TaskOrigin
  delegatedTasks : Table DelegatedTaskRecord.delegationId

def AgentDb.messageRecords (db : AgentDb) : MessageRecords :=
  ⟨db.contexts.rows.map (·.contextId),db.messages,db.messageIngress,db.routeDecisions,
    db.tasks.rows.map (·.origin),db.delegatedTasks⟩

/-- `UPDATE … WHERE message_id=? AND state='in_progress'`. -/
def MessageRecords.updateIngress (s : MessageRecords) (m : MessageId)
    (f : MessageIngressRecord → MessageIngressRecord)
    (hf : ∀ r, (f r).messageId = r.messageId) : MessageRecords :=
  {s with messageIngress := (s.messageIngress.update
    (fun r => r.messageId = m && r.state = .inProgress) f hf)}

namespace MessageIngressRecord

/-- The row that reserves a message. -/
def reserved (messageId : MessageId) (contextId : ContextId) (requestFingerprint : String) :
    MessageIngressRecord :=
  ⟨messageId,contextId,requestFingerprint,.inProgress,none,none,none,none,none,none,false⟩

def withRoute (routeDecisionId : String) (r : MessageIngressRecord) : MessageIngressRecord :=
  {r with routeDecisionId := some routeDecisionId}

theorem withRoute_messageId (routeDecisionId : String) (r : MessageIngressRecord) :
    (r.withRoute routeDecisionId).messageId = r.messageId := rfl

def resolve (outcomeKind : MessageIngressOutcomeKind) (outcomeId : String)
    (r : MessageIngressRecord) : MessageIngressRecord :=
  {r with
    state := .resolved
    outcomeKind := some outcomeKind
    outcomeId := some outcomeId
    errorCode := none
    errorMessage := none
    errorHttpStatus := none
    errorRetryable := false}

theorem resolve_messageId (outcomeKind : MessageIngressOutcomeKind) (outcomeId : String)
    (r : MessageIngressRecord) : (r.resolve outcomeKind outcomeId).messageId = r.messageId := rfl

end MessageIngressRecord

namespace MessageRecords

def routeIngress (s : MessageRecords) (m : MessageId) (routeDecisionId : String) :
    MessageRecords :=
  s.updateIngress m _ (MessageIngressRecord.withRoute_messageId routeDecisionId)

def resolveIngress (s : MessageRecords) (m : MessageId) (outcomeKind : MessageIngressOutcomeKind)
    (outcomeId : String) : MessageRecords :=
  s.updateIngress m _ (MessageIngressRecord.resolve_messageId outcomeKind outcomeId)

def failIngress (s : MessageRecords) (m : MessageId) (error : IngressError) : MessageRecords :=
  s.updateIngress m _ (MainAgentStore.MessageIngressRecord.fail_messageId error)

end MessageRecords

/-- The task is stored in the context. -/
def MessageRecords.HasTask (s : MessageRecords) (t : TaskId) (c : ContextId) : Prop :=
  ∃ o ∈ s.tasks, o.taskId = t ∧ o.contextId = c

/-- What the progress of tasks writes: a message of a task in its context, or news of its remote
process. -/
inductive TaskStep : MessageRecords → MessageRecords → Prop where
  | message {s r messages t} (htask : r.taskId = some t) (hstored : s.HasTask t r.contextId)
      (hinsert : s.messages.insert? r = some messages) : TaskStep s {s with messages}
  | delegation {s id} (status : String) (metadata : Json)
      (htask : ∀ d, s.delegatedTasks.get id = some d → d.localTaskId.isSome = true) :
      TaskStep s {s with delegatedTasks := (s.delegatedTasks.update
        (fun r => r.delegationId = id) fun r => {r with status, metadata})}

variable {db db' : AgentDb} {c : ContextId} {m : MessageId}

section Frames

theorem messageRecords_ignores : IgnoresProgress AgentDb.messageRecords := by
  constructor
  · intro db p f hf horigin
    have htasks : (db.tasks.update p f hf).rows.map (·.origin) =
        db.tasks.rows.map (·.origin) := by
      simp only [Table.update,List.map_map]
      refine List.map_congr_left fun r _ => ?_
      by_cases hp : p r = true <;> simp [hp,horigin]
    simp only [AgentDb.messageRecords,htasks]
  all_goals intros; rfl

/-- A counter of a context moves, its key does not. -/
theorem messageRecords_updateContexts (p : ContextRecord → Bool) (f : ContextRecord → ContextRecord)
    (hf : ∀ r, (f r).contextId = r.contextId) :
    ({db with contexts := db.contexts.update p f hf} : AgentDb).messageRecords =
      db.messageRecords := by
  have hcontexts : (db.contexts.update p f hf).rows.map (·.contextId) =
      db.contexts.rows.map (·.contextId) := by
    simp only [Table.update,List.map_map]
    refine List.map_congr_left fun r _ => ?_
    by_cases hp : p r = true <;> simp [hp,hf]
  simp only [AgentDb.messageRecords,hcontexts]

theorem mem_contexts : c ∈ db.messageRecords.contexts ↔ ∃ r, db.contexts.get c = some r := by
  rw [← Option.isSome_iff_exists,← not_iff_not,Option.not_isSome_iff_eq_none,
    Table.get_eq_none_iff]
  rfl

end Frames

section Operations

/-- An appended message is a new row, unless there is an equal one of the same id. -/
theorem appendMessage_records {id : MessageId} {role : MessageRole} {parts : List Json}
    {taskId : Option TaskId} {metadata : Json} {r : MessageRecord}
    (h : (appendMessage id c role parts taskId metadata).run db = .ok (r,db')) :
    c ∈ db.messageRecords.contexts ∧
      ((db.messages.get id = some r ∧ r.contextId = c ∧ r.role = role ∧ r.parts = parts ∧
          r.taskId = taskId ∧ db' = db) ∨
        ∃ sequence messages, r = ⟨id,c,sequence,role,parts,taskId,metadata⟩ ∧
          db.messages.insert? r = some messages ∧
          db'.messageRecords = {db.messageRecords with messages}) := by
  simp only [appendMessage,getContext,getMessage,bind_ok,run_select,orFail_ok,Except.ok.injEq,
    Prod.mk.injEq] at h
  obtain ⟨_,_,⟨rfl,rfl⟩,context,_,⟨hc,rfl⟩,o,_,⟨ho,rfl⟩,h⟩ := h
  refine ⟨mem_contexts.mpr ⟨context,hc⟩,?_⟩
  cases o with
  | some existing =>
    simp only [bind_ok,require_ok,pure_ok] at h
    obtain ⟨_,_,⟨⟨h₁,h₂,h₃,h₄⟩,rfl⟩,rfl,rfl⟩ := h
    exact .inl ⟨ho,h₁,h₂,h₃,h₄,rfl⟩
  | none =>
    simp only [insertMessage,uniqueConstraint,bind_ok,run_write,run_select,run_statement,orFail_ok,
      require_ok,write?_ok,Option.map_eq_some_iff,Except.ok.injEq,Prod.mk.injEq] at h
    obtain ⟨_,_,⟨_,rfl⟩,_,_,⟨rfl,rfl⟩,context',_,⟨_,rfl⟩,_,_,⟨_,_,⟨_,rfl⟩,_,_,⟨_,rfl⟩,messages,
      hinsert,rfl⟩,_,_,⟨rfl,rfl⟩,hget,rfl⟩ := h
    rw [Table.get_insert? hinsert,if_pos rfl,Option.some.injEq] at hget
    refine .inr ⟨_,messages,hget.symm,?_,?_⟩
    · rw [← hget]
      exact hinsert
    · have hctx := @messageRecords_updateContexts db (fun r => decide (r.contextId = c))
        (fun r => {r with nextMessageSequence := r.nextMessageSequence+1}) fun _ => rfl
      exact congrArg (fun s : MessageRecords => {s with messages}) hctx

/-- A reservation that creates its row finds none of that message. -/
theorem reserveMessageIngress_records {fingerprint : String} {row : MessageIngressRecord}
    {created : Bool}
    (h : (reserveMessageIngress m c fingerprint).run db = .ok ((row,created),db')) :
    (created = false ∧ db.messageIngress.get m = some row ∧ db' = db) ∨
      created = true ∧ row = .reserved m c fingerprint ∧
        ∃ messageIngress, db.messageIngress.insert? row = some messageIngress ∧
          db' = {db with messageIngress} := by
  simp only [reserveMessageIngress,getContext,getMessage,getMessageIngress,insertMessageIngress,
    bind_ok,run_select,run_statement,orFail_ok,require_ok,pure_ok,Except.ok.injEq,
    Prod.mk.injEq] at h
  obtain ⟨_,_,⟨rfl,rfl⟩,_,_,⟨_,rfl⟩,_,_,⟨rfl,rfl⟩,_,_,⟨_,rfl⟩,_,_,⟨_,rfl⟩,_,db₁,
    ⟨o,_,⟨ho,rfl⟩,hinsert⟩,_,_,⟨rfl,rfl⟩,_,_,⟨hrow,rfl⟩,⟨rfl,rfl⟩,rfl⟩ := h
  cases o with
  | some existing =>
    obtain ⟨rfl,rfl⟩ := pure_ok.mp hinsert
    exact .inl ⟨rfl,hrow,rfl⟩
  | none =>
    simp only [bind_ok,write?_ok,Option.map_eq_some_iff,pure_ok] at hinsert
    obtain ⟨_,_,⟨messageIngress,hinsert,rfl⟩,rfl,rfl⟩ := hinsert
    rw [Table.get_insert? hinsert,if_pos rfl,Option.some.injEq] at hrow
    subst hrow
    exact .inr ⟨rfl,rfl,messageIngress,hinsert,rfl⟩

theorem updateOneInProgressIngress_records {f : MessageIngressRecord → MessageIngressRecord}
    {hf : ∀ r, (f r).messageId = r.messageId} {u : Unit}
    (h : (updateOneInProgressIngress m f hf).run db = .ok (u,db')) :
    (∃ r, db.messageIngress.get m = some r ∧ r.state = .inProgress) ∧
      db'.messageRecords = db.messageRecords.updateIngress m f hf := by
  simp only [updateOneInProgressIngress,updateInProgressIngress,getMessageIngress,bind_ok,
    run_select,run_statement,require_ok,run_write,Except.ok.injEq,Prod.mk.injEq] at h
  obtain ⟨_,_,⟨rfl,rfl⟩,_,_,⟨hstate,rfl⟩,_,rfl⟩ := h
  exact ⟨Option.map_eq_some_iff.mp hstate,rfl⟩

theorem setMessageIngressRouteDecision_records {decisionId : String} {r : MessageIngressRecord}
    (h : (setMessageIngressRouteDecision m decisionId).run db = .ok (r,db')) :
    (∃ r, db.messageIngress.get m = some r ∧ r.state = .inProgress) ∧
      db'.messageRecords = db.messageRecords.routeIngress m decisionId := by
  simp only [setMessageIngressRouteDecision,getRouteDecision,getMessageIngress,bind_ok,run_select,
    orFail_ok,Except.ok.injEq,Prod.mk.injEq] at h
  obtain ⟨_,_,⟨rfl,rfl⟩,_,_,⟨_,rfl⟩,_,_,hupdate,_,_,⟨rfl,rfl⟩,_,rfl⟩ := h
  exact updateOneInProgressIngress_records hupdate

theorem resolveMessageIngress_records {kind : MessageIngressOutcomeKind} {id : String}
    {r : MessageIngressRecord} (h : (resolveMessageIngress m kind id).run db = .ok (r,db')) :
    (∃ r, db.messageIngress.get m = some r ∧ r.state = .inProgress) ∧
      db'.messageRecords = db.messageRecords.resolveIngress m kind id := by
  simp only [resolveMessageIngress,getMessageIngress,bind_ok,run_select,orFail_ok,Except.ok.injEq,
    Prod.mk.injEq] at h
  obtain ⟨_,_,hupdate,_,_,⟨rfl,rfl⟩,_,rfl⟩ := h
  exact updateOneInProgressIngress_records hupdate

theorem failMessageIngress_records {error : IngressError} {r : MessageIngressRecord}
    (h : (failMessageIngress m error).run db = .ok (r,db')) :
    db'.messageRecords = db.messageRecords.failIngress m error := by
  simp only [failMessageIngress,updateInProgressIngress,getMessageIngress,bind_ok,run_select,
    run_write,orFail_ok,Except.ok.injEq,Prod.mk.injEq] at h
  obtain ⟨_,_,⟨_,rfl⟩,_,_,⟨rfl,rfl⟩,_,rfl⟩ := h
  rfl

theorem recordRouteDecision_records {record decision : RouteDecisionRecord}
    (h : (recordRouteDecision record).run db = .ok (decision,db')) :
    decision = record ∧ record.contextId ∈ db.messageRecords.contexts ∧
      ∃ routeDecisions, db.routeDecisions.insert? record = some routeDecisions ∧
        db' = {db with routeDecisions} := by
  simp only [recordRouteDecision,insertRouteDecision,foreignKey,getContext,getMessage,
    getRouteDecision,bind_ok,run_select,run_statement,orFail_ok,require_ok,write?_ok,
    Option.map_eq_some_iff,Except.ok.injEq,Prod.mk.injEq] at h
  obtain ⟨_,_,⟨rfl,rfl⟩,_,_,⟨_,rfl⟩,_,_,⟨_,_,⟨rfl,rfl⟩,_,_,⟨hcontext,rfl⟩,routeDecisions,hinsert,
    rfl⟩,_,_,⟨rfl,rfl⟩,hget,rfl⟩ := h
  rw [Table.get_insert? hinsert,if_pos rfl,Option.some.injEq] at hget
  exact ⟨hget.symm,mem_contexts.mpr (Option.isSome_iff_exists.mp hcontext),routeDecisions,hinsert,
    rfl⟩

/-- The new row's written-once columns. -/
theorem createTask_records {new : NewTask} {task : TaskRecord}
    (h : (createTask new).run db = .ok (task,db')) :
    task.taskId = new.taskId ∧ task.contextId = new.contextId ∧
      task.inputMessageId = new.inputMessageId ∧ new.contextId ∈ db.messageRecords.contexts ∧
      db'.messageRecords =
        {db.messageRecords with tasks := db.messageRecords.tasks++[task.origin]} := by
  simp only [createTask,insertTask,foreignKey,uniqueConstraint,getContext,getMessage,getTask,
    bind_ok,run_select,run_statement,orFail_ok,require_ok,write?_ok,Option.map_eq_some_iff,
    Except.ok.injEq,Prod.mk.injEq] at h
  obtain ⟨_,_,⟨rfl,rfl⟩,message,_,⟨_,rfl⟩,_,_,⟨_,rfl⟩,_,_,⟨_,rfl⟩,_,_,⟨_,_,⟨rfl,rfl⟩,_,_,
    ⟨hcontext,rfl⟩,_,_,⟨rfl,rfl⟩,_,_,⟨_,rfl⟩,_,_,⟨_,rfl⟩,tasks,hinsert,rfl⟩,_,_,⟨rfl,rfl⟩,hget,
    rfl⟩ := h
  rw [Table.get_insert? hinsert,if_pos rfl,Option.some.injEq] at hget
  subst hget
  refine ⟨rfl,rfl,rfl,mem_contexts.mpr (Option.isSome_iff_exists.mp hcontext),?_⟩
  simp only [AgentDb.messageRecords,Table.rows_insert? hinsert,List.map_append,List.map_singleton]

theorem createDelegatedTask_records {record delegation : DelegatedTaskRecord}
    (h : (createDelegatedTask record).run db = .ok (delegation,db')) :
    ∃ delegatedTasks, db.delegatedTasks.insert? record = some delegatedTasks ∧
      db' = {db with delegatedTasks} := by
  simp only [createDelegatedTask,getContext,getMessage,getRouteDecision,getRegisteredAgent,
    getDelegatedTask,bind_ok,run_select,orFail_ok,write?_ok,Option.map_eq_some_iff,
    Except.ok.injEq,Prod.mk.injEq] at h
  obtain ⟨_,_,⟨rfl,rfl⟩,_,_,⟨_,rfl⟩,_,_,⟨rfl,rfl⟩,_,_,⟨_,rfl⟩,_,_,⟨rfl,rfl⟩,_,_,⟨_,rfl⟩,_,_,
    ⟨rfl,rfl⟩,_,_,⟨_,rfl⟩,_,_,⟨delegatedTasks,hinsert,rfl⟩,_,_,⟨rfl,rfl⟩,_,rfl⟩ := h
  exact ⟨delegatedTasks,hinsert,rfl⟩

end Operations

section Transactions

open MainAgentCore

/-- What the admission of a new message wrote: its context where it had none, itself, and the
reservation. -/
structure Admits (env : CoreEnv) (request : MainAgentRequest) (m : MessageId) (c newContextId : ContextId)
    (s s' : MessageRecords) : Prop where
  contexts : c ∈ s.contexts ∧ request.contextId = some c ∧ s'.contexts = s.contexts ∨
    c = newContextId ∧ c ∉ s.contexts ∧ request.contextId = none ∧ s'.contexts = s.contexts++[c]
  message : ∃ r, r.messageId = m ∧ r.contextId = c ∧ r.role = .user ∧ r.taskId = none ∧
    s.messages.insert? r = some s'.messages
  reservation : s.messageIngress.insert? (.reserved m c
    (env.fingerprint request.role request.parts request.metadata)) = some s'.messageIngress
  routeDecisions : s'.routeDecisions = s.routeDecisions
  tasks : s'.tasks = s.tasks
  delegatedTasks : s'.delegatedTasks = s.delegatedTasks

theorem resolveContextId_records {contextId : Option ContextId} {newContextId : ContextId}
    {title : Option String}
    (h : (resolveContextId contextId newContextId title).run db = .ok (c,db')) :
    ∃ contexts, (c ∈ db.messageRecords.contexts ∧ contextId = some c ∧
        contexts = db.messageRecords.contexts ∨ c = newContextId ∧
        c ∉ db.messageRecords.contexts ∧ contextId = none ∧
        contexts = db.messageRecords.contexts++[c]) ∧
      db'.messageRecords = {db.messageRecords with contexts} := by
  unfold resolveContextId at h
  cases contextId with
  | some contextId =>
    simp only [getContext,bind_ok,run_select,orFail_ok,pure_ok,Except.ok.injEq,Prod.mk.injEq] at h
    obtain ⟨_,_,⟨rfl,rfl⟩,context,_,⟨hc,rfl⟩,rfl,rfl⟩ := h
    exact ⟨_,.inl ⟨mem_contexts.mpr ⟨context,hc⟩,rfl,rfl⟩,rfl⟩
  | none =>
    simp only [createContext,getContext,bind_ok,run_select,orFail_ok,pure_ok,write?_ok,
      Option.map_eq_some_iff,Except.ok.injEq,Prod.mk.injEq] at h
    obtain ⟨context,_,⟨_,_,⟨contexts,hinsert,rfl⟩,_,_,⟨rfl,rfl⟩,hget,rfl⟩,rfl,rfl⟩ := h
    have hid : context.contextId = newContextId := Table.key_of_get hget
    have hfresh : db.contexts.get newContextId = none := Table.insert?_fresh hinsert
    refine ⟨_,.inr ⟨hid,fun hmem => ?_,rfl,rfl⟩,?_⟩
    · obtain ⟨r,hr⟩ := mem_contexts.mp (hid ▸ hmem)
      rw [hfresh] at hr
      cases hr
    · simp only [AgentDb.messageRecords,Table.rows_insert? hinsert,List.map_append,
        List.map_singleton,hid]

/-- A message that was admitted before is answered, never admitted again. -/
theorem preparedExistingMessageIngress_result {request : MainAgentRequest} {fingerprint : String}
    {ingress : MessageIngressRecord} {p : PreparedMessage}
    (h : (preparedExistingMessageIngress request fingerprint ingress).run db = .ok (p,db')) :
    ∃ result, p = .existing result := by
  simp only [preparedExistingMessageIngress,bind_ok] at h
  obtain ⟨_,_,_,_,_,_,_,_,_,_,_,_,_,_,_,h⟩ := h
  cases hstate : ingress.state with
  | resolved =>
    simp only [hstate,bind_ok,pure_ok] at h
    obtain ⟨result,_,_,h,_⟩ := h
    exact ⟨result,h.symm⟩
  | failed => simp [hstate] at h
  | inProgress => simp [hstate] at h

theorem validateExplicitRouteMetadata_reads {env : CoreEnv} {metadata : Json} {u : Unit}
    (h : (validateExplicitRouteMetadata env metadata).run db = .ok (u,db')) : db' = db := by
  have hread : Keeps id (validateExplicitRouteMetadata env metadata) :=
    .bind (.require _ _) fun _ => .ite (.pure _) (.bind (.orFail _ _) fun _ =>
      .bind (.select _) fun _ => .bind (.orFail _ _) fun _ => .bind (.require _ _) fun _ =>
      .require _ _)
  exact hread _ _ _ h

/-- A message is admitted under the id that it carries or is given, and it is new. -/
theorem prepareMessage_admitted {env : CoreEnv} {request : MainAgentRequest}
    {newMessageId : MessageId} {newContextId : ContextId}
    (h : (prepareMessage env request newMessageId newContextId).run db =
      .ok (.admitted c m,db')) :
    request.role = .user ∧ m = (nonEmpty request.messageId).getD newMessageId ∧
      (validateExplicitRouteMetadata env request.metadata).run db = .ok ((),db) ∧
      Admits env request m c newContextId db.messageRecords db'.messageRecords := by
  simp only [prepareMessage,bind_ok,require_ok,getMessageIngress,run_select,Except.ok.injEq,
    Prod.mk.injEq] at h
  obtain ⟨_,_,⟨hrole,rfl⟩,_,db₁,hroute,o,_,⟨ho,rfl⟩,h⟩ := h
  cases validateExplicitRouteMetadata_reads hroute
  cases o with
  | some ingress =>
    obtain ⟨_,h⟩ := preparedExistingMessageIngress_result h
    cases h
  | none =>
    simp only [getMessage,bind_ok,run_select,require_ok,Except.ok.injEq,Prod.mk.injEq] at h
    obtain ⟨_,_,⟨rfl,rfl⟩,_,_,⟨hnone,rfl⟩,c',db₁,hcontext,user,db₂,happend,⟨row,created⟩,db₃,
      hreserve,h⟩ := h
    obtain ⟨contexts,hcontexts,hdb₁⟩ := resolveContextId_records hcontext
    have hmessages₁ : db₁.messages = db.messages := congrArg MessageRecords.messages hdb₁
    obtain ⟨_,⟨hget,_⟩ | ⟨sequence,messages,rfl,hmessages,hdb₂⟩⟩ := appendMessage_records happend
    · rw [hmessages₁,Option.isNone_iff_eq_none.mp hnone] at hget
      cases hget
    have hingress₂ : db₂.messageIngress = db.messageIngress :=
      (congrArg MessageRecords.messageIngress hdb₂).trans
        (congrArg MessageRecords.messageIngress hdb₁)
    rcases reserveMessageIngress_records hreserve with ⟨rfl,hget,_⟩ |
      ⟨rfl,rfl,messageIngress,hinsert,rfl⟩
    · rw [hingress₂,ho] at hget
      cases hget
    · simp only [if_false,pure_ok,PreparedMessage.admitted.injEq,Bool.true_eq_false] at h
      obtain ⟨⟨rfl,rfl⟩,rfl⟩ := h
      have hrecords : AgentDb.messageRecords {db₂ with messageIngress} =
          {db.messageRecords with
            contexts
            messages
            messageIngress} := by
        change {db₂.messageRecords with messageIngress} = _
        rw [hdb₂,hdb₁]
      rw [hmessages₁] at hmessages
      rw [hingress₂] at hinsert
      refine ⟨hrole,rfl,hroute,?_⟩
      rw [hrecords]
      exact ⟨hcontexts,⟨_,rfl,rfl,hrole,rfl,hmessages⟩,hinsert,rfl,rfl,rfl⟩

/-- A replay writes nothing. -/
theorem prepareMessage_existing {env : CoreEnv} {request : MainAgentRequest}
    {newMessageId : MessageId} {newContextId : ContextId} {result : MainAgentResult}
    (h : (prepareMessage env request newMessageId newContextId).run db =
      .ok (.existing result,db')) : db' = db := by
  simp only [prepareMessage,bind_ok,require_ok,getMessageIngress,run_select,Except.ok.injEq,
    Prod.mk.injEq] at h
  obtain ⟨_,_,⟨_,rfl⟩,_,db₁,hroute,o,_,⟨ho,rfl⟩,h⟩ := h
  cases validateExplicitRouteMetadata_reads hroute
  cases o with
  | some ingress => exact preparedExistingMessageIngress_keeps (v := id) _ _ _ _ _ _ h
  | none =>
    simp only [getMessage,bind_ok,run_select,require_ok,Except.ok.injEq,Prod.mk.injEq] at h
    obtain ⟨_,_,⟨rfl,rfl⟩,_,_,⟨_,rfl⟩,_,db₁,hcontext,_,db₂,happend,⟨row,created⟩,db₃,hreserve,h⟩ :=
      h
    rcases reserveMessageIngress_records hreserve with ⟨rfl,hget,_⟩ | ⟨rfl,_⟩
    · have hkeep : db₂.messageIngress = db.messageIngress := by
        obtain ⟨_,_,hdb₁⟩ := resolveContextId_records hcontext
        rw [appendMessage_keeps (v := AgentDb.messageIngress) (fun _ _ => rfl) (fun _ _ => rfl)
          _ _ _ _ _ _ _ _ _ happend]
        exact congrArg MessageRecords.messageIngress hdb₁
      rw [hkeep,ho] at hget
      cases hget
    · simp only [if_false,pure_ok,reduceCtorEq,false_and,Bool.true_eq_false] at h

theorem recordMessageIngressRoute_records {route : MainAgentRouteDecision} {newDecisionId : String}
    {decision : RouteDecisionRecord}
    (h : (recordMessageIngressRoute c m route newDecisionId).run db = .ok (decision,db')) :
    decision = route.record newDecisionId c m ∧ c ∈ db.messageRecords.contexts ∧
      (∃ r, db.messageIngress.get m = some r ∧ r.state = .inProgress) ∧
      ∃ routeDecisions, db.routeDecisions.insert? decision = some routeDecisions ∧
        db'.messageRecords = MessageRecords.routeIngress {db.messageRecords with routeDecisions} m
          decision.decisionId := by
  simp only [recordMessageIngressRoute,bind_ok,pure_ok] at h
  obtain ⟨_,db₁,hdecision,_,_,hroute,rfl,rfl⟩ := h
  obtain ⟨rfl,hcontext,routeDecisions,hinsert,rfl⟩ := recordRouteDecision_records hdecision
  obtain ⟨hrow,hrecords⟩ := setMessageIngressRouteDecision_records hroute
  exact ⟨rfl,hcontext,hrow,routeDecisions,hinsert,hrecords⟩

/-- An answer of the agent to the message, outside of any task. -/
structure IsReply (m : MessageId) (c : ContextId) (r : MessageRecord) : Prop where
  contextId : r.contextId = c
  role : r.role = .agent
  taskId : r.taskId = none
  inputMessageId : r.metadata.member "inputMessageId" = .str m

/-- A drawn id: only messages of the user may happen to carry it already. -/
def AgentDb.Unanswered (db : AgentDb) (id : MessageId) : Prop :=
  ∀ r, db.messages.get id = some r → r.role = .user

theorem appendReply_records {id : MessageId} {parts : List Json} {metadata : Json}
    {r : MessageRecord} (hdrawn : db.Unanswered id)
    (hinput : metadata.member "inputMessageId" = .str m)
    (h : (appendMessage id c .agent parts none metadata).run db = .ok (r,db')) :
    r.messageId = id ∧ r.parts = parts ∧ IsReply m c r ∧ c ∈ db.messageRecords.contexts ∧
      ∃ messages, db.messages.insert? r = some messages ∧
        db'.messageRecords = {db.messageRecords with messages} := by
  obtain ⟨hcontext,⟨hget,_,hrole,_⟩ | ⟨sequence,messages,rfl,hinsert,hrecords⟩⟩ :=
    appendMessage_records h
  · rw [hdrawn r hget] at hrole
    cases hrole
  · exact ⟨rfl,rfl,⟨rfl,rfl,rfl,hinput⟩,hcontext,messages,hinsert,hrecords⟩

theorem completeLocalMessage_records {id : MessageId} {decisionId : String} {parts : List Json}
    {r : MessageRecord} (hdrawn : db.Unanswered id)
    (h : (completeLocalMessage c m id decisionId parts).run db = .ok (r,db')) :
    r.messageId = id ∧ r.parts = parts ∧ IsReply m c r ∧ c ∈ db.messageRecords.contexts ∧
      (∃ r, db.messageIngress.get m = some r ∧ r.state = .inProgress) ∧
      ∃ messages, db.messages.insert? r = some messages ∧
        db'.messageRecords = MessageRecords.resolveIngress {db.messageRecords with messages} m
          .message id := by
  simp only [completeLocalMessage,bind_ok,pure_ok] at h
  obtain ⟨_,db₁,happend,_,_,hresolve,rfl,rfl⟩ := h
  obtain ⟨hid,hparts,hreply,hcontext,messages,hinsert,hdb₁⟩ :=
    appendReply_records (m := m) hdrawn rfl happend
  obtain ⟨hrow,hrecords⟩ := resolveMessageIngress_records hresolve
  have hingress : db₁.messageIngress = db.messageIngress :=
    congrArg MessageRecords.messageIngress hdb₁
  rw [hingress] at hrow
  rw [hdb₁,hid] at hrecords
  exact ⟨hid,hparts,hreply,hcontext,hrow,messages,hinsert,hrecords⟩

/-- The acceptance of a local task: its decision, its row and its ingress result. -/
theorem acceptLocalTaskFromMessage_records {a : LocalTaskAcceptance}
    {decision : RouteDecisionRecord} {task : TaskRecord}
    (h : (acceptLocalTaskFromMessage a).run db = .ok ((decision,task),db')) :
    decision = a.decision ∧ decision.kind = .localTask ∧ task.taskId = a.taskId ∧
      decision.contextId ∈ db.messageRecords.contexts ∧
      (∃ r, db.messageIngress.get decision.messageId = some r ∧ r.state = .inProgress) ∧
      ∃ routeDecisions origin, db.routeDecisions.insert? decision = some routeDecisions ∧
        origin.taskId = a.taskId ∧ origin.contextId = decision.contextId ∧
        origin.inputMessageId = decision.messageId ∧
        db'.messageRecords = MessageRecords.resolveIngress
          {MessageRecords.routeIngress {db.messageRecords with routeDecisions} decision.messageId
            decision.decisionId with
            tasks := db.messageRecords.tasks++[origin]} decision.messageId .task a.taskId := by
  simp only [acceptLocalTaskFromMessage,createLocalTask,bind_ok,require_ok,pure_ok,ite_run] at h
  obtain ⟨_,_,⟨hkind,rfl⟩,_,db₁,hdecision,_,db₂,hroute,_,db₃,⟨created,db₄,hcreate,_,_,
    hevent,rfl,rfl⟩,_,db₅,hresolve,h⟩ := h
  obtain ⟨rfl,hcontext,routeDecisions,hinsert,rfl⟩ := recordRouteDecision_records hdecision
  obtain ⟨hrow,hdb₂⟩ := setMessageIngressRouteDecision_records hroute
  obtain ⟨hid,hcontextId,hinput,_,hdb₄⟩ := createTask_records hcreate
  obtain ⟨_,hdb₅⟩ := resolveMessageIngress_records hresolve
  rw [messageRecords_ignores.appendTaskEvent _ _ _ _ _ _ hevent,hdb₄,hdb₂,hid] at hdb₅
  have hend : task.taskId = a.taskId ∧ decision = a.decision ∧
      db'.messageRecords = db₅.messageRecords := by
    split at h
    · simp only [bind_ok,pure_ok,Prod.mk.injEq] at h
      obtain ⟨queued,db₆,hqueue,_,_,henqueue,⟨rfl,rfl⟩,rfl⟩ := h
      refine ⟨?_,rfl,?_⟩
      · rw [(transitionLocalTask_rows hqueue).1.choose_spec.2.2.2.2,hid]
      · rw [messageRecords_ignores.enqueueTaskExecution _ _ _ _ _ _ _ henqueue,
          messageRecords_ignores.transitionLocalTask _ _ _ _ _ _ hqueue]
    · simp only [pure_ok,Prod.mk.injEq] at h
      obtain ⟨⟨rfl,rfl⟩,rfl⟩ := h
      exact ⟨hid,rfl,rfl⟩
  obtain ⟨htask,rfl,hrecords⟩ := hend
  rw [hdb₅] at hrecords
  exact ⟨rfl,hkind,htask,hcontext,hrow,routeDecisions,created.origin,hinsert,hid,hcontextId,hinput,
    hrecords⟩

/-- What a delegation adds for a message: its own row, which names the result. -/
theorem createDelegation_records {record delegation : DelegatedTaskRecord} {row : MessageIngressRecord}
    {db₁ : AgentDb} (hcreate : (createDelegatedTask record).run db = .ok (delegation,db₁))
    (hresolve : (resolveMessageIngress m .delegation record.delegationId).run db₁ =
      .ok (row,db')) :
    (∃ r, db.messageIngress.get m = some r ∧ r.state = .inProgress) ∧
      ∃ delegatedTasks, db.delegatedTasks.insert? record = some delegatedTasks ∧
        db'.messageRecords = MessageRecords.resolveIngress {db.messageRecords with delegatedTasks}
          m .delegation record.delegationId := by
  obtain ⟨delegatedTasks,hinsert,rfl⟩ := createDelegatedTask_records hcreate
  obtain ⟨hrow,hrecords⟩ := resolveMessageIngress_records hresolve
  exact ⟨hrow,delegatedTasks,hinsert,hrecords⟩

theorem completeRemoteMessage_records {id : MessageId} {decisionId delegationId : String}
    {agentId : AgentId} {remote : RemoteAgentSendResult} {r : MessageRecord}
    (hdrawn : db.Unanswered id)
    (h : (completeRemoteMessage c m id decisionId delegationId agentId remote).run db =
      .ok (r,db')) :
    r.messageId = id ∧ r.parts = remote.parts ∧ IsReply m c r ∧
      c ∈ db.messageRecords.contexts ∧
      (∃ r, db.messageIngress.get m = some r ∧ r.state = .inProgress) ∧
      ∃ messages delegation delegatedTasks, db.messages.insert? r = some messages ∧
        db.delegatedTasks.insert? delegation = some delegatedTasks ∧
        delegation.delegationId = delegationId ∧ delegation.contextId = c ∧
        delegation.inputMessageId = m ∧ delegation.remoteAgentId = agentId ∧
        delegation.localTaskId = none ∧ delegation.resultKind = "message" ∧
        delegation.metadata = .obj [("localMessageId",.str id)] ∧
        db'.messageRecords = MessageRecords.resolveIngress
          {db.messageRecords with
            messages
            delegatedTasks} m .delegation delegationId := by
  simp only [completeRemoteMessage,bind_ok,pure_ok] at h
  obtain ⟨_,db₁,happend,_,db₂,hcreate,_,_,hresolve,rfl,rfl⟩ := h
  obtain ⟨hid,hparts,hreply,hcontext,messages,hinsert,hdb₁⟩ :=
    appendReply_records (m := m) hdrawn rfl happend
  obtain ⟨hrow,delegatedTasks,hdelegation,hrecords⟩ := createDelegation_records hcreate hresolve
  have hingress : db₁.messageIngress = db.messageIngress :=
    congrArg MessageRecords.messageIngress hdb₁
  have hdelegated : db₁.delegatedTasks = db.delegatedTasks :=
    congrArg MessageRecords.delegatedTasks hdb₁
  rw [hingress] at hrow
  rw [hdelegated] at hdelegation
  rw [hdb₁] at hrecords
  exact ⟨hid,hparts,hreply,hcontext,hrow,messages,_,delegatedTasks,hinsert,hdelegation,rfl,rfl,rfl,
    rfl,rfl,rfl,by rw [hid],hrecords⟩

theorem completeRemoteTask_records {decisionId delegationId : String} {agentId : AgentId}
    {remote : RemoteAgentSendResult} {taskId : TaskId} {threadId : ThreadId} {task : TaskRecord}
    (h : (completeRemoteTask c m decisionId delegationId agentId remote taskId threadId).run db =
      .ok (task,db')) :
    task.taskId = taskId ∧ task.contextId = c ∧ task.inputMessageId = m ∧
      c ∈ db.messageRecords.contexts ∧
      (∃ r, db.messageIngress.get m = some r ∧ r.state = .inProgress) ∧
      ∃ delegation delegatedTasks, db.delegatedTasks.insert? delegation = some delegatedTasks ∧
        delegation.delegationId = delegationId ∧ delegation.contextId = c ∧
        delegation.inputMessageId = m ∧ delegation.remoteAgentId = agentId ∧
        delegation.localTaskId = some taskId ∧ delegation.resultKind = "task" ∧
        db'.messageRecords = MessageRecords.resolveIngress
          {db.messageRecords with
            tasks := db.messageRecords.tasks++[task.origin]
            delegatedTasks} m .delegation delegationId := by
  simp only [completeRemoteTask,bind_ok,orFail_ok,pure_ok] at h
  obtain ⟨_,_,⟨_,rfl⟩,_,db₁,htask,_,db₂,hevent,_,db₃,hcreate,_,_,hresolve,rfl,rfl⟩ := h
  obtain ⟨hid,hcontext,hinput,hmem,hdb₁⟩ := createTask_records htask
  obtain ⟨hrow,delegatedTasks,hdelegation,hrecords⟩ := createDelegation_records hcreate hresolve
  have hdb₂ := (messageRecords_ignores.appendTaskEvent _ _ _ _ _ _ hevent).trans hdb₁
  have hingress : db₂.messageIngress = db.messageIngress :=
    congrArg MessageRecords.messageIngress hdb₂
  have hdelegated : db₂.delegatedTasks = db.delegatedTasks :=
    congrArg MessageRecords.delegatedTasks hdb₂
  rw [hingress] at hrow
  rw [hdelegated] at hdelegation
  rw [hdb₂] at hrecords
  exact ⟨hid,hcontext,hinput,hmem,hrow,_,delegatedTasks,hdelegation,rfl,rfl,rfl,rfl,congrArg some hid,
    rfl,hrecords⟩

/-- A retry in its own message: the message, its reservation and the acceptance of the task. -/
theorem acceptRetry_records {env : CoreEnv} {taskId : TaskId} {ids : RetryIds} {seen : TaskRecord}
    {inputMessage : MessageRecord} {task : TaskRecord} {created : Bool}
    (hmessage : db.messages.get ids.messageId = none)
    (hingress : db.messageIngress.get ids.messageId = none)
    (h : (acceptRetry env taskId ids seen inputMessage).run db = .ok ((task,created),db')) :
    db'.messageRecords = db.messageRecords ∨
      ∃ message messages row messageIngress decision routeDecisions origin,
        message.messageId = ids.messageId ∧ message.role = .user ∧ message.taskId = none ∧
        message.contextId ∈ db.messageRecords.contexts ∧
        db.messages.insert? message = some messages ∧
        row.messageId = ids.messageId ∧ row.contextId = message.contextId ∧
        row.state = .inProgress ∧ db.messageIngress.insert? row = some messageIngress ∧
        decision.messageId = ids.messageId ∧ decision.contextId = message.contextId ∧
        db.routeDecisions.insert? decision = some routeDecisions ∧
        origin.taskId = ids.taskId ∧ origin.contextId = message.contextId ∧
        origin.inputMessageId = ids.messageId ∧
        db'.messageRecords = MessageRecords.resolveIngress
          {MessageRecords.routeIngress
            {db.messageRecords with
              messages
              messageIngress
              routeDecisions} ids.messageId decision.decisionId with
            tasks := db.messageRecords.tasks++[origin]} ids.messageId .task ids.taskId := by
  simp only [acceptRetry,getDirectTaskRetry,bind_ok,run_select,Except.ok.injEq,Prod.mk.injEq] at h
  obtain ⟨source,_,h₀,o,_,⟨_,rfl⟩,h⟩ := h
  cases retryableFailedLocalTask_ok h₀
  cases o with
  | some existing =>
    obtain ⟨_,rfl⟩ := pure_ok.mp h
    exact .inl rfl
  | none =>
    simp only [bind_ok,pure_ok,Prod.mk.injEq] at h
    obtain ⟨message,db₁,happend,⟨row,reserved⟩,db₂,hreserve,⟨decision,t⟩,db₃,haccept,_,db₄,h₄,_,db₅,
      h₅,_,rfl⟩ := h
    obtain ⟨hcontext,⟨hget,_⟩ | ⟨sequence,messages,rfl,hinsert,hdb₁⟩⟩ :=
      appendMessage_records happend
    · rw [hmessage] at hget
      cases hget
    have hingress₁ : db₁.messageIngress = db.messageIngress :=
      congrArg MessageRecords.messageIngress hdb₁
    rcases reserveMessageIngress_records hreserve with ⟨_,hget,_⟩ |
      ⟨_,rfl,messageIngress,hrow,rfl⟩
    · rw [hingress₁,hingress] at hget
      cases hget
    obtain ⟨rfl,_,_,_,_,routeDecisions,origin,hdecision,htask,horigin,hinput,hdb₃⟩ :=
      acceptLocalTaskFromMessage_records haccept
    have hdecisions : db₁.routeDecisions = db.routeDecisions :=
      congrArg MessageRecords.routeDecisions hdb₁
    have hdb₂ : AgentDb.messageRecords {db₁ with messageIngress} =
        {db.messageRecords with
          messages
          messageIngress} := by
      change {db₁.messageRecords with messageIngress} = _
      rw [hdb₁]
    rw [hingress₁] at hrow
    change db₁.routeDecisions.insert? _ = _ at hdecision
    rw [hdecisions] at hdecision
    refine .inr ⟨_,messages,_,messageIngress,_,routeDecisions,origin,rfl,rfl,rfl,hcontext,hinsert,
      rfl,rfl,rfl,hrow,rfl,rfl,hdecision,htask,horigin,hinput,?_⟩
    rw [messageRecords_ignores.appendTaskEvent _ _ _ _ _ _ h₅,
      messageRecords_ignores.appendTaskEvent _ _ _ _ _ _ h₄,hdb₃,hdb₂]

end Transactions

section Progress

open TaskOutcomeRecorder MainAgentCore

variable {t : TaskId} {result : LocalTaskRunResult}

/-- Messages of tasks, and nothing else of these rows. -/
abbrev TaskMoves {α : Type} (x : StoreTxn α) : Prop :=
  Txn.Moves AgentDb.messageRecords TaskStep x

/-- The same, wherever the task is stored in the context. -/
abbrev TaskMovesIn (t : TaskId) (c : ContextId) {α : Type} (x : StoreTxn α) : Prop :=
  Txn.MovesFrom AgentDb.messageRecords (·.HasTask t c) TaskStep x

theorem hasTask_of_get {r : TaskRecord} (h : db.tasks.get t = some r) :
    db.messageRecords.HasTask t r.contextId := by
  have hkey : r.taskId = t := Table.key_of_get h
  exact ⟨r.origin,List.mem_map.mpr ⟨r,Table.mem_of_get h,rfl⟩,hkey,rfl⟩

theorem TaskStep.hasTask {s s' : MessageRecords} (hs : TaskStep s s') (h : s.HasTask t c) :
    s'.HasTask t c := by
  cases hs with
  | message => exact h
  | delegation => exact h

theorem TaskMovesIn.bind {α β : Type} {x : StoreTxn α} {f : α → StoreTxn β}
    (hx : TaskMovesIn t c x) (hf : ∀ a, TaskMovesIn t c (f a)) : TaskMovesIn t c (x >>= f) :=
  MovesFrom.bind (fun _ _ hs h => hs.hasTask h) hx hf

/-- What reads the task first finds its context. -/
theorem requireTask_moves {α : Type} {f : TaskRecord → StoreTxn α}
    (h : ∀ r : TaskRecord, r.taskId = t → TaskMovesIn t r.contextId (f r)) :
    TaskMoves (requireTask t >>= f) := by
  intro db a db' hrun
  obtain ⟨r,_,hrequire,hrun⟩ := (bind_ok _ _).mp hrun
  obtain ⟨hr,rfl⟩ := requireTask_ok.mp hrequire
  exact h r (Table.key_of_get hr) _ _ _ (hasTask_of_get hr) hrun

theorem appendMessage_moves (id : MessageId) (role : MessageRole) (parts : List Json)
    (metadata : Json) : TaskMovesIn t c (appendMessage id c role parts (some t) metadata) := by
  intro db r db' hstored h
  obtain ⟨_,⟨_,_,_,_,_,rfl⟩ | ⟨_,_,rfl,hinsert,hrecords⟩⟩ := appendMessage_records h
  · rfl
  · rw [hrecords]
    exact .single (.message rfl hstored hinsert)

theorem upsertArtifact_messageRecords (id : ArtifactId) (parts : List Json) (metadata : Json) :
    Keeps AgentDb.messageRecords (upsertArtifact id t c parts metadata) :=
  messageRecords_ignores.upsertArtifact (fun _ _ _ => rfl) _ _ _

theorem unlessEnded_moves {record : TaskRecord → StoreTxn TaskRecord}
    (hrecord : ∀ r : TaskRecord, r.taskId = t → TaskMovesIn t r.contextId (record r)) :
    TaskMoves (unlessEnded t record) :=
  requireTask_moves fun r ht => .ite (Keeps.pure _).moves.from
    (.ite messageRecords_ignores.recordCancellation.moves.from (hrecord r ht))

theorem persistObservations_messageRecords (task : TaskRecord) :
    Keeps AgentDb.messageRecords (persistObservations task result) :=
  .ite (.pure _) (.bind (.select _) fun _ => .bind (upsertArtifact_messageRecords _ _ _) fun _ =>
    .bind (messageRecords_ignores.appendTaskEvent _ _ _) fun _ => .pure _)

theorem recordCompletedResult_moves (metadata : Json) (id : MessageId) :
    TaskMoves (recordCompletedResult t result metadata id) := by
  refine unlessEnded_moves fun task _ => TaskMovesIn.bind
    (persistObservations_messageRecords task).moves.from fun _ =>
    TaskMovesIn.bind (appendMessage_moves _ _ _ _) fun _ => (Keeps.moves ?_).from
  exact .bind (upsertArtifact_messageRecords _ _ _) fun _ =>
    .bind (messageRecords_ignores.appendTaskEvent _ _ _) fun _ =>
    .bind (messageRecords_ignores.setTaskOutputMessage _) fun _ =>
    .bind (messageRecords_ignores.transitionLocalTask _ _ _) fun _ =>
    .bind messageRecords_ignores.clearPendingContinuation fun _ =>
    .bind messageRecords_ignores.clearQueuedTaskExecution fun _ => .pure _

theorem recordInterruptedResult_moves (status : TaskStatus) (inputRequest : Json) :
    TaskMoves (recordInterruptedResult t result status inputRequest) := by
  have happend : ∀ task active, TaskMovesIn task.taskId task.contextId
      (appendInputRequestMessage task active inputRequest) := fun _ _ =>
    .ite (TaskMovesIn.bind (appendMessage_moves _ _ _ _) fun _ => (Keeps.pure _).moves.from)
      (Keeps.pure _).moves.from
  exact unlessEnded_moves fun task ht => TaskMovesIn.bind
    (persistObservations_messageRecords task).moves.from fun _ =>
    TaskMovesIn.bind (messageRecords_ignores.setPendingContinuation _ _).moves.from fun _ =>
    TaskMovesIn.bind (messageRecords_ignores.transitionLocalTask _ _ _).moves.from fun _ =>
    TaskMovesIn.bind (ht ▸ happend _ _) fun _ =>
    TaskMovesIn.bind messageRecords_ignores.clearQueuedTaskExecution.moves.from fun _ =>
    (Keeps.pure _).moves.from

theorem recordLocalResult_moves (metadata : Json) (id : MessageId) (seen : TaskRecord) :
    TaskMoves (recordLocalResult t result metadata id seen) := by
  have hinterrupted : TaskMoves (recordInterruption t result) := by
    unfold recordInterruption
    cases continuationInputRequest result with
    | none => exact (messageRecords_ignores.recordFailure _).moves
    | some inputRequest => exact recordInterruptedResult_moves _ _
  have hfailed : TaskMoves (recordFailedResult t result (localProcessStatus result)) :=
    unlessEnded_moves fun task _ => (Keeps.moves (.bind (persistObservations_messageRecords task)
      fun _ => .bind (messageRecords_ignores.transitionLocalTask _ _ _) fun _ =>
      .bind (messageRecords_ignores.closeUnresolvedExecution _ _ _ _) fun _ => .pure _)).from
  refine .ite (Keeps.pure _).moves (.ite messageRecords_ignores.recordCancellation.moves
    ((Keeps.ofExcept _).moves.bind fun _ => ?_))
  split
  · exact recordCompletedResult_moves _ _
  · exact (Keeps.pure _).moves
  · exact hinterrupted
  · exact hinterrupted
  · exact hfailed

theorem submitTaskInput_moves (request : MainAgentRequest) (id : MessageId) :
    TaskMoves (submitTaskInput t request id) := by
  refine (Keeps.require _ _).moves.bind fun _ => (Keeps.require _ _).moves.bind fun _ => ?_
  rw [validatePendingContinuation,bind_assoc]
  refine requireTask_moves fun task _ => ?_
  simp only [bind_assoc,pure_bind]
  exact TaskMovesIn.bind (Keeps.require _ _).moves.from fun _ =>
    TaskMovesIn.bind (Keeps.moves (IgnoresProgress.requirePending _)).from fun _ =>
    TaskMovesIn.bind (Keeps.require _ _).moves.from fun _ =>
    TaskMovesIn.bind (appendMessage_moves _ _ _ _) fun _ =>
    TaskMovesIn.bind (messageRecords_ignores.appendTaskEvent _ _ _).moves.from fun _ =>
    (messageRecords_ignores.acceptPendingContinuation _ _ _ _ _).moves.from

/-- Only the delegation of the task itself is written. -/
theorem updateDelegatedTaskStatus_moves {id : String} {status : String} {metadata : Json}
    {delegation : DelegatedTaskRecord}
    (htask : ∀ d, db.delegatedTasks.get id = some d → d.localTaskId.isSome = true)
    (h : (updateDelegatedTaskStatus id status metadata).run db = .ok (delegation,db')) :
    Relation.ReflTransGen TaskStep db.messageRecords db'.messageRecords := by
  simp only [updateDelegatedTaskStatus,getDelegatedTask,bind_ok,run_select,run_write,orFail_ok,
    Except.ok.injEq,Prod.mk.injEq] at h
  obtain ⟨_,_,⟨rfl,rfl⟩,_,_,⟨_,rfl⟩,_,_,⟨_,rfl⟩,_,_,⟨rfl,rfl⟩,_,rfl⟩ := h
  exact .single (.delegation status metadata htask)

theorem recordRemoteSnapshot_moves (snapshot : RemoteAgentTaskSnapshot) (id : MessageId) :
    TaskMoves (recordRemoteSnapshot t snapshot id) := by
  intro db task db' h
  simp only [recordRemoteSnapshot,getDelegatedTaskByLocalTaskId,validateRemoteProxySnapshot,
    bind_ok,requireTask_ok,run_select,orFail_ok,require_ok,ite_run,Except.ok.injEq,
    Prod.mk.injEq] at h
  obtain ⟨r,_,⟨hr,rfl⟩,_,_,⟨rfl,rfl⟩,delegation,_,⟨hfind,rfl⟩,_,_,⟨_,_,⟨_,rfl⟩,_,_,⟨_,rfl⟩,_,
    rfl⟩,h⟩ := h
  have hlocal : delegation.localTaskId = some t := by simpa using List.find?_some hfind
  have htask : ∀ d, db.delegatedTasks.get delegation.delegationId = some d →
      d.localTaskId.isSome = true := by
    intro d hd
    rw [Table.get_of_mem (List.mem_of_find?_eq_some hfind),Option.some.injEq] at hd
    rw [← hd,hlocal]
    rfl
  have hstored : db.messageRecords.HasTask r.taskId r.contextId := by
    rw [Table.key_of_get hr]
    exact hasTask_of_get hr
  have hfinal : ∀ status, TaskMovesIn r.taskId r.contextId
      (materializeIfCompleted status r delegation snapshot id) := by
    intro status
    refine .ite (.ite (Keeps.pure _).moves.from
      (TaskMovesIn.bind (Keeps.select _).moves.from fun o => ?_)) (Keeps.pure _).moves.from
    cases o with
    | some artifact =>
      exact TaskMovesIn.bind (Keeps.select _).moves.from fun _ => (Keeps.pure _).moves.from
    | none =>
      exact TaskMovesIn.bind (appendMessage_moves _ _ _ _) fun _ => (Keeps.moves
        (.bind (upsertArtifact_messageRecords _ _ _) fun _ =>
        .bind (messageRecords_ignores.appendTaskEvent _ _ _) fun _ =>
        messageRecords_ignores.setTaskOutputMessage _)).from
  split at h
  · rw [(pure_ok.mp h).2]
  · obtain ⟨_,db₁,hstatus,h⟩ := (bind_ok _ _).mp h
    have hmoved := updateDelegatedTaskStatus_moves htask hstatus
    refine hmoved.trans ?_
    have hstored₁ := reflTransGen_invariant (fun _ _ hs h => hs.hasTask h) hmoved hstored
    refine TaskMovesIn.bind (hfinal _) (fun _ => .ite (Keeps.pure _).moves.from
      (Keeps.moves ?_).from) _ _ _ hstored₁ h
    exact .bind (messageRecords_ignores.updateTaskStatus _ _) fun _ =>
      .bind (messageRecords_ignores.appendTaskEvent _ _ _) fun _ => .pure _

end Progress

/-- The transactions of message deliveries and of the startup pass over what they left. -/
def CoreTxn.isIngress : CoreTxn → Bool
  | .prepareMessage _ _ _ | .recordMessageIngressFailure _ _ | .recordMessageIngressRoute _ _ _ _
  | .completeLocalMessage _ _ _ _ _ | .acceptLocalTask _ _ _ _ _ _
  | .completeRemoteMessage _ _ _ _ _ _ _ | .completeRemoteTask _ _ _ _ _ _ _ _
  | .failInProgressMessageIngresses _ => true
  | _ => false

/-- The message that a retry writes for itself. -/
def CoreTxn.retryMessage : CoreTxn → Option MessageId
  | .retryTask _ ids _ _ => some ids.messageId
  | _ => none

/-- The other transactions only record the progress of tasks. -/
theorem CoreTxn.txn_taskMoves (core : CoreEnv) (env : LedgerEnv) {x : CoreTxn}
    (hx : x.isIngress = false) (hretry : x.retryMessage = none) :
    Txn.Moves AgentDb.messageRecords TaskStep (x.txn core env) := by
  have hi := messageRecords_ignores
  cases x with
  | upsertRegisteredAgent =>
    exact (upsertRegisteredAgent_keeps (fun _ _ => rfl) _).moves.map _
  | recordRemoteSnapshot => exact (recordRemoteSnapshot_moves _ _).map _
  | resolveApproval => exact (hi.acceptPendingContinuation _ _ _ _ _).moves.map _
  | submitTaskInput => exact (submitTaskInput_moves _ _).map _
  | cancelTask => exact (hi.commitCancellation _ _).moves.map _
  | claimLocalExecution => exact hi.claimLocalExecution.moves.map _
  | recordLocalTaskResult => exact (recordLocalResult_moves _ _ _).map _
  | recordLocalTaskFailure => exact (hi.recordFailure _).moves.map _
  | recordTaskCancellation => exact hi.recordCancellation.moves.map _
  | recordRuntimeRecoveryFailure => exact (hi.recordRuntimeRecoveryFailure _ _).moves.map _
  | ledger op =>
    exact (op.txn_keeps (fun _ _ => rfl) (fun _ _ _ _ _ => upsertArtifact_messageRecords _ _ _)
      (fun _ _ _ _ => hi.appendTaskEvent _ _ _) env).moves.map _
  | retryTask => cases hretry
  | prepareMessage | recordMessageIngressFailure | recordMessageIngressRoute
  | completeLocalMessage | acceptLocalTask | completeRemoteMessage | completeRemoteTask
  | failInProgressMessageIngresses => cases hx

section Deletion

/-- A deleted context takes its rows along. -/
theorem deleteTerminalContext_records {listed : List TaskId} {u : Unit}
    (h : (deleteTerminalContext c listed).run db = .ok (u,db')) :
    db'.messageRecords =
      ⟨db.messageRecords.contexts.filter fun id => id ≠ c,
        db.messages.delete fun r => r.contextId = c,
        db.messageIngress.delete fun r => r.contextId = c,
        db.routeDecisions.delete fun r => r.contextId = c,
        db.messageRecords.tasks.filter fun o => o.contextId ≠ c,
        db.delegatedTasks.delete fun r => r.contextId = c⟩ := by
  simp only [deleteTerminalContext,deleteTaskRows,deleteTasks,deleteRouteDecisions,deleteMessages,
    deleteContextRow,bind_ok,run_select,require_ok,run_write,deleteUnreferenced_ok,
    Except.ok.injEq,Prod.mk.injEq] at h
  obtain ⟨_,_,⟨_,rfl⟩,_,_,⟨_,rfl⟩,_,_,⟨_,rfl⟩,_,_,⟨_,rfl⟩,_,_,⟨_,rfl⟩,_,_,⟨_,rfl⟩,_,rfl⟩ := h
  have hcontexts : ((db.contexts.delete fun r => r.contextId = c).rows.map (·.contextId)) =
      db.messageRecords.contexts.filter fun id => id ≠ c := by
    simp [Table.delete,AgentDb.messageRecords,List.filter_map,Function.comp_def]
  have htasks : ((db.tasks.delete fun r => r.contextId = c).rows.map (·.origin)) =
      db.messageRecords.tasks.filter fun o => o.contextId ≠ c := by
    simp [Table.delete,AgentDb.messageRecords,List.filter_map,Function.comp_def,TaskRecord.origin]
  simp only [AgentDb.messageRecords] at hcontexts htasks ⊢
  rw [hcontexts,htasks]

end Deletion
end VermayAgent
