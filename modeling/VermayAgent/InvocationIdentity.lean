import Mathlib
import VermayAgent.ArgumentRedaction
import VermayAgent.CoreEvents
import VermayAgent.LedgerFacts
import VermayAgent.TaskFrames
import VermayAgent.Library.Delimited

/-! What the identity of an invocation tells, and when two identities conflict.
The id of a call hashes a text of six fields, one of which may hold the delimiter. A record is also
found by its execution identity, which leaves the name of the tool out. -/
namespace VermayAgent
open Library Txn MainAgentStore MainAgentToolInvocationLedger

/-- The hexadecimal digits of 256 bits. -/
def IsHexDigest (s : String) : Prop :=
  s.toList.length = 64 ∧ ∀ c ∈ s.toList, c ∈ "0123456789abcdef".toList

instance (s : String) : Decidable (IsHexDigest s) := inferInstanceAs (Decidable (_ ∧ _))

/-- What is hashed and how. `arguments` reads the arguments of a call as the Python value that
they are; a text is hashed as its UTF-8 bytes. -/
structure Hashing where
  sha256 : Text → String
  hex : ∀ text, IsHexDigest (sha256 text)
  arguments : Json → ArgumentValue
  jsonLoads : String → Option Json
  jsonDumps : Json → String

namespace Hashing

variable (hashing : Hashing)

/-- The environment of the ledger. -/
def env : LedgerEnv where
  sha256 text := hashing.sha256 (Text.of text)
  argumentsDigest args := (hashing.arguments args).argumentsDigest hashing.sha256
  jsonLoads := hashing.jsonLoads
  jsonDumps := hashing.jsonDumps

/-- The arguments are equal JSON, up to the order of object keys. -/
def SameArguments (a b : Json) : Prop :=
  (hashing.arguments a).jsonSafe.sorted = (hashing.arguments b).jsonSafe.sorted

/-- No two of the texts share the part of their hash that an id keeps. -/
def CollisionFree (texts : Set Text) : Prop :=
  ∀ a ∈ texts, ∀ b ∈ texts,
    firstChars 32 (hashing.sha256 a) = firstChars 32 (hashing.sha256 b) → a = b

end Hashing

/-- A call that is prepared for a task. -/
structure PreparedCall where
  taskId : TaskId
  runtimeThreadId : ThreadId
  loopIndex : Int
  toolCall : ToolCall

namespace PreparedCall

variable (hashing : Hashing)

def toolCallId (c : PreparedCall) : String := hashing.env.toolCallId c.loopIndex c.toolCall

def argumentsDigest (c : PreparedCall) : String := hashing.env.argumentsDigest c.toolCall.args

def invocationId (c : PreparedCall) : InvocationId :=
  hashing.env.invocationId c.taskId c.runtimeThreadId c.loopIndex (c.toolCallId hashing)
    c.toolCall.name (c.argumentsDigest hashing)

/-- The text that the id of the call hashes. -/
def identity (c : PreparedCall) : String := String.intercalate "|"
  [c.taskId,c.runtimeThreadId,toString c.loopIndex,c.toolCallId hashing,c.toolCall.name,
    c.argumentsDigest hashing]

/-- What is hashed for the call. -/
def hashed (c : PreparedCall) : Set Text :=
  {(hashing.arguments c.toolCall.args).canonical,Text.of (c.identity hashing)}

/-- The ids of the task and the thread and the name of the tool hold no delimiter. -/
structure Plain (c : PreparedCall) : Prop where
  taskId : '|' ∉ c.taskId.toList
  runtimeThreadId : '|' ∉ c.runtimeThreadId.toList
  toolName : '|' ∉ c.toolCall.name.toList

/-- The calls are one call: the id that the model gave it, or the one derived, included. -/
structure Agree (c d : PreparedCall) : Prop where
  taskId : c.taskId = d.taskId
  runtimeThreadId : c.runtimeThreadId = d.runtimeThreadId
  loopIndex : c.loopIndex = d.loopIndex
  toolCallId : c.toolCallId hashing = d.toolCallId hashing
  toolName : c.toolCall.name = d.toolCall.name
  arguments : hashing.SameArguments c.toolCall.args d.toolCall.args

end PreparedCall

section Identity

variable {hashing : Hashing} {texts : Set Text} {c d : PreparedCall}

theorem delimiter_notMem_toString (n : Int) : '|' ∉ (toString n).toList := by
  have hnat : ∀ m : ℕ, '|' ∉ (Nat.repr m).toList := by
    intro m hm
    rw [Nat.toList_repr] at hm
    exact absurd (Nat.isDigit_of_mem_toDigits (by decide) (by decide) hm) (by decide)
  rw [Int.toString_eq_repr,Int.repr_eq_if]
  split
  · exact hnat _
  · rw [String.toList_append,List.mem_append]
    rintro (h | h)
    · exact absurd h (by decide)
    · exact hnat _ h

theorem IsHexDigest.delimiter_notMem {s : String} (h : IsHexDigest s) : '|' ∉ s.toList :=
  fun hmem => absurd (h.2 _ hmem) (by decide)

theorem IsHexDigest.ne_empty {s : String} (h : IsHexDigest s) : s ≠ "" := by
  rintro rfl
  exact absurd h.1 (by decide)

/-- The digests of the arguments are equal for arguments that are equal up to the order of keys. -/
theorem digest_eq_iff (hfree : hashing.CollisionFree texts) (hc : c.hashed hashing ⊆ texts)
    (hd : d.hashed hashing ⊆ texts) : c.argumentsDigest hashing = d.argumentsDigest hashing ↔
      hashing.SameArguments c.toolCall.args d.toolCall.args := by
  have hcanonical : c.argumentsDigest hashing = d.argumentsDigest hashing ↔
      (hashing.arguments c.toolCall.args).canonical =
        (hashing.arguments d.toolCall.args).canonical := by
    constructor
    · intro h
      exact hfree _ (hc (.inl rfl)) _ (hd (.inl rfl)) (congrArg (firstChars 32) h)
    · exact fun h => congrArg hashing.sha256 h
  rw [hcanonical,canonical_eq_iff]
  rfl

/-- The text of an identity tells its fields. -/
theorem identity_inj (hc : c.Plain) (hd : d.Plain) (h : c.identity hashing = d.identity hashing) :
    c.taskId = d.taskId ∧ c.runtimeThreadId = d.runtimeThreadId ∧ c.loopIndex = d.loopIndex ∧
      c.toolCallId hashing = d.toolCallId hashing ∧ c.toolCall.name = d.toolCall.name ∧
      c.argumentsDigest hashing = d.argumentsDigest hashing := by
  have hjoined := congrArg String.toList h
  simp only [PreparedCall.identity,String.toList_intercalate] at hjoined
  have hbefore : ∀ {e : PreparedCall}, e.Plain →
      ∀ l ∈ [e.taskId.toList,e.runtimeThreadId.toList,(toString e.loopIndex).toList], '|' ∉ l := by
    intro e he l hl
    simp only [List.mem_cons,List.not_mem_nil,or_false] at hl
    rcases hl with rfl | rfl | rfl
    · exact he.taskId
    · exact he.runtimeThreadId
    · exact delimiter_notMem_toString e.loopIndex
  have hafter : ∀ {e : PreparedCall}, e.Plain →
      ∀ l ∈ [e.toolCall.name.toList,(e.argumentsDigest hashing).toList], '|' ∉ l := by
    intro e he l hl
    simp only [List.mem_cons,List.not_mem_nil,or_false] at hl
    rcases hl with rfl | rfl
    · exact he.toolName
    · exact (hashing.hex _).delimiter_notMem
  obtain ⟨hfirst,hid,hlast⟩ := joined_inj (hbefore hc) (hafter hc) (hbefore hd) (hafter hd) rfl rfl
    hjoined
  simp only [List.cons.injEq,and_true] at hfirst hlast
  have hstr : ∀ {a b : String}, a.toList = b.toList → a = b := fun h => String.toList_inj.mp h
  refine ⟨hstr hfirst.1,hstr hfirst.2.1,?_,hstr hid,hstr hlast.1,hstr hlast.2⟩
  have hloop := hstr hfirst.2.2
  rw [Int.toString_eq_repr,Int.toString_eq_repr] at hloop
  exact Int.repr_injective hloop

theorem firstChars_inv_inj {s t : String} (h : "inv-" ++ s = "inv-" ++ t) : s = t := by
  have h := congrArg String.toList h
  rw [String.toList_append,String.toList_append] at h
  exact String.toList_inj.mp (List.append_cancel_left h)

/-- Two calls have one invocation id exactly when they are one call. -/
theorem invocationId_eq_iff (hfree : hashing.CollisionFree texts) (hc : c.Plain) (hd : d.Plain)
    (hct : c.hashed hashing ⊆ texts) (hdt : d.hashed hashing ⊆ texts) :
    c.invocationId hashing = d.invocationId hashing ↔ c.Agree hashing d := by
  constructor
  · intro h
    have hprefix := firstChars_inv_inj h
    have htext := hfree _ (hct (.inr rfl)) _ (hdt (.inr rfl)) hprefix
    obtain ⟨htask,hthread,hloop,hid,hname,hdigest⟩ :=
      identity_inj hc hd (Text.of_injective htext)
    exact ⟨htask,hthread,hloop,hid,hname,(digest_eq_iff hfree hct hdt).mp hdigest⟩
  · intro h
    unfold PreparedCall.invocationId
    rw [h.taskId,h.runtimeThreadId,h.loopIndex,h.toolCallId,h.toolName,
      (digest_eq_iff hfree hct hdt).mpr h.arguments]

end Identity

section Requests

variable (hashing : Hashing)

/-- The request that `prepare` makes for a call of `task`. -/
structure AsksFor (task : TaskRecord) (c : PreparedCall) (new : NewToolInvocation) : Prop where
  taskId : c.taskId = task.taskId
  runtimeThreadId : c.runtimeThreadId = task.runtimeThreadId
  isLocal : task.assignedAgentId = none
  named : c.toolCall.name ≠ ""
  request : ∃ metadata approvalRequired, new = newInvocation hashing.env task c.runtimeThreadId
    c.loopIndex c.toolCall metadata approvalRequired

/-- The tasks as they were created. -/
def AgentDb.origins (db : AgentDb) : List TaskOrigin := db.tasks.rows.map TaskRecord.origin

/-- The row was created for a call of one of the tasks. -/
def MadeByPrepare (texts : Set Text) (origins : List TaskOrigin) (new : NewToolInvocation) : Prop :=
  ∃ task : TaskRecord, task.origin ∈ origins ∧ ∃ c : PreparedCall, AsksFor hashing task c new ∧
    c.Plain ∧ c.hashed hashing ⊆ texts

/-- Rows are created by preparations only, of calls with plain names that are all in `texts`. -/
def LedgerOp.Prepares (texts : Set Text) (origins : List TaskOrigin) : LedgerOp → Prop
  | .prepare (some thread) loopIndex toolCall _ _ _ => ∀ o ∈ origins, o.runtimeThreadId = thread →
    (PreparedCall.mk o.taskId thread loopIndex toolCall).Plain ∧
      (PreparedCall.mk o.taskId thread loopIndex toolCall).hashed hashing ⊆ texts
  | .createOrGet .. => False
  | _ => True

/-- Another tool has the execution identity of a call that has no record of its own id. -/
def Clashes (db : AgentDb) (new : NewToolInvocation) : Prop :=
  db.invocation new.invocationId = none ∧ ∃ r ∈ db.toolInvocations.rows,
    ToolInvocationRecord.executionIdentity r = (new.taskId,new.runtimeThreadId,new.loopIndex,
      new.toolCallId,new.argumentsDigest) ∧ r.toolName ≠ new.toolName

variable {hashing} {texts : Set Text} {db db' : AgentDb} {new : NewToolInvocation}

theorem requested_prepare {thread : Option ThreadId} {loopIndex : Int} {toolCall : ToolCall}
    {metadata : ToolMetadata} {approvalRequired : Bool} {now : Nat}
    (h : (LedgerOp.prepare thread loopIndex toolCall metadata approvalRequired now).requested
      hashing.env db = some new) :
    ∃ task ∈ db.tasks.rows, thread = some task.runtimeThreadId ∧
      AsksFor hashing task ⟨task.taskId,task.runtimeThreadId,loopIndex,toolCall⟩ new := by
  cases thread with
  | none => cases h
  | some thread =>
    simp only [LedgerOp.requested] at h
    split at h
    · cases h
    · cases hfind : db.tasks.rows.find? (fun r => r.runtimeThreadId = thread) with
      | none =>
        rw [hfind] at h
        cases h
      | some task =>
        rw [hfind] at h
        simp only [invocationRequest] at h
        split at h
        · cases h
        · next hnot =>
          have hthread : task.runtimeThreadId = thread := by simpa using List.find?_some hfind
          simp only [not_or,ne_eq,not_not] at hnot
          subst hthread
          exact ⟨task,List.mem_of_find?_eq_some hfind,rfl,rfl,rfl,hnot.1,hnot.2.2,metadata,
            approvalRequired,(Option.some.inj h).symm⟩

theorem origins_ignores : IgnoresProgress AgentDb.origins where
  tasks db p f hf horigin := by
    simp only [AgentDb.origins,Table.update,List.map_map]
    apply List.map_congr_left
    intro r _
    simp only [Function.comp]
    split
    · exact horigin r
    · rfl
  taskEvents _ _ _ := rfl
  pendingContinuations _ _ := rfl
  queuedExecutions _ _ := rfl
  toolInvocations _ _ := rfl

theorem apply_origins (env : LedgerEnv) (op : LedgerOp) (db : AgentDb) :
    (op.apply env db).origins = db.origins := by
  have hv := origins_ignores
  refine (LedgerOp.txn_keeps hv.toolInvocations (fun _ _ _ _ _ => ?_)
    (fun _ _ _ _ => hv.appendTaskEvent _ _ _) env op).commit db
  exact hv.upsertArtifact (fun _ _ _ => rfl) _ _ _

/-- What a ledger that only preparations fill has in its rows. -/
def FilledByPrepare (hashing : Hashing) (texts : Set Text) (db : AgentDb) : Prop :=
  ∀ id r, db.invocation id = some r → MadeByPrepare hashing texts db.origins r.identity

theorem filled_apply {op : LedgerOp} (h : FilledByPrepare hashing texts db)
    (hop : op.Prepares hashing texts db.origins) :
    FilledByPrepare hashing texts (op.apply hashing.env db) := by
  intro id r hr
  rw [apply_origins]
  rcases (LedgerOp.apply_moves hashing.env op db).row id with
    hsame | ⟨_,new,now,hnew,hcreated⟩ | ⟨r₀,r₁,hr₀,hr₁,hmove⟩
  · exact h id r (hsame ▸ hr)
  · rw [hcreated] at hr
    cases hr
    cases op with
    | prepare thread loopIndex toolCall metadata approvalRequired now =>
      obtain ⟨task,htask,rfl,hrequest⟩ := requested_prepare hnew
      obtain ⟨hplain,htexts⟩ := hop task.origin (List.mem_map_of_mem htask) rfl
      exact ⟨task,List.mem_map_of_mem htask,_,hrequest,hplain,htexts⟩
    | createOrGet => exact hop.elim
    | _ => cases hnew
  · rw [hr₁] at hr
    cases hr
    rw [hmove.advances.identity]
    exact h id r₀ hr₀

theorem FilledByPrepare.of_kept (h : FilledByPrepare hashing texts db)
    (hrows : db'.toolInvocations = db.toolInvocations) (ho : ∀ o ∈ db.origins, o ∈ db'.origins) :
    FilledByPrepare hashing texts db' := by
  intro id r hr
  rw [AgentDb.invocation,hrows] at hr
  obtain ⟨task,htask,hmade⟩ := h id r hr
  exact ⟨task,ho _ htask,hmade⟩

/-- The stores in which only preparations create rows. Beside the ledger anything may happen that
lets every task be. -/
inductive WrittenByPrepare (hashing : Hashing) (texts : Set Text) : AgentDb → Prop
  | start (db : AgentDb) (h : db.toolInvocations.rows = []) : WrittenByPrepare hashing texts db
  | ledger {db : AgentDb} (op : LedgerOp) (h : WrittenByPrepare hashing texts db)
      (hop : op.Prepares hashing texts db.origins) :
      WrittenByPrepare hashing texts (op.apply hashing.env db)
  | beside {db db' : AgentDb} (h : WrittenByPrepare hashing texts db)
      (hrows : db'.toolInvocations = db.toolInvocations)
      (ho : ∀ o ∈ db.origins, o ∈ db'.origins) : WrittenByPrepare hashing texts db'

theorem WrittenByPrepare.filled (h : WrittenByPrepare hashing texts db) :
    FilledByPrepare hashing texts db := by
  induction h with
  | start db hempty =>
    intro id r hr
    have hmem := Table.mem_of_get hr
    rw [hempty] at hmem
    cases hmem
  | ledger op _ hop ih => exact filled_apply ih hop
  | beside _ hrows ho ih => exact ih.of_kept hrows ho

theorem origin_unique {o o' : TaskOrigin} (h : o ∈ db.origins) (h' : o' ∈ db.origins)
    (hid : o.taskId = o'.taskId) : o = o' := by
  obtain ⟨r,hr,rfl⟩ := List.mem_map.mp h
  obtain ⟨r',hr',rfl⟩ := List.mem_map.mp h'
  have hget := Table.get_of_mem hr
  rw [show r.taskId = r'.taskId from hid,Table.get_of_mem hr'] at hget
  rw [Option.some.inj hget]

theorem AsksFor.fields {task : TaskRecord} {c : PreparedCall} (h : AsksFor hashing task c new) :
    new.invocationId = c.invocationId hashing ∧ new.taskId = c.taskId ∧
      new.contextId = task.contextId ∧ new.runtimeThreadId = c.runtimeThreadId ∧
      new.loopIndex = c.loopIndex ∧ new.toolCallId = c.toolCallId hashing ∧
      new.toolName = c.toolCall.name ∧ new.argumentsDigest = c.argumentsDigest hashing := by
  obtain ⟨metadata,approvalRequired,rfl⟩ := h.request
  unfold PreparedCall.invocationId
  rw [h.taskId]
  exact ⟨rfl,rfl,rfl,rfl,rfl,rfl,rfl,rfl⟩

/-- The fields by which `create_or_get_tool_invocation` tells records apart. -/
def SameIdentity (r : ToolInvocationRecord) (new : NewToolInvocation) : Prop :=
  r.taskId = new.taskId ∧ r.contextId = new.contextId ∧
    r.runtimeThreadId = new.runtimeThreadId ∧ r.loopIndex = new.loopIndex ∧
    r.toolCallId = new.toolCallId ∧ r.toolName = new.toolName ∧
    r.argumentsDigest = new.argumentsDigest

/-- A record of the task of the call has the context of the call too. -/
theorem context_of_task {r : ToolInvocationRecord} {task : TaskRecord} {c : PreparedCall}
    {id : InvocationId} (hfilled : FilledByPrepare hashing texts db)
    (htask : task.origin ∈ db.origins) (hc : AsksFor hashing task c new)
    (hr : db.invocation id = some r) (hid : r.taskId = new.taskId) :
    r.contextId = new.contextId := by
  obtain ⟨task',htask',c',hc',_⟩ := hfilled _ r hr
  have hsame : task'.taskId = task.taskId := by
    rw [← hc'.taskId,← hc.taskId,← hc'.fields.2.1,← hc.fields.2.1]
    exact hid
  have horigin := congrArg TaskOrigin.contextId (origin_unique htask' htask hsame)
  exact hc'.fields.2.2.1.trans (horigin.trans hc.fields.2.2.1.symm)

/-- A record that was made by a preparation and has the id of a call is the record of that call. -/
theorem sameIdentity_of_id {r : ToolInvocationRecord} {task : TaskRecord} {c : PreparedCall}
    (hfree : hashing.CollisionFree texts) (hfilled : FilledByPrepare hashing texts db)
    (htask : task.origin ∈ db.origins) (hc : AsksFor hashing task c new) (hplain : c.Plain)
    (htexts : c.hashed hashing ⊆ texts) (hr : db.invocation new.invocationId = some r) :
    SameIdentity r new := by
  obtain ⟨task',htask',c',hc',hplain',htexts'⟩ := hfilled _ r hr
  obtain ⟨hid,htaskId,_,hthread,hloop,hcall,hname,hdigest⟩ := hc.fields
  obtain ⟨hid',htaskId',_,hthread',hloop',hcall',hname',hdigest'⟩ := hc'.fields
  have hkey : r.invocationId = new.invocationId := Table.key_of_get hr
  have hids : c'.invocationId hashing = c.invocationId hashing := by
    rw [← hid,← hid']
    exact hkey
  have hagree := (invocationId_eq_iff hfree hplain' hplain htexts' htexts).mp hids
  have htaskSame : r.taskId = new.taskId := htaskId'.trans (hagree.taskId.trans htaskId.symm)
  exact ⟨htaskSame,context_of_task hfilled htask hc hr htaskSame,
    hthread'.trans (hagree.runtimeThreadId.trans hthread.symm),
    hloop'.trans (hagree.loopIndex.trans hloop.symm),
    hcall'.trans (hagree.toolCallId.trans hcall.symm),
    hname'.trans (hagree.toolName.trans hname.symm),
    hdigest'.trans (((digest_eq_iff hfree htexts' htexts).mpr hagree.arguments).trans
      hdigest.symm)⟩

/-- A record of the same execution identity and the same tool has the id of the call. -/
theorem id_of_sameIdentity {r : ToolInvocationRecord} {task : TaskRecord} {c : PreparedCall}
    {id : InvocationId} (hfilled : FilledByPrepare hashing texts db)
    (hc : AsksFor hashing task c new) (hr : db.invocation id = some r)
    (hsame : SameIdentity r new) : r.invocationId = new.invocationId := by
  obtain ⟨task',_,c',hc',_⟩ := hfilled _ r hr
  obtain ⟨hid,htaskId,_,hthread,hloop,hcall,hname,hdigest⟩ := hc.fields
  obtain ⟨hid',htaskId',_,hthread',hloop',hcall',hname',hdigest'⟩ := hc'.fields
  obtain ⟨htask,_,hsthread,hsloop,hscall,hsname,hsdigest⟩ := hsame
  refine hid'.trans (Eq.trans ?_ hid.symm)
  unfold PreparedCall.invocationId
  rw [← htaskId',← htaskId,← hthread',← hthread,← hloop',← hloop,← hcall',← hcall,← hname',← hname,
    ← hdigest',← hdigest]
  show hashing.env.invocationId r.taskId r.runtimeThreadId r.loopIndex r.toolCallId r.toolName
    r.argumentsDigest = _
  rw [htask,hsthread,hsloop,hscall,hsname,hsdigest]

end Requests

section Outcome

variable {hashing : Hashing} {texts : Set Text} {db : AgentDb} {new : NewToolInvocation}
  {r : ToolInvocationRecord} {now : Nat}

/-- The checks in front of the lookups pass. -/
structure Admitted (db : AgentDb) (new : NewToolInvocation) : Prop where
  loopIndex : 1 ≤ new.loopIndex
  named : new.invocationId ≠ "" ∧ new.toolCallId ≠ "" ∧ new.toolName ≠ "" ∧
    new.argumentsDigest ≠ ""
  owner : (requireInvocationOwner new).run db = .ok ((),db)

def conflict (invocationId : InvocationId) : PyException :=
  .valueError ("tool invocation identity conflict: " ++ invocationId)

theorem validate_run (r : ToolInvocationRecord) (new : NewToolInvocation) (db : AgentDb) :
    (validateToolInvocationIdentity r new).run db =
      if r.taskId = new.taskId ∧ r.contextId = new.contextId ∧
        r.runtimeThreadId = new.runtimeThreadId ∧ r.loopIndex = new.loopIndex ∧
        r.toolCallId = new.toolCallId ∧ r.toolName = new.toolName ∧
        r.argumentsDigest = new.argumentsDigest then .ok ((),db) else .error (conflict r.invocationId) := by
  unfold validateToolInvocationIdentity
  rw [require]
  split <;> rfl

theorem createOrGet_of_id (hok : Admitted db new) (hr : db.invocation new.invocationId = some r)
    (hsame : SameIdentity r new) : (createOrGetToolInvocation new now).run db = .ok (r,db) := by
  unfold createOrGetToolInvocation
  rw [run_bind_of (run_require_of hok.loopIndex _),run_bind_of (run_require_of hok.named _),
    run_bind_of hok.owner,run_bind_of (getToolInvocation_ok.mpr ⟨hr,rfl⟩)]
  dsimp only
  rw [run_bind,validate_run,if_pos (show _ ∧ _ from hsame)]
  rfl

theorem createOrGet_of_clash (hok : Admitted db new)
    (hnone : db.invocation new.invocationId = none)
    (hr : db.toolInvocations.rows.find? (fun r => ToolInvocationRecord.executionIdentity r =
      (new.taskId,new.runtimeThreadId,new.loopIndex,new.toolCallId,new.argumentsDigest)) = some r)
    (hname : r.toolName ≠ new.toolName) :
    (createOrGetToolInvocation new now).run db = .error (conflict r.invocationId) := by
  unfold createOrGetToolInvocation
  rw [run_bind_of (run_require_of hok.loopIndex _),run_bind_of (run_require_of hok.named _),
    run_bind_of hok.owner,run_bind_of (getToolInvocation_ok.mpr ⟨hnone,rfl⟩)]
  dsimp only
  rw [run_bind_of (show (getToolInvocationByExecutionIdentity _).run db = .ok (some r,db) from
    congrArg (fun o => Except.ok (o,db)) hr)]
  dsimp only
  rw [run_bind,validate_run,if_neg fun h => hname h.2.2.2.2.2.1]

variable (now) in
theorem createOrGet_of_fresh (hok : Admitted db new)
    (hnone : db.invocation new.invocationId = none)
    (hfree : ∀ r ∈ db.toolInvocations.rows, ToolInvocationRecord.executionIdentity r ≠
      (new.taskId,new.runtimeThreadId,new.loopIndex,new.toolCallId,new.argumentsDigest)) :
    ∃ db', (createOrGetToolInvocation new now).run db = .ok (new.record now,db') := by
  unfold createOrGetToolInvocation
  rw [run_bind_of (run_require_of hok.loopIndex _),run_bind_of (run_require_of hok.named _),
    run_bind_of hok.owner,run_bind_of (getToolInvocation_ok.mpr ⟨hnone,rfl⟩)]
  dsimp only
  have hfind : db.toolInvocations.rows.find? (fun r => ToolInvocationRecord.executionIdentity r =
      (new.taskId,new.runtimeThreadId,new.loopIndex,new.toolCallId,new.argumentsDigest)) = none := by
    simpa using hfree
  rw [run_bind_of (show (getToolInvocationByExecutionIdentity _).run db = .ok (none,db) from
    congrArg (fun o => Except.ok (o,db)) hfind)]
  dsimp only
  obtain ⟨rows,hrows⟩ := Option.isSome_iff_exists.mp
    ((Table.insert?_isSome_iff (t := db.toolInvocations) (r := new.record now)).mpr hnone)
  have hinsert : (insertToolInvocation (new.record now)).run db =
      .ok ((),{db with toolInvocations := rows}) := by
    unfold insertToolInvocation uniqueConstraint
    have hunique : ∀ r ∈ db.toolInvocations.rows, ToolInvocationRecord.executionIdentity r ≠
      ToolInvocationRecord.executionIdentity (new.record now) := hfree
    rw [run_statement,run_bind_of (run_select _),run_bind_of (run_require_of hunique _)]
    exact (write?_ok _ _).mpr (by rw [hrows]; rfl)
  rw [run_bind_of hinsert]
  have hget : ({db with toolInvocations := rows} : AgentDb).invocation new.invocationId =
      some (new.record now) := by
    have hget := Table.get_insert? hrows new.invocationId
    rwa [if_pos (show (new.record now).invocationId = new.invocationId from rfl)] at hget
  rw [run_bind_of (getToolInvocation_ok.mpr ⟨hget,rfl⟩)]
  exact ⟨_,run_orFail_of rfl _⟩

theorem toolCallId_ne_empty (env : LedgerEnv) (loopIndex : Int) (toolCall : ToolCall) :
    env.toolCallId loopIndex toolCall ≠ "" := by
  have hfallback : ∀ name digest, toolCallFallbackId loopIndex name digest ≠ "" := by
    intro name digest h
    have h := congrArg String.toList h
    simp [toolCallFallbackId] at h
  unfold LedgerEnv.toolCallId
  split
  · exact hfallback _ _
  · exact hfallback _ _
  · next id hne _ =>
    rintro rfl
    exact hne rfl

theorem AsksFor.admitted {task : TaskRecord} {c : PreparedCall} (htask : task ∈ db.tasks.rows)
    (hc : AsksFor hashing task c new) (hloop : 1 ≤ new.loopIndex) : Admitted db new := by
  obtain ⟨hid,htaskId,hcontext,hthread,_,hcall,hname,hdigest⟩ := hc.fields
  have howner : db.tasks.get new.taskId = some task := by
    rw [htaskId,hc.taskId]
    exact Table.get_of_mem htask
  refine ⟨hloop,⟨?_,?_,?_,?_⟩,?_⟩
  · rw [hid]
    intro h
    have h := congrArg String.toList h
    simp [PreparedCall.invocationId,LedgerEnv.invocationId] at h
  · rw [hcall]
    exact toolCallId_ne_empty _ _ _
  · rw [hname]
    exact hc.named
  · rw [hdigest]
    exact (hashing.hex _).ne_empty
  · unfold requireInvocationOwner
    rw [run_bind_of (requireTask_ok.mpr ⟨howner,rfl⟩),run_bind_of (run_require_of hcontext.symm _),
      run_bind_of (run_require_of (hc.runtimeThreadId.symm.trans hthread.symm) _)]
    exact run_require_of hc.isLocal _

variable (now) in
/-- What becomes of a request of a preparation: the record of the call, the record of another
tool, or a new record. -/
theorem AsksFor.outcome {task : TaskRecord} {c : PreparedCall}
    (hfree : hashing.CollisionFree texts) (hfilled : FilledByPrepare hashing texts db)
    (htask : task ∈ db.tasks.rows) (hc : AsksFor hashing task c new) (hplain : c.Plain)
    (htexts : c.hashed hashing ⊆ texts) (hloop : 1 ≤ new.loopIndex) :
    (Clashes db new ∧ ∃ id, (createOrGetToolInvocation new now).run db = .error (conflict id)) ∨
      ¬Clashes db new ∧ ∃ r db', (createOrGetToolInvocation new now).run db = .ok (r,db') ∧
        r.invocationId = new.invocationId := by
  have hok := hc.admitted htask hloop
  have horigin : task.origin ∈ db.origins := List.mem_map_of_mem htask
  cases hr : db.invocation new.invocationId with
  | some r =>
    have hsame := sameIdentity_of_id hfree hfilled horigin hc hplain htexts hr
    refine .inr ⟨fun h => ?_,r,db,createOrGet_of_id hok hr hsame,Table.key_of_get hr⟩
    rw [Clashes,hr] at h
    cases h.1
  | none =>
    cases hfind : db.toolInvocations.rows.find? (fun r =>
        ToolInvocationRecord.executionIdentity r = (new.taskId,new.runtimeThreadId,new.loopIndex,
          new.toolCallId,new.argumentsDigest)) with
    | none =>
      have hnone : ∀ r ∈ db.toolInvocations.rows, ToolInvocationRecord.executionIdentity r ≠
          (new.taskId,new.runtimeThreadId,new.loopIndex,new.toolCallId,new.argumentsDigest) := by
        simpa using hfind
      obtain ⟨db',hrun⟩ := createOrGet_of_fresh now hok hr hnone
      refine .inr ⟨?_,_,db',hrun,rfl⟩
      rintro ⟨_,r,hmem,hsame,_⟩
      exact hnone r hmem hsame
    | some r =>
      have hmem := List.mem_of_find?_eq_some hfind
      have hsame : ToolInvocationRecord.executionIdentity r = (new.taskId,new.runtimeThreadId,
        new.loopIndex,new.toolCallId,new.argumentsDigest) := by simpa using List.find?_some hfind
      have hget : db.invocation r.invocationId = some r := Table.get_of_mem hmem
      have hname : r.toolName ≠ new.toolName := by
        intro hname
        obtain ⟨htaskId,hthread,hindex,hcall,hdigest⟩ := by
          simpa [ToolInvocationRecord.executionIdentity] using hsame
        have hcontext := context_of_task hfilled horigin hc hget htaskId
        have hid := id_of_sameIdentity hfilled hc hget
          ⟨htaskId,hcontext,hthread,hindex,hcall,hname,hdigest⟩
        rw [hid,hr] at hget
        cases hget
      exact .inl ⟨⟨hr,r,hmem,hsame,hname⟩,r.invocationId,createOrGet_of_clash hok hr hfind hname⟩

/-- An earlier record of the effect of the call, which is not to be repeated. -/
structure BlockedBy (prior : ToolInvocationRecord) (new : NewToolInvocation) : Prop where
  taskId : prior.taskId = new.taskId
  toolName : prior.toolName = new.toolName
  argumentsDigest : prior.argumentsDigest = new.argumentsDigest
  blocks : blocksReplay prior.status = true

theorem mem_of_latestInvocation {rows : List ToolInvocationRecord}
    (h : latestInvocation rows = some r) : r ∈ rows := by
  induction rows generalizing r with
  | nil => cases h
  | cons a rows ih =>
    simp only [latestInvocation] at h
    split at h
    · cases h
      exact List.mem_cons_self
    · next a' ha' =>
      by_cases hlater : laterInvocation a a' = true
      · rw [if_pos hlater] at h
        cases h
        exact List.mem_cons_self
      · rw [if_neg hlater] at h
        cases h
        exact List.mem_cons_of_mem a (ih ha')

/-- The reference of a prepared call is of its own record, or of one that blocks it. -/
theorem prepareNew_reference {db' : AgentDb} {reference : ToolInvocationReference}
    (h : (prepareNew new now).run db = .ok (some reference,db')) :
    (∃ prior ∈ db.toolInvocations.rows, BlockedBy prior new ∧
      reference.invocationId = prior.invocationId) ∨
    ∃ r, (createOrGetToolInvocation new now).run db = .ok (r,db') ∧
      reference.invocationId = r.invocationId := by
  obtain ⟨o,db₁,hprior,hrest⟩ := (bind_ok _ _).mp h
  have hread : db₁ = db ∧ ∀ prior, o = some prior → prior ∈ db.toolInvocations.rows ∧
      prior.taskId = new.taskId ∧ prior.toolName = new.toolName ∧
      prior.argumentsDigest = new.argumentsDigest := by
    obtain ⟨found,_,hfound,hprior⟩ := (bind_ok _ _).mp hprior
    obtain ⟨_,rfl⟩ := getToolInvocation_ok.mp hfound
    cases found with
    | some r =>
      obtain ⟨rfl,rfl⟩ := pure_ok.mp hprior
      exact ⟨rfl,fun prior hnone => by cases hnone⟩
    | none =>
      simp only [findLatestToolInvocationForEffect,run_select,Except.ok.injEq,Prod.mk.injEq] at hprior
      obtain ⟨rfl,rfl⟩ := hprior
      refine ⟨rfl,fun prior hlatest => ?_⟩
      have hmem := List.mem_filter.mp (mem_of_latestInvocation hlatest)
      exact ⟨hmem.1,of_decide_eq_true hmem.2⟩
  obtain ⟨rfl,hread⟩ := hread
  split at hrest
  · next prior hfilter =>
    obtain ⟨hsome,hblocks⟩ := Option.filter_eq_some_iff.mp hfilter
    obtain ⟨hmem,htask,hname,hdigest⟩ := hread prior hsome
    cases (pure_ok.mp hrest).1
    exact .inl ⟨prior,hmem,⟨htask,hname,hdigest,hblocks⟩,rfl⟩
  · obtain ⟨r,hrun,hr⟩ := (map_ok _ _).mp hrest
    cases hr
    refine .inr ⟨r,hrun,?_⟩
    unfold referenceOf
    split <;> rfl

theorem prepare_run {env : LedgerEnv} {thread : ThreadId} {loopIndex : Int} {toolCall : ToolCall}
    {metadata : ToolMetadata} {approvalRequired : Bool}
    (h : (LedgerOp.prepare (some thread) loopIndex toolCall metadata approvalRequired now).requested
      env db = some new) :
    (prepare env (some thread) loopIndex toolCall metadata approvalRequired now).run db =
      (prepareNew new now).run db := by
  unfold prepare
  simp only [LedgerOp.requested] at h
  split at h
  · cases h
  · next hthread =>
    dsimp only
    rw [if_neg hthread,getTaskByRuntimeThreadId,run_bind_of (run_select _),h]

theorem conflict_ne_loop (id : InvocationId) :
    PyException.valueError "tool invocation loop_index must be positive" ≠ conflict id := by
  intro h
  have h := congrArg (fun s => s.toList[16]?) (PyException.valueError.inj h)
  simp at h

end Outcome

/-- Of calls of local tasks with side effects, no two share an id unless they are one call. A store
that only preparations fill has the record of a call under its id. What is refused as a conflict
is a call without a record whose execution identity is that of another tool. -/
theorem invocation_identity (hashing : Hashing) (texts : Set Text)
    (hfree : hashing.CollisionFree texts) :
    (∀ c d : PreparedCall, c.Plain → d.Plain → c.hashed hashing ⊆ texts →
      d.hashed hashing ⊆ texts →
        (c.invocationId hashing = d.invocationId hashing ↔ c.Agree hashing d)) ∧
    ∀ db, WrittenByPrepare hashing texts db → ∀ thread loopIndex toolCall metadata
      approvalRequired now new,
      (LedgerOp.prepare (some thread) loopIndex toolCall metadata approvalRequired now).Prepares
        hashing texts db.origins →
      (LedgerOp.prepare (some thread) loopIndex toolCall metadata approvalRequired now).requested
        hashing.env db = some new →
      (∃ task ∈ db.tasks.rows, task.runtimeThreadId = thread ∧ new.invocationId =
        (PreparedCall.mk task.taskId thread loopIndex toolCall).invocationId hashing) ∧
      ((∃ id, (createOrGetToolInvocation new now).run db = .error (conflict id)) ↔
        1 ≤ loopIndex ∧ Clashes db new) ∧
      ∀ reference db', (prepare hashing.env (some thread) loopIndex toolCall metadata
          approvalRequired now).run db = .ok (some reference,db') →
        reference.invocationId = new.invocationId ∨ ∃ prior ∈ db.toolInvocations.rows,
          BlockedBy prior new ∧ reference.invocationId = prior.invocationId := by
  refine ⟨fun c d hc hd hct hdt => invocationId_eq_iff hfree hc hd hct hdt,?_⟩
  intro db hwritten thread loopIndex toolCall metadata approvalRequired now new hop hnew
  obtain ⟨task,htask,hthread,hc⟩ := requested_prepare hnew
  cases hthread
  obtain ⟨hplain,htexts⟩ := hop task.origin (List.mem_map_of_mem htask) rfl
  have hindex : new.loopIndex = loopIndex := hc.fields.2.2.2.2.1
  have houtcome := hc.outcome now hfree hwritten.filled htask hplain htexts
  refine ⟨⟨task,htask,rfl,hc.fields.1⟩,?_,?_⟩
  · by_cases hloop : 1 ≤ loopIndex
    · rcases houtcome (hindex ▸ hloop) with ⟨hclash,herror⟩ | ⟨hclash,r,db',hrun,_⟩
      · exact ⟨fun _ => ⟨hloop,hclash⟩,fun _ => herror⟩
      · constructor
        · rintro ⟨id,herror⟩
          rw [hrun] at herror
          cases herror
        · exact fun h => (hclash h.2).elim
    · constructor
      · rintro ⟨id,herror⟩
        unfold createOrGetToolInvocation at herror
        rw [run_require_bind,hindex,if_neg hloop] at herror
        exact (conflict_ne_loop id (Except.error.inj herror)).elim
      · exact fun h => (hloop h.1).elim
  · intro reference db' hrun
    rw [prepare_run hnew] at hrun
    rcases prepareNew_reference hrun with hblocked | ⟨r,hcreate,hr⟩
    · exact .inr hblocked
    · have hloop : 1 ≤ new.loopIndex := by
        by_contra hloop
        unfold createOrGetToolInvocation at hcreate
        rw [run_require_bind,if_neg hloop] at hcreate
        cases hcreate
      rcases houtcome hloop with ⟨_,id,herror⟩ | ⟨_,r',db'',hsome,hkey⟩
      · rw [herror] at hcreate
        cases hcreate
      · rw [hsome] at hcreate
        cases hcreate
        exact .inl (hr.trans hkey)

section Sample

/-- SHA-256 on the texts of two calls that differ in their tool. -/
def sampleHashing : Hashing where
  sha256 text :=
    if text = Text.of "\x7b\x7d" then
      "44136fa355b3678a1146ad16f7e8649e94fb4fc21fe77e8310c060f61caaff8a"
    else if text = Text.of ("task|thread|1|call-a|write_file|" ++
        "44136fa355b3678a1146ad16f7e8649e94fb4fc21fe77e8310c060f61caaff8a") then
      "c5cf79e2a0a06b3d31ad4df9e5d785631e5ebf1c4a52db5ed0b0e39254d1a57b"
    else if text = Text.of ("task|thread|1|call-a|delete_file|" ++
        "44136fa355b3678a1146ad16f7e8649e94fb4fc21fe77e8310c060f61caaff8a") then
      "0a4d9c84700d9c9fe57f067ec5765e1fcaad2919ca28def3a0d3446128bcd495"
    else "0000000000000000000000000000000000000000000000000000000000000000"
  hex text := by split_ifs <;> simp [IsHexDigest]
  arguments _ := .mapping []
  jsonLoads _ := none
  jsonDumps _ := ""

def sampleCall (toolName : String) : PreparedCall :=
  ⟨"task","thread",1,⟨toolName,.obj [],some "call-a"⟩⟩

def sampleTexts : Set Text :=
  (sampleCall "write_file").hashed sampleHashing ∪ (sampleCall "delete_file").hashed sampleHashing

theorem sampleTexts_free : sampleHashing.CollisionFree sampleTexts := by
  have harguments : sampleHashing.sha256 (sampleHashing.arguments (.obj [])).canonical =
      "44136fa355b3678a1146ad16f7e8649e94fb4fc21fe77e8310c060f61caaff8a" := by decide +kernel
  have hwrite : sampleHashing.sha256 (Text.of ((sampleCall "write_file").identity sampleHashing)) =
      "c5cf79e2a0a06b3d31ad4df9e5d785631e5ebf1c4a52db5ed0b0e39254d1a57b" := by decide +kernel
  have hdelete : sampleHashing.sha256 (Text.of ((sampleCall "delete_file").identity sampleHashing)) =
      "0a4d9c84700d9c9fe57f067ec5765e1fcaad2919ca28def3a0d3446128bcd495" := by decide +kernel
  have hmem : ∀ text ∈ sampleTexts, text = (sampleHashing.arguments (.obj [])).canonical ∨
      text = Text.of ((sampleCall "write_file").identity sampleHashing) ∨
      text = Text.of ((sampleCall "delete_file").identity sampleHashing) := by
    rintro text ((rfl | rfl) | (rfl | rfl))
    · exact .inl rfl
    · exact .inr (.inl rfl)
    · exact .inl rfl
    · exact .inr (.inr rfl)
  intro a ha b hb h
  rcases hmem a ha with rfl | rfl | rfl <;> rcases hmem b hb with rfl | rfl | rfl <;>
    simp only [harguments,hwrite,hdelete] at h <;> first | exact absurd h (by decide) | rfl

theorem sampleCall_plain {toolName : String} (h : '|' ∉ toolName.toList) :
    (sampleCall toolName).Plain where
  taskId := show '|' ∉ "task".toList by decide
  runtimeThreadId := show '|' ∉ "thread".toList by decide
  toolName := h

def samplePreparation (toolName : String) : LedgerOp :=
  .prepare (some "thread") 1 (sampleCall toolName).toolCall sampleMetadata false 1

theorem samplePreparation_prepares {toolName : String} (h : '|' ∉ toolName.toList)
    (htexts : (sampleCall toolName).hashed sampleHashing ⊆ sampleTexts) {db : AgentDb}
    (ho : ∀ o ∈ db.origins, o.taskId = "task") :
    (samplePreparation toolName).Prepares sampleHashing sampleTexts db.origins := by
  intro o hmem _
  rw [ho o hmem]
  exact ⟨sampleCall_plain h,htexts⟩

/-- The store after the file was written. -/
def identityStore : AgentDb := (samplePreparation "write_file").apply sampleHashing.env sampleDb

theorem identityStore_origins : ∀ o ∈ identityStore.origins, o.taskId = "task" := by
  intro o ho
  rw [identityStore,apply_origins] at ho
  obtain rfl := List.mem_singleton.mp ho
  rfl

theorem identityStore_written : WrittenByPrepare sampleHashing sampleTexts identityStore := by
  refine .ledger _ (.start sampleDb rfl) (samplePreparation_prepares (by decide)
    Set.subset_union_left fun o ho => ?_)
  obtain rfl := List.mem_singleton.mp ho
  rfl

end Sample

/-- A call that writes a file and one of the same id that deletes it; the first is written twice. -/
theorem invocation_identity_sample :
    (sampleCall "write_file").invocationId sampleHashing ≠
      (sampleCall "delete_file").invocationId sampleHashing ∧
    ∃ new, (samplePreparation "write_file").requested sampleHashing.env identityStore = some new ∧
      ¬∃ id, (createOrGetToolInvocation new 1).run identityStore = .error (conflict id) := by
  obtain ⟨hids,hstore⟩ := invocation_identity sampleHashing sampleTexts sampleTexts_free
  obtain ⟨new,hnew⟩ := Option.isSome_iff_exists.mp (show
    ((samplePreparation "write_file").requested sampleHashing.env identityStore).isSome = true by
      decide +kernel)
  have hid : ((samplePreparation "write_file").requested sampleHashing.env identityStore).all
      (fun new => (identityStore.invocation new.invocationId).isSome) = true := by decide +kernel
  rw [hnew] at hid
  obtain ⟨_,hconflict,_⟩ := hstore identityStore identityStore_written "thread" 1
    (sampleCall "write_file").toolCall sampleMetadata false 1 new
    (samplePreparation_prepares (by decide) Set.subset_union_left identityStore_origins) hnew
  refine ⟨?_,new,hnew,?_⟩
  · intro h
    have hagree := (hids _ _ (sampleCall_plain (by decide)) (sampleCall_plain (by decide))
      Set.subset_union_left Set.subset_union_right).mp h
    exact absurd hagree.toolName (by decide)
  · intro h
    have hclash := (hconflict.mp h).2
    rw [Clashes] at hclash
    rw [Option.all_some,hclash.1] at hid
    cases hid

/-- After a file was written, the call of the same id that deletes it is refused: one task, one
thread, one loop index and one id of a model call, for two tools. -/
theorem other_tool_conflicts :
    sampleHashing.CollisionFree sampleTexts ∧
    WrittenByPrepare sampleHashing sampleTexts identityStore ∧
    (samplePreparation "delete_file").Prepares sampleHashing sampleTexts identityStore.origins ∧
    ∃ new, (samplePreparation "delete_file").requested sampleHashing.env identityStore = some new ∧
      (createOrGetToolInvocation new 2).run identityStore = .error (conflict sampleIdA) := by
  obtain ⟨new,hnew⟩ := Option.isSome_iff_exists.mp (show
    ((samplePreparation "delete_file").requested sampleHashing.env identityStore).isSome = true by
      decide +kernel)
  have hfacts : ((samplePreparation "delete_file").requested sampleHashing.env identityStore).all
      (fun new => new.loopIndex = 1 && new.toolName = "delete_file" &&
        (identityStore.invocation new.invocationId).isNone &&
        (identityStore.toolInvocations.rows.find? fun r => ToolInvocationRecord.executionIdentity r =
          (new.taskId,new.runtimeThreadId,new.loopIndex,new.toolCallId,new.argumentsDigest)).any
            fun r => r.toolName = "write_file" && r.invocationId = sampleIdA) = true := by
    decide +kernel
  rw [hnew] at hfacts
  simp only [Option.all_some,Bool.and_eq_true,decide_eq_true_eq,Option.isNone_iff_eq_none,
    Option.any_eq_true] at hfacts
  obtain ⟨⟨⟨hloop,hname⟩,hnone⟩,r,hfind,hother,hid⟩ := hfacts
  obtain ⟨task,htask,_,hc⟩ := requested_prepare hnew
  refine ⟨sampleTexts_free,identityStore_written,samplePreparation_prepares (by decide)
    Set.subset_union_right identityStore_origins,new,hnew,?_⟩
  rw [← hid]
  refine createOrGet_of_clash (hc.admitted htask hloop.ge) hnone hfind ?_
  rw [hother,hname]
  decide

end VermayAgent
