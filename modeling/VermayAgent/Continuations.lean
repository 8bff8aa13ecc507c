import VermayAgent.Library.Slot
import VermayAgent.RowCoupling

/-! Which request a continuation answers.
A continuation command names its task and its kind of request, and a user message if it has one.
Requests are numbered per task in the order in which slices raise them, so that a request is told
apart from a later one of its kind. -/
namespace VermayAgent
open Library Txn MainAgentStore RowEvent

/-- A command that continues a waiting task. -/
inductive Continuation where
  | resolveApproval (taskId : TaskId) (approved : Bool) (reason : Option String)
  | submitTaskInput (taskId : TaskId) (request : MainAgentRequest) (newMessageId : MessageId)

namespace Continuation

def taskId : Continuation → TaskId
  | resolveApproval taskId _ _ | submitTaskInput taskId _ _ => taskId

def kind : Continuation → String
  | resolveApproval .. => "approval_required"
  | submitTaskInput .. => "user_input_required"

def txn : Continuation → CoreTxn
  | resolveApproval taskId approved reason => .resolveApproval taskId approved reason
  | submitTaskInput taskId request messageId => .submitTaskInput taskId request messageId

def ofTxn? : CoreTxn → Option Continuation
  | .resolveApproval taskId approved reason => some (resolveApproval taskId approved reason)
  | .submitTaskInput taskId request messageId => some (submitTaskInput taskId request messageId)
  | _ => none

theorem ofTxn?_eq_some {c : CoreTxn} {k : Continuation} : ofTxn? c = some k ↔ c = k.txn := by
  cases c <;> cases k <;> simp [ofTxn?,txn]

/-- A message that is stored under the id of the command is the message of the command. -/
def MessageFits (db : AgentDb) : Continuation → Prop
  | resolveApproval .. => True
  | submitTaskInput taskId request messageId =>
    ∀ stored, db.messages.get ((nonEmpty request.messageId).getD messageId) = some stored →
      stored.taskId = some taskId ∧ stored.role = .user ∧ stored.parts = request.parts ∧
        ∃ task, db.tasks.get taskId = some task ∧ stored.contextId = task.contextId

end Continuation

/-- A request that was consumed. -/
structure Answer where
  taskId : TaskId
  kind : String
  number : Nat
deriving DecidableEq

/-- The store, the number of requests raised for each task, and the requests consumed so far. -/
structure RequestLog where
  db : AgentDb
  raised : TaskId → Nat
  answers : List Answer

namespace RequestLog

def start : RequestLog := ⟨AgentDb.empty,fun _ => 0,[]⟩

def pending (s : RequestLog) (taskId : TaskId) : Option PendingContinuationRecord :=
  s.db.pendingContinuations.get taskId

variable (core : CoreEnv) (env : LedgerEnv)

def after (s : RequestLog) (c : CoreTxn) : RequestLog :=
  match (c.txn core env).run s.db with
  | .error _ => s
  | .ok (_,db) => {
      db := db
      raised := fun t => renumber (s.pending t) (db.pendingContinuations.get t) (s.raised t)
      answers := s.answers ++ ((Continuation.ofTxn? c).map fun k =>
        ⟨k.taskId,k.kind,s.raised k.taskId⟩).toList}

def run (s : RequestLog) (cs : List CoreTxn) : RequestLog := cs.foldl (after core env) s

theorem run_db (s : RequestLog) (cs : List CoreTxn) :
    (s.run core env cs).db = CoreTxn.history core env cs s.db := by
  induction cs generalizing s with
  | nil => rfl
  | cons c cs ih =>
    have hdb : (s.after core env c).db = c.commit core env s.db := by
      unfold after CoreTxn.commit commit
      cases (c.txn core env).run s.db <;> rfl
    change ((s.after core env c).run core env cs).db = _
    rw [ih,hdb]
    rfl

end RequestLog

section Accepted

variable {db db' : AgentDb}

/-- A message that is appended under a stored id is the stored one. -/
theorem appendMessage_stored {messageId : MessageId} {contextId : ContextId} {role : MessageRole}
    {parts : List Json} {task : Option TaskId} {metadata : Json} {r stored : MessageRecord}
    (h : (appendMessage messageId contextId role parts task metadata).run db = .ok (r,db'))
    (hstored : db.messages.get messageId = some stored) :
    stored.contextId = contextId ∧ stored.role = role ∧ stored.parts = parts ∧
      stored.taskId = task := by
  simp only [appendMessage,getContext,getMessage,bind_ok,run_select,orFail_ok,Except.ok.injEq,
    Prod.mk.injEq] at h
  obtain ⟨_,_,⟨_,rfl⟩,_,_,⟨_,rfl⟩,_,_,⟨rfl,rfl⟩,h⟩ := h
  simp only [hstored,bind_ok,require_ok] at h
  obtain ⟨_,_,⟨hsame,_⟩,_⟩ := h
  exact hsame

theorem pending_rows {taskId : TaskId} {kind : String} :
    (db.rows taskId).pending = some kind ↔
      ∃ request, db.pendingContinuations.get taskId = some request ∧ request.kind = kind :=
  Option.map_eq_some_iff

variable (core : CoreEnv) (env : LedgerEnv)

/-- An accepted continuation finds a request of its kind pending and leaves none. -/
theorem continuation_accepted {k : Continuation} {a : Option PostCommitAction}
    (h : (k.txn.txn core env).run db = .ok (a,db')) :
    (∃ request, db.pendingContinuations.get k.taskId = some request ∧ request.kind = k.kind) ∧
      db'.pendingContinuations.get k.taskId = none ∧ k.MessageFits db := by
  have hresumed : ∀ {row : QueuedExecutionRow}, (resumed k.kind row).Enabled db.rows k.taskId →
      db'.rows = db.rows.modify k.taskId (resumed k.kind row).apply →
      (∃ request, db.pendingContinuations.get k.taskId = some request ∧ request.kind = k.kind) ∧
        db'.pendingContinuations.get k.taskId = none := by
    intro row hen hrows
    obtain ⟨_,_,_,_,hpending,_⟩ := hen
    refine ⟨pending_rows.mp hpending,?_⟩
    have hnone : (db'.rows k.taskId).pending = none := by
      rw [hrows,Rows.modify_self]
      rfl
    exact Option.map_eq_none_iff.mp hnone
  cases k with
  | resolveApproval taskId approved reason =>
    obtain ⟨task,hx,_⟩ := (map_ok _ _).mp h
    obtain ⟨_,row,hen,hrows⟩ := acceptPendingContinuation_rows hx
    obtain ⟨hrequest,hnone⟩ := hresumed hen hrows
    exact ⟨hrequest,hnone,trivial⟩
  | submitTaskInput taskId request messageId =>
    obtain ⟨task,hx,_⟩ := (map_ok _ _).mp h
    obtain ⟨_,row,hen,hrows⟩ := submitTaskInput_rows hx
    obtain ⟨hrequest,hnone⟩ := hresumed hen hrows
    refine ⟨hrequest,hnone,fun stored hstored => ?_⟩
    simp only [MainAgentCore.submitTaskInput,bind_ok,require_ok] at hx
    obtain ⟨_,_,⟨_,rfl⟩,_,_,⟨_,rfl⟩,before,_,h₁,_,_,⟨_,rfl⟩,_,_,h₂,_⟩ := hx
    obtain ⟨hbefore,_,rfl⟩ := validatePendingContinuation_ok h₁
    obtain ⟨hcontext,hrole,hparts,htask⟩ := appendMessage_stored h₂ hstored
    exact ⟨htask,hrole,hparts,before,hbefore,hcontext⟩

end Accepted

namespace RequestLog

variable (core : CoreEnv) (env : LedgerEnv) {s : RequestLog}

/-- Every request was consumed once at most, and a consumed request is gone. -/
structure Ok (s : RequestLog) : Prop where
  nodup : (s.answers.map fun a => (a.taskId,a.number)).Nodup
  gone : ∀ a ∈ s.answers, Slot.Since a.number none (s.raised a.taskId) (s.pending a.taskId)

/-- What one transaction does to the log. -/
theorem after_cases (s : RequestLog) (c : CoreTxn) : s.after core env c = s ∨
    ∃ a db, (c.txn core env).run s.db = .ok (a,db) ∧ s.after core env c = {
      db := db
      raised := fun t => renumber (s.pending t) (db.pendingContinuations.get t) (s.raised t)
      answers := s.answers ++ ((Continuation.ofTxn? c).map fun k =>
        ⟨k.taskId,k.kind,s.raised k.taskId⟩).toList} := by
  unfold after
  cases hrun : (c.txn core env).run s.db with
  | error e => exact .inl rfl
  | ok r => exact .inr ⟨r.1,r.2,rfl,rfl⟩

theorem since_after {m : Nat} {seen : Option PendingContinuationRecord} {t : TaskId} (c : CoreTxn)
    (h : Slot.Since m seen (s.raised t) (s.pending t)) :
    Slot.Since m seen ((s.after core env c).raised t) ((s.after core env c).pending t) := by
  rcases after_cases core env s c with heq | ⟨_,db,_,heq⟩
  · rw [heq]
    exact h
  · rw [heq]
    exact h.next _

theorem since_run {m : Nat} {seen : Option PendingContinuationRecord} {t : TaskId}
    (cs : List CoreTxn) (h : Slot.Since m seen (s.raised t) (s.pending t)) :
    Slot.Since m seen ((s.run core env cs).raised t) ((s.run core env cs).pending t) := by
  induction cs generalizing s with
  | nil => exact h
  | cons c cs ih => exact ih (since_after core env c h)

theorem ok_after (c : CoreTxn) (h : s.Ok) : (s.after core env c).Ok := by
  have hgone : ∀ a ∈ s.answers, Slot.Since a.number none ((s.after core env c).raised a.taskId)
      ((s.after core env c).pending a.taskId) := fun a ha => since_after core env c (h.gone a ha)
  rcases after_cases core env s c with heq | ⟨a,db,hrun,heq⟩
  · rw [heq]
    exact h
  · cases hk : Continuation.ofTxn? c with
    | none =>
      have hanswers : (s.after core env c).answers = s.answers := by simp [heq,hk]
      exact ⟨by rw [hanswers]; exact h.nodup,by rw [hanswers]; exact hgone⟩
    | some k =>
      obtain rfl := Continuation.ofTxn?_eq_some.mp hk
      obtain ⟨⟨request,hpending,_⟩,hnone,_⟩ := continuation_accepted core env hrun
      have hanswers : (s.after core env k.txn).answers =
          s.answers++[⟨k.taskId,k.kind,s.raised k.taskId⟩] := by simp [heq,hk]
      constructor
      · rw [hanswers,List.map_append]
        refine List.Nodup.append h.nodup (List.nodup_singleton _) ?_
        -- an earlier answer with this number would have left the slot empty
        intro p hp hq
        obtain ⟨a,ha,rfl⟩ := List.mem_map.mp hp
        have hsame := List.mem_singleton.mp hq
        simp only [Prod.mk.injEq] at hsame
        have hlt := h.gone a ha
        rw [hsame.1,pending,hpending] at hlt
        exact Nat.ne_of_lt hlt.lt_of_some hsame.2
      · rw [hanswers]
        intro a ha
        rcases List.mem_append.mp ha with ha | ha
        · exact hgone a ha
        · cases List.mem_singleton.mp ha
          have hrest := Slot.Since.refl (s.raised k.taskId) (none : Option PendingContinuationRecord)
          simpa [heq,pending,hnone] using hrest

theorem ok_run (cs : List CoreTxn) (h : s.Ok) : (s.run core env cs).Ok := by
  induction cs generalizing s with
  | nil => exact h
  | cons c cs ih => exact ih (ok_after core env c h)

theorem ok_start : start.Ok := ⟨List.nodup_nil,fun _ ha => (nomatch ha)⟩

end RequestLog

section Main

variable (core : CoreEnv) (env : LedgerEnv)

end Main

section Sample

/-- A slice that suspends its task with a request. -/
def sampleInterrupt (request : Json) : CoreTxn :=
  .recordLocalTaskResult "task" ⟨.inputRequired,[],[],none,none,false,some request,[],.obj []⟩
    (.obj []) "msg-2" {sampleTask with status := .running}

def sampleApproval (prompt : String) : Json :=
  .obj [("kind",.str "approval_required"),("prompt",.str prompt)]

def sampleQuestionText (prompt : String) : Json :=
  .obj [("kind",.str "user_input_required"),("prompt",.str prompt)]

/-- A task that is accepted, claimed and suspended with a request. -/
def sampleIssue (request : Json) : List CoreTxn :=
  sampleAdmission ++ [.claimLocalExecution "task",sampleInterrupt request]

/-- The command is delivered once, and the slice that it starts ends with another request. -/
def sampleRound (k : Continuation) (request : Json) : List CoreTxn :=
  [k.txn,.claimLocalExecution "task",sampleInterrupt request]

def sampleApprove : Continuation := .resolveApproval "task" true none

def sampleInput : Continuation :=
  .submitTaskInput "task" ⟨none,some "answer",.user,
    [.obj [("kind",.str "text"),("text",.str "yes")]],.obj []⟩ "msg-3"

/-- The requests pending at issue and at the second delivery, and the requests consumed after it. -/
def sampleDeliveries (k : Continuation) (first second : Json) :
    Option Json × Option Json × List Answer :=
  let issue := RequestLog.start.run sampleCore sampleEnv (sampleIssue first)
  let delivery := issue.run sampleCore sampleEnv (sampleRound k second)
  ((issue.pending "task").map (·.inputRequest),(delivery.pending "task").map (·.inputRequest),
    (delivery.after sampleCore sampleEnv k.txn).answers)

end Sample

end VermayAgent
