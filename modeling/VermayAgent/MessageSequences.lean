import VermayAgent.StoreWrites

/-! The sequence numbers of a context's messages.
Any number of connections append messages, alone or inside larger transactions that may be rolled
back; in every committed state each context has numbered its messages from 1 on without a gap. -/
namespace VermayAgent
open Library Txn MainAgentStore

/-- The messages of a context, in the order in which they were inserted. -/
def AgentDb.messagesIn (db : AgentDb) (c : ContextId) : List MessageRecord :=
  db.messages.rows.filter fun m => m.contextId = c

/-- Each context has numbered its messages in the order of their insertion. -/
structure Sequenced (db : AgentDb) : Prop where
  numbers : ∀ c, (db.messagesIn c).map (·.contextSequence) = List.range' 1 (db.messagesIn c).length
  next : ∀ c r, db.contexts.get c = some r → r.nextMessageSequence = (db.messagesIn c).length+1
  owned : ∀ m ∈ db.messages.rows, (db.contexts.get m.contextId).isSome = true

variable {db db' : AgentDb} {c : ContextId} {A : WriteScope}

section Steps

theorem messagesIn_append {m : MessageRecord} {messages : Table MessageRecord.messageId}
    {contexts : Table ContextRecord.contextId} (h : db.messages.insert? m = some messages) :
    ({db with contexts,messages} : AgentDb).messagesIn c =
      if m.contextId = c then db.messagesIn c++[m] else db.messagesIn c := by
  simp only [AgentDb.messagesIn,Table.rows_insert? h,List.filter_append]
  by_cases hc : m.contextId = c <;> simp [hc]

theorem messagesIn_delete {c' : ContextId}
    (h : db'.messages = db.messages.delete fun r => r.contextId = c) :
    db'.messagesIn c' = if c' = c then [] else db.messagesIn c' := by
  simp only [AgentDb.messagesIn,h,Table.delete,List.filter_filter]
  by_cases hc : c' = c
  · subst hc
    simp
  · rw [if_neg hc]
    refine List.filter_congr fun m _ => ?_
    by_cases hm : m.contextId = c'
    · simp [hm,hc]
    · simp [hm]

/-- A step that neither appends a message nor deletes a context. -/
theorem Sequenced.of_tables (h : Sequenced db) (hmessages : db'.messages = db.messages)
    (hcontexts : ∀ c, ((db'.contexts.get c).map (·.nextMessageSequence)) =
      (db.contexts.get c).map (·.nextMessageSequence)) : Sequenced db' := by
  have hin : ∀ c, db'.messagesIn c = db.messagesIn c := fun c => by
    rw [AgentDb.messagesIn,hmessages]
    rfl
  refine ⟨fun c => by rw [hin,h.numbers],fun c r hr => ?_,fun m hm => ?_⟩
  · have hc := hcontexts c
    rw [hr] at hc
    obtain ⟨r₀,hr₀,heq⟩ := Option.map_eq_some_iff.mp hc.symm
    have hnext : r.nextMessageSequence = r₀.nextMessageSequence := heq.symm
    rw [hnext,h.next c r₀ hr₀,hin]
  · have hsome := congrArg Option.isSome (hcontexts m.contextId)
    rw [hmessages] at hm
    simpa [h.owned m hm] using hsome

/-- A context is created without messages. -/
theorem Sequenced.context {r : ContextRecord} {contexts : Table ContextRecord.contextId}
    (h : Sequenced db) (hfirst : r.nextMessageSequence = 1)
    (hinsert : db.contexts.insert? r = some contexts) : Sequenced {db with contexts} := by
  have hfresh := Table.insert?_fresh hinsert
  have hempty : db.messagesIn r.contextId = [] := by
    refine List.filter_eq_nil_iff.mpr fun m hm hc => ?_
    have howned := h.owned m hm
    rw [of_decide_eq_true hc,hfresh] at howned
    cases howned
  refine ⟨h.numbers,fun c r' hr' => ?_,fun m hm => ?_⟩
  · change r'.nextMessageSequence = (db.messagesIn c).length+1
    have hr' : contexts.get c = some r' := hr'
    rw [Table.get_insert? hinsert] at hr'
    split at hr'
    · rename_i hc
      cases hr'
      rw [← hc,hempty,hfirst]
      rfl
    · exact h.next c r' hr'
  · change (contexts.get m.contextId).isSome = true
    rw [Table.get_insert? hinsert]
    split
    · rfl
    · exact h.owned m hm

/-- An appended message takes the next number of its context. -/
theorem Sequenced.message {m : MessageRecord} {context : ContextRecord}
    {messages : Table MessageRecord.messageId} (h : Sequenced db)
    (hcontext : db.contexts.get m.contextId = some context)
    (hsequence : m.contextSequence = context.nextMessageSequence)
    (hinsert : db.messages.insert? m = some messages) :
    Sequenced {db with
      contexts := (db.contexts.update (fun r => r.contextId = m.contextId)
        fun r => {r with nextMessageSequence := r.nextMessageSequence+1})
      messages := messages} := by
  have hnumber : m.contextSequence = (db.messagesIn m.contextId).length+1 :=
    hsequence.trans (h.next _ _ hcontext)
  refine ⟨fun c => ?_,fun c r hr => ?_,fun m' hm' => ?_⟩
  · rw [messagesIn_append hinsert]
    split
    · rename_i hc
      subst hc
      rw [List.map_append,h.numbers,List.length_append,List.range'_append_1.symm]
      simp [hnumber,Nat.add_comm]
    · exact h.numbers c
  · rw [messagesIn_append hinsert]
    simp only [Table.get_update] at hr
    obtain ⟨r₀,hr₀,rfl⟩ := Option.map_eq_some_iff.mp hr
    have hkey : r₀.contextId = c := Table.key_of_get hr₀
    have hnext := h.next c r₀ hr₀
    by_cases hc : m.contextId = c
    · simp [hkey,hc,hnext]
    · have hne : c ≠ m.contextId := fun heq => hc heq.symm
      simp [hkey,hc,hne,hnext]
  · rw [Table.mem_insert? hinsert] at hm'
    simp only [Table.get_update,Option.isSome_map]
    rcases hm' with hm' | rfl
    · exact h.owned m' hm'
    · simp [hcontext]

/-- A deleted context takes its messages along. -/
theorem Sequenced.deletion {taskIds : List TaskId} {u : Unit} (h : Sequenced db)
    (hrun : (deleteContextRows c taskIds).run db = .ok (u,db')) : Sequenced db' := by
  have hdb := deleteContextRows_ok hrun
  have hcontexts := congrArg AgentDb.contexts hdb
  have hmessages := congrArg AgentDb.messages hdb
  have hin := fun c' => @messagesIn_delete db db' c c' hmessages
  refine ⟨fun c' => ?_,fun c' r hr => ?_,fun m hm => ?_⟩
  · rw [hin]
    split
    · rfl
    · exact h.numbers c'
  · rw [hcontexts,Table.get_delete,Option.filter_eq_some_iff] at hr
    have hkey : r.contextId = c' := Table.key_of_get hr.1
    have hne : c' ≠ c := by simpa [hkey] using hr.2
    rw [hin,if_neg hne]
    exact h.next c' r hr.1
  · rw [hmessages] at hm
    obtain ⟨hm,hne⟩ := List.mem_filter.mp hm
    have howned := h.owned m hm
    obtain ⟨r,hr⟩ := Option.isSome_iff_exists.mp howned
    have hkey : r.contextId = m.contextId := Table.key_of_get hr
    rw [hcontexts,Table.get_delete,hr]
    simpa [Option.filter,hkey] using hne

theorem Sequenced.write (hw : StoreWrite A db db') (h : Sequenced db) : Sequenced db' := by
  cases hw with
  | context hfirst hinsert => exact h.context hfirst hinsert
  | title c title =>
    refine h.of_tables rfl fun c' => ?_
    simp only [Table.get_update,Option.map_map]
    refine congrArg (fun f => Option.map f _) (funext fun r => ?_)
    by_cases hr : r.contextId = c <;> simp [hr]
  | message _ hcontext hsequence hinsert => exact h.message hcontext hsequence hinsert
  | deletion _ _ hrun => exact h.deletion hrun
  | _ => exact h.of_tables rfl fun _ => rfl

theorem sequenced_empty : Sequenced AgentDb.empty :=
  ⟨fun _ => rfl,fun c r h => by simp [AgentDb.empty] at h,fun m h => by cases h⟩

/-- A context that is not deleted keeps its messages and gets new ones behind them. -/
theorem messagesIn_write (hw : StoreWrite A db db') (hkept : ¬ A.deletes c) :
    db.messagesIn c <+: db'.messagesIn c := by
  cases hw with
  | message _ _ _ hinsert =>
    rw [messagesIn_append hinsert]
    split
    · exact List.prefix_append _ _
    · exact List.prefix_refl _
  | deletion _ hdeletes hrun =>
    have hne : ∀ c', A.deletes c' → c ≠ c' := fun c' hc' heq => hkept (heq ▸ hc')
    have heq : db'.messagesIn c = db.messagesIn c :=
      (messagesIn_delete (congrArg AgentDb.messages (deleteContextRows_ok hrun))).trans
        (if_neg (hne _ hdeletes))
    exact heq ▸ List.prefix_refl _
  | _ => exact List.prefix_refl _

end Steps

/-- What a connection does to contexts and messages inside one transaction; the transactions of
the agent are among it. -/
inductive ContextOp where
  | createContext (contextId : ContextId) (title : Option String) (metadata : Json)
  | appendMessage (messageId : MessageId) (contextId : ContextId) (role : MessageRole)
      (parts : List Json) (taskId : Option TaskId) (metadata : Json)
  | nested (a : AgentTxn)

/-- Operations under one outermost transaction, which is left normally or by an exception. -/
structure ContextTxn where
  ops : List ContextOp
  raises : Option PyException

namespace ContextOp

variable (core : CoreEnv) (env : LedgerEnv)

def txn : ContextOp → StoreTxn Unit
  | createContext contextId title metadata =>
    (fun _ => ()) <$> MainAgentStore.createContext contextId title metadata
  | appendMessage messageId contextId role parts taskId metadata =>
    (fun _ => ()) <$> MainAgentStore.appendMessage messageId contextId role parts taskId metadata
  | nested a => a.txn core env

def deletes (c : ContextId) : ContextOp → Prop
  | nested (.deleteTerminalContext c' _) => c' = c
  | _ => False

def creates (t : TaskId) : ContextOp → Prop
  | nested a => a.is (CoreTxn.creates t) = true
  | _ => False

def retries (t : TaskId) : ContextOp → Prop
  | nested a => a.is (CoreTxn.retries t) = true
  | _ => False

end ContextOp

namespace ContextTxn

variable (core : CoreEnv) (env : LedgerEnv)

def txn (x : ContextTxn) : StoreTxn Unit := do
  x.ops.forM (·.txn core env)
  match x.raises with
  | some error => fail error
  | none => return ()

def deletes (c : ContextId) (x : ContextTxn) : Prop := ∃ op ∈ x.ops, op.deletes c

def creates (t : TaskId) (x : ContextTxn) : Prop := ∃ op ∈ x.ops, op.creates t

def retries (t : TaskId) (x : ContextTxn) : Prop := ∃ op ∈ x.ops, op.retries t

/-- The contexts that it deletes and the tasks that it creates are those of its operations. -/
def scope (x : ContextTxn) : WriteScope :=
  ⟨fun t => x.creates t,fun t => x.retries t,fun _ _ => True,fun c => x.deletes c⟩

theorem writes (x : ContextTxn) : StoreWrites x.scope (x.txn core env) := by
  have hop : ∀ op ∈ x.ops, StoreWrites x.scope (op.txn core env) := by
    intro op hmem
    cases op with
    | createContext => exact .map _ (StoreWrites.createContext _ _)
    | appendMessage => exact .map _ (StoreWrites.appendMessage _ _ _ _ _ fun _ _ _ => trivial)
    | nested a =>
      have hle : a.scope.Le x.scope := by
        refine ⟨fun t ht => ⟨_,hmem,?_⟩,fun t ht => ⟨_,hmem,?_⟩,fun _ _ _ => trivial,
          fun c hc => ⟨_,hmem,?_⟩⟩
        · cases a with
          | core x => exact ht
          | _ => exact ht.elim
        · cases a with
          | core x => exact ht
          | _ => exact ht.elim
        · cases a with
          | deleteTerminalContext => exact hc.symm
          | _ => exact hc.elim
      exact (a.writes core env).mono fun _ _ hw => hw.mono hle
  have hall : ∀ ops : List ContextOp, (∀ op ∈ ops, op ∈ x.ops) →
      StoreWrites x.scope (ops.forM (·.txn core env)) := by
    intro ops
    induction ops with
    | nil => exact fun _ => .pure _
    | cons op ops ih =>
      intro hops
      exact .bind (hop op (hops op List.mem_cons_self)) fun _ =>
        ih fun op' h => hops op' (List.mem_cons_of_mem op h)
  refine .bind (hall _ fun _ h => h) fun _ => ?_
  split
  · exact .fail _
  · exact .pure _

/-- The committed state after a sequence of transactions. -/
def history (xs : List ContextTxn) (db : AgentDb) : AgentDb :=
  xs.foldl (fun db x => (x.txn core env).commit db) db

/-- A property that every step of the transactions keeps holds after a sequence of them. -/
theorem history_invariant {I : AgentDb → Prop} {xs : List ContextTxn} {db : AgentDb}
    (hI : ∀ x ∈ xs, ∀ db db', StoreWrite x.scope db db' → I db → I db') (h : I db) :
    I (history core env xs db) := by
  induction xs generalizing db with
  | nil => exact h
  | cons x xs ih =>
    have hnext := reflTransGen_invariant (hI x List.mem_cons_self) ((x.writes core env).commit db) h
    exact ih (fun y hy => hI y (List.mem_cons_of_mem x hy)) hnext

variable {core env}

/-- What every step keeps that does not delete the context holds in every later state, as long as
neither the running transactions nor those to come delete it. -/
theorem kept_invariant {I : AgentDb → Prop} {c : ContextId} {steps steps' : List (SharedStep ContextTxn)}
    {s s' : SharedState AgentDb PyException}
    (hI : ∀ db db', StoreWrite ⟨fun _ => True,fun _ => True,fun _ _ => True,fun c' => c' ≠ c⟩ db db' → I db → I db')
    (hkept : ∀ i x, .begin i x ∈ steps → ¬ x.deletes c)
    (hrun : exec (SharedState.step (txn core env)) steps (.start .empty) = some s) (hs : I s.state)
    (hkept' : ∀ i x, .begin i x ∈ steps' → ¬ x.deletes c)
    (hrun' : exec (SharedState.step (txn core env)) steps' s = some s') : I s'.state := by
  let W := StoreWrite ⟨fun _ => True,fun _ => True,fun _ _ => True,fun c' => c' ≠ c⟩
  have hwrites : ∀ x : ContextTxn, ¬ x.deletes c → (x.txn core env).Writes W := by
    intro x hx
    refine (x.writes core env).mono fun _ _ hw => hw.mono ⟨fun _ _ => trivial,fun _ _ => trivial,
      fun _ _ _ => trivial,fun c' hc' => ?_⟩
    rintro rfl
    exact hx hc'
  have hrunning : s.Ok W fun _ => True :=
    SharedState.ok_exec (fun i x hx => hwrites x (hkept i x hx)) (fun _ _ _ _ => trivial)
      (SharedState.ok_start trivial) hrun
  have hlater : s'.Ok W I :=
    SharedState.ok_exec (fun i x hx => hwrites x (hkept' i x hx)) hI (hrunning.replace hs) hrun'
  exact hlater.state

end ContextTxn

/-- An append of an id that is stored: the equal message comes back, a different one is refused. -/
theorem appendMessage_existing {m : MessageRecord} (h : Sequenced db) (hm : m ∈ db.messages.rows)
    (c : ContextId) (role : MessageRole) (parts : List Json) (taskId : Option TaskId)
    (metadata : Json) :
    if m.contextId = c ∧ m.role = role ∧ m.parts = parts ∧ m.taskId = taskId then
      (appendMessage m.messageId c role parts taskId metadata).run db = .ok (m,db)
    else ∃ e, (appendMessage m.messageId c role parts taskId metadata).run db = .error e := by
  have hget : db.messages.get m.messageId = some m := Table.get_of_mem hm
  cases hc : db.contexts.get c with
  | none =>
    have hne : m.contextId ≠ c := by
      rintro rfl
      have howned := h.owned m hm
      rw [hc] at howned
      cases howned
    rw [if_neg fun heq => hne heq.1]
    exact ⟨.valueError ("unknown context: " ++ c),by
      simp [appendMessage,getContext,run_bind,hc,orFail]⟩
  | some context =>
    split
    · rename_i heq
      simp [appendMessage,getContext,getMessage,run_bind,hc,hget,orFail,Txn.require,heq]
    · rename_i hne
      exact ⟨.valueError ("message conflict: " ++ m.messageId),by
        simp [appendMessage,getContext,getMessage,run_bind,hc,hget,orFail,Txn.require,hne]
        rfl⟩

section Main

variable (core : CoreEnv) (env : LedgerEnv)

end Main

section Sample

/-- Two connections append to one context; the second reads before the first writes, and the
nested append of a third is rolled back. -/
def sampleAppends : List (SharedStep ContextTxn) :=
  let append (id : MessageId) : ContextOp := .appendMessage id "context" .user [] none (.obj [])
  [.begin 0 ⟨[.createContext "context" none (.obj [])],none⟩,.statement 0,
    .begin 1 ⟨[append "one"],none⟩,.begin 2 ⟨[append "two"],none⟩,
    .begin 3 ⟨[append "three"],some (.runtimeError "stop")⟩,
    .statement 1,.statement 1,.statement 2,.statement 2,.statement 3,.statement 3,
    .statement 2,.statement 3,.statement 1]

def sampleAppendsState : SharedState AgentDb PyException :=
  (exec (SharedState.step (ContextTxn.txn sampleCore sampleEnv)) sampleAppends
    (.start .empty)).getD (.start .empty)

end Sample

end VermayAgent
