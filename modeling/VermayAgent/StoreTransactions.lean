import Mathlib.Data.List.Basic
import VermayAgent.Library.Txn
import VermayAgent.Errors

/-! Transaction scopes of the store's connection, and what runs after their commit.
A nested scope is no savepoint: it joins the outermost one, and so do the callbacks that it
registers. Programs are trees, so that a scope can hold any code, and a callback any program. -/
namespace VermayAgent
open Library

/-- A program over the store: values `ν`, exceptions `ε`, and effects outside the store `κ`.
The outside world says whether a commit fails. -/
inductive Program (σ ν ε κ : Type) : Type where
  | value (a : ν)
  | raise (e : ε)
  | perform (effect : κ)
  | query (f : σ → Except ε ν)
  | execute (f : σ → Except ε (ν × σ)) (commitError : Option ε)
  | bind (p : Program σ ν ε κ) (next : ν → Program σ ν ε κ)
  | attempt (p : Program σ ν ε κ) (handler : ε → Program σ ν ε κ)
  | transaction (body : Program σ ν ε κ) (commitError : Option ε)
  | registerAfterCommit (name : κ) (callback : Program σ ν ε κ)

/-- A callback and the name that tells it from others. -/
abbrev Callback (σ ν ε κ : Type) := κ × Program σ ν ε κ

/-- The database as the connection reads it, and as its last commit left it. -/
structure StoreConnection (σ : Type) where
  database : σ
  durable : σ
deriving DecidableEq, Repr

/-- What can be observed of a run. An effect and the start of a callback carry how often the
lock is held then, and the depth. -/
inductive StoreEvent (σ ν ε κ : Type) : Type where
  | wrote (f : σ → σ)
  | committed
  | rolledBack
  | performed (effect : κ) (lock depth : Nat)
  | registered (callback : Callback σ ν ε κ)
  | started (callback : Callback σ ν ε κ) (lock depth : Nat)
  | finished (callback : Callback σ ν ε κ)
  | interrupted (callback : Callback σ ν ε κ)

section Events

variable {σ ν ε κ : Type}

namespace StoreEvent

def apply : StoreEvent σ ν ε κ → StoreConnection σ → StoreConnection σ
  | wrote f, c => {c with database := f c.database}
  | committed, c => {c with durable := c.database}
  | rolledBack, c => {c with database := c.durable}
  | _, c => c

/-- The events of the code inside a scope. -/
def inside : StoreEvent σ ν ε κ → Bool
  | wrote _ | performed .. | registered _ => true
  | _ => false

def registration? : StoreEvent σ ν ε κ → Option (Callback σ ν ε κ)
  | registered callback => some callback
  | _ => none

def started? : StoreEvent σ ν ε κ → Option κ
  | started callback _ _ => some callback.1
  | _ => none

def performed? : StoreEvent σ ν ε κ → Option κ
  | performed effect _ _ => some effect
  | _ => none

def replay (l : List (StoreEvent σ ν ε κ)) (c : StoreConnection σ) : StoreConnection σ :=
  l.foldl (fun c e => e.apply c) c

def writes (l : List (StoreEvent σ ν ε κ)) (db : σ) : σ :=
  l.foldl (fun db e => (e.apply ⟨db,db⟩).database) db

def registrations (l : List (StoreEvent σ ν ε κ)) : List (Callback σ ν ε κ) :=
  l.filterMap registration?

def Inside (l : List (StoreEvent σ ν ε κ)) : Prop := ∀ e ∈ l, e.inside = true

@[simp] theorem replay_nil (c : StoreConnection σ) :
    replay ([] : List (StoreEvent σ ν ε κ)) c = c := rfl

@[simp] theorem replay_append (l l' : List (StoreEvent σ ν ε κ)) (c : StoreConnection σ) :
    replay (l ++ l') c = replay l' (replay l c) := List.foldl_append

@[simp] theorem registrations_append (l l' : List (StoreEvent σ ν ε κ)) :
    registrations (l ++ l') = registrations l ++ registrations l' := List.filterMap_append

theorem Inside.nil : Inside ([] : List (StoreEvent σ ν ε κ)) := by simp [Inside]

theorem Inside.append {l l' : List (StoreEvent σ ν ε κ)} (h : Inside l) (h' : Inside l') :
    Inside (l ++ l') := by
  intro e he
  rcases List.mem_append.mp he with he | he
  · exact h e he
  · exact h' e he

/-- Inside a scope nothing becomes durable. -/
theorem Inside.replay {l : List (StoreEvent σ ν ε κ)} (h : Inside l) (c : StoreConnection σ) :
    StoreEvent.replay l c = ⟨writes l c.database,c.durable⟩ := by
  induction l generalizing c with
  | nil => rfl
  | cons e l ih =>
    have he : e.apply c = ⟨(e.apply ⟨c.database,c.database⟩).database,c.durable⟩ := by
      have := h e List.mem_cons_self
      cases e <;> first | rfl | simp [inside] at this
    have hl := ih (fun e he => h e (List.mem_cons_of_mem _ he)) (e.apply c)
    change StoreEvent.replay l (e.apply c) = _
    rw [hl,he]
    rfl

end StoreEvent
end Events

structure AgentStore (σ ν ε κ : Type) where
  conn : StoreConnection σ
  /-- How often the program holds the re-entrant lock. -/
  lock : Nat
  transactionDepth : Nat
  afterCommitCallbacks : List (Callback σ ν ε κ)
  log : List (StoreEvent σ ν ε κ)

namespace AgentStore
open StoreEvent

variable {σ ν ε κ : Type}

/-- The store right after it was opened. -/
def opened (db : σ) : AgentStore σ ν ε κ := ⟨⟨db,db⟩,0,0,[],[]⟩

def note (s : AgentStore σ ν ε κ) (e : StoreEvent σ ν ε κ) : AgentStore σ ν ε κ :=
  {s with conn := e.apply s.conn,log := s.log ++ [e]}

/-- The store after the events of `l`. -/
def after (s : AgentStore σ ν ε κ) (l : List (StoreEvent σ ν ε κ)) : AgentStore σ ν ε κ :=
  {s with conn := replay l s.conn,log := s.log ++ l}

@[simp] theorem after_nil (s : AgentStore σ ν ε κ) : s.after [] = s := by
  simp [after]

@[simp] theorem after_after (s : AgentStore σ ν ε κ) (l l' : List (StoreEvent σ ν ε κ)) :
    (s.after l).after l' = s.after (l ++ l') := by
  simp [after]

theorem note_eq_after (s : AgentStore σ ν ε κ) (e : StoreEvent σ ν ε κ) :
    s.note e = s.after [e] := rfl

@[simp] theorem after_note (s : AgentStore σ ν ε κ) (l : List (StoreEvent σ ν ε κ))
    (e : StoreEvent σ ν ε κ) : (s.after l).note e = s.after (l ++ [e]) := by
  rw [note_eq_after,after_after]

@[simp] theorem after_lock (s : AgentStore σ ν ε κ) (l : List (StoreEvent σ ν ε κ)) :
    (s.after l).lock = s.lock := rfl

@[simp] theorem after_transactionDepth (s : AgentStore σ ν ε κ)
    (l : List (StoreEvent σ ν ε κ)) : (s.after l).transactionDepth = s.transactionDepth := rfl

@[simp] theorem after_afterCommitCallbacks (s : AgentStore σ ν ε κ)
    (l : List (StoreEvent σ ν ε κ)) :
    (s.after l).afterCommitCallbacks = s.afterCommitCallbacks := rfl

/-- Outside every scope: lock, depth and callbacks as the constructor leaves them. -/
def AtRest (s : AgentStore σ ν ε κ) : Prop :=
  s.lock = 0 ∧ s.transactionDepth = 0 ∧ s.afterCommitCallbacks = []

theorem atRest_opened (db : σ) : (opened db : AgentStore σ ν ε κ).AtRest := ⟨rfl,rfl,rfl⟩

theorem AtRest.after {s : AgentStore σ ν ε κ} (hs : s.AtRest)
    (l : List (StoreEvent σ ν ε κ)) : (s.after l).AtRest := hs

theorem AtRest.note {s : AgentStore σ ν ε κ} (hs : s.AtRest)
    (e : StoreEvent σ ν ε κ) : (s.note e).AtRest := hs

/-- The code joins the scopes that are open: it leaves events and callbacks behind. -/
def join (s : AgentStore σ ν ε κ) (l : List (StoreEvent σ ν ε κ)) : AgentStore σ ν ε κ :=
  {s.after l with afterCommitCallbacks := s.afterCommitCallbacks ++ registrations l}

@[simp] theorem join_transactionDepth (s : AgentStore σ ν ε κ)
    (l : List (StoreEvent σ ν ε κ)) : (s.join l).transactionDepth = s.transactionDepth := rfl

@[simp] theorem join_join (s : AgentStore σ ν ε κ) (l l' : List (StoreEvent σ ν ε κ)) :
    (s.join l).join l' = s.join (l ++ l') := by
  simp [join,after]

theorem join_of_registration?_eq_none {e : StoreEvent σ ν ε κ} (he : e.registration? = none)
    (s : AgentStore σ ν ε κ) : s.join [e] = s.after [e] := by
  have hl : registrations [e] = [] := by simp [registrations,he]
  simp [join,after,hl]

section Methods

/-- What a statement does to the data; one that fails does nothing. -/
def written (f : σ → Except ε (ν × σ)) (db : σ) : σ :=
  match f db with
  | .ok (_,db) => db
  | .error _ => db

def execute (f : σ → Except ε (ν × σ)) (commitError : Option ε) (s : AgentStore σ ν ε κ) :
    Except ε ν × AgentStore σ ν ε κ :=
  match f s.conn.database with
  | .error e => (.error e,s)
  | .ok (a,_) =>
    let s := s.note (.wrote (written f))
    if s.transactionDepth = 0 then
      match commitError with
      | none => (.ok a,s.note .committed)
      | some e => (.error e,s)
    else (.ok a,s)

/-- A scope up to its `yield`. -/
def enter (s : AgentStore σ ν ε κ) : AgentStore σ ν ε κ :=
  {s with
    lock := s.lock+1
    afterCommitCallbacks := if s.transactionDepth = 0 then [] else s.afterCommitCallbacks
    transactionDepth := s.transactionDepth+1}

/-- The `finally` clause of a scope, and the release of the lock. -/
def leave (s : AgentStore σ ν ε κ) (isOuterTransaction : Bool) : AgentStore σ ν ε κ :=
  {s with
    lock := s.lock-1
    afterCommitCallbacks := if isOuterTransaction then [] else s.afterCommitCallbacks
    transactionDepth := s.transactionDepth-1}

/-- The exit of `with self.conn`: a commit that fails is rolled back. -/
def exitConnection (answer : Except ε ν) (commitError : Option ε) (s : AgentStore σ ν ε κ) :
    Except ε ν × AgentStore σ ν ε κ :=
  match answer with
  | .error e => (.error e,s.note .rolledBack)
  | .ok a =>
    match commitError with
    | none => (.ok a,s.note .committed)
    | some e => (.error e,s.note .rolledBack)

end Methods

theorem written_ok {f : σ → Except ε (ν × σ)} {db db' : σ} {a : ν} (h : f db = .ok (a,db')) :
    written f db = db' := by
  simp [written,h]

theorem execute_afterCommitCallbacks (f : σ → Except ε (ν × σ)) (commitError : Option ε)
    (s : AgentStore σ ν ε κ) :
    (s.execute f commitError).2.afterCommitCallbacks = s.afterCommitCallbacks := by
  unfold execute
  split
  · rfl
  · dsimp only
    split
    · cases commitError <;> rfl
    · rfl

theorem leave_join_enter {s : AgentStore σ ν ε κ} (hs : 0 < s.transactionDepth)
    (l : List (StoreEvent σ ν ε κ)) : (s.enter.join l).leave false = s.join l := by
  simp [enter,leave,join,after,Nat.ne_of_gt hs]

theorem leave_note_join {s : AgentStore σ ν ε κ} {e : StoreEvent σ ν ε κ} (hs : s.AtRest)
    (l : List (StoreEvent σ ν ε κ)) :
    ((s.enter.join l).note e).leave true = s.after (l ++ [e]) := by
  obtain ⟨hlock,hdepth,hcallbacks⟩ := hs
  simp [enter,leave,join,after,note,hlock,hdepth,hcallbacks,replay]

theorem join_enter_callbacks {s : AgentStore σ ν ε κ} (hs : s.AtRest)
    (l : List (StoreEvent σ ν ε κ)) :
    (s.enter.join l).afterCommitCallbacks = registrations l := by
  simp [enter,join,hs.2.1]

section Runs

variable [Inhabited ν] (isException : ε → Bool)

/-- `_run_after_commit_callbacks`: what is an `Exception` is logged, what is not ends the loop. -/
def runAfterCommitCallbacks
    (run : Program σ ν ε κ → AgentStore σ ν ε κ → Option (Except ε ν × AgentStore σ ν ε κ)) :
    List (Callback σ ν ε κ) → AgentStore σ ν ε κ → Option (Except ε Unit × AgentStore σ ν ε κ)
  | [],s => some (.ok (),s)
  | callback::callbacks,s =>
    match run callback.2 (s.note (.started callback s.lock s.transactionDepth)) with
    | none => none
    | some (.ok _,s') => runAfterCommitCallbacks run callbacks (s'.note (.finished callback))
    | some (.error e,s') =>
      if isException e then runAfterCommitCallbacks run callbacks (s'.note (.finished callback))
      else some (.error e,s'.note (.interrupted callback))

/-- Run a program; the fuel bounds the nesting of calls. `default` is `None`. -/
def run : Nat → Program σ ν ε κ → AgentStore σ ν ε κ →
    Option (Except ε ν × AgentStore σ ν ε κ)
  | 0,_,_ => none
  | _+1,.value a,s => some (.ok a,s)
  | _+1,.raise e,s => some (.error e,s)
  | _+1,.perform effect,s =>
    some (.ok default,s.note (.performed effect s.lock s.transactionDepth))
  | _+1,.query f,s => some (f s.conn.database,s)
  | _+1,.execute f commitError,s => some (s.execute f commitError)
  | n+1,.bind p next,s =>
    match run n p s with
    | none => none
    | some (.ok a,s') => run n (next a) s'
    | some (.error e,s') => some (.error e,s')
  | n+1,.attempt p handler,s =>
    match run n p s with
    | none => none
    | some (.ok a,s') => some (.ok a,s')
    | some (.error e,s') => run n (handler e) s'
  | n+1,.transaction body commitError,s =>
    match run n body s.enter with
    | none => none
    | some (answer,s₁) =>
      if s.transactionDepth = 0 then
        match s₁.exitConnection answer commitError with
        | (.error e,s₂) => some (.error e,s₂.leave true)
        | (.ok a,s₂) =>
          match runAfterCommitCallbacks isException (run n) s₂.afterCommitCallbacks
            (s₂.leave true) with
          | none => none
          | some (.ok _,s₃) => some (.ok a,s₃)
          | some (.error e,s₃) => some (.error e,s₃)
      else some (answer,s₁.leave false)
  | n+1,.registerAfterCommit name callback,s =>
    let s' := s.note (.registered (name,callback))
    if 0 < s.transactionDepth then
      some (.ok default,
        {s' with afterCommitCallbacks := s.afterCommitCallbacks ++ [(name,callback)]})
    else
      match runAfterCommitCallbacks isException (run n) [(name,callback)] s' with
      | none => none
      | some (.ok _,s₁) => some (.ok default,s₁)
      | some (.error e,s₁) => some (.error e,s₁)

/-- The program ends with this answer in this store. -/
def Runs (p : Program σ ν ε κ) (s : AgentStore σ ν ε κ) (answer : Except ε ν)
    (s' : AgentStore σ ν ε κ) : Prop :=
  ∃ n, run isException n p s = some (answer,s')

end Runs

section Scopes

variable [Inhabited ν] {isException : ε → Bool} {n : Nat} {p : Program σ ν ε κ}
  {s s' : AgentStore σ ν ε κ} {answer : Except ε ν}

/-- Code inside a scope joins it, the scopes that it opens included. -/
theorem run_inside (h : run isException n p s = some (answer,s'))
    (hs : 0 < s.transactionDepth) : ∃ l, Inside l ∧ s' = s.join l := by
  induction n generalizing p s s' answer with
  | zero => cases h
  | succ n ih =>
    have hnil : ∃ l, Inside l ∧ s = s.join l := ⟨[],.nil,by simp [join,registrations]⟩
    cases p with
    | value a =>
      cases h
      exact hnil
    | raise e =>
      cases h
      exact hnil
    | query f =>
      simp only [run,Option.some.injEq,Prod.mk.injEq] at h
      rw [← h.2]
      exact hnil
    | perform effect =>
      cases h
      refine ⟨[.performed effect s.lock s.transactionDepth],by simp [Inside,inside],?_⟩
      rw [note_eq_after,join_of_registration?_eq_none rfl]
    | execute f commitError =>
      simp only [run,execute,Option.some.injEq] at h
      cases hf : f s.conn.database with
      | error e =>
        simp only [hf,Prod.mk.injEq] at h
        rw [← h.2]
        exact hnil
      | ok r =>
        simp only [hf,note_eq_after,after_transactionDepth,Nat.ne_of_gt hs,if_false,Prod.mk.injEq] at h
        rw [← h.2]
        refine ⟨[.wrote (written f)],by simp [Inside,inside],?_⟩
        exact (join_of_registration?_eq_none rfl s).symm
    | bind p next =>
      simp only [run] at h
      split at h
      · cases h
      · rename_i a s₁ hp
        obtain ⟨l,hl,rfl⟩ := ih hp hs
        obtain ⟨l',hl',rfl⟩ := ih h hs
        exact ⟨l ++ l',hl.append hl',by simp⟩
      · rename_i e s₁ hp
        cases h
        exact ih hp hs
    | attempt p handler =>
      simp only [run] at h
      split at h
      · cases h
      · rename_i a s₁ hp
        cases h
        exact ih hp hs
      · rename_i e s₁ hp
        obtain ⟨l,hl,rfl⟩ := ih hp hs
        obtain ⟨l',hl',rfl⟩ := ih h hs
        exact ⟨l ++ l',hl.append hl',by simp⟩
    | transaction body commitError =>
      simp only [run,Nat.ne_of_gt hs,if_false] at h
      split at h
      · cases h
      · rename_i r s₁ hbody
        obtain ⟨l,hl,rfl⟩ := ih hbody (Nat.succ_pos _)
        cases h
        exact ⟨l,hl,leave_join_enter hs l⟩
    | registerAfterCommit name callback =>
      simp only [run,hs,if_true,Option.some.injEq,Prod.mk.injEq] at h
      rw [← h.2]
      exact ⟨[.registered (name,callback)],by simp [Inside,inside],rfl⟩

/-- An outermost scope, from the outcome of its body. -/
theorem run_transaction {body : Program σ ν ε κ} {l : List (StoreEvent σ ν ε κ)}
    (commitError : Option ε) (hs : s.AtRest) :
    run isException n body s.enter = some (answer,s.enter.join l) →
    run isException (n+1) (.transaction body commitError) s =
      match answer,commitError with
      | .error e,_ => some (.error e,s.after (l ++ [.rolledBack]))
      | .ok _,some e => some (.error e,s.after (l ++ [.rolledBack]))
      | .ok a,none => (runAfterCommitCallbacks isException (run isException n) (registrations l)
          (s.after (l ++ [.committed]))).map fun r => (r.1.map fun _ => a,r.2) := by
  intro hbody
  simp only [run,hbody,hs.2.1,if_true]
  cases answer with
  | error e => simp only [exitConnection,leave_note_join hs]
  | ok a =>
    cases commitError with
    | some e => simp only [exitConnection,leave_note_join hs]
    | none =>
      have hcallbacks : ((s.enter.join l).note .committed).afterCommitCallbacks =
          registrations l := join_enter_callbacks hs l
      simp only [exitConnection,leave_note_join hs,hcallbacks]
      cases runAfterCommitCallbacks isException (run isException n) (registrations l)
        (s.after (l ++ [.committed])) with
      | none => rfl
      | some r =>
        rcases r with ⟨e | u,s₁⟩
        · rfl
        · rfl

/-- The ways in which an outermost scope ends. -/
theorem run_transaction_cases {body : Program σ ν ε κ} {commitError : Option ε} (hs : s.AtRest)
    (h : run isException (n+1) (.transaction body commitError) s = some (answer,s')) :
    ∃ l, Inside l ∧
      ((∃ e, run isException n body s.enter = some (.error e,s.enter.join l) ∧
          answer = .error e ∧ s' = s.after (l ++ [.rolledBack])) ∨
        (∃ a e, run isException n body s.enter = some (.ok a,s.enter.join l) ∧
          commitError = some e ∧ answer = .error e ∧ s' = s.after (l ++ [.rolledBack])) ∨
        ∃ a u, run isException n body s.enter = some (.ok a,s.enter.join l) ∧
          commitError = none ∧ answer = u.map (fun _ => a) ∧
          runAfterCommitCallbacks isException (run isException n) (registrations l)
            (s.after (l ++ [.committed])) = some (u,s')) := by
  cases hbody : run isException n body s.enter with
  | none => simp [run,hbody] at h
  | some r =>
    rcases r with ⟨answer',s₁⟩
    obtain ⟨l,hl,rfl⟩ := run_inside hbody (Nat.succ_pos _)
    rw [run_transaction commitError hs hbody] at h
    refine ⟨l,hl,?_⟩
    cases answer' with
    | error e =>
      cases h
      exact .inl ⟨e,rfl,rfl,rfl⟩
    | ok a =>
      cases commitError with
      | some e =>
        cases h
        exact .inr (.inl ⟨a,e,rfl,rfl,rfl,rfl⟩)
      | none =>
        obtain ⟨⟨u,s₂⟩,hrun,h⟩ := Option.map_eq_some_iff.mp h
        cases h
        exact .inr (.inr ⟨a,u,rfl,rfl,rfl,hrun⟩)

end Scopes

section AtRest

theorem after_committed_conn {l : List (StoreEvent σ ν ε κ)} (hl : Inside l)
    (s : AgentStore σ ν ε κ) : (s.after (l ++ [.committed])).conn =
      ⟨writes l s.conn.database,writes l s.conn.database⟩ := by
  simp only [after,replay_append,hl.replay]
  rfl

theorem after_rolledBack_conn {l : List (StoreEvent σ ν ε κ)} (hl : Inside l)
    (s : AgentStore σ ν ε κ) :
    (s.after (l ++ [.rolledBack])).conn = ⟨s.conn.durable,s.conn.durable⟩ := by
  simp only [after,replay_append,hl.replay]
  rfl

variable [Inhabited ν] (isException : ε → Bool)

/-- The callbacks run one after the other, each of them once, with the store at rest. One that
raises no `Exception` is the last. -/
inductive RunsInOrder : List (Callback σ ν ε κ) → AgentStore σ ν ε κ → Except ε Unit →
    AgentStore σ ν ε κ → Prop
  | nil (s : AgentStore σ ν ε κ) : RunsInOrder [] s (.ok ()) s
  | next {callback : Callback σ ν ε κ} {callbacks : List (Callback σ ν ε κ)}
      {s s' : AgentStore σ ν ε κ} {answer : Except ε ν} {u : Except ε Unit}
      {l : List (StoreEvent σ ν ε κ)} (hs : s.AtRest)
      (hrun : Runs isException callback.2 (s.after [.started callback 0 0]) answer
        (s.after (.started callback 0 0 :: l)))
      (hanswer : ∀ e, answer = .error e → isException e = true)
      (hrest : RunsInOrder callbacks (s.after (.started callback 0 0 :: l ++ [.finished callback]))
        u s') :
      RunsInOrder (callback::callbacks) s u s'
  | interrupted {callback : Callback σ ν ε κ} {callbacks : List (Callback σ ν ε κ)}
      {s : AgentStore σ ν ε κ} {e : ε} {l : List (StoreEvent σ ν ε κ)} (hs : s.AtRest)
      (hrun : Runs isException callback.2 (s.after [.started callback 0 0]) (.error e)
        (s.after (.started callback 0 0 :: l)))
      (he : isException e = false) :
      RunsInOrder (callback::callbacks) s (.error e)
        (s.after (.started callback 0 0 :: l ++ [.interrupted callback]))

variable {isException} {n : Nat} {p : Program σ ν ε κ} {s s' : AgentStore σ ν ε κ}
  {answer : Except ε ν}

theorem RunsInOrder.exists_after {callbacks : List (Callback σ ν ε κ)} {u : Except ε Unit}
    (h : RunsInOrder isException callbacks s u s') : ∃ l, s' = s.after l := by
  induction h with
  | nil s => exact ⟨[],by simp⟩
  | next hs hrun hanswer hrest ih =>
    obtain ⟨l',rfl⟩ := ih
    exact ⟨_,after_after _ _ l'⟩
  | interrupted hs hrun he => exact ⟨_,rfl⟩

/-- The callbacks' loop, when a program that starts at rest leaves events only. -/
theorem runsInOrder_of_run
    (hn : ∀ {p : Program σ ν ε κ} {s s' : AgentStore σ ν ε κ} {answer : Except ε ν},
      run isException n p s = some (answer,s') → s.AtRest → ∃ l, s' = s.after l)
    {callbacks : List (Callback σ ν ε κ)} {u : Except ε Unit} (hs : s.AtRest)
    (h : runAfterCommitCallbacks isException (run isException n) callbacks s = some (u,s')) :
    RunsInOrder isException callbacks s u s' := by
  induction callbacks generalizing s with
  | nil =>
    cases h
    exact .nil _
  | cons callback callbacks ih =>
    simp only [runAfterCommitCallbacks,hs.1,hs.2.1,note_eq_after] at h
    split at h
    · cases h
    · rename_i a s₁ hrun
      obtain ⟨l,rfl⟩ := hn hrun (hs.after _)
      simp only [after_after,List.singleton_append] at h hrun
      exact .next hs ⟨n,hrun⟩ nofun (ih (hs.after _) h)
    · rename_i e s₁ hrun
      obtain ⟨l,rfl⟩ := hn hrun (hs.after _)
      simp only [after_after,List.singleton_append] at h hrun
      cases he : isException e with
      | true =>
        rw [he,if_pos rfl] at h
        refine .next hs ⟨n,hrun⟩ ?_ (ih (hs.after _) h)
        rintro e' ⟨⟩
        exact he
      | false =>
        rw [he,if_neg Bool.false_ne_true] at h
        cases h
        exact .interrupted hs ⟨n,hrun⟩ he

/-- A program that starts at rest ends at rest, and its events say what became of the data. -/
theorem run_atRest (h : run isException n p s = some (answer,s')) (hs : s.AtRest) :
    ∃ l, s' = s.after l := by
  induction n generalizing p s s' answer with
  | zero => cases h
  | succ n ih =>
    have hnil : ∃ l, s = s.after l := ⟨[],(after_nil s).symm⟩
    cases p with
    | value a =>
      cases h
      exact hnil
    | raise e =>
      cases h
      exact hnil
    | query f =>
      simp only [run,Option.some.injEq,Prod.mk.injEq] at h
      rw [← h.2]
      exact hnil
    | perform effect =>
      cases h
      exact ⟨_,note_eq_after _ _⟩
    | execute f commitError =>
      simp only [run,execute,Option.some.injEq] at h
      cases hf : f s.conn.database with
      | error e =>
        simp only [hf,Prod.mk.injEq] at h
        rw [← h.2]
        exact hnil
      | ok r =>
        simp only [hf,note_eq_after,after_transactionDepth,hs.2.1,if_true] at h
        cases commitError with
        | none =>
          cases h
          exact ⟨_,after_after _ _ _⟩
        | some e =>
          cases h
          exact ⟨_,rfl⟩
    | bind p next =>
      simp only [run] at h
      split at h
      · cases h
      · rename_i a s₁ hp
        obtain ⟨l,rfl⟩ := ih hp hs
        obtain ⟨l',rfl⟩ := ih h (hs.after l)
        exact ⟨_,after_after _ _ _⟩
      · rename_i e s₁ hp
        cases h
        exact ih hp hs
    | attempt p handler =>
      simp only [run] at h
      split at h
      · cases h
      · rename_i a s₁ hp
        cases h
        exact ih hp hs
      · rename_i e s₁ hp
        obtain ⟨l,rfl⟩ := ih hp hs
        obtain ⟨l',rfl⟩ := ih h (hs.after l)
        exact ⟨_,after_after _ _ _⟩
    | transaction body commitError =>
      obtain ⟨l,-,⟨e,-,-,rfl⟩ | ⟨a,e,-,-,-,rfl⟩ | ⟨a,u,-,-,-,hrun⟩⟩ := run_transaction_cases hs h
      · exact ⟨_,rfl⟩
      · exact ⟨_,rfl⟩
      · obtain ⟨l',rfl⟩ := (runsInOrder_of_run ih (hs.after _) hrun).exists_after
        exact ⟨_,after_after _ _ _⟩
    | registerAfterCommit name callback =>
      simp only [run,hs.2.1,Nat.lt_irrefl,if_false,note_eq_after] at h
      have hcallback : ∀ {u : Except ε Unit} {s₁ : AgentStore σ ν ε κ},
          runAfterCommitCallbacks isException (run isException n) [(name,callback)]
            (s.after [.registered (name,callback)]) = some (u,s₁) → ∃ l, s₁ = s.after l := by
        intro u s₁ hrun
        obtain ⟨l,rfl⟩ := (runsInOrder_of_run ih (hs.after _) hrun).exists_after
        exact ⟨_,after_after _ _ _⟩
      split at h
      · cases h
      · rename_i u s₁ hrun
        cases h
        exact hcallback hrun
      · rename_i e s₁ hrun
        cases h
        exact hcallback hrun

end AtRest

section Fuel

variable {isException : ε → Bool} {n m : Nat} {p q : Program σ ν ε κ}
  {s s' : AgentStore σ ν ε κ} {answer : Except ε ν}

theorem runAfterCommitCallbacks_mono
    {f g : Program σ ν ε κ → AgentStore σ ν ε κ → Option (Except ε ν × AgentStore σ ν ε κ)}
    (hfg : ∀ p s x, f p s = some x → g p s = some x) {callbacks : List (Callback σ ν ε κ)}
    {x : Except ε Unit × AgentStore σ ν ε κ}
    (h : runAfterCommitCallbacks isException f callbacks s = some x) :
    runAfterCommitCallbacks isException g callbacks s = some x := by
  induction callbacks generalizing s with
  | nil => exact h
  | cons callback callbacks ih =>
    simp only [runAfterCommitCallbacks] at h ⊢
    split at h
    · cases h
    · rename_i a s₁ hrun
      rw [hfg _ _ _ hrun]
      exact ih h
    · rename_i e s₁ hrun
      rw [hfg _ _ _ hrun]
      split at h
      · rename_i he
        simp only [he,if_true]
        exact ih h
      · rename_i he
        simp only [he]
        exact h

variable [Inhabited ν]

theorem run_succ {x : Except ε ν × AgentStore σ ν ε κ} (h : run isException n p s = some x) :
    run isException (n+1) p s = some x := by
  induction n generalizing p s x with
  | zero => cases h
  | succ n ih =>
    cases p with
    | value a => exact h
    | raise e => exact h
    | perform effect => exact h
    | query f => exact h
    | execute f commitError => exact h
    | bind p next =>
      rw [run] at h ⊢
      split at h
      · cases h
      · rename_i a s₁ hp
        rw [ih hp]
        exact ih h
      · rename_i e s₁ hp
        rw [ih hp]
        exact h
    | attempt p handler =>
      rw [run] at h ⊢
      split at h
      · cases h
      · rename_i a s₁ hp
        rw [ih hp]
        exact h
      · rename_i e s₁ hp
        rw [ih hp]
        exact ih h
    | transaction body commitError =>
      rw [run] at h ⊢
      split at h
      · cases h
      · rename_i r s₁ hbody
        rw [ih hbody]
        dsimp only at h ⊢
        split at h
        · rename_i hdepth
          rw [if_pos hdepth]
          split at h
          · exact h
          · split at h
            · cases h
            · rename_i u s₃ hrun
              rw [runAfterCommitCallbacks_mono (fun _ _ _ => ih) hrun]
              exact h
            · rename_i e s₃ hrun
              rw [runAfterCommitCallbacks_mono (fun _ _ _ => ih) hrun]
              exact h
        · rename_i hdepth
          rw [if_neg hdepth]
          exact h
    | registerAfterCommit name callback =>
      rw [run] at h ⊢
      split at h
      · rename_i hdepth
        rw [if_pos hdepth]
        exact h
      · rename_i hdepth
        rw [if_neg hdepth]
        split at h
        · cases h
        · rename_i u s₁ hrun
          rw [runAfterCommitCallbacks_mono (fun _ _ _ => ih) hrun]
          exact h
        · rename_i e s₁ hrun
          rw [runAfterCommitCallbacks_mono (fun _ _ _ => ih) hrun]
          exact h

theorem run_le {x : Except ε ν × AgentStore σ ν ε κ} (hnm : n ≤ m)
    (h : run isException n p s = some x) : run isException m p s = some x := by
  induction hnm with
  | refl => exact h
  | step _ ih => exact run_succ ih

/-- The fuel does not matter to the outcome. -/
theorem Runs.unique {answer' : Except ε ν} {s₁ s₂ : AgentStore σ ν ε κ}
    (h : Runs isException p s answer s₁) (h' : Runs isException p s answer' s₂) :
    answer = answer' ∧ s₁ = s₂ := by
  obtain ⟨n,h⟩ := h
  obtain ⟨m,h'⟩ := h'
  have h := run_le (Nat.le_max_left n m) h
  have h' := run_le (Nat.le_max_right n m) h'
  simpa using h.symm.trans h'

theorem Runs.bind_cases {next : ν → Program σ ν ε κ}
    (h : Runs isException (.bind p next) s answer s') :
    (∃ e, Runs isException p s (.error e) s' ∧ answer = .error e) ∨
      ∃ a s₁, Runs isException p s (.ok a) s₁ ∧ Runs isException (next a) s₁ answer s' := by
  obtain ⟨n | n,h⟩ := h
  · cases h
  · rw [run] at h
    split at h
    · cases h
    · rename_i a s₁ hp
      exact .inr ⟨a,s₁,⟨n,hp⟩,n,h⟩
    · rename_i e s₁ hp
      cases h
      exact .inl ⟨e,⟨n,hp⟩,rfl⟩

/-- Outside every scope at rest, or inside one. -/
def Valid (s : AgentStore σ ν ε κ) : Prop := s.AtRest ∨ 0 < s.transactionDepth

theorem Runs.valid (h : Runs isException p s answer s') (hs : s.Valid) : s'.Valid := by
  obtain ⟨n,h⟩ := h
  rcases hs with hs | hs
  · obtain ⟨l,rfl⟩ := run_atRest h hs
    exact .inl (hs.after l)
  · obtain ⟨l,-,rfl⟩ := run_inside h hs
    exact .inr hs

/-- The program ends wherever it is started. -/
def Ends (isException : ε → Bool) (p : Program σ ν ε κ) : Prop :=
  ∀ s : AgentStore σ ν ε κ, s.Valid → ∃ answer s', Runs isException p s answer s'

theorem Ends.bind {next : ν → Program σ ν ε κ} (hp : Ends isException p)
    (hnext : ∀ a, Ends isException (next a)) : Ends isException (.bind p next) := by
  intro s hs
  obtain ⟨answer,s₁,hrun⟩ := hp s hs
  have hs₁ := hrun.valid hs
  obtain ⟨n,hn⟩ := hrun
  cases answer with
  | error e => exact ⟨.error e,s₁,n+1,by rw [run,hn]⟩
  | ok a =>
    obtain ⟨answer,s₂,m,hm⟩ := hnext a s₁ hs₁
    refine ⟨answer,s₂,max n m+1,?_⟩
    rw [run,run_le (Nat.le_max_left n m) hn]
    exact run_le (Nat.le_max_right n m) hm

theorem Ends.attempt {handler : ε → Program σ ν ε κ} (hp : Ends isException p)
    (hhandler : ∀ e, Ends isException (handler e)) : Ends isException (.attempt p handler) := by
  intro s hs
  obtain ⟨answer,s₁,hrun⟩ := hp s hs
  have hs₁ := hrun.valid hs
  obtain ⟨n,hn⟩ := hrun
  cases answer with
  | ok a => exact ⟨.ok a,s₁,n+1,by rw [run,hn]⟩
  | error e =>
    obtain ⟨answer,s₂,m,hm⟩ := hhandler e s₁ hs₁
    refine ⟨answer,s₂,max n m+1,?_⟩
    rw [run,run_le (Nat.le_max_left n m) hn]
    exact run_le (Nat.le_max_right n m) hm

theorem callbacks_end {callbacks : List (Callback σ ν ε κ)}
    (hcallbacks : ∀ callback ∈ callbacks, Ends isException callback.2) (hs : s.AtRest) :
    ∃ n u s', runAfterCommitCallbacks isException (run isException n) callbacks s =
      some (u,s') := by
  induction callbacks generalizing s with
  | nil => exact ⟨0,.ok (),s,rfl⟩
  | cons callback callbacks ih =>
    obtain ⟨answer,s₁,n,hn⟩ := hcallbacks callback List.mem_cons_self
      (s.note (.started callback s.lock s.transactionDepth)) (.inl (hs.note _))
    obtain ⟨l,hl⟩ := run_atRest hn (hs.note _)
    have hs₁ : (s₁.note (.finished callback)).AtRest := by
      rw [hl]
      exact hs
    obtain ⟨m,u,s₂,hm⟩ := ih (fun c hc => hcallbacks c (List.mem_cons_of_mem _ hc)) hs₁
    have hn := run_le (Nat.le_max_left n m) hn
    have hm := runAfterCommitCallbacks_mono (fun _ _ _ => run_le (Nat.le_max_right n m)) hm
    cases answer with
    | ok a => exact ⟨max n m,u,s₂,by simp only [runAfterCommitCallbacks,hn,hm]⟩
    | error e =>
      cases he : isException e with
      | true => exact ⟨max n m,u,s₂,by simp only [runAfterCommitCallbacks,hn,he,if_true,hm]⟩
      | false =>
        refine ⟨max n m,.error e,s₁.note (.interrupted callback),?_⟩
        simp only [runAfterCommitCallbacks,hn,he,Bool.false_eq_true,if_false]

/-- The callbacks that code inside a scope leaves behind end, if those before it do. -/
def LeavesEnding (isException : ε → Bool) (p : Program σ ν ε κ) : Prop :=
  ∀ (s : AgentStore σ ν ε κ) answer s', 0 < s.transactionDepth → Runs isException p s answer s' →
    (∀ callback ∈ s.afterCommitCallbacks, Ends isException callback.2) →
    ∀ callback ∈ s'.afterCommitCallbacks, Ends isException callback.2

theorem leavesEnding_of_eq (h : ∀ s answer s', Runs isException p s answer s' →
    s'.afterCommitCallbacks = s.afterCommitCallbacks) : LeavesEnding isException p := by
  intro s answer s' hs hrun hcallbacks
  rw [h s answer s' hrun]
  exact hcallbacks

/-- By induction on the program: a callback is a part of the program that registers it. -/
theorem ends (p : Program σ ν ε κ) : Ends isException p ∧ LeavesEnding isException p := by
  induction p with
  | value a =>
    refine ⟨fun s _ => ⟨_,_,1,rfl⟩,leavesEnding_of_eq ?_⟩
    rintro s answer s' ⟨n | n,hn⟩ <;> cases hn
    rfl
  | raise e =>
    refine ⟨fun s _ => ⟨_,_,1,rfl⟩,leavesEnding_of_eq ?_⟩
    rintro s answer s' ⟨n | n,hn⟩ <;> cases hn
    rfl
  | perform effect =>
    refine ⟨fun s _ => ⟨_,_,1,rfl⟩,leavesEnding_of_eq ?_⟩
    rintro s answer s' ⟨n | n,hn⟩ <;> cases hn
    rfl
  | query f =>
    refine ⟨fun s _ => ⟨_,_,1,rfl⟩,leavesEnding_of_eq ?_⟩
    rintro s answer s' ⟨n | n,hn⟩
    · cases hn
    · simp only [run,Option.some.injEq,Prod.mk.injEq] at hn
      rw [hn.2]
  | execute f commitError =>
    refine ⟨fun s _ => ⟨_,_,1,rfl⟩,leavesEnding_of_eq ?_⟩
    rintro s answer s' ⟨n | n,hn⟩
    · cases hn
    · have hstore : (s.execute f commitError).2 = s' := congrArg Prod.snd (Option.some.inj hn)
      rw [← hstore]
      exact execute_afterCommitCallbacks f commitError s
  | bind p next ihp ihnext =>
    refine ⟨ihp.1.bind fun a => (ihnext a).1,?_⟩
    rintro s answer s' hs ⟨n | n,hn⟩ hcallbacks
    · cases hn
    · rw [run] at hn
      split at hn
      · cases hn
      · rename_i a s₁ hp
        have hs₁ := ihp.2 s _ s₁ hs ⟨n,hp⟩ hcallbacks
        obtain ⟨l,-,rfl⟩ := run_inside hp hs
        exact (ihnext a).2 (s.join l) answer s' hs ⟨n,hn⟩ hs₁
      · rename_i e s₁ hp
        cases hn
        exact ihp.2 s _ _ hs ⟨n,hp⟩ hcallbacks
  | attempt p handler ihp ihhandler =>
    refine ⟨ihp.1.attempt fun e => (ihhandler e).1,?_⟩
    rintro s answer s' hs ⟨n | n,hn⟩ hcallbacks
    · cases hn
    · rw [run] at hn
      split at hn
      · cases hn
      · rename_i a s₁ hp
        cases hn
        exact ihp.2 s _ _ hs ⟨n,hp⟩ hcallbacks
      · rename_i e s₁ hp
        have hs₁ := ihp.2 s _ s₁ hs ⟨n,hp⟩ hcallbacks
        obtain ⟨l,-,rfl⟩ := run_inside hp hs
        exact (ihhandler e).2 (s.join l) answer s' hs ⟨n,hn⟩ hs₁
  | transaction body commitError ih =>
    constructor
    · intro s hs
      obtain ⟨answer,s₁,n,hn⟩ := ih.1 s.enter (.inr (Nat.succ_pos _))
      rcases hs with hs | hs
      · have hcallbacks := ih.2 s.enter answer s₁ (Nat.succ_pos _) ⟨n,hn⟩ (by simp [enter,hs.2.1])
        obtain ⟨l,-,rfl⟩ := run_inside hn (Nat.succ_pos _)
        rw [join_enter_callbacks hs] at hcallbacks
        obtain ⟨m,u,s₂,hm⟩ := callbacks_end hcallbacks (hs.after (l ++ [.committed]))
        have hn := run_le (Nat.le_max_left n m) hn
        have hm := runAfterCommitCallbacks_mono (fun _ _ _ => run_le (Nat.le_max_right n m)) hm
        have hrun := run_transaction commitError hs hn
        cases answer with
        | error e => exact ⟨_,_,_,hrun⟩
        | ok a =>
          cases commitError with
          | some e => exact ⟨_,_,_,hrun⟩
          | none => exact ⟨u.map fun _ => a,s₂,_,hrun.trans (congrArg (Option.map _) hm)⟩
      · exact ⟨answer,s₁.leave false,n+1,by simp only [run,hn,Nat.ne_of_gt hs,if_false]⟩
    · rintro s answer s' hs ⟨n | n,hn⟩ hcallbacks
      · cases hn
      · simp only [run,Nat.ne_of_gt hs,if_false] at hn
        split at hn
        · cases hn
        · rename_i r s₁ hbody
          cases hn
          exact ih.2 s.enter _ s₁ (Nat.succ_pos _) ⟨n,hbody⟩
            (by simpa [enter,Nat.ne_of_gt hs] using hcallbacks)
  | registerAfterCommit name callback ih =>
    constructor
    · rintro s (hs | hs)
      · have hcallback : ∀ c ∈ [(name,callback)], Ends isException c.2 := by simpa using ih.1
        obtain ⟨n,u,s₁,hn⟩ := callbacks_end hcallback (hs.note (.registered (name,callback)))
        cases u with
        | error e => exact ⟨.error e,s₁,n+1,by simp only [run,hs.2.1,Nat.lt_irrefl,if_false,hn]⟩
        | ok u => exact ⟨.ok default,s₁,n+1,by simp only [run,hs.2.1,Nat.lt_irrefl,if_false,hn]⟩
      · exact ⟨_,_,1,by simp only [run,hs,if_true]; rfl⟩
    · rintro s answer s' hs ⟨n | n,hn⟩ hcallbacks
      · cases hn
      · simp only [run,hs,if_true,Option.some.injEq,Prod.mk.injEq] at hn
        rw [← hn.2]
        intro c hc
        rcases List.mem_append.mp hc with hc | hc
        · exact hcallbacks c hc
        · rw [List.mem_singleton.mp hc]
          exact ih.1

end Fuel

section Txns

variable [Inhabited ν] {isException : ε → Bool} {s s' : AgentStore σ ν ε κ}
  {answer : Except ε ν}

/-- The scope of a transaction whose statements run as one. -/
def ofTxn (x : Txn σ ε ν) : Program σ ν ε κ := .transaction (.execute x.run none) none

theorem runs_ofTxn_ok {x : Txn σ ε ν} {a : ν} {db : σ} (hs : 0 < s.transactionDepth)
    (hx : x.run s.conn.database = .ok (a,db)) :
    run isException 2 (ofTxn x) s = some (.ok a,s.join [.wrote (written x.run)]) := by
  have hstatement : s.enter.execute x.run none =
      (.ok a,s.enter.join [.wrote (written x.run)]) := by
    rw [join_of_registration?_eq_none rfl]
    simp [execute,enter,hx,note_eq_after]
  simp only [ofTxn,run,hstatement,Nat.ne_of_gt hs,if_false,leave_join_enter hs]

theorem runs_ofTxn_error {x : Txn σ ε ν} {e : ε} (hs : 0 < s.transactionDepth)
    (hx : x.run s.conn.database = .error e) :
    run isException 2 (ofTxn x) s = some (.error e,s.join []) := by
  have hstatement : s.enter.execute x.run none = (.error e,s.enter.join []) := by
    simp [execute,enter,hx,join,registrations]
  simp only [ofTxn,run,hstatement,Nat.ne_of_gt hs,if_false,leave_join_enter hs]

theorem conn_of_rolledBack {body : Program σ ν ε κ} {l : List (StoreEvent σ ν ε κ)} {e : ε}
    {n : Nat} (hs : s.AtRest) (hl : Inside l)
    (hbody : run isException n body s.enter = some (.error e,s.enter.join l))
    (h : Runs isException (.transaction body none) s answer s') :
    s'.conn = ⟨s.conn.durable,s.conn.durable⟩ := by
  have hrun := h.unique ⟨n+1,run_transaction none hs hbody⟩
  rw [hrun.2]
  exact after_rolledBack_conn hl s

/-- What the scopes of two transactions leave inside a third is what their sequence leaves. -/
theorem commit_nested {x : Txn σ ε ν} {f : ν → Txn σ ε ν} (hs : s.AtRest)
    (hdb : s.conn.database = s.conn.durable)
    (h : Runs isException (.transaction (.bind (ofTxn x) fun a => ofTxn (f a)) none) s answer s') :
    s'.conn = ⟨(x >>= f).commit s.conn.durable,(x >>= f).commit s.conn.durable⟩ := by
  have hpos : 0 < s.enter.transactionDepth := Nat.succ_pos _
  cases hx : x.run s.conn.durable with
  | error e =>
    have hbody : run isException 3 (.bind (ofTxn x) fun a => ofTxn (f a)) s.enter =
        some (.error e,s.enter.join []) := by
      rw [run,runs_ofTxn_error hpos (hdb ▸ hx)]
    rw [conn_of_rolledBack hs .nil hbody h]
    simp [Txn.commit,Txn.run_bind,hx]
  | ok r =>
    rcases r with ⟨a,db⟩
    have hw : written x.run s.conn.database = db := written_ok (hdb ▸ hx)
    have hread : (s.enter.join [.wrote (written x.run)]).conn.database = db := hw
    cases hf : (f a).run db with
    | error e =>
      have hbody : run isException 3 (.bind (ofTxn x) fun a => ofTxn (f a)) s.enter =
          some (.error e,s.enter.join ([.wrote (written x.run)] ++ [])) := by
        rw [run,runs_ofTxn_ok hpos (hdb ▸ hx),← join_join]
        exact runs_ofTxn_error hpos (hread.symm ▸ hf)
      rw [conn_of_rolledBack hs (by simp [Inside,inside]) hbody h]
      simp [Txn.commit,Txn.run_bind,hx,hf]
    | ok r' =>
      rcases r' with ⟨b,db'⟩
      have hbody : run isException 3 (.bind (ofTxn x) fun a => ofTxn (f a)) s.enter =
          some (.ok b,s.enter.join ([.wrote (written x.run)] ++ [.wrote (written (f a).run)])) := by
        rw [run,runs_ofTxn_ok hpos (hdb ▸ hx),← join_join]
        exact runs_ofTxn_ok hpos (hread.symm ▸ hf)
      have hrun := h.unique ⟨4,run_transaction none hs hbody⟩
      have hw' : written (f a).run db = db' := written_ok hf
      rw [hrun.2]
      simp [Txn.commit,Txn.run_bind,hx,hf,after,replay,StoreEvent.apply,hw,hw']

end Txns
end AgentStore

namespace LifecycleTransactionRunner

variable {σ ν ε κ : Type}

/-- One lifecycle mutation, then its effect; `outcome` makes the record that is returned. -/
def execute (outcome : ν → Option ν → ν) (workflow : Program σ ν ε κ) (commitError : Option ε)
    (postCommit : Option (κ × (ν → Program σ ν ε κ))) : Program σ ν ε κ :=
  .bind (.transaction workflow commitError) fun committed =>
    match postCommit with
    | none => .value (outcome committed none)
    | some (kind,callback) => .bind (.perform kind) fun _ =>
      .bind (callback committed) fun result => .value (outcome committed (some result))

end LifecycleTransactionRunner

section Law
open AgentStore StoreEvent

variable {σ ν ε κ : Type} [Inhabited ν] (isException : ε → Bool)

/-- An outermost scope commits all that its body wrote and then runs the callbacks that the body
registered, or leaves the data of the last commit and starts none. -/
inductive ScopeLaw (body : Program σ ν ε κ) (commitError : Option ε) (s : AgentStore σ ν ε κ) :
    Except ε ν → AgentStore σ ν ε κ → Prop
  | committed {a : ν} {u : Except ε Unit} {l : List (StoreEvent σ ν ε κ)}
      {s' : AgentStore σ ν ε κ} (hl : Inside l)
      (hbody : Runs isException body s.enter (.ok a) (s.enter.join l))
      (hcommit : commitError = none)
      (hdata : (s.after (l ++ [.committed])).conn =
        ⟨writes l s.conn.database,writes l s.conn.database⟩)
      (hcallbacks : RunsInOrder isException (registrations l) (s.after (l ++ [.committed])) u s') :
      ScopeLaw body commitError s (u.map fun _ => a) s'
  | rolledBack {e : ε} {l : List (StoreEvent σ ν ε κ)} (hl : Inside l)
      (hbody : Runs isException body s.enter (.error e) (s.enter.join l) ∨
        commitError = some e ∧ ∃ a, Runs isException body s.enter (.ok a) (s.enter.join l))
      (hdata : (s.after (l ++ [.rolledBack])).conn = ⟨s.conn.durable,s.conn.durable⟩) :
      ScopeLaw body commitError s (.error e) (s.after (l ++ [.rolledBack]))

theorem runs_transaction {body : Program σ ν ε κ} {commitError : Option ε}
    {s s' : AgentStore σ ν ε κ} {answer : Except ε ν} (hs : s.AtRest)
    (h : Runs isException (.transaction body commitError) s answer s') :
    ScopeLaw isException body commitError s answer s' := by
  obtain ⟨n | n,h⟩ := h
  · cases h
  · obtain ⟨l,hl,⟨e,hbody,rfl,rfl⟩ | ⟨a,e,hbody,he,rfl,rfl⟩ | ⟨a,u,hbody,hcommit,rfl,hrun⟩⟩ :=
      run_transaction_cases hs h
    · exact .rolledBack hl (.inl ⟨n,hbody⟩) (after_rolledBack_conn hl s)
    · exact .rolledBack hl (.inr ⟨he,a,n,hbody⟩) (after_rolledBack_conn hl s)
    · exact .committed hl ⟨n,hbody⟩ hcommit (after_committed_conn hl s)
        (runsInOrder_of_run run_atRest (hs.after _) hrun)

/-- The action runs after a scope that returns, outside the lock, and after no other. -/
inductive ActionLaw (outcome : ν → Option ν → ν) (workflow : Program σ ν ε κ)
    (commitError : Option ε) (kind : κ) (callback : ν → Program σ ν ε κ)
    (s : AgentStore σ ν ε κ) : Except ε ν → AgentStore σ ν ε κ → Prop
  | acted {a : ν} {answer result : Except ε ν} {s₁ s' : AgentStore σ ν ε κ} (hs₁ : s₁.AtRest)
      (hscope : ScopeLaw isException workflow commitError s (.ok a) s₁)
      (haction : Runs isException (callback a) (s₁.after [.performed kind 0 0]) result s')
      (hanswer : answer = result.map fun r => outcome a (some r)) :
      ActionLaw outcome workflow commitError kind callback s answer s'
  | raised {e : ε} {s' : AgentStore σ ν ε κ}
      (hscope : ScopeLaw isException workflow commitError s (.error e) s') :
      ActionLaw outcome workflow commitError kind callback s (.error e) s'

theorem runs_execute {outcome : ν → Option ν → ν} {workflow : Program σ ν ε κ}
    {commitError : Option ε} {kind : κ} {callback : ν → Program σ ν ε κ}
    {s s' : AgentStore σ ν ε κ} {answer : Except ε ν} (hs : s.AtRest)
    (h : Runs isException (LifecycleTransactionRunner.execute outcome workflow commitError
      (some (kind,callback))) s answer s') :
    ActionLaw isException outcome workflow commitError kind callback s answer s' := by
  rcases h.bind_cases with ⟨e,hscope,rfl⟩ | ⟨a,s₁,hscope,h⟩
  · exact .raised (runs_transaction isException hs hscope)
  · have hs₁ : s₁.AtRest := by
      obtain ⟨n,hn⟩ := hscope
      obtain ⟨l,rfl⟩ := run_atRest hn hs
      exact hs.after l
    have hscope := runs_transaction isException hs hscope
    rcases h.bind_cases with ⟨e,⟨n | n,hn⟩,rfl⟩ | ⟨u,s₂,⟨n | n,hn⟩,h⟩
    · cases hn
    · cases hn
    · cases hn
    · simp only [run,hs₁.1,hs₁.2.1,Option.some.injEq,Prod.mk.injEq,note_eq_after] at hn
      rw [← hn.2] at h
      rcases h.bind_cases with ⟨e,hrun,rfl⟩ | ⟨r,s₃,hrun,⟨n | n,hn⟩⟩
      · exact .acted hs₁ hscope hrun rfl
      · cases hn
      · cases hn
        exact .acted hs₁ hscope hrun rfl

/-- Every program that starts outside all scopes ends there, with one outcome; its outermost
scopes obey the law of commit and callbacks, and a lifecycle mutation that of its action. -/
theorem post_commit_law {s : AgentStore σ ν ε κ} (hs : s.AtRest) :
    (∀ p : Program σ ν ε κ, ∃ answer s', Runs isException p s answer s' ∧
      (∀ answer' s'', Runs isException p s answer' s'' → answer' = answer ∧ s'' = s') ∧
      s'.AtRest ∧ ∃ l, s' = s.after l) ∧
    (∀ body commitError answer s', Runs isException (.transaction body commitError) s answer s' →
      ScopeLaw isException body commitError s answer s') ∧
    ∀ outcome workflow commitError kind callback answer s',
      Runs isException (LifecycleTransactionRunner.execute outcome workflow commitError
        (some (kind,callback))) s answer s' →
      ActionLaw isException outcome workflow commitError kind callback s answer s' := by
  refine ⟨fun p => ?_,fun body commitError answer s' => runs_transaction isException hs,
    fun outcome workflow commitError kind callback answer s' => runs_execute isException hs⟩
  obtain ⟨answer,s',h⟩ := (ends p).1 s (.inl hs)
  refine ⟨answer,s',h,fun answer' s'' h' => h'.unique h,?_⟩
  obtain ⟨n,hn⟩ := h
  obtain ⟨l,rfl⟩ := run_atRest hn hs
  exact ⟨hs.after l,l,rfl⟩

section Samples

/-- Rows are numbers here; `none` is an exception that is no `Exception`, as `SystemExit` is. -/
abbrev SampleProgram := Program (List Nat) Unit (Option PyException) String

def insertRow (row : Nat) : SampleProgram := .execute (fun db => .ok ((),row::db)) none

def andThen (p q : SampleProgram) : SampleProgram := .bind p fun _ => q

/-- The nested scope fails and the outer one goes on. -/
def caughtNested : SampleProgram :=
  andThen (insertRow 1)
    (.attempt
      (.transaction
        (andThen (insertRow 2)
          (andThen (.registerAfterCommit "nested" (.transaction (insertRow 3) none))
            (.raise (some (.runtimeError "caught nested probe"))))) none)
      fun _ => .value ())

theorem post_commit_law_sample :
    ∃ s', ScopeLaw Option.isSome caughtNested none (opened []) (.ok ()) s' ∧
      s'.conn = ⟨[3,2,1],[3,2,1]⟩ ∧ s'.log.filterMap started? = ["nested"] :=
  ⟨_,(post_commit_law Option.isSome (atRest_opened [])).2.1 _ _ _ _ ⟨9,rfl⟩,rfl,rfl⟩

/-- A callback that exits takes those after it along, though the commit stands; and an action
inside another scope runs though that scope commits nothing. -/
theorem exit_drops_callbacks_nested_action_precedes_commit :
    (∃ s', run Option.isSome 9
      (.transaction
        (andThen (insertRow 1)
          (andThen (.registerAfterCommit "first" (.raise none))
            (.registerAfterCommit "second" (.value ())))) none) (opened []) =
        some (.error none,s') ∧ s'.conn = ⟨[1],[1]⟩ ∧
      (registrations s'.log).map Prod.fst = ["first","second"] ∧
      s'.log.filterMap started? = ["first"]) ∧
    ∃ s', run Option.isSome 9
      (.transaction
        (andThen
          (LifecycleTransactionRunner.execute (fun _ _ => ()) (insertRow 1) none
            (some ("start_local_execution",fun _ => .value ())))
          (.raise (some (.runtimeError "reject transaction")))) none) (opened []) =
        some (.error (some (.runtimeError "reject transaction")),s') ∧ s'.conn = ⟨[],[]⟩ ∧
      s'.log.filterMap performed? = ["start_local_execution"] :=
  ⟨⟨_,rfl,rfl,rfl,rfl⟩,_,rfl,rfl,rfl⟩

end Samples
end Law
end VermayAgent
