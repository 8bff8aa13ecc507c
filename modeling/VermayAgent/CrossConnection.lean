import VermayAgent.Library.Connections
import VermayAgent.Library.Slot
import VermayAgent.Library.Transition
import VermayAgent.WakeUps

/-! Claims of queued commands through several connections.
Each connection executes the store's transactions statement by statement. A command is a queue
row, numbered among the rows that its task was ever given, so that a row that took the place of
another is told apart from it. -/
namespace VermayAgent
open Library Txn MainAgentStore MainAgentCore

/-- What a connection is doing. A claim remembers the number that the task's latest queue row had
at the claim's last read. -/
inductive Connection where
  | idle
  | claiming (taskId : TaskId) (program : StoreTxn (Option ClaimedLocalExecution)) (seen : Nat)
  | executing (program : StoreTxn (Option PostCommitAction))

/-- A claim that ended with an answer: the number of the row it read and of the row there was when
it wrote, and the rows of the task before and after. -/
structure CommittedClaim where
  taskId : TaskId
  answer : Option ClaimedLocalExecution
  seen : Nat
  present : Nat
  before : TaskRows
  after : TaskRows

structure SharedStore where
  db : AgentDb
  queueRows : TaskId → Nat
  connections : Nat → Connection
  claims : List CommittedClaim

namespace SharedStore

def start (db : AgentDb) : SharedStore := ⟨db,fun _ => 0,fun _ => .idle,[]⟩

def setConnection (i : Nat) (c : Connection) (s : SharedStore) : SharedStore :=
  {s with connections := Function.update s.connections i c}

def commit (db : AgentDb) (s : SharedStore) : SharedStore :=
  {s with
    db := db
    queueRows := fun t => renumber (s.db.rows t).queued (db.rows t).queued (s.queueRows t)}

def record (claim : CommittedClaim) (s : SharedStore) : SharedStore :=
  {s with claims := s.claims++[claim]}

end SharedStore

inductive ConnectionStep where
  | begin (i : Nat) (c : CoreTxn)
  | statement (i : Nat)
  /-- The write lock was not given in time, or the process of the connection ended. -/
  | abort (i : Nat)

namespace ConnectionStep

variable (core : CoreEnv) (env : LedgerEnv)

def connect (s : SharedStore) : CoreTxn → Connection
  | .claimLocalExecution taskId =>
    .claiming taskId (claimLocalExecution taskId) (s.queueRows taskId)
  | c => .executing (c.txn core env)

/-- A claim ends; an answer goes to the worker that asked for it. -/
def endClaim (i : Nat) (taskId : TaskId) (seen : Nat)
    (result : Except PyException (Option ClaimedLocalExecution)) (db : AgentDb)
    (s : SharedStore) : SharedStore :=
  match result with
  | .error _ => s.setConnection i .idle
  | .ok answer => ((s.commit db).record ⟨taskId,answer,seen,s.queueRows taskId,s.db.rows taskId,
      db.rows taskId⟩).setConnection i .idle

def step : ConnectionStep → SharedStore → Option SharedStore
  | begin i c, s =>
    match s.connections i with
    | .idle => some (s.setConnection i (connect core env s c))
    | _ => none
  | statement i, s =>
    match s.connections i with
    | .idle => none
    | .claiming taskId program seen =>
      match program.advance s.db with
      | .inl rest => some (s.setConnection i (.claiming taskId rest (s.queueRows taskId)))
      | .inr (result,db) => some (endClaim i taskId seen result db s)
    | .executing program =>
      match program.advance s.db with
      | .inl rest => some (s.setConnection i (.executing rest))
      | .inr (_,db) => some ((s.commit db).setConnection i .idle)
  | abort i, s => some (s.setConnection i .idle)

end ConnectionStep

/-- What a claim ensures, whatever is committed between its statements: its answer is the command
that it read, it takes the row that it finds, and it makes the task running. -/
def ClaimEnsures (taskId : TaskId) (readDb db : AgentDb) (answer : Option ClaimedLocalExecution)
    (db' : AgentDb) : Prop :=
  match answer with
  | none => db'.rows taskId = db.rows taskId
  | some claim => (∃ row, (readDb.rows taskId).queued = some row ∧ row.decode = .ok claim.command) ∧
      (db.rows taskId).queued.isSome ∧ (db'.rows taskId).task = some claim.task.head ∧
      db'.rows taskId = RowEvent.claimed.apply (db.rows taskId)

section Claim

variable {taskId : TaskId}

/-- The write part of a claim, in whatever state it runs. -/
theorem claimWrite_ensures {readDb : AgentDb} {row : QueuedExecutionRow}
    {command : QueuedTaskExecutionRecord} (hrow : (readDb.rows taskId).queued = some row)
    (hdecode : row.decode = .ok command) :
    (claimDelete taskId command >>= prepareClaimed taskId).Ensures (ClaimEnsures taskId) readDb := by
  have hall : ∀ db answer db', (claimDelete taskId command >>= prepareClaimed taskId).run db =
      .ok (answer,db') → ClaimEnsures taskId readDb db answer db' := by
    intro db answer db' h
    obtain ⟨o,db₁,hdelete,hprepare⟩ := (bind_ok _ _).mp h
    obtain ⟨rfl,rfl⟩ := prepareClaimed_ok hprepare
    rcases claimDelete_rows hdelete with ⟨ho,_,hrows⟩ | ⟨task,ho,hsome,_,hhead,hrows⟩
    · obtain rfl := Option.map_eq_none_iff.mp ho
      exact congrFun hrows taskId
    · obtain ⟨c,rfl,hc⟩ := Option.map_eq_some_iff.mp ho
      cases hc
      exact ⟨⟨row,hrow,hdecode⟩,hsome,hhead,by rw [hrows,Rows.modify_self]⟩
  rw [claimDelete,deleteQueuedTaskExecution,bind_assoc] at hall ⊢
  exact .statement hall

theorem claimLocalExecution_ensures (readDb : AgentDb) :
    (claimLocalExecution taskId).Ensures (ClaimEnsures taskId) readDb := by
  rw [claimLocalExecution,claimQueuedTaskExecution,requireTask,getTask,bind_assoc,bind_assoc]
  refine .select fun db => .orFail fun task htask => ?_
  split
  · exact rfl
  · rw [getQueuedTaskExecution,bind_assoc,bind_assoc]
    refine .select fun db => ?_
    cases hrow : db.queuedExecutions.get taskId with
    | none => exact rfl
    | some row =>
      simp only [map_eq_pure_bind,bind_assoc,pure_bind]
      exact .ofExcept fun command hdecode => .require fun _ => claimWrite_ensures hrow hdecode

end Claim

/-- Each queue row is the answer of at most one claim, which is the claim that took it, and the
row goes with the same commit that makes the task running. -/
structure ExactlyOnce (claims : List CommittedClaim) : Prop where
  once : claims.Pairwise fun c c' =>
    c.answer.isSome → c'.answer.isSome → c.taskId = c'.taskId → c.seen ≠ c'.seen
  own : ∀ c ∈ claims, ∀ answer, c.answer = some answer → c.present = c.seen ∧
    ∃ row, c.before.queued = some row ∧ row.decode = .ok answer.command
  together : ∀ c ∈ claims, c.after = c.before ∧ c.answer = none ∨
    c.after = RowEvent.claimed.apply c.before ∧
      ∃ answer, c.answer = some answer ∧ c.after.task = some answer.task.head

/-- The queue row that the claim's `DELETE` finds, if it finds one, was there when the claim read
the command: none was enqueued in between. -/
def ClaimGuard : ConnectionStep → SharedStore → Prop
  | .statement i, s =>
    match s.connections i with
    | .claiming taskId program seen =>
      program.writes = true → (s.db.rows taskId).queued.isSome → s.queueRows taskId = seen
    | _ => True
  | _, _ => True

instance (a : ConnectionStep) (s : SharedStore) : Decidable (ClaimGuard a s) := by
  unfold ClaimGuard
  split
  · split <;> infer_instance
  · infer_instance

namespace SharedStore

variable {s : SharedStore} {t : TaskId}

/-- The row that a claim read is there until it is taken, and no other under its number. -/
def Reads (s : SharedStore) : Connection → Prop
  | .claiming t program seen => ∃ readDb, program.Ensures (ClaimEnsures t) readDb ∧
      Slot.Since seen (readDb.rows t).queued (s.queueRows t) (s.db.rows t).queued
  | _ => True

/-- A row that was answered is gone for good. -/
def Taken (s : SharedStore) (c : CommittedClaim) : Prop :=
  c.answer.isSome → Slot.Since c.present none (s.queueRows c.taskId) (s.db.rows c.taskId).queued

structure Ok (s : SharedStore) : Prop where
  reads : ∀ i, s.Reads (s.connections i)
  taken : ∀ c ∈ s.claims, s.Taken c
  exactlyOnce : ExactlyOnce s.claims

theorem Reads.commit {c : Connection} (h : s.Reads c) (db : AgentDb) : (s.commit db).Reads c := by
  cases c with
  | idle | executing => trivial
  | claiming t program seen =>
    obtain ⟨readDb,hprogram,hsince⟩ := h
    exact ⟨readDb,hprogram,hsince.next _⟩

theorem Taken.commit {c : CommittedClaim} (h : s.Taken c) (db : AgentDb) :
    (s.commit db).Taken c := fun hsome => (h hsome).next _

theorem Ok.commit (h : s.Ok) (db : AgentDb) : (s.commit db).Ok :=
  ⟨fun i => (h.reads i).commit db,fun c hc => (h.taken c hc).commit db,h.exactlyOnce⟩

theorem reads_setConnection (i : Nat) (c d : Connection) :
    (s.setConnection i c).Reads d ↔ s.Reads d := by
  cases d <;> rfl

theorem Ok.setConnection (h : s.Ok) (i : Nat) {c : Connection} (hc : s.Reads c) :
    (s.setConnection i c).Ok where
  reads j := by
    rw [reads_setConnection]
    by_cases hj : j = i
    · subst hj
      simpa [SharedStore.setConnection] using hc
    · have hold := h.reads j
      simpa [SharedStore.setConnection,hj] using hold
  taken := h.taken
  exactlyOnce := h.exactlyOnce

theorem reads_record (claim : CommittedClaim) (d : Connection) :
    (s.record claim).Reads d ↔ s.Reads d := by
  cases d <;> rfl

/-- A claim that took the row it read joins the earlier ones; one that took nothing does as well. -/
theorem Ok.record {claim : CommittedClaim} (h : s.Ok) (htaken : s.Taken claim)
    (hnew : ∀ c ∈ s.claims, c.answer.isSome → claim.answer.isSome → c.taskId = claim.taskId →
      c.present ≠ claim.present)
    (hown : ∀ answer, claim.answer = some answer → claim.present = claim.seen ∧
      ∃ row, claim.before.queued = some row ∧ row.decode = .ok answer.command)
    (htogether : claim.after = claim.before ∧ claim.answer = none ∨
      claim.after = RowEvent.claimed.apply claim.before ∧
        ∃ answer, claim.answer = some answer ∧ claim.after.task = some answer.task.head) :
    (s.record claim).Ok where
  reads i := (reads_record claim _).mpr (h.reads i)
  taken c hc := by
    rcases List.mem_append.mp hc with hc | hc
    · exact h.taken c hc
    · exact List.mem_singleton.mp hc ▸ htaken
  exactlyOnce := {
    once := by
      refine List.pairwise_append.mpr ⟨h.exactlyOnce.once,List.pairwise_singleton ..,?_⟩
      intro c hc c' hc' hsome hsome' htask heq
      cases List.mem_singleton.mp hc'
      obtain ⟨answer,hanswer⟩ := Option.isSome_iff_exists.mp hsome
      obtain ⟨answer',hanswer'⟩ := Option.isSome_iff_exists.mp hsome'
      have hold := (h.exactlyOnce.own c hc answer hanswer).1
      exact hnew c hc hsome hsome' htask (by rw [hold,heq,(hown answer' hanswer').1])
    own := by
      intro c hc
      rcases List.mem_append.mp hc with hc | hc
      · exact h.exactlyOnce.own c hc
      · exact List.mem_singleton.mp hc ▸ hown
    together := by
      intro c hc
      rcases List.mem_append.mp hc with hc | hc
      · exact h.exactlyOnce.together c hc
      · exact List.mem_singleton.mp hc ▸ htogether}

end SharedStore

namespace ConnectionStep
open SharedStore

variable (core : CoreEnv) (env : LedgerEnv) {s s' : SharedStore}

theorem connect_reads (s : SharedStore) (c : CoreTxn) : s.Reads (connect core env s c) := by
  cases c with
  | claimLocalExecution t =>
    exact ⟨s.db,claimLocalExecution_ensures s.db,.refl _ _⟩
  | _ => trivial

/-- What an answered claim did, if its write part met no row newer than the one it read. -/
theorem endClaim_rows {seen : Nat} {t : TaskId}
    {program : StoreTxn (Option ClaimedLocalExecution)} {db : AgentDb}
    {answer : Option ClaimedLocalExecution} (hreads : s.Reads (.claiming t program seen))
    (hguard : program.writes = true → (s.db.rows t).queued.isSome → s.queueRows t = seen)
    (hend : program.advance s.db = .inr (.ok answer,db)) :
    (answer = none ∧ db.rows t = s.db.rows t) ∨
      ∃ claim row, answer = some claim ∧ s.queueRows t = seen ∧
        (s.db.rows t).queued = some row ∧ row.decode = .ok claim.command ∧
        db.rows t = RowEvent.claimed.apply (s.db.rows t) ∧
        (db.rows t).task = some claim.task.head := by
  obtain ⟨readDb,hprogram,hsince⟩ := hreads
  rcases hprogram.result hend with ⟨hwrites,hensures⟩ | ⟨rfl,hensures⟩
  · cases answer with
    | none => exact .inl ⟨rfl,hensures⟩
    | some claim =>
      obtain ⟨⟨row,hrow,hdecode⟩,hsome,hhead,hrows⟩ := hensures
      have hseen := hguard hwrites hsome
      obtain ⟨found,hfound⟩ := Option.isSome_iff_exists.mp hsome
      rw [hseen,hfound,hrow] at hsince
      exact .inr ⟨claim,row,rfl,hseen,hfound.trans hsince.eq_of_some.symm,hdecode,hrows,hhead⟩
  · cases answer with
    | none => exact .inl ⟨rfl,rfl⟩
    | some claim =>
      -- without a write there is a queue row and there is none
      obtain ⟨_,hsome,_,hrows⟩ := hensures
      rw [hrows] at hsome
      cases hsome

theorem endClaim_ok {i seen : Nat} {t : TaskId}
    {program : StoreTxn (Option ClaimedLocalExecution)} {db : AgentDb}
    {result : Except PyException (Option ClaimedLocalExecution)} (h : s.Ok)
    (hc : s.connections i = .claiming t program seen)
    (hguard : program.writes = true → (s.db.rows t).queued.isSome → s.queueRows t = seen)
    (hend : program.advance s.db = .inr (result,db)) : (endClaim i t seen result db s).Ok := by
  cases result with
  | error e => exact h.setConnection i trivial
  | ok answer =>
    have hreads := h.reads i
    rw [hc] at hreads
    have hcommit := h.commit db
    rcases endClaim_rows hreads hguard hend with
      ⟨rfl,hrows⟩ | ⟨claim,row,rfl,hseen,hrow,hdecode,hrows,hhead⟩
    · refine (hcommit.record ?_ ?_ ?_ (.inl ⟨hrows,rfl⟩)).setConnection i trivial
      · exact fun hsome => (nomatch hsome)
      · exact fun _ _ _ hsome => (nomatch hsome)
      · exact fun _ heq => (nomatch heq)
    · have hgone : (db.rows t).queued = none := by
        rw [hrows]
        rfl
      have htaken : Slot.Since (s.queueRows t) none ((s.commit db).queueRows t)
          (db.rows t).queued := by
        rw [hgone]
        simpa [SharedStore.commit,hgone] using Slot.Since.refl (s.queueRows t) none
      refine (hcommit.record ?_ ?_ ?_ (.inr ⟨hrows,claim,rfl,hhead⟩)).setConnection i trivial
      · exact fun _ => htaken
      · -- an earlier claim of this row would have left no row to take
        intro c hmem hsome _ htask heq
        have hlt := h.taken c hmem hsome
        rw [htask,hrow] at hlt
        exact Nat.ne_of_lt hlt.lt_of_some heq
      · rintro _ ⟨⟩
        exact ⟨hseen,row,hrow,hdecode⟩

theorem ok_step {a : ConnectionStep} (h : s.Ok) (hguard : ClaimGuard a s)
    (hs : step core env a s = some s') : s'.Ok := by
  cases a with
  | begin i c =>
    simp only [step] at hs
    split at hs
    · cases hs
      exact h.setConnection i (connect_reads core env s c)
    · cases hs
  | abort i =>
    cases hs
    exact h.setConnection i trivial
  | statement i =>
    simp only [step] at hs
    cases hc : s.connections i with
    | idle =>
      rw [hc] at hs
      cases hs
    | claiming t program seen =>
      simp only [hc] at hs
      simp only [ClaimGuard,hc] at hguard
      split at hs
      · rename_i rest hrest
        cases hs
        have hreads := h.reads i
        rw [hc] at hreads
        obtain ⟨_,hprogram,_⟩ := hreads
        exact h.setConnection i ⟨s.db,hprogram.rest hrest,.refl _ _⟩
      · rename_i hend
        cases hs
        exact endClaim_ok h hc hguard hend
    | executing program =>
      simp only [hc] at hs
      split at hs
      · cases hs
        exact h.setConnection i trivial
      · cases hs
        exact (h.commit _).setConnection i trivial

end ConnectionStep

theorem ok_start (db : AgentDb) : (SharedStore.start db).Ok :=
  ⟨fun _ => trivial,fun _ hc => (nomatch hc),⟨.nil,fun _ hc => (nomatch hc),fun _ hc => (nomatch hc)⟩⟩

section Main

variable (core : CoreEnv) (env : LedgerEnv)

/-- Over any number of connections and any interleaving of their statements: as long as no claim's
`DELETE` finds a row enqueued after the claim read its command, each command is the answer of at
most one claim, which took its row and made the task running in one commit. -/
theorem claims_exactly_once {db : AgentDb} {as : List ConnectionStep} {s : SharedStore}
    (hguard : Guarded (ConnectionStep.step core env) ClaimGuard as (.start db))
    (hrun : exec (ConnectionStep.step core env) as (.start db) = some s) : ExactlyOnce s.claims :=
  (exec_invariant_guarded (fun _ _ _ => ConnectionStep.ok_step core env) (ok_start db) hguard
    hrun).exactlyOnce

end Main

section Sample
open ConnectionStep

/-- All statements of a transaction, without a break. -/
def ConnectionStep.transaction (i : Nat) (c : CoreTxn) (statements : Nat) : List ConnectionStep :=
  .begin i c::List.replicate statements (.statement i)

def sampleStore : SharedStore :=
  .start (CoreTxn.history sampleCore sampleEnv sampleAdmission AgentDb.empty)

/-- A second worker comes between the reads and the `DELETE` of the first, and its claim fails. -/
def sampleClaims : List ConnectionStep :=
  [.begin 1 (.claimLocalExecution "task"),.statement 1,.statement 1] ++
    transaction 2 (.claimLocalExecution "task") 2 ++ [.statement 1,.statement 2]

/-- The second worker claims, runs and suspends the task, the user answers, and only then does
the first worker delete a queue row: that of the answer. -/
def sampleDoubleClaim : List ConnectionStep :=
  [.begin 1 (.claimLocalExecution "task"),.statement 1,.statement 1] ++
    transaction 2 (.claimLocalExecution "task") 3 ++
    transaction 2 (.recordLocalTaskResult "task" sampleQuestion (.obj []) "msg-2"
      {sampleTask with status := .running}) 3 ++
    transaction 3 (.submitTaskInput "task" (sampleAnswer "answer") "msg-3") 5 ++ [.statement 1]

end Sample

theorem claims_exactly_once_sample :
    ∃ s, exec (ConnectionStep.step sampleCore sampleEnv) sampleClaims sampleStore = some s ∧
      ExactlyOnce s.claims := by
  have hguard : Guarded (ConnectionStep.step sampleCore sampleEnv) ClaimGuard sampleClaims
      sampleStore := by decide +kernel
  obtain ⟨s,hs⟩ : ∃ s, exec (ConnectionStep.step sampleCore sampleEnv) sampleClaims sampleStore
      = some s := Option.isSome_iff_exists.mp (by decide +kernel)
  exact ⟨s,hs,claims_exactly_once sampleCore sampleEnv hguard hs⟩

/-- The numbers and kinds of the command that was answered and of the row that was deleted. -/
def CommittedClaim.summary (c : CommittedClaim) :
    Nat × Option QueuedTaskExecutionKind × Nat × Option String :=
  (c.seen,c.answer.map (·.command.kind),c.present,c.before.queued.map (·.kind))

/-- The initial command is the answer of two claims, and the command of the user's answer that the
second one deleted is the answer of none. -/
theorem initial_command_claimed_twice :
    ∃ s, exec (ConnectionStep.step sampleCore sampleEnv) sampleDoubleClaim sampleStore = some s ∧
      s.claims.map CommittedClaim.summary =
        [(0,some .initial,0,some "initial"),(0,some .initial,1,some "user_input")] ∧
      ¬ ExactlyOnce s.claims := by
  obtain ⟨s,hs⟩ : ∃ s, exec (ConnectionStep.step sampleCore sampleEnv) sampleDoubleClaim sampleStore
      = some s := Option.isSome_iff_exists.mp (by decide +kernel)
  have hclaims : s.claims.map CommittedClaim.summary =
      [(0,some .initial,0,some "initial"),(0,some .initial,1,some "user_input")] := by
    refine Option.some.inj (?_ : (some s).map (·.claims.map CommittedClaim.summary) = _)
    rw [← hs]
    decide +kernel
  refine ⟨s,hs,hclaims,fun hall => ?_⟩
  have hmem : (0,some .initial,1,some "user_input") ∈ s.claims.map CommittedClaim.summary := by
    rw [hclaims]
    exact List.mem_cons_of_mem _ List.mem_cons_self
  obtain ⟨c,hc,heq⟩ := List.mem_map.mp hmem
  simp only [CommittedClaim.summary,Prod.mk.injEq] at heq
  obtain ⟨hseen,hanswer,hpresent,_⟩ := heq
  obtain ⟨answer,hsome,_⟩ := Option.map_eq_some_iff.mp hanswer
  have hown := (hall.own c hc answer hsome).1
  omega

end VermayAgent
