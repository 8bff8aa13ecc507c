import VermayAgent.Library.Transition
import VermayAgent.LedgerFacts

/-! How often a tool body is let through.
A begin answers from the status it reads back, so it also lets a body through that another
begin has let through before; two prepared rows of one effect are not told apart at all.
Both limits are stated with the exact condition under which the ledger keeps them. -/
namespace VermayAgent
open Library Txn MainAgentStore MainAgentToolInvocationLedger

/-- Whether the row `id` is running. -/
def AgentDb.runningAt (db : AgentDb) (id : InvocationId) : Bool :=
  (db.invocation id).any fun r => r.status = .running

/-- The begins of `id` in a history that let the body run. -/
def executions (env : LedgerEnv) (id : InvocationId) : List LedgerOp → AgentDb → Nat
  | [], _ => 0
  | op::ops, db =>
    (if op.executes id db then 1 else 0)+executions env id ops (op.apply env db)

/-- The begins of `id` that are made while its row is running already. -/
def beginsWhileRunning (env : LedgerEnv) (id : InvocationId) : List LedgerOp → AgentDb → Nat
  | [], _ => 0
  | op::ops, db =>
    (if op.begun = some id ∧ db.runningAt id then 1 else 0) +
      beginsWhileRunning env id ops (op.apply env db)

section Begin

variable {env : LedgerEnv} {db : AgentDb} {id : InvocationId} {r : ToolInvocationRecord}

theorem beginToolInvocation_none (h : db.invocation id = none) :
    ∃ e, (beginToolInvocation id).run db = .error e := by
  refine ⟨.valueError ("unknown tool invocation: " ++ id),?_⟩
  have h : db.toolInvocations.get id = none := h
  simp [beginToolInvocation,requireToolInvocation,getToolInvocation,run_bind,h,orFail]

/-- A begin of a stored row answers with the row as it stands afterwards. -/
theorem beginToolInvocation_some (h : db.invocation id = some r) :
    ∃ r' db', (beginToolInvocation id).run db = .ok (r',db') ∧ db'.invocation id = some r' ∧
      (r.status ≠ .prepared → db' = db) := by
  have hreq := requireToolInvocation_ok.mpr ⟨h,rfl⟩
  unfold beginToolInvocation
  rw [run_bind_of hreq]
  by_cases hp : r.status = .prepared
  · rw [if_neg (not_not.mpr hp)]
    by_cases ha : r.approvalRequired = true ∧ r.approvalStatus ≠ .approved
    · rw [if_pos ha]
      exact ⟨r,db,rfl,h,fun _ => rfl⟩
    · rw [if_neg ha]
      refine ⟨{r with status := .running},_,(bind_ok _ _).mpr ⟨(),_,updateToolInvocations_ok.mpr rfl,
        (bind_ok _ _).mpr ⟨_,_,getToolInvocation_ok.mpr ⟨?_,rfl⟩,(orFail_ok _ _).mpr ⟨rfl,rfl⟩⟩⟩,
        ?_,fun hn => (hn hp).elim⟩ <;>
      · have hid : r.invocationId = id := Table.key_of_get h
        simp only [AgentDb.invocation] at h ⊢
        simp [Table.get_update,h,hid,hp]
  · rw [if_pos hp]
    exact ⟨r,db,rfl,h,fun _ => rfl⟩

theorem executionOf_execute : (executionOf id r).execute = true ↔ r.status = .running := by
  unfold executionOf
  split
  · simp [*]
  · split <;> simp [*]

/-- The body is let through exactly when the row runs after the begin. -/
theorem executes_iff (env : LedgerEnv) (op : LedgerOp) :
    op.executes id db = true ↔ op.begun = some id ∧ (op.apply env db).runningAt id = true := by
  cases op with
  | begin id' =>
    by_cases hid : id' = id
    · subst hid
      simp only [LedgerOp.executes,LedgerOp.apply,LedgerOp.txn,beginExecution]
      cases hr : db.invocation id' with
      | none =>
        obtain ⟨e,he⟩ := beginToolInvocation_none hr
        have hrun {α : Type} (f : ToolInvocationRecord → α) :
            (f <$> beginToolInvocation id').run db = .error e := by
          change (beginToolInvocation id' >>= fun a => pure (f a)).run db = _
          rw [run_bind,he]
        have hrun' : ((fun _ => ()) <$> executionOf id' <$> beginToolInvocation id').run db
            = .error e := by
          change ((executionOf id' <$> beginToolInvocation id') >>= fun _ => pure ()).run db = _
          rw [run_bind,hrun]
        rw [hrun,commit_error hrun']
        simp [AgentDb.runningAt,hr]
      | some r =>
        obtain ⟨r',db',hb,hr',_⟩ := beginToolInvocation_some hr
        have hrun : (executionOf id' <$> beginToolInvocation id').run db
            = .ok (executionOf id' r',db') := (map_ok _ _).mpr ⟨r',hb,rfl⟩
        have hrun' : ((fun _ => ()) <$> executionOf id' <$> beginToolInvocation id').run db
            = .ok ((),db') := (map_ok _ _).mpr ⟨_,hrun,rfl⟩
        rw [hrun,commit_ok hrun']
        simp [LedgerOp.begun,AgentDb.runningAt,hr',executionOf_execute]
    · simp only [LedgerOp.executes,LedgerOp.begun,Option.some.injEq,hid,false_and,iff_false]
      split <;> simp
  | _ => simp [LedgerOp.executes,LedgerOp.begun]

/-- A begin of a row that is past its preparation changes nothing. -/
theorem apply_of_begun {op : LedgerOp} (ho : op.begun = some id) (h : db.invocation id = some r)
    (hs : r.status ≠ .prepared) : op.apply env db = db := by
  cases op with
  | begin id' =>
    cases ho
    obtain ⟨r',db',hb,_,hdb⟩ := beginToolInvocation_some h
    cases hdb hs
    exact commit_ok ((map_ok _ _).mpr ⟨_,(map_ok _ _).mpr ⟨r',hb,rfl⟩,rfl⟩)
  | _ => cases ho

/-- Only a begin that lets the body through sets a row running. -/
theorem runningAt_apply (env : LedgerEnv) {op : LedgerOp} (h : db.runningAt id = false)
    (he : op.executes id db = false) : (op.apply env db).runningAt id = false := by
  by_contra hrun
  rw [Bool.not_eq_false] at hrun
  have hb : op.begun ≠ some id := fun hb => by
    rw [(executes_iff env op).mpr ⟨hb,hrun⟩] at he
    cases he
  rcases (LedgerOp.apply_moves env op db).row id with hr | ⟨_,new,now,_,hr⟩ | ⟨r₁,r₂,hr₁,hr₂,hm⟩
  · rw [AgentDb.runningAt,hr] at hrun
    rw [AgentDb.runningAt,hrun] at h
    cases h
  · simp [AgentDb.runningAt,hr,NewToolInvocation.record] at hrun
  · simp only [AgentDb.runningAt,hr₁,hr₂,Option.any_some,decide_eq_true_eq,
      decide_eq_false_iff_not] at hrun h
    cases hm with
    | begin hbegun hp ha => exact hb (hbegun.trans (congrArg some (Table.key_of_get hr₁)))
    | approve reason hp hq ha => exact h hrun
    | _ => simp [ToolInvocationRecord.cancel] at hrun

end Begin

section Count

variable (env : LedgerEnv) {db : AgentDb} {id : InvocationId} {r : ToolInvocationRecord}

/-- Past its preparation a row executes once for each begin that finds it running. -/
theorem executions_of_begun (ops : List LedgerOp) (h : db.invocation id = some r)
    (hs : r.status ≠ .prepared) :
    executions env id ops db = beginsWhileRunning env id ops db := by
  induction ops generalizing db r with
  | nil => rfl
  | cons op ops ih =>
    obtain ⟨r',hr',ha⟩ := (LedgerOp.apply_moves env op db).advances h
    rw [executions,beginsWhileRunning,ih hr' (ha.begun hs).1]
    have he : op.executes id db = true ↔ op.begun = some id ∧ db.runningAt id = true := by
      rw [executes_iff env]
      refine and_congr_right fun ho => ?_
      rw [apply_of_begun ho h hs]
    by_cases hx : op.executes id db = true
    · rw [if_pos hx,if_pos (he.mp hx)]
    · rw [if_neg hx,if_neg fun hn => hx (he.mpr hn)]

theorem executions_of_not_running (ops : List LedgerOp) (h : db.runningAt id = false) :
    executions env id ops db ≤ 1 ↔ beginsWhileRunning env id ops db = 0 := by
  induction ops generalizing db with
  | nil => simp [executions,beginsWhileRunning]
  | cons op ops ih =>
    rw [executions,beginsWhileRunning,if_neg (c := op.begun = some id ∧ _) (by simp [h])]
    cases he : op.executes id db with
    | true =>
      have hrun := ((executes_iff env op).mp he).2
      obtain ⟨r,hr,hs⟩ : ∃ r, (op.apply env db).invocation id = some r ∧ r.status = .running := by
        simpa [AgentDb.runningAt,Option.any_eq_true] using hrun
      rw [executions_of_begun env ops hr (by simp [hs]),if_pos rfl]
      omega
    | false =>
      simpa using ih (runningAt_apply env h he)

/-- The bodies let through for one id are at most one exactly when no begin finds the row
running; a history that starts with the row running may have one such begin. -/
theorem executions_le_one_iff (ops : List LedgerOp) (db : AgentDb) (id : InvocationId) :
    executions env id ops db ≤ 1 ↔
      beginsWhileRunning env id ops db ≤ if db.runningAt id then 1 else 0 := by
  cases h : db.runningAt id with
  | true =>
    obtain ⟨r,hr,hs⟩ : ∃ r, db.invocation id = some r ∧ r.status = .running := by
      simpa [AgentDb.runningAt,Option.any_eq_true] using h
    rw [executions_of_begun env ops hr (by simp [hs])]
    simp
  | false => simpa using executions_of_not_running env ops h

/-- Two begins of the sample call let its body run twice. -/
theorem executions_two : ¬executions sampleEnv sampleIdA
    [samplePrepare 1 "call-a" false 1,.begin sampleIdA,.begin sampleIdA] sampleDb ≤ 1 := by
  have h : executions sampleEnv sampleIdA
      [samplePrepare 1 "call-a" false 1,.begin sampleIdA,.begin sampleIdA] sampleDb = 2 := by
    decide +kernel
  omega

end Count
section Effects

/-- What makes two rows the same effect. -/
def ToolInvocationRecord.effect (r : ToolInvocationRecord) : TaskId × String × String :=
  (r.taskId,r.toolName,r.argumentsDigest)

def MainAgentStore.NewToolInvocation.effect (new : NewToolInvocation) : TaskId × String × String :=
  (new.taskId,new.toolName,new.argumentsDigest)

/-- The effect of the row did not and will not happen. -/
def ToolInvocationStatus.dead (status : ToolInvocationStatus) : Prop :=
  status = canceled ∨ status = failed

/-- An operation about to create a row finds every earlier row of the effect dead. -/
def EffectFree (env : LedgerEnv) (op : LedgerOp) (db : AgentDb) : Prop :=
  ∀ new, op.requested env db = some new → db.invocation new.invocationId = none →
    ∀ id r, db.invocation id = some r → r.effect = new.effect → r.status.dead

/-- Each effect has at most one row that is not dead. -/
def OneLiveRow (db : AgentDb) : Prop :=
  ∀ id₁ id₂ r₁ r₂, db.invocation id₁ = some r₁ → db.invocation id₂ = some r₂ →
    r₁.effect = r₂.effect → ¬r₁.status.dead → ¬r₂.status.dead → id₁ = id₂

/-- The history of operations as a transition system in which every step is enabled. -/
def ledgerStep (env : LedgerEnv) (op : LedgerOp) (db : AgentDb) : Option AgentDb :=
  some (op.apply env db)

theorem exec_ledgerStep (env : LedgerEnv) (ops : List LedgerOp) (db : AgentDb) :
    exec (ledgerStep env) ops db = some (LedgerOp.history env ops db) := by
  induction ops generalizing db with
  | nil => rfl
  | cons op ops ih => exact ih _

variable {env : LedgerEnv} {db : AgentDb} {op : LedgerOp}

/-- A row that lives after a step is the row the step created or lived before, as the same effect. -/
theorem live_before {id : InvocationId} {r : ToolInvocationRecord}
    (hr : (op.apply env db).invocation id = some r) (hl : ¬r.status.dead) :
    (∃ r₀, db.invocation id = some r₀ ∧ r₀.effect = r.effect ∧ ¬r₀.status.dead) ∨
      ∃ new, op.requested env db = some new ∧ db.invocation id = none ∧
        new.invocationId = id ∧ r.effect = new.effect := by
  have hm := LedgerOp.apply_moves env op db
  cases h₀ : db.invocation id with
  | some r₀ =>
    obtain ⟨r',hr',ha⟩ := hm.advances h₀
    cases hr'.symm.trans hr
    refine .inl ⟨r₀,rfl,?_,fun hd => hl ?_⟩
    · exact (congrArg NewToolInvocation.effect ha.identity).symm
    · have he : r₀.status.ended := by rcases hd with hd | hd <;> simp [hd,ToolInvocationStatus.ended]
      exact ha.ended he ▸ hd
  | none =>
    rcases hm.row id with h | ⟨_,new,now,hreq,h⟩ | ⟨r₁,_,h,_⟩
    · cases (h.trans h₀).symm.trans hr
    · cases h.symm.trans hr
      have hid := Table.key_of_get hr
      exact .inr ⟨new,hreq,rfl,hid,rfl⟩
    · cases h₀.symm.trans h

theorem oneLiveRow_apply (h : OneLiveRow db) (hf : EffectFree env op db) :
    OneLiveRow (op.apply env db) := by
  intro id₁ id₂ r₁ r₂ hr₁ hr₂ he hl₁ hl₂
  rcases live_before hr₁ hl₁ with ⟨s₁,hs₁,he₁,hd₁⟩ | ⟨new₁,hq₁,hn₁,rfl,he₁⟩
  · rcases live_before hr₂ hl₂ with ⟨s₂,hs₂,he₂,hd₂⟩ | ⟨new₂,hq₂,hn₂,rfl,he₂⟩
    · exact h id₁ id₂ s₁ s₂ hs₁ hs₂ (by rw [he₁,he₂,he]) hd₁ hd₂
    · exact (hd₁ (hf new₂ hq₂ hn₂ id₁ s₁ hs₁ (by rw [he₁,he,he₂]))).elim
  · rcases live_before hr₂ hl₂ with ⟨s₂,hs₂,he₂,hd₂⟩ | ⟨new₂,hq₂,hn₂,rfl,he₂⟩
    · exact (hd₂ (hf new₁ hq₁ hn₁ id₂ s₂ hs₂ (by rw [he₂,← he,he₁]))).elim
    · cases hq₁.symm.trans hq₂
      rfl

/-- Two calls of one response, of which the first was begun. -/
def sampleTwins : AgentDb := LedgerOp.history sampleEnv [samplePrepare 1 "call-a" false 1,
  samplePrepare 1 "call-b" false 2,.begin sampleIdA] sampleDb

/-- The same calls after the first succeeded and the second was canceled, and a third call. -/
def sampleMasked : AgentDb := LedgerOp.history sampleEnv [
  .finish sampleIdA ⟨"success",.str "done"⟩,.cancel sampleIdB "canceled",
  samplePrepare 2 "call-a" false 3] sampleTwins

end Effects
end VermayAgent
