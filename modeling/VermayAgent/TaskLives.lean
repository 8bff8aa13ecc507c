import VermayAgent.EventLogs
import VermayAgent.Library.Timeline

/-! The committed life of one task: its states one after another, and the status that its final
event log gives for each revision. -/
namespace VermayAgent
open Library Txn MainAgentStore

/-- Nothing of the log is lost, and a later status has a later revision than the head had. -/
def TaskLog.GrowsTo (log log' : TaskLog) : Prop :=
  ∀ head, log.head = some head → ∃ head' new, log'.head = some head' ∧
    head.revision ≤ head'.revision ∧ log'.events = log.events++new ∧
    ∀ e ∈ new, e.status.isSome = true → head.revision < e.lifecycleRevision

namespace TaskLog.GrowsTo

variable {log log' log'' : TaskLog}

theorem refl (log : TaskLog) : log.GrowsTo log :=
  fun head hhead => ⟨head,[],hhead,Nat.le_refl _,by simp,by simp⟩

theorem trans (h : log.GrowsTo log') (h' : log'.GrowsTo log'') : log.GrowsTo log'' := by
  intro head hhead
  obtain ⟨head',new,hhead',hle,hevents,hnew⟩ := h head hhead
  obtain ⟨head'',new',hhead'',hle',hevents',hnew'⟩ := h' head' hhead'
  refine ⟨head'',new++new',hhead'',hle.trans hle',by rw [hevents',hevents,List.append_assoc],?_⟩
  intro e he hsome
  rcases List.mem_append.mp he with he | he
  · exact hnew e he hsome
  · exact Nat.lt_of_le_of_lt hle (hnew' e he hsome)

end TaskLog.GrowsTo

section Steps

variable {allow : TaskId → LifecycleHead → TaskStatus → Prop} {h h' : History} {t : TaskId}

theorem HistoryStep.grows (hs : HistoryStep allow h h') : (h.log t).GrowsTo (h'.log t) := by
  cases hs with
  | @opened t' status c agent payload hnone hlocal =>
    intro head hhead
    have hne : t ≠ t' := by
      rintro rfl
      rw [hnone] at hhead
      cases hhead
    rw [History.note_log_of_ne hne,History.setHead_log_of_ne hne]
    exact TaskLog.GrowsTo.refl _ head hhead
  | @moved t' head₀ target type payload hhead₀ hmove hallow htype =>
    by_cases ht : t = t'
    · subst ht
      intro head hhead
      cases hhead₀.symm.trans hhead
      simp only [History.note_log_self,History.setHead_log_self]
      refine ⟨_,_,rfl,Nat.le_succ _,rfl,fun e he _ => ?_⟩
      rw [List.mem_singleton.mp he]
      exact Nat.lt_succ_self _
    · rw [History.note_log_of_ne ht,History.setHead_log_of_ne ht]
      exact .refl _
  | @bumped t' head₀ hhead₀ =>
    by_cases ht : t = t'
    · subst ht
      intro head hhead
      cases hhead₀.symm.trans hhead
      rw [History.setHead_log_self]
      exact ⟨_,[],rfl,Nat.le_succ _,by simp,by simp⟩
    · rw [History.setHead_log_of_ne ht]
      exact .refl _
  | @noted t' head₀ type payload hhead₀ hnoted =>
    by_cases ht : t = t'
    · subst ht
      intro head hhead
      rw [History.note_log_self]
      refine ⟨head,_,hhead,Nat.le_refl _,rfl,fun e he hsome => ?_⟩
      rw [List.mem_singleton.mp he] at hsome
      cases hsome
    · rw [History.note_log_of_ne ht]
      exact .refl _
  | stored ha => exact .refl _
  | invoked hhead => exact .refl _

theorem HistoryMoves.grows (hm : HistoryMoves allow h h') : (h.log t).GrowsTo (h'.log t) := by
  induction hm with
  | refl => exact .refl _
  | tail _ hs ih => exact ih.trans hs.grows

theorem Forgotten.grows {c : ContextId} (hf : Forgotten c h h')
    (halive : (h'.log t).head.isSome = true) : (h.log t).GrowsTo (h'.log t) := by
  rw [hf.log] at halive ⊢
  split
  · rename_i hc
    rw [if_pos hc] at halive
    cases halive
  · exact .refl _

end Steps

/-- A task in the committed states of a store, from some state on in which it is stored; it is not
deleted on the way. -/
structure TaskLife (core : CoreEnv) (env : LedgerEnv) (t : TaskId) where
  before : List AgentTxn
  during : List AgentTxn
  alive : ∀ n, ((AgentTxn.history core env (before++during.take n)
    AgentDb.empty).tasks.get t).isSome = true

namespace TaskLife

variable {core : CoreEnv} {env : LedgerEnv} {t : TaskId} (life : TaskLife core env t)

/-- The state after some of the transactions; after more than there are, the last one. -/
def state (n : Nat) : AgentDb :=
  AgentTxn.history core env (life.before++life.during.take n) AgentDb.empty

def final : AgentDb := life.state life.during.length

/-- The event log of the task. -/
def events : List TaskEventRecord := life.final.eventsOf t

/-- The status of the last event with one whose revision is at most this one. -/
def statusAt (r : Nat) : Option TaskStatus :=
  Library.valueAt (·.lifecycleRevision) (·.status) life.events r

theorem sound (n : Nat) : (life.state n).Sound :=
  AgentTxn.sound_history core env _ AgentDb.sound_empty

theorem state_grows (n : Nat) :
    ((life.state n).history.log t).GrowsTo ((life.state (n+1)).history.log t) := by
  by_cases hn : n < life.during.length
  · have hnext : life.state (n+1) = (life.during[n]).commit core env (life.state n) := by
      simp only [state,AgentTxn.history,List.take_succ_eq_append_getElem hn,← List.append_assoc,
        List.foldl_append,List.foldl_cons,List.foldl_nil]
    have hsound := life.sound n
    have halive : ((life.state (n+1)).history.log t).head.isSome = true := by
      have h : ((life.state (n+1)).tasks.get t).isSome = true := life.alive (n+1)
      simpa [AgentDb.history] using h
    rw [hnext] at halive ⊢
    rcases AgentTxn.commit_history core env _ hsound.coupled hsound.owned with hm | ⟨c,hf⟩
    · exact hm.grows
    · exact hf.grows halive
  · have hsame : life.state (n+1) = life.state n := by
      have hle : life.during.length ≤ n := Nat.le_of_not_lt hn
      simp only [state,List.take_of_length_le hle,List.take_of_length_le (Nat.le_succ_of_le hle)]
    rw [hsame]
    exact .refl _

theorem grows_final (n : Nat) :
    ((life.state n).history.log t).GrowsTo (life.final.history.log t) := by
  have hrun : ∀ k, ((life.state n).history.log t).GrowsTo
      ((life.state (n+k)).history.log t) := by
    intro k
    induction k with
    | zero => exact .refl _
    | succ k ih => exact ih.trans (life.state_grows (n+k))
  have hlast : life.final = life.state (n+life.during.length) := by
    simp only [final,state,List.take_of_length_le (Nat.le_refl _),
      List.take_of_length_le (Nat.le_add_left life.during.length n)]
  rw [hlast]
  exact hrun _

theorem ordered : Ordered (·.lifecycleRevision) (·.status) life.events :=
  ⟨((life.sound _).lawful t).revisions,((life.sound _).lawful t).advances⟩

/-- A committed record shows the status that the event log gives for its revision. -/
theorem statusAt_record {n : Nat} {r : TaskRecord} (hr : (life.state n).tasks.get t = some r) :
    life.statusAt r.lifecycleRevision = some r.status ∧ 1 ≤ r.lifecycleRevision := by
  have hhead : ((life.state n).history.log t).head = some r.lifecycle := history_head hr
  have hlawful := (life.sound n).lawful t
  obtain ⟨_,new,_,_,hevents,hnew⟩ := life.grows_final n _ hhead
  have hlog : life.events = (life.state n).eventsOf t++new := hevents
  refine ⟨?_,(hlawful.started _ hhead).1⟩
  have hlater : Library.valueAt (·.lifecycleRevision) (·.status) ((life.state n).eventsOf t++new)
      r.lifecycleRevision =
      Library.valueAt (·.lifecycleRevision) (·.status) ((life.state n).eventsOf t)
        r.lifecycleRevision := Library.valueAt_append hnew
  rw [statusAt,hlog,hlater]
  exact (valueAt_last fun e he _ => hlawful.bounded _ hhead e he).trans (hlawful.last _ hhead)

/-- The last status that the log gives is that of the final record. -/
theorem last_status {r : TaskRecord} (hr : life.final.tasks.get t = some r) :
    (life.events.filterMap (·.status)).getLast? = some r.status :=
  ((life.sound _).lawful t).last _ (history_head hr)

end TaskLife
end VermayAgent
