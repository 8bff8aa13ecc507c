import VermayAgent.AgentTxns
import VermayAgent.Library.Log

/-! The event log of a task agrees with its record.
One change of the history keeps the agreement of every log; a committed state is reached by
such changes and by the deletion of whole contexts. -/
namespace VermayAgent
open Library Txn MainAgentStore

/-- The statuses that the events of a task carry, in the order of the events. -/
def statusesOf (events : List TaskEventRecord) : List TaskStatus := events.filterMap (·.status)

/-- A log that agrees with the head of its task. -/
structure TaskLog.Lawful (log : TaskLog) (artifacts : ArtifactId → Option ContextId)
    (nextEventId : Nat) : Prop where
  ids : log.events.Pairwise fun e f => e.eventId < f.eventId
  below : ∀ e ∈ log.events, e.eventId < nextEventId
  unopened : log.head = none → log.events = []
  revisions : log.events.Pairwise fun e f => e.lifecycleRevision ≤ f.lifecycleRevision
  advances : log.events.Pairwise fun e f =>
    f.status.isSome = true → e.lifecycleRevision < f.lifecycleRevision
  bounded : ∀ head, log.head = some head →
    ∀ e ∈ log.events, e.lifecycleRevision ≤ head.revision
  last : ∀ head, log.head = some head → (statusesOf log.events).getLast? = some head.status
  path : ∀ head, log.head = some head →
    (statusesOf log.events).IsChain (StatusEdge head.assignedAgentId)
  first : ∀ head, log.head = some head → ∃ e, log.events.head? = some e ∧
    e.type = creationEventType head.assignedAgentId ∧ e.status.isSome = true ∧
    (head.assignedAgentId = none → e.status = some .created)
  noted : ∀ head, log.head = some head → ∀ e ∈ log.events, e.status = none →
    Noted artifacts head.contextId e.type e.payload
  typed : ∀ e ∈ log.events, e.status.isSome = true → e.type ∉ artifactEventTypes
  started : ∀ head, log.head = some head → 1 ≤ head.revision ∧
    ∀ e ∈ log.events, 1 ≤ e.lifecycleRevision

namespace TaskLog.Lawful

variable {log : TaskLog} {artifacts artifacts' : ArtifactId → Option ContextId} {next next' : Nat}
  {head : LifecycleHead}

/-- The log of a task that there is not. -/
theorem absent : TaskLog.Lawful ⟨none,[]⟩ artifacts next := by
  constructor <;> simp

/-- Later artifacts and event numbers do not matter. -/
theorem mono (h : log.Lawful artifacts next) (hnext : next ≤ next')
    (hartifacts : ∀ head a, log.head = some head → artifacts a = some head.contextId →
      artifacts' a = some head.contextId) :
    log.Lawful artifacts' next' where
  ids := h.ids
  below e he := Nat.lt_of_lt_of_le (h.below e he) hnext
  unopened := h.unopened
  revisions := h.revisions
  advances := h.advances
  bounded := h.bounded
  last := h.last
  path := h.path
  first := h.first
  noted head hhead e he hstatus := by
    rcases h.noted head hhead e he hstatus with haudit | ⟨htype,a,ha,hpayload,hlive⟩
    · exact .inl haudit
    · exact .inr ⟨htype,a,ha,hpayload,hartifacts head a hhead hlive⟩
  typed := h.typed
  started := h.started

/-- A revision that grows without an event. -/
theorem bump (h : log.Lawful artifacts next) (hhead : log.head = some head) :
    TaskLog.Lawful ⟨some {head with revision := head.revision+1},log.events⟩ artifacts next where
  ids := h.ids
  below := h.below
  unopened hnone := nomatch hnone
  revisions := h.revisions
  advances := h.advances
  bounded := by
    rintro _ ⟨⟩ e he
    exact Nat.le_succ_of_le (h.bounded head hhead e he)
  last := by
    rintro _ ⟨⟩
    exact h.last head hhead
  path := by
    rintro _ ⟨⟩
    exact h.path head hhead
  first := by
    rintro _ ⟨⟩
    exact h.first head hhead
  noted := by
    rintro _ ⟨⟩
    exact h.noted head hhead
  typed := h.typed
  started := by
    rintro _ ⟨⟩
    obtain ⟨hone,hevents⟩ := h.started head hhead
    exact ⟨Nat.le_succ_of_le hone,hevents⟩

/-- An event without a status, stamped with the current revision. -/
theorem note (h : log.Lawful artifacts next) (hhead : log.head = some head) {e : TaskEventRecord}
    (hid : e.eventId = next) (hstatus : e.status = none) (hrevision : e.lifecycleRevision = head.revision)
    (hnoted : Noted artifacts head.contextId e.type e.payload) :
    TaskLog.Lawful ⟨some head,log.events++[e]⟩ artifacts (next+1) := by
  have hstatuses : statusesOf (log.events++[e]) = statusesOf log.events := by
    simp [statusesOf,hstatus]
  constructor
  · exact pairwise_snoc h.ids fun x hx => hid ▸ h.below x hx
  · intro x hx
    rcases List.mem_append.mp hx with hx | hx
    · exact Nat.lt_succ_of_lt (h.below x hx)
    · rw [List.mem_singleton.mp hx,hid]
      exact Nat.lt_succ_self _
  · exact fun hnone => nomatch hnone
  · exact pairwise_snoc h.revisions fun x hx => hrevision ▸ h.bounded head hhead x hx
  · refine pairwise_snoc h.advances fun x _ hsome => ?_
    rw [hstatus] at hsome
    cases hsome
  · rintro _ ⟨⟩ x hx
    rcases List.mem_append.mp hx with hx | hx
    · exact h.bounded head hhead x hx
    · rw [List.mem_singleton.mp hx,hrevision]
  · rintro _ ⟨⟩
    rw [hstatuses]
    exact h.last head hhead
  · rintro _ ⟨⟩
    rw [hstatuses]
    exact h.path head hhead
  · rintro _ ⟨⟩
    obtain ⟨f,hf,hfirst⟩ := h.first head hhead
    refine ⟨f,?_,hfirst⟩
    rw [List.head?_append,hf]
    rfl
  · rintro _ ⟨⟩ x hx hnone
    rcases List.mem_append.mp hx with hx | hx
    · exact h.noted head hhead x hx hnone
    · rw [List.mem_singleton.mp hx]
      exact hnoted
  · intro x hx hsome
    rcases List.mem_append.mp hx with hx | hx
    · exact h.typed x hx hsome
    · rw [List.mem_singleton.mp hx,hstatus] at hsome
      cases hsome
  · rintro _ ⟨⟩
    obtain ⟨hone,hevents⟩ := h.started head hhead
    refine ⟨hone,fun x hx => ?_⟩
    rcases List.mem_append.mp hx with hx | hx
    · exact hevents x hx
    · rw [List.mem_singleton.mp hx,hrevision]
      exact hone

/-- A status change with its event, stamped with the new revision. -/
theorem move (h : log.Lawful artifacts next) (hhead : log.head = some head) {e : TaskEventRecord}
    {target : TaskStatus} (hid : e.eventId = next) (hstatus : e.status = some target)
    (hrevision : e.lifecycleRevision = head.revision+1) (hmove : AdvancesTo head target)
    (htype : e.type ∉ artifactEventTypes) :
    TaskLog.Lawful ⟨some {head with status := target, revision := head.revision+1},
      log.events++[e]⟩ artifacts (next+1) := by
  have hstatuses : statusesOf (log.events++[e]) = statusesOf log.events++[target] := by
    simp [statusesOf,hstatus]
  have hlater : ∀ x ∈ log.events, x.lifecycleRevision < e.lifecycleRevision := by
    intro x hx
    rw [hrevision]
    exact Nat.lt_succ_of_le (h.bounded head hhead x hx)
  constructor
  · exact pairwise_snoc h.ids fun x hx => hid ▸ h.below x hx
  · intro x hx
    rcases List.mem_append.mp hx with hx | hx
    · exact Nat.lt_succ_of_lt (h.below x hx)
    · rw [List.mem_singleton.mp hx,hid]
      exact Nat.lt_succ_self _
  · exact fun hnone => nomatch hnone
  · exact pairwise_snoc h.revisions fun x hx => Nat.le_of_lt (hlater x hx)
  · exact pairwise_snoc h.advances fun x hx _ => hlater x hx
  · rintro _ ⟨⟩ x hx
    rcases List.mem_append.mp hx with hx | hx
    · exact Nat.le_succ_of_le (h.bounded head hhead x hx)
    · rw [List.mem_singleton.mp hx,hrevision]
  · rintro _ ⟨⟩
    simp [hstatuses]
  · rintro _ ⟨⟩
    rw [hstatuses]
    refine isChain_snoc (h.path head hhead) fun current hcurrent => ?_
    rw [h.last head hhead] at hcurrent
    cases hcurrent
    exact hmove
  · rintro _ ⟨⟩
    obtain ⟨f,hf,hfirst⟩ := h.first head hhead
    refine ⟨f,?_,hfirst⟩
    rw [List.head?_append,hf]
    rfl
  · rintro _ ⟨⟩ x hx hnone
    rcases List.mem_append.mp hx with hx | hx
    · exact h.noted head hhead x hx hnone
    · rw [List.mem_singleton.mp hx,hstatus] at hnone
      cases hnone
  · intro x hx hsome
    rcases List.mem_append.mp hx with hx | hx
    · exact h.typed x hx hsome
    · rw [List.mem_singleton.mp hx]
      exact htype
  · rintro _ ⟨⟩
    obtain ⟨_,hevents⟩ := h.started head hhead
    refine ⟨Nat.le_add_left _ _,fun x hx => ?_⟩
    rcases List.mem_append.mp hx with hx | hx
    · exact hevents x hx
    · rw [List.mem_singleton.mp hx,hrevision]
      exact Nat.le_add_left _ _

/-- The log of a task that has just been created. -/
theorem opened {e : TaskEventRecord} (hid : e.eventId = next) (hstatus : e.status = some head.status)
    (htype : e.type = creationEventType head.assignedAgentId)
    (hlocal : head.assignedAgentId = none → head.status = .created)
    (hrevision : e.lifecycleRevision = head.revision) (hone : head.revision = 1) :
    TaskLog.Lawful ⟨some head,[e]⟩ artifacts (next+1) := by
  have hstatuses : statusesOf [e] = [head.status] := by simp [statusesOf,hstatus]
  constructor
  · exact List.pairwise_singleton _ _
  · intro x hx
    rw [List.mem_singleton.mp hx,hid]
    exact Nat.lt_succ_self _
  · exact fun hnone => nomatch hnone
  · exact List.pairwise_singleton _ _
  · exact List.pairwise_singleton _ _
  · rintro _ ⟨⟩ x hx
    rw [List.mem_singleton.mp hx,hrevision]
  · rintro _ ⟨⟩
    rw [hstatuses]
    rfl
  · rintro _ ⟨⟩
    rw [hstatuses]
    exact .singleton _
  · rintro _ ⟨⟩
    refine ⟨e,rfl,htype,by rw [hstatus]; rfl,fun hagent => ?_⟩
    rw [hstatus,hlocal hagent]
  · rintro _ ⟨⟩ x hx hnone
    rw [List.mem_singleton.mp hx,hstatus] at hnone
    cases hnone
  · intro x hx _
    rw [List.mem_singleton.mp hx,htype]
    unfold creationEventType
    split <;> decide
  · rintro _ ⟨⟩
    refine ⟨Nat.le_of_eq hone.symm,fun x hx => ?_⟩
    rw [List.mem_singleton.mp hx,hrevision,hone]

end TaskLog.Lawful

/-- The logs of all tasks agree with their heads. -/
def History.Lawful (h : History) : Prop := ∀ t, (h.log t).Lawful h.artifacts h.nextEventId

section Steps

variable {allow : TaskId → LifecycleHead → TaskStatus → Prop} {h h' : History}

theorem HistoryStep.lawful (hl : h.Lawful) (hs : HistoryStep allow h h') : h'.Lawful := by
  intro t
  -- the other logs only see a later event number
  have hother : (h.log t).Lawful h.artifacts (h.nextEventId+1) :=
    (hl t).mono (Nat.le_succ _) fun _ _ _ hlive => hlive
  cases hs with
  | @opened t' status c agent payload hnone hlocal =>
    by_cases ht : t = t'
    · subst ht
      simp only [History.note_log_self,History.setHead_log_self,(hl t).unopened hnone,
        List.nil_append,History.note_artifacts,History.setHead_artifacts,History.note_nextEventId,
        History.setHead_nextEventId]
      exact .opened rfl rfl rfl hlocal rfl rfl
    · rw [History.note_log_of_ne ht,History.setHead_log_of_ne ht]
      exact hother
  | @moved t' head target type payload hhead hmove hallow htype =>
    by_cases ht : t = t'
    · subst ht
      simp only [History.note_log_self,History.setHead_log_self,History.note_artifacts,
        History.setHead_artifacts,History.note_nextEventId,History.setHead_nextEventId]
      exact (hl t).move hhead rfl rfl rfl hmove htype
    · rw [History.note_log_of_ne ht,History.setHead_log_of_ne ht]
      exact hother
  | @bumped t' head hhead =>
    by_cases ht : t = t'
    · subst ht
      rw [History.setHead_log_self]
      exact (hl t).bump hhead
    · rw [History.setHead_log_of_ne ht]
      exact hl t
  | @noted t' head type payload hhead hnoted =>
    by_cases ht : t = t'
    · subst ht
      rw [History.note_log_self,hhead]
      exact (hl t).note hhead rfl rfl rfl hnoted
    · rw [History.note_log_of_ne ht]
      exact hother
  | @stored a c ha =>
    refine (hl t).mono (Nat.le_refl _) fun head a' _ hlive => ?_
    by_cases haa : a' = a
    · subst haa
      rw [History.store_artifacts_self,ha _ hlive]
    · simpa [History.store,haa] using hlive
  | invoked hhead => exact hl t

theorem HistoryMoves.lawful (hl : h.Lawful) (hm : HistoryMoves allow h h') : h'.Lawful := by
  induction hm with
  | refl => exact hl
  | tail _ hs ih => exact hs.lawful ih

theorem HistoryStep.owned (ho : h.Owned) (hs : HistoryStep allow h h') : h'.Owned := by
  have hm : HistoryMoves allow h h' := .single hs
  have hold : ∀ id t c, h.invocations id = some (t,c) → h'.contextOf t = some c :=
    fun id t c hid => hm.contextOf (ho id t c hid)
  cases hs with
  | opened hnone hlocal => exact hold
  | moved hhead hmove hallow _ => exact hold
  | bumped hhead => exact hold
  | noted hhead hnoted => exact hold
  | stored ha => exact hold
  | @invoked id t head hhead =>
    intro id' t' c hid
    by_cases hidid : id' = id
    · subst hidid
      simp only [History.invoke,Function.update_self,Option.some.injEq,Prod.mk.injEq] at hid
      obtain ⟨rfl,rfl⟩ := hid
      simp [History.contextOf,hhead]
    · refine hold id' t' c ?_
      simpa [History.invoke,hidid] using hid

theorem HistoryMoves.owned (ho : h.Owned) (hm : HistoryMoves allow h h') : h'.Owned := by
  induction hm with
  | refl => exact ho
  | tail _ hs ih => exact hs.owned ih

/-- A step appends to the logs, and numbers what it appends from the next number on. -/
theorem HistoryStep.appends (hs : HistoryStep allow h h') (t : TaskId) :
    h.nextEventId ≤ h'.nextEventId ∧ ∃ new, (h'.log t).events = (h.log t).events++new ∧
      ∀ e ∈ new, h.nextEventId ≤ e.eventId := by
  have hset : ∀ t' head, ((h.setHead t' head).log t).events = (h.log t).events := by
    intro t' head
    by_cases ht : t = t'
    · subst ht
      simp
    · rw [History.setHead_log_of_ne ht]
  have hnote : ∀ (g : History) t' type status revision payload, g.nextEventId = h.nextEventId →
      (g.log t).events = (h.log t).events →
      ∃ new, ((g.note t' type status revision payload).log t).events = (h.log t).events++new ∧
        ∀ e ∈ new, h.nextEventId ≤ e.eventId := by
    intro g t' type status revision payload hnext hevents
    by_cases ht : t = t'
    · subst ht
      refine ⟨_,by rw [History.note_log_self,hevents],fun e he => ?_⟩
      rw [List.mem_singleton.mp he]
      exact Nat.le_of_eq hnext.symm
    · exact ⟨[],by rw [History.note_log_of_ne ht,hevents,List.append_nil],by simp⟩
  have hnothing : ∀ g : TaskLog, g.events = (h.log t).events →
      ∃ new, g.events = (h.log t).events++new ∧ ∀ e ∈ new, h.nextEventId ≤ e.eventId :=
    fun g hg => ⟨[],by rw [hg,List.append_nil],by simp⟩
  cases hs with
  | opened hnone hlocal => exact ⟨Nat.le_succ _,hnote _ _ _ _ _ _ rfl (hset _ _)⟩
  | moved hhead hmove hallow _ => exact ⟨Nat.le_succ _,hnote _ _ _ _ _ _ rfl (hset _ _)⟩
  | bumped hhead => exact ⟨Nat.le_refl _,hnothing _ (hset _ _)⟩
  | noted hhead hnoted => exact ⟨Nat.le_succ _,hnote _ _ _ _ _ _ rfl rfl⟩
  | stored ha => exact ⟨Nat.le_refl _,hnothing _ rfl⟩
  | invoked hhead => exact ⟨Nat.le_refl _,hnothing _ rfl⟩

theorem HistoryMoves.appends (hm : HistoryMoves allow h h') (t : TaskId) :
    h.nextEventId ≤ h'.nextEventId ∧ ∃ new, (h'.log t).events = (h.log t).events++new ∧
      ∀ e ∈ new, h.nextEventId ≤ e.eventId := by
  induction hm with
  | refl => exact ⟨Nat.le_refl _,[],by simp,by simp⟩
  | tail _ hs ih =>
    obtain ⟨hle,new,hnew,hlater⟩ := ih
    obtain ⟨hle',new',hnew',hlater'⟩ := hs.appends t
    refine ⟨hle.trans hle',new++new',by rw [hnew',hnew,List.append_assoc],fun e he => ?_⟩
    rcases List.mem_append.mp he with he | he
    · exact hlater e he
    · exact hle.trans (hlater' e he)

/-- A task that there was not is noted in its log. -/
theorem HistoryStep.logged (hs : HistoryStep allow h h') {t : TaskId}
    (hlog : (h.log t).head = none ∨ (h.log t).events ≠ []) :
    (h'.log t).head = none ∨ (h'.log t).events ≠ [] := by
  rcases hlog with hnone | hevents
  · have hother : ∀ {t' head next}, (h.log t').head = some head →
        ((h.setHead t' next).log t).head = none := by
      intro t' head next hhead
      have hne : t ≠ t' := by
        rintro rfl
        rw [hnone] at hhead
        cases hhead
      rw [History.setHead_log_of_ne hne,hnone]
    cases hs with
    | @opened t' status c agent payload =>
      by_cases ht : t = t'
      · subst ht
        exact .inr (by simp)
      · exact .inl (by rw [History.note_head,History.setHead_log_of_ne ht,hnone])
    | moved hhead => exact .inl (by rw [History.note_head,hother hhead])
    | bumped hhead => exact .inl (hother hhead)
    | noted => exact .inl (by rw [History.note_head,hnone])
    | stored | invoked => exact .inl hnone
  · obtain ⟨_,new,hnew,_⟩ := hs.appends t
    exact .inr (by simp [hnew,hevents])

theorem HistoryMoves.logged (hm : HistoryMoves allow h h') {t : TaskId}
    (hnone : (h.log t).head = none) : (h'.log t).head = none ∨ (h'.log t).events ≠ [] :=
  reflTransGen_invariant (I := fun h => (h.log t).head = none ∨ (h.log t).events ≠ [])
    (fun _ _ hs h => hs.logged h) hm (.inl hnone)

/-- A log that is left names no artifact of the deleted context. -/
theorem Forgotten.lawful {c : ContextId} (hl : h.Lawful) (hf : Forgotten c h h') : h'.Lawful := by
  intro t
  have hnext : h.nextEventId ≤ h'.nextEventId := Nat.le_of_eq hf.nextEventId.symm
  rw [hf.log]
  split
  · exact .absent
  · rename_i hcontext
    refine (hl t).mono hnext fun head a hhead hlive => ?_
    have hne : head.contextId ≠ c := by
      intro heq
      exact hcontext (by simp [History.contextOf,hhead,heq])
    rw [hf.artifacts,hlive]
    simp [Option.filter,hne]

theorem Forgotten.owned {c : ContextId} (ho : h.Owned) (hf : Forgotten c h h') : h'.Owned := by
  intro id t c' hid
  obtain ⟨hold,hne⟩ := hf.invocations id t c' hid
  rw [History.contextOf,hf.log,if_neg hne]
  exact ho id t c' hold

end Steps

/-- What holds in every committed state of a store. -/
structure AgentDb.Sound (db : AgentDb) : Prop where
  coupled : Coupled db.rows
  owned : db.history.Owned
  lawful : db.history.Lawful

theorem AgentDb.sound_empty : AgentDb.empty.Sound := by
  refine ⟨coupled_empty,?_,fun t => .absent⟩
  intro id t c hid
  cases hid

namespace AgentTxn

variable (core : CoreEnv) (env : LedgerEnv) {db : AgentDb}

theorem sound_commit (a : AgentTxn) (h : db.Sound) : (a.commit core env db).Sound := by
  have hc := commit_coupled core env a h.coupled
  rcases commit_history core env a h.coupled h.owned with hm | ⟨c,hf⟩
  · exact ⟨hc,hm.owned h.owned,hm.lawful h.lawful⟩
  · exact ⟨hc,hf.owned h.owned,hf.lawful h.lawful⟩

theorem sound_history (as : List AgentTxn) (h : db.Sound) : (history core env as db).Sound := by
  induction as generalizing db with
  | nil => exact h
  | cons a as ih => exact ih (sound_commit core env a h)

end AgentTxn

section Main

variable (core : CoreEnv) (env : LedgerEnv)

/-- In every committed state the events of a task, read by their ids, agree with its record:
their revisions never decrease nor exceed that of the record, each event with a status has a
later revision than those before it, the last status is that of the record, and the statuses are
a path of the transitions of the task from the status that it was created with. -/
theorem event_log_agrees (as : List AgentTxn) {db : AgentDb} {task : TaskRecord} {t : TaskId}
    (hdb : db = AgentTxn.history core env as AgentDb.empty) (ht : db.tasks.get t = some task) :
    (db.eventsOf t).Pairwise (fun e f => e.eventId < f.eventId) ∧
      (db.eventsOf t).Pairwise (fun e f => e.lifecycleRevision ≤ f.lifecycleRevision) ∧
      (∀ e ∈ db.eventsOf t, e.lifecycleRevision ≤ task.lifecycleRevision) ∧
      (db.eventsOf t).Pairwise (fun e f =>
        f.status.isSome = true → e.lifecycleRevision < f.lifecycleRevision) ∧
      (statusesOf (db.eventsOf t)).getLast? = some task.status ∧
      (∃ e, (db.eventsOf t).head? = some e ∧ e.type = creationEventType task.assignedAgentId ∧
        e.status.isSome = true) ∧
      (task.assignedAgentId = none → (statusesOf (db.eventsOf t)).head? = some .created ∧
        (statusesOf (db.eventsOf t)).IsChain fun a b => b ∈ localTaskTransitions a) ∧
      (task.assignedAgentId ≠ none →
        (statusesOf (db.eventsOf t)).IsChain fun a b => b ∈ remoteProxySnapshotTransitions a) := by
  have hsound : db.Sound := hdb ▸ AgentTxn.sound_history core env as AgentDb.sound_empty
  have hl := hsound.lawful t
  have hhead : (db.history.log t).head = some task.lifecycle := history_head ht
  obtain ⟨e,he,htype,hsome,hcreated⟩ := hl.first _ hhead
  have hpath : (statusesOf (db.eventsOf t)).IsChain (StatusEdge task.assignedAgentId) :=
    hl.path _ hhead
  refine ⟨hl.ids,hl.revisions,hl.bounded _ hhead,hl.advances,hl.last _ hhead,⟨e,he,htype,hsome⟩,
    fun hlocal => ⟨?_,?_⟩,fun hremote => ?_⟩
  · have hstatus : e.status = some .created := hcreated hlocal
    obtain ⟨rest,hevents⟩ : ∃ rest, db.eventsOf t = e::rest := List.head?_eq_some_iff.mp he
    simp [hevents,statusesOf,hstatus]
  · exact hpath.imp fun a b hab => by simpa [StatusEdge,hlocal] using hab
  · exact hpath.imp fun a b hab => by simpa [StatusEdge,hremote] using hab

end Main
theorem event_log_agrees_sample :
    (statusesOf ((AgentTxn.history sampleCore sampleEnv (sampleAdmission.map .core)
      AgentDb.empty).eventsOf "task")).getLast? = some .queued := by
  have htask : (AgentTxn.history sampleCore sampleEnv (sampleAdmission.map .core)
      AgentDb.empty).tasks.get sampleTask.taskId = some sampleTask := by decide +kernel
  exact (event_log_agrees sampleCore sampleEnv (sampleAdmission.map .core) rfl htask).2.2.2.2.1

end VermayAgent
