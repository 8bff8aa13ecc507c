import VermayAgent.EventNotifications
import VermayAgent.Library.Parties

/-! No notification of a committed event is lost.
A waiter reads the version before it lists the events, and a version counts the notifications that
were delivered: what was delivered before is in the list, what comes later moves the version. -/
namespace VermayAgent
open Library
namespace EventWaits
open MainAgentStore AgentStore

variable {ι κ : Type} [DecidableEq ι] [DecidableEq κ] {call : ι → WaitCall}
  {s s' : EventWaits ι κ} {i : ι} {w : κ}

section Steps

/-- What a step of a waiter can do: to which phase it goes. -/
inductive WaiterMoves (call : WaitCall) (s : EventWaits ι κ) (i : ι) (timedOut : Bool) :
    WaiterPhase → Prop where
  | missing (hi : s.waiters i = .called) : WaiterMoves call s i timedOut .failed
  | found (hi : s.waiters i = .called) : WaiterMoves call s i timedOut .known
  | first (hi : s.waiters i = .known) (hfree : s.owner = none)
      (hsome : s.list call ≠ [] ∨ timedOut = true) :
      WaiterMoves call s i timedOut (.returned (s.list call))
  | empty (hi : s.waiters i = .known) (hfree : s.owner = none) (hnone : s.list call = []) :
      WaiterMoves call s i timedOut .unobserved
  | observed (hi : s.waiters i = .unobserved) :
      WaiterMoves call s i timedOut (.looking (s.versions call.taskId))
  | listed {version : ℕ} (hi : s.waiters i = .looking version) (hfree : s.owner = none)
      (hsome : s.list call ≠ []) : WaiterMoves call s i timedOut (.returned (s.list call))
  | expired {version : ℕ} (hi : s.waiters i = .looking version) (hfree : s.owner = none)
      (hnone : s.list call = []) (hout : timedOut = true) :
      WaiterMoves call s i timedOut (.returned [])
  | nothing {version : ℕ} (hi : s.waiters i = .looking version) (hfree : s.owner = none)
      (hnone : s.list call = []) : WaiterMoves call s i timedOut (.waiting version)
  | parks {version : ℕ} (hi : s.waiters i = .waiting version)
      (hle : s.versions call.taskId ≤ version) : WaiterMoves call s i timedOut (.parked version)
  | passes {version : ℕ} (hi : s.waiters i = .waiting version)
      (hlt : version < s.versions call.taskId) :
      WaiterMoves call s i timedOut (.looking (s.versions call.taskId))
  | wakes {version : ℕ} (hi : s.waiters i = .parked version) (hout : timedOut = true) :
      WaiterMoves call s i timedOut .woken
  | returns (hi : s.waiters i = .woken) :
      WaiterMoves call s i timedOut (.looking (s.versions call.taskId))

omit [DecidableEq κ] in
theorem waiterMoves_of_step {call : WaitCall} {timedOut : Bool}
    (h : s.waiterStep call i timedOut = some s') :
    ∃ p, WaiterMoves call s i timedOut p ∧ s' = s.goto i p := by
  unfold waiterStep at h
  cases hi : s.waiters i with
  | called =>
    simp only [hi] at h
    split at h
    · cases h
    · split at h
      · cases h
        exact ⟨.failed,.missing hi,rfl⟩
      · cases h
        exact ⟨.known,.found hi,rfl⟩
  | known =>
    simp only [hi] at h
    split at h
    · cases h
    · next hfree =>
      have hfree : s.owner = none := by simpa using hfree
      split at h
      · next hsome =>
        cases h
        exact ⟨_,.first hi hfree hsome,rfl⟩
      · next hnone =>
        cases h
        exact ⟨_,.empty hi hfree (by simpa using (not_or.mp hnone).1),rfl⟩
  | unobserved =>
    simp only [hi,Option.some.injEq] at h
    exact ⟨_,.observed hi,h.symm⟩
  | looking version =>
    simp only [hi] at h
    split at h
    · cases h
    · next hfree =>
      have hfree : s.owner = none := by simpa using hfree
      split at h
      · next hsome =>
        cases h
        exact ⟨_,.listed hi hfree hsome,rfl⟩
      · next hnone =>
        have hnone : s.list call = [] := by simpa using hnone
        split at h
        · next hout =>
          cases h
          exact ⟨_,.expired hi hfree hnone hout,rfl⟩
        · cases h
          exact ⟨_,.nothing hi hfree hnone,rfl⟩
  | waiting version =>
    simp only [hi] at h
    split at h
    · next hle =>
      cases h
      exact ⟨_,.parks hi hle,rfl⟩
    · next hlt =>
      cases h
      exact ⟨_,.passes hi (Nat.lt_of_not_le hlt),rfl⟩
  | parked version =>
    simp only [hi] at h
    split at h
    · next hout =>
      cases h
      exact ⟨_,.wakes hi hout,rfl⟩
    · cases h
  | woken =>
    simp only [hi,Option.some.injEq] at h
    exact ⟨_,.returns hi,h.symm⟩
  | returned | failed => simp [hi] at h

/-- What a step of a writer can do. -/
inductive WriterMoves (s : EventWaits ι κ) (w : κ) : EventWaits ι κ → Prop where
  | entered (hi : s.writers w = .running) (hfree : s.owner = none ∨ s.owner = some w) :
      WriterMoves s w {s with store := s.store.enter,owner := some w}
  | wrote {f : AgentDb → AgentDb} {p : WriterPhase} (hi : s.writers w = .running)
      (howner : s.owner = some w) (hf : EventWrite s.store.conn.database (f s.store.conn.database))
      (hp : p = .running ∨ ∃ e, p = .appended e ∧
        e.eventId < (f s.store.conn.database).nextEventId) :
      WriterMoves s w ({s with store := s.store.note (.wrote f)}.become w p)
  | unfinished {f : AgentDb → AgentDb} (hi : s.writers w = .running) (hfree : s.owner = none)
      (hf : EventWrite s.store.conn.database (f s.store.conn.database))
      (hgrow : ∀ e ∈ s.store.conn.database.taskEvents,
        e ∈ (f s.store.conn.database).taskEvents) :
      WriterMoves s w ({s with store := s.store.note (.wrote f)}.become w .running)
  | single {f : AgentDb → AgentDb} {p : WriterPhase} (hi : s.writers w = .running)
      (hfree : s.owner = none) (hf : EventWrite s.store.conn.database (f s.store.conn.database))
      (hp : p = .running ∨ ∃ e, p = .appended e ∧
        e.eventId < (f s.store.conn.database).nextEventId) :
      WriterMoves s w ({s with store := (s.store.note (.wrote f)).note .committed}.become w p)
  | registered {event : TaskEventRecord} (hi : s.writers w = .appended event)
      (howner : s.owner = some w) :
      WriterMoves s w ({s with store := {s.store with
        afterCommitCallbacks := s.store.afterCommitCallbacks ++
          [(event,Program.perform event)]}}.become w .running)
  | immediate {event : TaskEventRecord} (hi : s.writers w = .appended event)
      (hfree : s.owner = none) : WriterMoves s w (s.become w (.notifying [event]))
  | stopped (hi : s.writers w ≠ .running) : WriterMoves s w (s.become w .running)
  | left (hi : s.writers w = .running) (howner : s.owner = some w) :
      WriterMoves s w {s with store := s.store.leave false}
  | closed (exit : ScopeExit) (hi : s.writers w = .running) (howner : s.owner = some w) :
      WriterMoves s w (s.close w exit)
  | notified {event : TaskEventRecord} {events : List TaskEventRecord}
      (hi : s.writers w = .notifying (event::events)) :
      WriterMoves s w ((s.notify event).become w (.notifying events))

omit [DecidableEq ι] in
theorem writerMoves_of_statement {f : AgentDb → AgentDb} {commitFails : Bool} {p : WriterPhase}
    (h : s.statement w f commitFails p = some s') (hi : s.writers w = .running)
    (hf : EventWrite s.store.conn.database (f s.store.conn.database))
    (hgrow : s.owner = none → ∀ e ∈ s.store.conn.database.taskEvents,
      e ∈ (f s.store.conn.database).taskEvents)
    (hp : p = .running ∨ ∃ e, p = .appended e ∧
      e.eventId < (f s.store.conn.database).nextEventId) : WriterMoves s w s' := by
  unfold statement at h
  split at h
  · next howner =>
    cases h
    exact .wrote hi howner hf hp
  · split at h
    · cases h
    · next hfree =>
      have hfree : s.owner = none := by simpa using hfree
      split at h
      · cases h
        exact .unfinished hi hfree hf (hgrow hfree)
      · cases h
        exact .single hi hfree hf hp

theorem written_insertTaskEvent (db : AgentDb) (taskId : TaskId) (type : String)
    (status : Option TaskStatus) (lifecycleRevision : ℕ) (payload : Json) :
    written (insertTaskEvent taskId type status lifecycleRevision payload).run db =
      {db with
        taskEvents := db.taskEvents ++
          [insertedEvent db taskId type status lifecycleRevision payload]
        nextEventId := db.nextEventId+1} := by
  refine written_ok (a := insertedEvent db taskId type status lifecycleRevision payload) ?_
  rfl

omit [DecidableEq ι] in
theorem writerMoves_of_step {action : WriterAction} (h : s.writerStep w action = some s') :
    WriterMoves s w s' := by
  unfold writerStep at h
  cases hi : s.writers w with
  | running =>
    cases action with
    | enter =>
      simp only [hi] at h
      split at h
      · next hfree =>
        cases h
        exact .entered hi hfree
      · cases h
    | append taskId type status lifecycleRevision payload commitFails =>
      simp only [hi] at h
      have hrows := written_insertTaskEvent s.store.conn.database taskId type status
        lifecycleRevision payload
      refine writerMoves_of_statement h hi (.inserted _ rfl (by rw [hrows]) (by rw [hrows])) ?_
        (.inr ⟨_,rfl,?_⟩)
      · intro _ e he
        rw [hrows]
        exact List.mem_append_left _ he
      · rw [hrows]
        exact Nat.lt_succ_self _
    | execute statement commitFails =>
      simp only [hi] at h
      refine writerMoves_of_statement h hi (.kept (statement.taskEvents _)
        (statement.nextEventId _)) ?_ (.inl rfl)
      intro _ e he
      rwa [statement.taskEvents]
    | deleteTaskEvents taskId =>
      simp only [hi] at h
      split at h
      · next howner =>
        refine writerMoves_of_statement h hi (.deleted _ rfl rfl) ?_ (.inl rfl)
        rw [howner]
        simp
      · cases h
    | leave exit =>
      simp only [hi] at h
      split at h
      · cases h
      · next howner =>
        have howner : s.owner = some w := not_not.mp howner
        split at h
        · cases h
          exact .closed exit hi howner
        · cases h
          exact .left hi howner
    | register | abandon | notify | interrupt => simp [hi] at h
  | appended event =>
    have hstop : s.writers w ≠ .running := by simp [hi]
    cases action with
    | register =>
      simp only [hi] at h
      split at h
      · next howner =>
        cases h
        exact .registered hi howner
      · split at h
        · cases h
        · next hfree =>
          cases h
          exact .immediate hi (by simpa using hfree)
    | abandon =>
      simp only [hi,Option.some.injEq] at h
      rw [← h]
      exact .stopped hstop
    | enter | append | execute | deleteTaskEvents | leave | notify | interrupt => simp [hi] at h
  | notifying events =>
    have hstop : s.writers w ≠ .running := by simp [hi]
    cases action with
    | notify =>
      cases events with
      | nil =>
        simp only [hi,Option.some.injEq] at h
        rw [← h]
        exact .stopped hstop
      | cons event events =>
        simp only [hi,Option.some.injEq] at h
        rw [← h]
        exact .notified hi
    | interrupt =>
      have hs : s' = s.become w .running := by
        cases events <;> simpa [hi,eq_comm] using h
      rw [hs]
      exact .stopped hstop
    | enter | append | execute | deleteTaskEvents | leave | register | abandon =>
      cases events <;> simp [hi] at h

end Steps

/-- The notifications of events of one task. -/
def deliveredOf (s : EventWaits ι κ) (taskId : TaskId) : List TaskEventRecord :=
  s.delivered.filter fun e => e.taskId = taskId

/-- What is about to be notified is committed, or about to be committed by the open scope. -/
structure StoreKept (s : EventWaits ι κ) : Prop where
  numbered : ConnNumbered s.store.conn
  free : s.owner = none → ∀ e ∈ s.store.conn.durable.taskEvents,
    e ∈ s.store.conn.database.taskEvents
  callbacks : ∀ callback ∈ s.store.afterCommitCallbacks,
    callback.1.eventId < s.store.conn.database.nextEventId
  appended : ∀ w e, s.writers w = .appended e → e.eventId < s.store.conn.durable.nextEventId ∨
    s.owner = some w ∧ e.eventId < s.store.conn.database.nextEventId
  notifying : ∀ w events, s.writers w = .notifying events → ∀ e ∈ events,
    e.eventId < s.store.conn.durable.nextEventId
  delivered : ∀ e ∈ s.delivered, e.eventId < s.store.conn.durable.nextEventId

/-- A version counts notifications, and those that a waiter has observed are of no use to it. -/
structure WaitersKept (call : ι → WaitCall) (s : EventWaits ι κ) : Prop where
  versions : ∀ taskId, s.versions taskId = (s.deliveredOf taskId).length
  observed : ∀ i v, (s.waiters i).version? = some v → v ≤ s.versions (call i).taskId
  parked : ∀ i v, s.waiters i = .parked v → s.versions (call i).taskId ≤ v
  seen : ∀ i v, s.waiters i = .waiting v ∨ s.waiters i = .parked v →
    ∀ e ∈ (s.deliveredOf (call i).taskId).take v, (call i).afterEventId < e.eventId →
      Gone s.store.conn e

section Writers

omit [DecidableEq ι] in
theorem WriterMoves.connSteps (h : WriterMoves s w s') : ConnSteps s.store.conn s'.store.conn := by
  cases h with
  | entered | registered | immediate | stopped | left | notified => exact .refl
  | wrote hi howner hf | unfinished hi hfree hf => exact .single (.wrote hf)
  | single hi hfree hf => exact (Relation.ReflTransGen.single (.wrote hf)).tail .committed
  | closed exit =>
    cases exit with
    | committed => exact .single .committed
    | raised | commitFailed => exact .single .rolledBack

omit [DecidableEq ι] in
/-- The phases of the other writers and of this one, checked apart. -/
theorem StoreKept.writers (h : StoreKept s) (s' : EventWaits ι κ) {p : WriterPhase}
    (hwriters : s'.writers = Function.update s.writers w p)
    (hnext : s.store.conn.durable.nextEventId ≤ s'.store.conn.durable.nextEventId)
    (hothers : ∀ v, v ≠ w → s.owner = some v → s'.owner = some v ∧
      s.store.conn.database.nextEventId ≤ s'.store.conn.database.nextEventId)
    (happended : ∀ e, p = .appended e → e.eventId < s'.store.conn.durable.nextEventId ∨
      s'.owner = some w ∧ e.eventId < s'.store.conn.database.nextEventId)
    (hnotifying : ∀ events, p = .notifying events → ∀ e ∈ events,
      e.eventId < s'.store.conn.durable.nextEventId) :
    (∀ v e, s'.writers v = .appended e → e.eventId < s'.store.conn.durable.nextEventId ∨
      s'.owner = some v ∧ e.eventId < s'.store.conn.database.nextEventId) ∧
    ∀ v events, s'.writers v = .notifying events → ∀ e ∈ events,
      e.eventId < s'.store.conn.durable.nextEventId := by
  rw [hwriters]
  constructor
  · intro v e hv
    by_cases hvw : v = w
    · subst hvw
      rw [Function.update_self] at hv
      exact happended e hv
    · rw [Function.update_of_ne hvw] at hv
      rcases h.appended v e hv with hlt | ⟨hself,hlt⟩
      · exact .inl (hlt.trans_le hnext)
      · exact .inr ⟨(hothers v hvw hself).1,hlt.trans_le (hothers v hvw hself).2⟩
  · intro v events hv e he
    by_cases hvw : v = w
    · subst hvw
      rw [Function.update_self] at hv
      exact hnotifying events hv e he
    · rw [Function.update_of_ne hvw] at hv
      exact (h.notifying v events hv e he).trans_le hnext

omit [DecidableEq ι] [DecidableEq κ] in
/-- A step in which the store's lock is taken or held by `w`, or in which nobody holds it. -/
theorem others_of_owner {s' : EventWaits ι κ} (howner : s.owner = none ∨ s.owner = some w) :
    ∀ v, v ≠ w → s.owner = some v → s'.owner = some v ∧
      s.store.conn.database.nextEventId ≤ s'.store.conn.database.nextEventId := by
  intro v hv hself
  rcases howner with hnone | hw
  · rw [hself] at hnone
    cases hnone
  · rw [hself,Option.some.injEq] at hw
    exact absurd hw hv

omit [DecidableEq ι] in
theorem StoreKept.moves (h : StoreKept s) (hm : WriterMoves s w s') : StoreKept s' := by
  have hnumbered := h.numbered.steps hm.connSteps
  have hnext := hm.connSteps.next_le h.numbered
  have hsame : ∀ v, v ≠ w → s.owner = some v → s.owner = some v ∧
      s.store.conn.database.nextEventId ≤ s.store.conn.database.nextEventId :=
    fun _ _ hself => ⟨hself,le_rfl⟩
  cases hm with
  | entered hi hfree =>
    have hw := h.writers {s with store := s.store.enter,owner := some w}
      (Function.update_eq_self w s.writers).symm le_rfl (others_of_owner hfree) (by simp [hi])
      (by simp [hi])
    refine ⟨h.numbered,by simp,?_,hw.1,hw.2,h.delivered⟩
    intro callback hcallback
    simp only [enter] at hcallback
    split at hcallback
    · cases hcallback
    · exact h.callbacks callback hcallback
  | @wrote f p hi howner hf hp =>
    have hw := h.writers ({s with store := s.store.note (.wrote f)}.become w p) rfl hnext
      (others_of_owner (.inr howner)) (by
        rintro e rfl
        rcases hp with hp | ⟨e',he',hlt⟩
        · cases hp
        · cases he'
          exact .inr ⟨howner,hlt⟩) (by
        rintro events rfl
        rcases hp with hp | ⟨e',he',_⟩
        · cases hp
        · cases he')
    refine ⟨hnumbered,?_,fun callback hcallback => ?_,hw.1,hw.2,h.delivered⟩
    · intro hnone
      rw [show s.owner = none from hnone] at howner
      cases howner
    · exact (h.callbacks callback hcallback).trans_le hf.next_le
  | @unfinished f hi hfree hf hgrow =>
    have hw := h.writers ({s with store := s.store.note (.wrote f)}.become w .running) rfl
      hnext (others_of_owner (.inl hfree)) (by simp) (by simp)
    refine ⟨hnumbered,fun _ e he => hgrow e (h.free hfree e he),fun callback hcallback => ?_,hw.1,
      hw.2,h.delivered⟩
    exact (h.callbacks callback hcallback).trans_le hf.next_le
  | @single f p hi hfree hf hp =>
    have hw := h.writers
      ({s with store := (s.store.note (.wrote f)).note .committed}.become w p) rfl hnext
      (others_of_owner (.inl hfree)) (by
        rintro e rfl
        rcases hp with hp | ⟨e',he',hlt⟩
        · cases hp
        · cases he'
          exact .inl hlt) (by
        rintro events rfl
        rcases hp with hp | ⟨e',he',_⟩
        · cases hp
        · cases he')
    refine ⟨hnumbered,fun _ e he => he,fun callback hcallback => ?_,hw.1,hw.2,fun e he => ?_⟩
    · exact (h.callbacks callback hcallback).trans_le hf.next_le
    · exact (h.delivered e he).trans_le hnext
  | @registered event hi howner =>
    have hw := h.writers ({s with store := {s.store with
        afterCommitCallbacks := s.store.afterCommitCallbacks ++
          [(event,Program.perform event)]}}.become w .running) rfl le_rfl hsame (by simp) (by simp)
    refine ⟨h.numbered,h.free,fun callback hcallback => ?_,hw.1,hw.2,h.delivered⟩
    simp only [become,List.mem_append,List.mem_singleton] at hcallback
    rcases hcallback with hcallback | rfl
    · exact h.callbacks callback hcallback
    · rcases h.appended w event hi with hlt | ⟨_,hlt⟩
      · exact hlt.trans_le h.numbered.le
      · exact hlt
  | @immediate event hi hfree =>
    have hlt : event.eventId < s.store.conn.durable.nextEventId := by
      rcases h.appended w event hi with hlt | ⟨howner,_⟩
      · exact hlt
      · rw [hfree] at howner
        cases howner
    have hw := h.writers (s.become w (.notifying [event])) rfl le_rfl hsame (by simp)
      (by
        rintro events ⟨⟩ e he
        rw [List.mem_singleton.mp he]
        exact hlt)
    exact ⟨h.numbered,h.free,h.callbacks,hw.1,hw.2,h.delivered⟩
  | stopped hi =>
    have hw := h.writers (s.become w .running) rfl le_rfl hsame (by simp) (by simp)
    exact ⟨h.numbered,h.free,h.callbacks,hw.1,hw.2,h.delivered⟩
  | left hi howner => exact ⟨h.numbered,h.free,h.callbacks,h.appended,h.notifying,h.delivered⟩
  | closed exit hi howner =>
    cases exit with
    | committed =>
      have hw := h.writers (s.close w .committed) rfl hnext (others_of_owner (.inr howner))
        (by simp) (by
          rintro events ⟨⟩ e he
          obtain ⟨callback,hcallback,rfl⟩ := List.mem_map.mp he
          exact h.callbacks callback hcallback)
      refine ⟨hnumbered,fun _ e he => he,?_,hw.1,hw.2,?_⟩
      · simp [close,become,leave]
      · exact fun e he => (h.delivered e he).trans_le hnext
    | raised | commitFailed =>
      have hw := h.writers (s.close w .raised) (Function.update_eq_self w s.writers).symm
        hnext (others_of_owner (.inr howner)) (by simp [hi]) (by simp [hi])
      refine ⟨hnumbered,fun _ e he => he,?_,hw.1,hw.2,h.delivered⟩
      simp [close,leave]
  | @notified event events hi =>
    have hlt := h.notifying w _ hi
    have hw := h.writers ((s.notify event).become w (.notifying events)) rfl le_rfl hsame
      (by simp) (by
        rintro events' ⟨⟩ e he
        exact hlt e (List.mem_cons_of_mem _ he))
    refine ⟨h.numbered,h.free,h.callbacks,hw.1,hw.2,?_⟩
    intro e he
    simp only [become,notify,List.mem_append,List.mem_singleton] at he
    rcases he with he | rfl
    · exact h.delivered e he
    · exact hlt e List.mem_cons_self

end Writers

section Waiters

theorem mem_listTaskEvents {db : AgentDb} {taskId : TaskId} {afterEventId : ℕ}
    {e : TaskEventRecord} : e ∈ listTaskEvents db taskId afterEventId ↔
      e ∈ db.taskEvents ∧ e.taskId = taskId ∧ afterEventId < e.eventId := by
  simp [listTaskEvents]

/-- The numbers ascend strictly, since no two events have one number. -/
theorem listTaskEvents_ascending {db : AgentDb} (h : EventsNumbered db) (taskId : TaskId)
    (afterEventId : ℕ) :
    (listTaskEvents db taskId afterEventId).Pairwise fun e f => e.eventId < f.eventId := by
  have hids := h.ids.sublist
    (List.filter_sublist (p := fun e => e.taskId = taskId ∧ afterEventId < e.eventId))
  have hsame : listTaskEvents db taskId afterEventId =
      db.taskEvents.filter fun e => e.taskId = taskId ∧ afterEventId < e.eventId :=
    List.Pairwise.insertionSort_eq (hids.imp fun hlt => hlt.le)
  rw [hsame]
  exact hids

omit [DecidableEq κ] in
theorem WaitersKept.goto (h : WaitersKept call s) {p : WaiterPhase}
    (hobserved : ∀ v, p.version? = some v → v ≤ s.versions (call i).taskId)
    (hparked : ∀ v, p = .parked v → s.versions (call i).taskId ≤ v)
    (hseen : ∀ v, p = .waiting v ∨ p = .parked v →
      ∀ e ∈ (s.deliveredOf (call i).taskId).take v, (call i).afterEventId < e.eventId →
        Gone s.store.conn e) : WaitersKept call (s.goto i p) := by
  constructor
  · exact h.versions
  · intro j v hj
    by_cases hji : j = i
    · subst hji
      exact hobserved v (by simpa [EventWaits.goto] using hj)
    · exact h.observed j v (by simpa [EventWaits.goto,hji] using hj)
  · intro j v hj
    by_cases hji : j = i
    · subst hji
      exact hparked v (by simpa [EventWaits.goto] using hj)
    · exact h.parked j v (by simpa [EventWaits.goto,hji] using hj)
  · intro j v hj
    by_cases hji : j = i
    · subst hji
      exact hseen v (by simpa [EventWaits.goto] using hj)
    · exact h.seen j v (by simpa [EventWaits.goto,hji] using hj)

omit [DecidableEq ι] [DecidableEq κ] in
/-- An empty list, read while nobody holds the lock: what was notified before is gone. -/
theorem gone_of_list_eq_nil {call : WaitCall} (h : StoreKept s) (hfree : s.owner = none)
    (hnone : s.list call = []) {e : TaskEventRecord} (he : e ∈ s.deliveredOf call.taskId)
    (hafter : call.afterEventId < e.eventId) : Gone s.store.conn e := by
  obtain ⟨hdelivered,htask⟩ := List.mem_filter.mp he
  have hout : e ∉ s.store.conn.database.taskEvents := by
    intro hin
    have hlist := mem_listTaskEvents.mpr ⟨hin,of_decide_eq_true htask,hafter⟩
    rw [show listTaskEvents s.store.conn.database call.taskId call.afterEventId = [] from hnone]
      at hlist
    cases hlist
  exact ⟨h.delivered e hdelivered,fun hin => hout (h.free hfree e hin),hout⟩

omit [DecidableEq κ] in
theorem WaitersKept.waiterMoves (h : WaitersKept call s) (hs : StoreKept s) {timedOut : Bool}
    {p : WaiterPhase} (hm : WaiterMoves (call i) s i timedOut p) :
    WaitersKept call (s.goto i p) := by
  cases hm with
  | missing | found | first | empty | listed | expired | wakes =>
    exact h.goto (by simp [WaiterPhase.version?]) (by simp) (by simp)
  | observed | passes | returns =>
    exact h.goto (by simp [WaiterPhase.version?]) (by simp) (by simp)
  | @nothing version hi hfree hnone =>
    refine h.goto ?_ (by simp) ?_
    · rintro v ⟨⟩
      exact h.observed i version (by rw [hi]; rfl)
    · intro v _ e he hafter
      exact gone_of_list_eq_nil hs hfree hnone (List.mem_of_mem_take he) hafter
  | @parks version hi hle =>
    refine h.goto ?_ ?_ ?_
    · rintro v ⟨⟩
      exact h.observed i version (by rw [hi]; rfl)
    · rintro v ⟨⟩
      exact hle
    · intro v hv
      have hsame : v = version := by
        rcases hv with hv | hv <;> cases hv
        rfl
      rw [hsame]
      exact h.seen i version (.inl hi)

omit [DecidableEq ι] [DecidableEq κ] in
/-- A step of a writer that leaves the notifier alone. -/
theorem WaitersKept.unnotified (h : WaitersKept call s) (hs : ConnNumbered s.store.conn)
    (hconn : ConnSteps s.store.conn s'.store.conn) (hversions : s'.versions = s.versions)
    (hdelivered : s'.delivered = s.delivered) (hwaiters : s'.waiters = s.waiters) :
    WaitersKept call s' := by
  have hof : ∀ taskId, s'.deliveredOf taskId = s.deliveredOf taskId := by
    intro taskId
    simp only [deliveredOf,hdelivered]
  constructor
  · intro taskId
    rw [hversions,hof]
    exact h.versions taskId
  · rw [hwaiters,hversions]
    exact h.observed
  · rw [hwaiters,hversions]
    exact h.parked
  · rw [hwaiters]
    intro i v hi e he hafter
    rw [hof] at he
    exact (h.seen i v hi e he hafter).steps hs hconn

theorem notified_ne_parked (p : WaiterPhase) (v : ℕ) : p.notified ≠ .parked v := by
  cases p <;> simp [WaiterPhase.notified]

omit [DecidableEq ι] [DecidableEq κ] in
theorem WaitersKept.notify (h : WaitersKept call s) (event : TaskEventRecord) :
    WaitersKept call (s.notify event) := by
  have hof : ∀ taskId, (s.notify event).deliveredOf taskId =
      s.deliveredOf taskId ++ if event.taskId = taskId then [event] else [] := by
    intro taskId
    simp only [deliveredOf,EventWaits.notify,List.filter_append]
    by_cases ht : event.taskId = taskId <;> simp [ht]
  have hle : ∀ taskId, s.versions taskId ≤ (s.notify event).versions taskId := by
    intro taskId
    by_cases ht : taskId = event.taskId
    · subst ht
      simp [EventWaits.notify]
    · simp [EventWaits.notify,ht]
  have hphase : ∀ {p : WaiterPhase} {v : ℕ}, p.notified.version? = some v →
      p.version? = some v := by
    intro p v hp
    cases p <;> first | exact hp | cases hp
  constructor
  · intro taskId
    rw [hof]
    by_cases ht : taskId = event.taskId
    · subst ht
      simp [EventWaits.notify,h.versions]
    · simp [EventWaits.notify,h.versions,ht,Ne.symm ht]
  · intro i v hi
    exact (h.observed i v (hphase hi)).trans (hle _)
  · intro i v hi
    exact absurd hi (notified_ne_parked _ v)
  · intro i v hi e he hafter
    have hwaiting : s.waiters i = .waiting v := by
      rcases hi with hi | hi
      · cases hp : s.waiters i <;> simp_all [EventWaits.notify,WaiterPhase.notified]
      · exact absurd hi (notified_ne_parked _ v)
    have hlen : v ≤ (s.deliveredOf (call i).taskId).length := by
      rw [← h.versions]
      exact h.observed i v (by rw [hwaiting]; rfl)
    rw [hof,List.take_append_of_le_length hlen] at he
    exact h.seen i v (.inl hwaiting) e he hafter

omit [DecidableEq ι] in
theorem WaitersKept.writerMoves (h : WaitersKept call s) (hs : StoreKept s)
    (hm : WriterMoves s w s') : WaitersKept call s' := by
  have hconn := hm.connSteps
  cases hm with
  | entered | wrote | unfinished | single | registered | immediate | stopped | left =>
    exact h.unnotified hs.numbered hconn rfl rfl rfl
  | closed exit => cases exit <;> exact h.unnotified hs.numbered hconn rfl rfl rfl
  | notified hi => exact (h.notify _).unnotified hs.numbered .refl rfl rfl rfl

end Waiters

section Runs

variable {labels : List (WaitLabel ι κ)} {db : AgentDb}

omit [DecidableEq ι] [DecidableEq κ] in
theorem StoreKept.opened (hdb : EventsNumbered db) :
    StoreKept (opened db : EventWaits ι κ) := by
  refine ⟨⟨hdb,hdb,le_rfl⟩,fun _ _ he => he,?_,?_,?_,?_⟩ <;>
    simp [EventWaits.opened,AgentStore.opened]

omit [DecidableEq ι] [DecidableEq κ] in
theorem WaitersKept.opened : WaitersKept call (opened db : EventWaits ι κ) := by
  constructor <;> simp [EventWaits.opened,deliveredOf,WaiterPhase.version?]

theorem kept_of_step {l : WaitLabel ι κ} (hs : StoreKept s) (hw : WaitersKept call s)
    (h : step call l s = some s') : StoreKept s' ∧ WaitersKept call s' := by
  cases l with
  | waiter i timedOut =>
    obtain ⟨p,hm,rfl⟩ := waiterMoves_of_step h
    exact ⟨⟨hs.numbered,hs.free,hs.callbacks,hs.appended,hs.notifying,hs.delivered⟩,
      hw.waiterMoves hs hm⟩
  | writer w action =>
    have hm := writerMoves_of_step h
    exact ⟨hs.moves hm,hw.writerMoves hs hm⟩

theorem kept_of_run (hdb : EventsNumbered db) (h : exec (step call) labels (opened db) = some s) :
    StoreKept s ∧ WaitersKept call s := by
  refine exec_invariant (I := fun s => StoreKept s ∧ WaitersKept call s) ?_ ⟨.opened hdb,.opened⟩ h
  exact fun l s s' hs hstep => kept_of_step hs.1 hs.2 hstep

theorem connSteps_of_step {l : WaitLabel ι κ} (h : step call l s = some s') :
    ConnSteps s.store.conn s'.store.conn := by
  cases l with
  | waiter i timedOut =>
    obtain ⟨p,_,rfl⟩ := waiterMoves_of_step h
    exact .refl
  | writer w action => exact (writerMoves_of_step h).connSteps

theorem connSteps_of_exec (h : exec (step call) labels s = some s') :
    ConnSteps s.store.conn s'.store.conn :=
  exec_relates (R := fun s s' : EventWaits ι κ => ConnSteps s.store.conn s'.store.conn)
    (fun _ => .refl) (fun _ _ _ => Relation.ReflTransGen.trans)
    (fun _ _ _ h => connSteps_of_step h) h

theorem delivered_of_step {l : WaitLabel ι κ} (h : step call l s = some s') {e : TaskEventRecord}
    (he : e ∈ s.delivered) : e ∈ s'.delivered := by
  cases l with
  | waiter i timedOut =>
    obtain ⟨p,_,rfl⟩ := waiterMoves_of_step h
    exact he
  | writer w action =>
    cases writerMoves_of_step h with
    | closed exit => cases exit <;> exact he
    | notified => exact List.mem_append_left _ he
    | _ => exact he

omit [DecidableEq ι] [DecidableEq κ] in
/-- A waiter that looked since its version was reached has missed no event that is still there. -/
theorem WaitersKept.gone_of_seen (h : WaitersKept call s) {v : ℕ}
    (hi : s.waiters i = .waiting v ∨ s.waiters i = .parked v)
    (hle : s.versions (call i).taskId ≤ v) {e : TaskEventRecord} (he : e ∈ s.delivered)
    (htask : e.taskId = (call i).taskId) (hafter : (call i).afterEventId < e.eventId) :
    Gone s.store.conn e := by
  refine h.seen i v hi e ?_ hafter
  rw [List.take_of_length_le (h.versions (call i).taskId ▸ hle)]
  exact List.mem_filter.mpr ⟨he,decide_eq_true htask⟩

/-- An event that waiter `i` has to return: committed, above its cursor, and notified. -/
structure Due (call : WaitCall) (s : EventWaits ι κ) (e : TaskEventRecord) : Prop where
  delivered : e ∈ s.delivered
  taskId : e.taskId = call.taskId
  after : call.afterEventId < e.eventId
  durable : e ∈ s.store.conn.durable.taskEvents

/-- How many steps a waiter takes at the most until it returns an event that is due. -/
def stepsToReturn : WaiterPhase → ℕ
  | .called | .unobserved | .waiting _ | .woken => 2
  | .known | .looking _ => 1
  | .parked _ | .returned _ | .failed => 0

/-- What a waiter returns: events of its task after its cursor in order, all that are `wanted`. -/
def Answers (call : WaitCall) (wanted : TaskEventRecord → Prop) (p : WaiterPhase) : Prop :=
  ∃ events, p = .returned events ∧ (events.Pairwise fun e f => e.eventId < f.eventId) ∧
    (∀ e ∈ events, e.taskId = call.taskId ∧ call.afterEventId < e.eventId) ∧
    ∀ e, wanted e → e.taskId = call.taskId → call.afterEventId < e.eventId → e ∈ events

omit [DecidableEq ι] [DecidableEq κ] in
theorem answers_list (hs : StoreKept s) (hfree : s.owner = none) (call : WaitCall) :
    Answers call (· ∈ s.store.conn.durable.taskEvents) (.returned (s.list call)) := by
  refine ⟨_,rfl,listTaskEvents_ascending hs.numbered.database _ _,fun e he => ?_,fun e he => ?_⟩
  · exact (mem_listTaskEvents.mp he).2
  · exact fun htask hafter => mem_listTaskEvents.mpr ⟨hs.free hfree e he,htask,hafter⟩

omit [DecidableEq ι] [DecidableEq κ] in
/-- A step of a waiter in whose task an event is due brings it nearer to its answer. -/
theorem WaiterMoves.returns_due (hs : StoreKept s) (hw : WaitersKept call s) {p : WaiterPhase}
    {e : TaskEventRecord} (he : Due (call i) s e) (hm : WaiterMoves (call i) s i false p) :
    s.waiters i = .called ∧ p = .failed ∨
    Answers (call i) (· ∈ s.store.conn.durable.taskEvents) p ∨
    stepsToReturn p < stepsToReturn (s.waiters i) ∧ p.hasEnded = false := by
  have hlist : s.owner = none → s.list (call i) ≠ [] := by
    intro hfree hnone
    have hmem : e ∈ s.list (call i) :=
      mem_listTaskEvents.mpr ⟨hs.free hfree e he.durable,he.taskId,he.after⟩
    rw [hnone] at hmem
    cases hmem
  cases hm with
  | missing hi => exact .inl ⟨hi,rfl⟩
  | first hi hfree | listed hi hfree => exact .inr (.inl (answers_list hs hfree _))
  | found hi | observed hi | returns hi | passes hi =>
    exact .inr (.inr ⟨by rw [hi]; simp [stepsToReturn],rfl⟩)
  | empty hi hfree hnone | nothing hi hfree hnone => exact absurd hnone (hlist hfree)
  | expired hi hfree hnone hout => cases hout
  | @parks version hi hle =>
    -- the version would hide the notification of an event that is still there
    have hgone := hw.gone_of_seen (.inl hi) hle he.delivered he.taskId he.after
    exact absurd he.durable hgone.durable
  | wakes hi hout => cases hout

omit [DecidableEq ι] [DecidableEq κ] in
theorem not_parked_of_due (hw : WaitersKept call s) {e : TaskEventRecord} (he : Due (call i) s e)
    (v : ℕ) : s.waiters i ≠ .parked v := by
  intro hi
  have hgone := hw.gone_of_seen (.inr hi) (hw.parked i v hi) he.delivered he.taskId he.after
  exact hgone.durable he.durable

/-- What another thread does to a waiter is to wake it. -/
theorem waiters_of_step {l : WaitLabel ι κ} (h : step call l s = some s')
    (hl : l.isOf i = false) :
    s'.waiters i = s.waiters i ∨ s'.waiters i = (s.waiters i).notified := by
  cases l with
  | waiter j timedOut =>
    have hne : i ≠ j := fun hij => by simp [WaitLabel.isOf,hij] at hl
    obtain ⟨p,_,rfl⟩ := waiterMoves_of_step h
    exact .inl (by simp [goto,hne])
  | writer w action =>
    cases writerMoves_of_step h with
    | notified => exact .inr rfl
    | closed exit => cases exit <;> exact .inl rfl
    | _ => exact .inl rfl

theorem ended_of_step {l : WaitLabel ι κ} (h : step call l s = some s')
    (hend : (s.waiters i).hasEnded = true) : s'.waiters i = s.waiters i := by
  cases hl : l.isOf i with
  | false =>
    rcases waiters_of_step h hl with hsame | hnotified
    · exact hsame
    · rw [hnotified]
      cases hp : s.waiters i <;> first | rfl | (rw [hp] at hend; cases hend)
  | true =>
    cases l with
    | waiter j timedOut =>
      have hij : j = i := by simpa [WaitLabel.isOf] using hl
      subst hij
      obtain ⟨p,hm,rfl⟩ := waiterMoves_of_step h
      cases hm <;> simp_all [WaiterPhase.hasEnded]
    | writer w action => cases hl

theorem ended_of_exec (h : exec (step call) labels s = some s')
    (hend : (s.waiters i).hasEnded = true) : s'.waiters i = s.waiters i := by
  refine exec_relates (R := fun s s' : EventWaits ι κ =>
    (s.waiters i).hasEnded = true → s'.waiters i = s.waiters i) (fun _ _ => rfl) ?_
    (fun _ _ _ h => ended_of_step h) h hend
  intro s₁ s₂ s₃ h₁ h₂ hend
  rw [h₂ (by rw [h₁ hend]; exact hend),h₁ hend]

theorem Due.step {l : WaitLabel ι κ} (hs : StoreKept s) {e : TaskEventRecord}
    (he : Due (call i) s e) {s₁ : EventWaits ι κ} (h : step call l s = some s₁)
    (hrest : ConnSteps s₁.store.conn s'.store.conn)
    (hend : e ∈ s'.store.conn.durable.taskEvents) : Due (call i) s₁ e :=
  ⟨delivered_of_step h he.delivered,he.taskId,he.after,
    (connSteps_of_step h).durable_between hrest hs.numbered he.durable hend⟩

/-- A waiter that does not time out returns, in two steps of its own, what is due. -/
theorem returns_of_run (hs : StoreKept s) (hw : WaitersKept call s) {e : TaskEventRecord}
    (he : Due (call i) s e) (hend : (s.waiters i).hasEnded = false)
    (h : exec (step call) labels s = some s') (hkept : e ∈ s'.store.conn.durable.taskEvents)
    (htime : ∀ l ∈ labels, l.isOf i = true → l.timesOut = false)
    (hsteps : stepsToReturn (s.waiters i) ≤ labels.countP (WaitLabel.isOf i)) :
    s.waiters i = .called ∧ s'.waiters i = .failed ∨
    Answers (call i) (fun f => f ∈ s.store.conn.durable.taskEvents ∧
      f ∈ s'.store.conn.durable.taskEvents) (s'.waiters i) := by
  induction labels generalizing s with
  | nil =>
    cases hp : s.waiters i with
    | parked v => exact absurd hp (not_parked_of_due hw he v)
    | _ => simp_all [stepsToReturn,WaiterPhase.hasEnded]
  | cons l labels ih =>
    obtain ⟨s₁,hstep,hrest⟩ := exec_cons_eq_some.mp h
    have hkept₁ := kept_of_step hs hw hstep
    have hconn := connSteps_of_step hstep
    have he₁ := he.step hs hstep (connSteps_of_exec hrest) hkept
    have hmono : ∀ {p : WaiterPhase}, Answers (call i)
        (fun f => f ∈ s₁.store.conn.durable.taskEvents ∧ f ∈ s'.store.conn.durable.taskEvents) p →
        Answers (call i) (fun f => f ∈ s.store.conn.durable.taskEvents ∧
          f ∈ s'.store.conn.durable.taskEvents) p := by
      rintro p ⟨events,hp,hids,hof,hall⟩
      refine ⟨events,hp,hids,hof,fun f hf => hall f ⟨?_,hf.2⟩⟩
      exact hconn.durable_between (connSteps_of_exec hrest) hs.numbered hf.1 hf.2
    have hrun := ih hkept₁.1 hkept₁.2 he₁
    have htime' := fun l' hl' => htime l' (List.mem_cons_of_mem l hl')
    cases hl : l.isOf i with
    | false =>
      have hsame : s₁.waiters i = s.waiters i := by
        rcases waiters_of_step hstep hl with hsame | hnotified
        · exact hsame
        · rw [hnotified]
          cases hp : s.waiters i with
          | parked v => exact absurd hp (not_parked_of_due hw he v)
          | _ => rfl
      rw [hsame] at hrun
      rw [List.countP_cons_of_neg (by simp [hl])] at hsteps
      exact (hrun hend hrest htime' hsteps).imp_right hmono
    | true =>
      rw [List.countP_cons_of_pos hl] at hsteps
      have hout := htime l List.mem_cons_self hl
      cases l with
      | writer w action => cases hl
      | waiter j timedOut =>
        have hij : j = i := by simpa [WaitLabel.isOf] using hl
        subst hij
        cases hout
        obtain ⟨p,hm,rfl⟩ := waiterMoves_of_step hstep
        have hp : (s.goto j p).waiters j = p := Function.update_self ..
        rw [hp] at hrun
        rcases hm.returns_due hs hw he with ⟨hcalled,rfl⟩ | hanswers | ⟨hlt,hgoes⟩
        · exact .inl ⟨hcalled,by rw [ended_of_exec hrest (by rw [hp]; rfl),hp]⟩
        · obtain ⟨events,rfl,hids,hof,hall⟩ := hanswers
          rw [ended_of_exec hrest (by rw [hp]; rfl),hp]
          exact .inr ⟨events,rfl,hids,hof,fun f hf => hall f hf.1⟩
        · rcases hrun hgoes hrest htime' (by omega) with ⟨rfl,_⟩ | hanswers
          · cases hp : s.waiters j <;> simp [hp,stepsToReturn] at hlt
          · exact .inr (hmono hanswers)

/-- What keeps a waiter from its next step is the lock of the store. -/
theorem held_of_step_eq_none (hw : WaitersKept call s) {e : TaskEventRecord}
    (he : Due (call i) s e) (hend : (s.waiters i).hasEnded = false)
    (h : step call (.waiter i false) s = none) : s.owner ≠ none := by
  intro hfree
  simp only [step,waiterStep,hfree,Option.isSome_none] at h
  cases hp : s.waiters i with
  | parked v => exact not_parked_of_due hw he v hp
  | returned | failed =>
    rw [hp] at hend
    cases hend
  | _ =>
    simp only [hp,Bool.false_eq_true,if_false] at h
    repeat' split at h
    all_goals cases h

/-- In every interleaving of waiters and transactions: a parked waiter has been notified of nothing
since its observation, and none of the committed events after its cursor has been notified at all.
Where one is, the waiter that does not time out goes on unless a transaction holds the lock, and
in its next two steps it returns the events in the order of their numbers. -/
theorem no_lost_notification (hdb : EventsNumbered db)
    (h : exec (step call) labels (opened db) = some s) :
    (∀ i v, s.waiters i = .parked v →
      (s.deliveredOf (call i).taskId).drop v = [] ∧ ∀ e, ¬ Due (call i) s e) ∧
    ∀ i e, Due (call i) s e → (s.waiters i).hasEnded = false →
      (step call (.waiter i false) s = none → s.owner ≠ none) ∧
      ∀ labels' s', exec (step call) labels' s = some s' → e ∈ s'.store.conn.durable.taskEvents →
        (∀ l ∈ labels', l.isOf i = true → l.timesOut = false) →
        2 ≤ labels'.countP (WaitLabel.isOf i) →
        s.waiters i = .called ∧ s'.waiters i = .failed ∨
        Answers (call i) (fun f => f ∈ s.store.conn.durable.taskEvents ∧
          f ∈ s'.store.conn.durable.taskEvents) (s'.waiters i) := by
  obtain ⟨hs,hw⟩ := kept_of_run hdb h
  constructor
  · intro i v hi
    constructor
    · rw [List.drop_eq_nil_iff,← hw.versions]
      exact hw.parked i v hi
    · exact fun e he => not_parked_of_due hw he v hi
  · intro i e he hend
    refine ⟨held_of_step_eq_none hw he hend,fun labels' s' h' hkept htime hcount => ?_⟩
    have hsteps : stepsToReturn (s.waiters i) ≤ 2 := by
      cases s.waiters i <;> simp [stepsToReturn]
    exact returns_of_run hs hw he hend h' hkept htime (hsteps.trans hcount)

section Sample

def sampleTask : TaskRecord := {
  taskId := "task"
  contextId := "context"
  status := .running
  inputMessageId := "message"
  inputContextSequence := 1
  outputMessageId := none
  runtimeThreadId := "thread"
  assignedAgentId := none
  retryOfTaskId := none
  attempt := 1
  errorCode := none
  errorMessage := none
  errorRetryable := false
  lifecycleRevision := 1}

def sampleTasks : AgentDb := {AgentDb.empty with tasks := ⟨[sampleTask],by simp⟩}

def sampleWait : Fin 1 → WaitCall := fun _ => ⟨"task",0⟩

/-- The waiter parks; then an event is appended in a nested scope. -/
def sampleAppend : List (WaitLabel (Fin 1) (Fin 1)) :=
  [.waiter 0 false,.waiter 0 false,.waiter 0 false,.waiter 0 false,.waiter 0 false,
    .writer 0 .enter,.writer 0 .enter,
    .writer 0 (.append "task" "task_completed" (some .completed) 1 (.obj []) false),
    .writer 0 .register,.writer 0 (.leave .committed),.writer 0 (.leave .committed),
    .writer 0 .notify]

theorem no_lost_notification_sample : ∃ s s' : EventWaits (Fin 1) (Fin 1),
    exec (step sampleWait) sampleAppend (opened sampleTasks) = some s ∧
    exec (step sampleWait) [.waiter 0 false,.waiter 0 false] s = some s' ∧
    Answers (sampleWait 0) (fun f => f ∈ s.store.conn.durable.taskEvents ∧
      f ∈ s'.store.conn.durable.taskEvents) (s'.waiters 0) := by
  refine ⟨_,_,rfl,rfl,?_⟩
  have hdb : EventsNumbered sampleTasks :=
    ⟨by simp [sampleTasks,AgentDb.empty],by simp [sampleTasks,AgentDb.empty]⟩
  have happend : exec (step sampleWait) sampleAppend (opened sampleTasks) = some _ := rfl
  have hrun := (no_lost_notification hdb happend).2 0
    ⟨1,"task","task_completed",some .completed,1,.obj []⟩ ⟨by decide,rfl,by decide,by decide⟩ rfl
  exact (hrun.2 [.waiter 0 false,.waiter 0 false] _ rfl (by decide)
    (by simp [WaitLabel.timesOut]) (by decide)).resolve_left (by simp [goto,become,notify])

end Sample
end Runs
end EventWaits
end VermayAgent
