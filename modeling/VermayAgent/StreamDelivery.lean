import VermayAgent.TaskStreams

/-! What `tasks/resubscribe` delivers.
Between two steps, what has gone out and what is still in the batch are together the numbers of
the events up to the cursor that have an A2A form; the commits in between only append beyond
the cursor. -/
namespace VermayAgent
open Library Txn MainAgentStore

/-- The numbers of the events that are delivered to subscribers. -/
def projectedIds (events : List TaskEventRecord) : List ℤ :=
  (events.filter fun e => isA2aInternalTaskEvent e = false).map fun e => (e.eventId : ℤ)

/-- The numbers that a batch will deliver. -/
def batchIds (batch : List Json) : List ℤ := batch.filterMap eventId

/-- The numbers that have been delivered. -/
def TaskStream.deliveredIds (s : TaskStream) : List ℤ := s.emitted.filterMap Emission.eventId

/-- The numbers read but not delivered yet. -/
def StreamPhase.inFlight : StreamPhase → List ℤ
  | .delivering batch => batchIds batch
  | _ => []

/-- The part of the log that the cursor has passed since `start`. -/
def TaskStream.passed (start : Nat) (s : TaskStream) : List TaskEventRecord :=
  window (·.eventId) start s.lastEventId s.committed

def IsEnvelope (event : Json) : Prop := ∃ id payload, event = jsonrpcSuccess id payload

section Ids

variable {stream : StreamEnv} {event : TaskEventRecord} {task : TaskRecord} {db db' : AgentDb}
  {id payload : Json}

@[simp] theorem projectedIds_nil : projectedIds [] = [] := rfl

theorem projectedIds_append (l l' : List TaskEventRecord) :
    projectedIds (l++l') = projectedIds l ++ projectedIds l' := by
  simp [projectedIds]

theorem projectedIds_cons_internal {l : List TaskEventRecord}
    (h : isA2aInternalTaskEvent event = true) : projectedIds (event::l) = projectedIds l := by
  simp [projectedIds,h]

theorem projectedIds_cons {l : List TaskEventRecord} (h : isA2aInternalTaskEvent event = false) :
    projectedIds (event::l) = (event.eventId : ℤ)::projectedIds l := by
  simp [projectedIds,h]

theorem batchIds_append (l l' : List Json) : batchIds (l++l') = batchIds l ++ batchIds l' := by
  simp [batchIds]

theorem eventId_jsonrpcSuccess {n : ℤ} (h : metadataEventId payload = some n) :
    eventId (jsonrpcSuccess id payload) = some n := by
  have hjsonrpc : (jsonrpcSuccess id payload).member "jsonrpc" = .str "2.0" := rfl
  have hresult : (jsonrpcSuccess id payload).member "result" = payload := rfl
  rw [eventId,if_pos hjsonrpc,hresult,h]
  rfl

/-- The id of the request does not change what the envelope carries. -/
theorem eventId_jsonrpcSuccessPayload {event : Json} (requestId : Json) (h : IsEnvelope event) :
    eventId (jsonrpcSuccessPayload requestId event) = eventId event := by
  obtain ⟨id,payload,rfl⟩ := h
  have hset : jsonrpcSuccessPayload requestId (jsonrpcSuccess id payload) =
      jsonrpcSuccess requestId payload := by
    have hjsonrpc : (jsonrpcSuccess id payload).member "jsonrpc" = .str "2.0" := rfl
    have hresult : ((jsonrpcSuccess id payload).fields.lookup "result").isSome = true := rfl
    rw [jsonrpcSuccessPayload,if_pos ⟨hjsonrpc,.inl hresult⟩]
    rfl
  rw [hset]
  rfl

/-- Every projection carries the number of its event. -/
theorem metadataEventId_project
    (h : (projectClassifiedMainAgentTaskEvent stream.toTextEnv event task).run db =
      .ok (some payload,db')) :
    metadataEventId payload = some (event.eventId : ℤ) ∧ isA2aInternalTaskEvent event = false := by
  simp only [projectClassifiedMainAgentTaskEvent,run_bind,eventArtifact_run] at h
  generalize (if (event.payload.member "artifact_id").truthy then
    db.artifacts.get (stream.str (event.payload.member "artifact_id")) else none) = artifact at h
  have hmember : ∀ rest, metadataEventId (Json.obj [("metadata",Json.ofOptions
      (("localEventId",some (.num event.eventId))::rest))]) = some (event.eventId : ℤ) := by
    intro rest
    have hself : (Json.ofOptions (("localEventId",some (Json.num event.eventId))::rest)).member
        "localEventId" = .num event.eventId := Json.member_ofOptions_some_self _ _ _
    change (Json.member (Json.ofOptions _) "localEventId").asInt = _
    rw [hself,Json.asInt_natCast]
  cases hartifact : taskEventToA2aArtifactUpdate stream.toTextEnv event task artifact with
  | some p =>
    have hp : p = payload ∧ db = db' := by
      simpa [hartifact] using h
    rw [← hp.1]
    unfold taskEventToA2aArtifactUpdate at hartifact
    split at hartifact
    · cases hartifact
    · rename_i htype
      obtain ⟨a,_,rfl⟩ := Option.map_eq_some_iff.mp hartifact
      refine ⟨hmember _,decide_eq_false fun hinternal => ?_⟩
      have hdisjoint : ∀ type ∈ a2aInternalAuditEventTypes, type ∉ artifactEventTypes := by decide
      exact htype (hdisjoint _ hinternal.2)
  | none =>
    cases hstatus : event.status with
    | none =>
      simp only [hartifact,taskEventToA2aStatusUpdate,hstatus] at h
      by_cases hinternal : isA2aInternalTaskEvent event = true <;> simp [hinternal] at h
    | some status =>
      have hp : statusUpdate stream.toTextEnv event task status = payload ∧ db = db' := by
        simpa [hartifact,taskEventToA2aStatusUpdate,hstatus] using h
      rw [← hp.1]
      refine ⟨hmember _,decide_eq_false fun hinternal => ?_⟩
      rw [hstatus] at hinternal
      cases hinternal.1

/-- Only an audit fact has no projection. -/
theorem internal_of_project
    (h : (projectClassifiedMainAgentTaskEvent stream.toTextEnv event task).run db =
      .ok (none,db')) : isA2aInternalTaskEvent event = true := by
  simp only [projectClassifiedMainAgentTaskEvent,run_bind,eventArtifact_run,ite_run] at h
  generalize (if (event.payload.member "artifact_id").truthy then
    db.artifacts.get (stream.str (event.payload.member "artifact_id")) else none) = artifact at h
  split at h
  · rename_i hnone
    exact hnone.2
  · split at h
    · cases h
    · rename_i hsome
      exact absurd (congrArg Prod.fst (Except.ok.inj h)) hsome

end Ids

namespace TaskStream

/-- What is known of the batch in hand. -/
def PhaseOk (s : TaskStream) : Prop :=
  match s.phase with
  | .projecting _ todo projected last =>
    s.lastEventId ≤ last ∧ (s.lastEventId < last → last < s.db.nextEventId) ∧
      (∀ event ∈ projected, IsEnvelope event) ∧
      batchIds projected ++ projectedIds todo =
        projectedIds (window (·.eventId) s.lastEventId last s.committed) ∧
      ∀ e, s.entered = some e → s.deleted ∨ e.eventId ≤ last
  | .delivering batch =>
    (∀ event ∈ batch, IsEnvelope event) ∧
      ∀ e, s.entered = some e → s.deleted ∨ e.eventId ≤ s.lastEventId
  | .ended .endState =>
    s.seen.isSome = true ∧ ∀ e, s.entered = some e → s.deleted ∨ e.eventId ≤ s.lastEventId
  | _ => True

/-- The stream follows the log of the task from the cursor `start` on. -/
structure Follows (stream : StreamEnv) (taskId : TaskId) (start : Nat) (s : TaskStream) : Prop where
  task : s.taskId = taskId
  sound : s.db.Sound
  tracked : s.db.eventsOf s.taskId = s.committed ∨ s.deleted
  ordered : s.committed.Pairwise fun e f => e.eventId < f.eventId
  below : ∀ e ∈ s.committed, e.eventId < s.db.nextEventId
  started : start ≤ s.lastEventId
  cursor : start < s.lastEventId → s.lastEventId < s.db.nextEventId
  delivered : s.deliveredIds ++ s.phase.inFlight = projectedIds (s.passed start)
  unseen : s.seen = none → s.entered = none
  entered : ∀ task, s.seen = some task →
    stream.isIn streamEndStates (.str (taskStatusToA2aState task.status).value) = true ∧
      ∃ e ∈ s.committed, s.entered = some e ∧ e.status = some task.status
  phase : s.PhaseOk

variable {stream : StreamEnv} {taskId : TaskId} {start : Nat} {s s' : TaskStream} {core : CoreEnv}
  {env : LedgerEnv} {requestId : Json}

/-- The events of a deleted task are gone. -/
theorem Follows.eventsOf_deleted (h : s.Follows stream taskId start) (hd : s.deleted) :
    s.db.eventsOf s.taskId = [] := by
  have hhead : (s.db.history.log s.taskId).head = none := by
    simp [AgentDb.history,hd.2]
  exact (h.sound.lawful s.taskId).unopened hhead

/-- A task that there is shows its whole log. -/
theorem Follows.eventsOf_live (h : s.Follows stream taskId start) {task : TaskRecord}
    (htask : s.db.tasks.get s.taskId = some task) : s.db.eventsOf s.taskId = s.committed := by
  rcases h.tracked with hlog | hd
  · exact hlog
  · rw [hd.2] at htask
    cases htask

/-- Between two batches only the phase changes. -/
theorem Follows.setPhase (h : s.Follows stream taskId start) {phase : StreamPhase}
    (hflight : phase.inFlight = s.phase.inFlight)
    (hphase : ({s with phase} : TaskStream).PhaseOk) :
    ({s with phase} : TaskStream).Follows stream taskId start where
  task := h.task
  sound := h.sound
  tracked := h.tracked
  ordered := h.ordered
  below := h.below
  started := h.started
  cursor := h.cursor
  delivered := by
    change s.deliveredIds ++ phase.inFlight = _
    rw [hflight]
    exact h.delivered
  unseen := h.unseen
  entered := h.entered
  phase := hphase

/-- What a commit does to the log: it appends to it, or the task is deleted with its context. -/
theorem commit_tracked {txn : AgentTxn} (h : s.Follows stream taskId start)
    (hfresh : ¬ (s.committed ≠ [] ∧ s.db.tasks.get s.taskId = none ∧
      ((txn.commit core env s.db).tasks.get s.taskId).isSome = true)) :
    let db := txn.commit core env s.db
    s.db.nextEventId ≤ db.nextEventId ∧
      (db.eventsOf s.taskId = s.committed++s.appended db ∨
        s.committed++s.appended db ≠ [] ∧ db.tasks.get s.taskId = none) := by
  intro db
  have hsound : db.Sound := AgentTxn.sound_commit core env txn h.sound
  have hnothing : db.eventsOf s.taskId = [] → s.appended db = [] := by
    intro hevents
    simp [appended,hevents]
  have hchange := AgentTxn.commit_history core env txn h.sound.coupled h.sound.owned
  refine ⟨?_,?_⟩
  · rcases hchange with hm | ⟨c,hf⟩
    · exact (hm.appends s.taskId).1
    · exact Nat.le_of_eq hf.nextEventId.symm
  rcases h.tracked with hlog | hd
  · have hold : (s.committed.filter fun e => decide (s.db.nextEventId ≤ e.eventId)) = [] := by
      refine List.filter_eq_nil_iff.mpr fun e he hle => ?_
      have hbelow := h.below e he
      have hle := of_decide_eq_true hle
      omega
    rcases hchange with hm | ⟨c,hf⟩
    · obtain ⟨_,new,hnew,hlater⟩ := hm.appends s.taskId
      have hevents : db.eventsOf s.taskId = s.committed++new := by
        rw [← hlog]
        exact hnew
      have hall : (new.filter fun e => decide (s.db.nextEventId ≤ e.eventId)) = new :=
        List.filter_eq_self.mpr fun e he => decide_eq_true (hlater e he)
      refine .inl ?_
      rw [appended,hevents,List.filter_append,hold,hall,List.nil_append]
    · have hforgotten := hf.log s.taskId
      split at hforgotten
      · -- the context of the task is the deleted one
        have hevents : db.eventsOf s.taskId = [] := congrArg TaskLog.events hforgotten
        have hhead : (db.tasks.get s.taskId).map TaskRecord.lifecycle = none :=
          congrArg TaskLog.head hforgotten
        rw [hnothing hevents,hevents,List.append_nil]
        by_cases hempty : s.committed = []
        · exact .inl hempty.symm
        · exact .inr ⟨hempty,Option.map_eq_none_iff.mp hhead⟩
      · have hevents : db.eventsOf s.taskId = s.committed := by
          rw [← hlog]
          exact congrArg TaskLog.events hforgotten
        refine .inl ?_
        rw [appended,hevents,hold,List.append_nil]
  · have hgone : db.tasks.get s.taskId = none := by
      by_contra hsome
      exact hfresh ⟨hd.1,hd.2,Option.isSome_iff_ne_none.mpr hsome⟩
    exact .inr ⟨fun hnil => hd.1 (List.append_eq_nil_iff.mp hnil).1,hgone⟩

/-- What has been passed is not passed again. -/
theorem passed_commit {db : AgentDb} {i j : Nat} (hj : i < j → j < s.db.nextEventId) :
    window (·.eventId) i j (s.committed++s.appended db) = window (·.eventId) i j s.committed := by
  refine window_grow fun e he hij => ?_
  have hnew := of_decide_eq_true (List.mem_filter.mp he).2
  exact Nat.lt_of_lt_of_le (hj hij) hnew

theorem Follows.commits {txn : AgentTxn} (h : s.Follows stream taskId start)
    (hs : StreamStep.commits core env txn s = some s') : s'.Follows stream taskId start := by
  unfold StreamStep.commits at hs
  dsimp only at hs
  split at hs
  · cases hs
  rename_i hfresh
  cases hs
  obtain ⟨hnext,htracked⟩ := commit_tracked h hfresh
  have hsound := AgentTxn.sound_commit core env txn h.sound
  have hdeleted : s.deleted → (txn.commit core env s.db).tasks.get s.taskId = none := by
    intro hd
    by_contra hsome
    exact hfresh ⟨hd.1,hd.2,Option.isSome_iff_ne_none.mpr hsome⟩
  have hgone : s.deleted → (s.committed++s.appended (txn.commit core env s.db) ≠ []) ∧
      (txn.commit core env s.db).tasks.get s.taskId = none := by
    intro hd
    exact ⟨fun hnil => hd.1 (List.append_eq_nil_iff.mp hnil).1,hdeleted hd⟩
  constructor
  · exact h.task
  · exact hsound
  · exact htracked
  · refine List.pairwise_append.mpr ⟨h.ordered,(hsound.lawful s.taskId).ids.filter _,?_⟩
    intro e he f hf
    have hnew := of_decide_eq_true (List.mem_filter.mp hf).2
    exact Nat.lt_of_lt_of_le (h.below e he) hnew
  · intro e he
    rcases List.mem_append.mp he with he | he
    · exact Nat.lt_of_lt_of_le (h.below e he) hnext
    · exact (hsound.lawful s.taskId).below e (List.mem_filter.mp he).1
  · exact h.started
  · exact fun hlt => Nat.lt_of_lt_of_le (h.cursor hlt) hnext
  · refine h.delivered.trans (congrArg projectedIds ?_)
    exact (passed_commit h.cursor).symm
  · exact h.unseen
  · intro task htask
    obtain ⟨hend,e,he,hentered,hstatus⟩ := h.entered task htask
    exact ⟨hend,e,List.mem_append_left _ he,hentered,hstatus⟩
  · have hphase := h.phase
    unfold PhaseOk at hphase ⊢
    dsimp only at hphase ⊢
    split
    · rename_i task todo projected last heq
      rw [heq] at hphase
      obtain ⟨hle,hlast,henvelope,hids,hlate⟩ := hphase
      refine ⟨hle,fun hlt => Nat.lt_of_lt_of_le (hlast hlt) hnext,henvelope,?_,fun e he => ?_⟩
      · rw [hids,passed_commit hlast]
      · exact (hlate e he).imp_left hgone
    · rename_i batch heq
      rw [heq] at hphase
      exact ⟨hphase.1,fun e he => (hphase.2 e he).imp_left hgone⟩
    · rename_i heq
      rw [heq] at hphase
      exact ⟨hphase.1,fun e he => (hphase.2 e he).imp_left hgone⟩
    · trivial

/-- An event that an end state was entered with is one of the committed ones. -/
theorem Follows.mem_of_entered (h : s.Follows stream taskId start) {e : TaskEventRecord}
    (he : s.entered = some e) : e ∈ s.committed := by
  cases hseen : s.seen with
  | none =>
    rw [h.unseen hseen] at he
    cases he
  | some task =>
    obtain ⟨_,e',hmem,he',_⟩ := h.entered task hseen
    rw [he] at he'
    cases he'
    exact hmem

theorem le_lastMainEventId {events : List TaskEventRecord} (fallback : Nat) :
    ∀ e ∈ events, e.eventId ≤ lastMainEventId events fallback := by
  intro e he
  unfold lastMainEventId
  cases hmax : (events.map (·.eventId)).max? with
  | none =>
    rw [List.max?_eq_none_iff,List.map_eq_nil_iff] at hmax
    rw [hmax] at he
    cases he
  | some last =>
    have hle := (List.max?_eq_some_iff.mp hmax).2 e.eventId (List.mem_map_of_mem he)
    exact hle

theorem lastMainEventId_mem (events : List TaskEventRecord) (fallback : Nat) :
    (events = [] ∧ lastMainEventId events fallback = fallback) ∨
      ∃ e ∈ events, e.eventId = lastMainEventId events fallback := by
  unfold lastMainEventId
  cases hmax : (events.map (·.eventId)).max? with
  | none =>
    rw [List.max?_eq_none_iff,List.map_eq_nil_iff] at hmax
    exact .inl ⟨hmax,rfl⟩
  | some last =>
    obtain ⟨e,he,heq⟩ := List.mem_map.mp (List.max?_eq_some_iff.mp hmax).1
    exact .inr ⟨e,he,heq⟩

/-- The read of a batch takes everything after the cursor. -/
theorem Follows.listEvents {task : TaskRecord} (h : s.Follows stream taskId start) (expired : Bool)
    (hphase : s.phase = .listing task) :
    (StreamStep.listEvents expired task s).Follows stream taskId start := by
  unfold StreamStep.listEvents
  dsimp only
  split
  · exact h
  refine h.setPhase (by rw [hphase]; rfl) ?_
  generalize hevents : ((s.db.eventsOf s.taskId).filter fun e =>
    decide (s.lastEventId < e.eventId)) = events
  have hmem : ∀ e ∈ events, e ∈ s.db.eventsOf s.taskId ∧ s.lastEventId < e.eventId := by
    intro e he
    rw [← hevents] at he
    exact ⟨(List.mem_filter.mp he).1,of_decide_eq_true (List.mem_filter.mp he).2⟩
  have hlast := lastMainEventId_mem events s.lastEventId
  have hle : s.lastEventId ≤ lastMainEventId events s.lastEventId := by
    rcases hlast with ⟨_,hlast⟩ | ⟨e,he,hlast⟩
    · exact Nat.le_of_eq hlast.symm
    · have hlater := (hmem e he).2
      omega
  refine ⟨hle,fun hlt => ?_,by simp,?_,fun e he => ?_⟩
  · rcases hlast with ⟨_,hlast⟩ | ⟨e,he,hlast⟩
    · rw [hlast] at hlt
      exact absurd hlt (Nat.lt_irrefl _)
    · rw [← hlast]
      exact (h.sound.lawful s.taskId).below e (hmem e he).1
  · rcases h.tracked with hlog | hd
    · have hbound : ∀ e ∈ s.committed, e.eventId ≤ lastMainEventId events s.lastEventId := by
        intro e he
        by_cases hlater : s.lastEventId < e.eventId
        · refine le_lastMainEventId _ e ?_
          rw [← hevents,hlog]
          exact List.mem_filter.mpr ⟨he,decide_eq_true hlater⟩
        · omega
      have hwindow : events = window (·.eventId) s.lastEventId
          (lastMainEventId events s.lastEventId) s.committed := by
        rw [← filter_eq_window hbound,← hlog]
        exact hevents.symm
      exact congrArg projectedIds hwindow
    · have hnone : events = [] := by
        rw [← hevents,h.eventsOf_deleted hd]
        rfl
      rw [hnone]
      exact (congrArg projectedIds (window_self s.committed)).symm
  · rcases h.tracked with hlog | hd
    · by_cases hlater : s.lastEventId < e.eventId
      · refine .inr (le_lastMainEventId _ e ?_)
        rw [← hevents,hlog]
        exact List.mem_filter.mpr ⟨h.mem_of_entered he,decide_eq_true hlater⟩
      · exact .inr (by omega)
    · exact .inl hd

theorem Follows.projectNext {event : TaskEventRecord} {task : TaskRecord}
    {todo : List TaskEventRecord} {projected : List Json} {last : Nat}
    (h : s.Follows stream taskId start)
    (hphase : s.phase = .projecting task (event::todo) projected last)
    (hs : StreamStep.projectNext stream event task todo projected last s = .ok s') :
    s'.Follows stream taskId start := by
  have hok := h.phase
  unfold PhaseOk at hok
  rw [hphase] at hok
  obtain ⟨hle,hlast,henvelope,hids,hlate⟩ := hok
  unfold StreamStep.projectNext at hs
  split at hs
  · cases hs
  · rename_i hrun
    cases hs
    refine h.setPhase (by rw [hphase]; rfl) ⟨hle,hlast,henvelope,?_,hlate⟩
    rw [projectedIds_cons_internal (internal_of_project hrun)] at hids
    exact hids
  · rename_i payload _ hrun
    cases hs
    obtain ⟨hid,hexternal⟩ := metadataEventId_project hrun
    refine h.setPhase (by rw [hphase]; rfl) ⟨hle,hlast,?_,?_,hlate⟩
    · intro e he
      rcases List.mem_append.mp he with he | he
      · exact henvelope e he
      · rw [List.mem_singleton.mp he]
        exact ⟨_,_,rfl⟩
    · rw [projectedIds_cons hexternal] at hids
      rw [batchIds_append,← hids,List.append_assoc]
      simp [batchIds,eventId_jsonrpcSuccess hid]

/-- The cursor moves over the batch before the batch goes out. -/
theorem Follows.projectedAll {task : TaskRecord} {projected : List Json} {last : Nat}
    (h : s.Follows stream taskId start) (hphase : s.phase = .projecting task [] projected last) :
    ({s with
      lastEventId := max s.lastEventId last
      phase := .delivering projected} : TaskStream).Follows stream taskId start := by
  have hok := h.phase
  unfold PhaseOk at hok
  rw [hphase] at hok
  obtain ⟨hle,hlast,henvelope,hids,hlate⟩ := hok
  have hmax : max s.lastEventId last = last := Nat.max_eq_right hle
  have hflight : s.phase.inFlight = [] := by rw [hphase]; rfl
  rw [hmax]
  refine ⟨h.task,h.sound,h.tracked,h.ordered,h.below,h.started.trans hle,fun hlt => ?_,?_,h.unseen,
    h.entered,henvelope,hlate⟩
  · rcases Nat.lt_or_ge s.lastEventId last with hmoved | hsame
    · exact hlast hmoved
    · have heq : s.lastEventId = last := Nat.le_antisymm hle hsame
      exact heq ▸ h.cursor (heq.symm ▸ hlt)
  · have hdelivered := h.delivered
    rw [hflight,List.append_nil] at hdelivered
    rw [projectedIds_nil,List.append_nil] at hids
    change s.deliveredIds ++ batchIds projected = projectedIds (window _ start last s.committed)
    rw [hdelivered,hids,← projectedIds_append,passed,window_append h.ordered h.started hle]

theorem Follows.deliver {event : Json} {batch : List Json} (h : s.Follows stream taskId start)
    (hphase : s.phase = .delivering (event::batch)) :
    ({s.emit stream (jsonrpcSuccessPayload requestId event) with
      phase := .delivering batch} : TaskStream).Follows stream taskId start := by
  have hok := h.phase
  unfold PhaseOk at hok
  rw [hphase] at hok
  obtain ⟨henvelope,hlate⟩ := hok
  refine ⟨h.task,h.sound,h.tracked,h.ordered,h.below,h.started,h.cursor,?_,h.unseen,h.entered,
    fun e he => henvelope e (List.mem_cons_of_mem _ he),hlate⟩
  refine Eq.trans ?_ h.delivered
  rw [hphase]
  change List.filterMap _ (s.emitted++[Emission.event _]) ++ batchIds batch =
    s.deliveredIds ++ batchIds (event::batch)
  have hid : Emission.eventId (.event (jsonrpcSuccessPayload requestId event)) = eventId event :=
    eventId_jsonrpcSuccessPayload requestId (henvelope event List.mem_cons_self)
  rw [List.filterMap_append,List.append_assoc]
  refine congrArg (s.deliveredIds ++ ·) ?_
  cases hevent : eventId event with
  | none => simp [batchIds,hid,hevent]
  | some n => simp [batchIds,hid,hevent]

theorem Follows.afterBatch (h : s.Follows stream taskId start) (hphase : s.phase = .delivering []) :
    (StreamStep.afterBatch .resubscribe s).Follows stream taskId start := by
  have hok := h.phase
  unfold PhaseOk at hok
  rw [hphase] at hok
  unfold StreamStep.afterBatch
  split
  · rename_i hseen
    exact h.setPhase (by rw [hphase]; rfl) ⟨hseen,hok.2⟩
  · exact h.setPhase (by rw [hphase]; rfl) trivial

/-- The last status of a log is carried by its last event with a status. -/
theorem lastStatusEvent_of_last {events : List TaskEventRecord} {status : TaskStatus}
    (h : (statusesOf events).getLast? = some status) :
    ∃ e ∈ events, lastStatusEvent events = some e ∧ e.status = some status := by
  induction events using List.reverseRecOn with
  | nil => cases h
  | append_singleton events e ih =>
    cases hstatus : e.status with
    | none =>
      have hsame : statusesOf (events++[e]) = statusesOf events := by
        simp [statusesOf,hstatus]
      obtain ⟨e',he',hlast,hcarried⟩ := ih (hsame ▸ h)
      refine ⟨e',List.mem_append_left _ he',?_,hcarried⟩
      simpa [lastStatusEvent,List.filter_append,hstatus] using hlast
    | some carried =>
      have hsnoc : statusesOf (events++[e]) = statusesOf events++[carried] := by
        simp [statusesOf,hstatus]
      rw [hsnoc,List.getLast?_concat,Option.some.injEq] at h
      refine ⟨e,by simp,?_,by rw [hstatus,h]⟩
      simp [lastStatusEvent,List.filter_append,hstatus]

theorem taskState_getTask {task : TaskRecord} {state : Json}
    (h : s.getTask stream = .ok (task,state)) :
    s.db.tasks.get s.taskId = some task ∧
      state = .str (taskStatusToA2aState task.status).value := by
  unfold getTask at h
  split at h
  · cases h
  · rename_i htask
    cases h
    exact ⟨htask,rfl⟩

theorem Follows.checkTask (h : s.Follows stream taskId start) (hphase : s.phase = .checking)
    (hs : StreamStep.checkTask stream s = .ok s') : s'.Follows stream taskId start := by
  unfold StreamStep.checkTask at hs
  split at hs
  · cases hs
  rename_i task state hget
  obtain ⟨htask,rfl⟩ := taskState_getTask hget
  split at hs
  · rename_i hend
    cases hs
    have hlog := h.eventsOf_live htask
    have hlast := (h.sound.lawful s.taskId).last _ (history_head htask)
    obtain ⟨e,he,hentered,hstatus⟩ := lastStatusEvent_of_last hlast
    have hflight : s.phase.inFlight = [] := by rw [hphase]; rfl
    refine ⟨h.task,h.sound,h.tracked,h.ordered,h.below,h.started,h.cursor,?_,
      fun hnone => (nomatch hnone),?_,trivial⟩
    · have hdelivered := h.delivered
      rw [hflight] at hdelivered
      exact hdelivered
    · rintro _ ⟨⟩
      refine ⟨hend,e,?_,hentered,hstatus⟩
      rw [← hlog]
      exact he
  · cases hs
    exact h.setPhase (by rw [hphase]; rfl) trivial

end TaskStream

section Main

variable (core : CoreEnv) (env : LedgerEnv) (stream : StreamEnv) (requestId : Json)

theorem follows_call {taskId : TaskId} {start : Nat} {a : StreamStep} {s s' : TaskStream}
    (h : s.Follows stream taskId start)
    (hs : a.call core env stream .resubscribe requestId s = some (.ok s')) :
    s'.Follows stream taskId start := by
  cases a with
  | commit txn =>
    obtain ⟨_,hcommit,heq⟩ := Option.map_eq_some_iff.mp hs
    cases heq
    exact h.commits hcommit
  | result r => cases hs
  | exhausted => cases hs
  | openTask =>
    simp only [StreamStep.call] at hs
    split at hs
    · rename_i hphase
      split at hs <;> cases hs
      exact h.setPhase (by rw [hphase]; rfl) trivial
    · cases hs
  | loop disconnected =>
    simp only [StreamStep.call] at hs
    split at hs
    · rename_i hphase
      split at hs <;> cases hs
      · exact h.setPhase (by rw [hphase]; rfl) trivial
      · exact h.setPhase (by rw [hphase]; rfl) trivial
    · cases hs
  | refresh =>
    simp only [StreamStep.call] at hs
    split at hs
    · rename_i hphase
      split at hs <;> cases hs
      exact h.setPhase (by rw [hphase]; rfl) trivial
    · cases hs
  | list expired =>
    simp only [StreamStep.call] at hs
    split at hs
    · rename_i hphase
      cases hs
      exact h.listEvents expired hphase
    · cases hs
  | project =>
    simp only [StreamStep.call] at hs
    split at hs
    · rename_i hphase
      exact h.projectNext hphase (Option.some.inj hs)
    · rename_i hphase
      cases hs
      exact h.projectedAll hphase
    · cases hs
  | deliver =>
    simp only [StreamStep.call] at hs
    split at hs
    · rename_i hphase
      cases hs
      exact h.deliver hphase
    · rename_i hphase
      cases hs
      exact h.afterBatch hphase
    · cases hs
  | check =>
    simp only [StreamStep.call] at hs
    split at hs
    · rename_i hphase
      exact h.checkTask hphase (Option.some.inj hs)
    · cases hs
  | raises error =>
    simp only [StreamStep.call] at hs
    split at hs <;> cases hs

/-- Nothing is in flight where a call raises. -/
theorem inFlight_of_raised {a : StreamStep} {s : TaskStream} {error : PyException}
    (hs : a.call core env stream .resubscribe requestId s = some (.error error)) :
    s.phase.inFlight = [] := by
  cases hphase : s.phase with
  | delivering batch =>
    cases a with
    | commit txn =>
      obtain ⟨_,_,heq⟩ := Option.map_eq_some_iff.mp hs
      cases heq
    | deliver =>
      cases batch <;> simp [StreamStep.call,hphase] at hs
    | _ => simp [StreamStep.call,hphase] at hs
  | _ => rfl

theorem follows_step {taskId : TaskId} {start : Nat} {a : StreamStep} {s s' : TaskStream}
    (h : s.Follows stream taskId start)
    (hs : a.step core env stream .resubscribe requestId s = some s') :
    s'.Follows stream taskId start := by
  unfold StreamStep.step at hs
  split at hs
  · cases hs
  · rename_i hcall
    cases hs
    exact follows_call core env stream requestId h hcall
  · rename_i error hcall
    cases hs
    have hflight := inFlight_of_raised core env stream requestId hcall
    refine ⟨h.task,h.sound,h.tracked,h.ordered,h.below,h.started,h.cursor,?_,h.unseen,h.entered,
      trivial⟩
    refine Eq.trans ?_ h.delivered
    rw [hflight]
    simp [StreamStep.handle,TaskStream.deliveredIds,StreamPhase.inFlight,Emission.eventId]

/-- A subscription starts with nothing behind its cursor. -/
theorem follows_start {db : AgentDb} (hdb : db.Sound) (taskId : TaskId) (start : Nat) :
    (TaskStream.start db taskId start).Follows stream taskId start := by
  have hnothing : projectedIds ((TaskStream.start db taskId start).passed start) = [] :=
    congrArg projectedIds (window_self _)
  refine ⟨rfl,hdb,.inl rfl,(hdb.lawful taskId).ids,(hdb.lawful taskId).below,Nat.le_refl _,
    fun hlt => absurd hlt (Nat.lt_irrefl _),hnothing.symm,fun _ => rfl,?_,trivial⟩
  intro task htask
  cases htask

/-- Whatever is committed while `tasks/resubscribe` runs: what it has delivered and what is in the
batch in hand are together, in strictly increasing order, exactly the numbers after the starting
cursor and up to the present one of the events of the task that have an A2A form. Where the
stream ends because it saw the task in an end state, the event that put the task into that state
has been delivered or lies at or below the starting cursor, unless the task has been deleted. -/
theorem subscription_delivers (txns : List AgentTxn) {db : AgentDb} (taskId : TaskId) (start : Nat)
    (as : List StreamStep) {s : TaskStream} (hdb : db = AgentTxn.history core env txns AgentDb.empty)
    (h : exec (StreamStep.step core env stream .resubscribe requestId) as
      (.start db taskId start) = some s) :
    (s.deliveredIds ++ s.phase.inFlight).Pairwise (· < ·) ∧
      s.deliveredIds ++ s.phase.inFlight = projectedIds (s.passed start) ∧
      (s.db.eventsOf taskId = s.committed ∨ s.deleted) ∧
      (s.phase = .ended .endState → ∃ task e, s.seen = some task ∧ s.entered = some e ∧
        isStreamEndState stream (.str (taskStatusToA2aState task.status).value) = true ∧
        e ∈ s.committed ∧ e.status = some task.status ∧
        (e.eventId ≤ start ∨ (e.eventId : ℤ) ∈ s.deliveredIds ∨ s.deleted)) := by
  have hsound : db.Sound := hdb ▸ AgentTxn.sound_history core env txns AgentDb.sound_empty
  have hf : s.Follows stream taskId start :=
    exec_invariant (fun a s s' hs hstep => follows_step core env stream requestId hs hstep)
      (follows_start stream hsound taskId start) h
  refine ⟨?_,hf.delivered,hf.task ▸ hf.tracked,fun hended => ?_⟩
  · rw [hf.delivered,projectedIds,List.pairwise_map]
    refine List.Pairwise.imp (fun hlt => ?_) ((window_pairwise hf.ordered).filter _)
    exact_mod_cast hlt
  · have hphase := hf.phase
    unfold TaskStream.PhaseOk at hphase
    rw [hended] at hphase
    obtain ⟨hseen,hlate⟩ := hphase
    obtain ⟨task,htask⟩ := Option.isSome_iff_exists.mp hseen
    obtain ⟨hend,e,he,hentered,hstatus⟩ := hf.entered task htask
    refine ⟨task,e,htask,hentered,hend,he,hstatus,?_⟩
    rcases hlate e hentered with hd | hle
    · exact .inr (.inr hd)
    · by_cases hstart : e.eventId ≤ start
      · exact .inl hstart
      · -- an event with a status has an A2A form, so it is among those delivered
        have hexternal : isA2aInternalTaskEvent e = false := by
          simp [isA2aInternalTaskEvent,hstatus]
        have hmem : (e.eventId : ℤ) ∈ projectedIds (s.passed start) :=
          List.mem_map.mpr ⟨e,List.mem_filter.mpr ⟨mem_window.mpr ⟨he,Nat.lt_of_not_le hstart,hle⟩,
            decide_eq_true hexternal⟩,rfl⟩
        have hdelivered := hf.delivered
        rw [hended] at hdelivered
        have hdelivered : s.deliveredIds = projectedIds (s.passed start) := by
          simpa [StreamPhase.inFlight] using hdelivered
        rw [← hdelivered] at hmem
        exact .inr (.inl hmem)

end Main

section Sample

/-- A subscription from the second event on to a task whose slice completes meanwhile. -/
def sampleSubscription : List StreamStep :=
  [.openTask,.loop false,.refresh,.list false,.list true,.project,.deliver] ++
    (sampleCompletion.drop sampleAdmission.length).map (fun c => .commit (.core c)) ++
    [.check,.refresh,.list false,.project,.project,.project,.project,.project,.deliver,.deliver,
      .deliver,.deliver,.deliver]

end Sample

theorem subscription_delivers_sample :
    ∃ s, exec (StreamStep.step sampleCore sampleEnv sampleStream .resubscribe (.num 1))
        sampleSubscription (.start (AgentTxn.history sampleCore sampleEnv
          (sampleAdmission.map .core) AgentDb.empty) "task" 2) = some s ∧
      (s.deliveredIds ++ s.phase.inFlight).Pairwise (· < ·) := by
  obtain ⟨s,hs⟩ : ∃ s, exec (StreamStep.step sampleCore sampleEnv sampleStream .resubscribe
      (.num 1)) sampleSubscription (.start (AgentTxn.history sampleCore sampleEnv
        (sampleAdmission.map .core) AgentDb.empty) "task" 2) = some s :=
    Option.isSome_iff_exists.mp (by decide +kernel)
  exact ⟨s,hs,(subscription_delivers sampleCore sampleEnv sampleStream (.num 1)
    (sampleAdmission.map .core) "task" 2 sampleSubscription rfl hs).1⟩

end VermayAgent
