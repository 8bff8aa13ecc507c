import VermayAgent.ArtifactProducers
import VermayAgent.WebProjection

/-! What becomes of the text of an artifact update in the browser.
The record of a task takes the text of every update as its final answer, so that the answer is one
of a final answer only as long as no result of a tool says anything. -/
namespace VermayAgent.Web
open Library MainAgentStore

section Envelopes

/-- `textFromA2AParts`. -/
def textFromA2AParts (parts : List Json) : String :=
  "\n".intercalate ((parts.map fun part => ((part.member "text").asString).getD "").filter
    fun text => text ≠ "")

def textFromA2AArtifact (payload : Json) : String :=
  if payload.member "kind" ≠ .str "artifact-update" then ""
  else
    match (payload.member "artifact").member "parts" with
    | .arr parts => textFromA2AParts parts
    | _ => ""

/-- `recordTaskEnvelope` on the tasks; `shown` is the record that it names the thread after. -/
def recordTaskEnvelope (clock : Clock) (now : String) (shown : Option AgentTask)
    (tasks : TaskProjectionState) (result : A2AStreamResult) : Option TaskProjectionState :=
  (a2aEnvelopeToTaskEvent now result).map fun projected =>
    let finalAnswer := textFromA2AArtifact result.payload
    taskProjectionReducer clock tasks (.event (eventWithTaskThreadId projected shown)
      (if finalAnswer = "" then none else some finalAnswer))

/-- The kind of the artifact that an update carries. -/
def artifactKind (payload : Json) : Json :=
  ((payload.member "artifact").member "metadata").member "kind"

/-- The update brings a final answer. -/
def BringsAnswer (payload : Json) : Prop :=
  payload.member "kind" = .str "artifact-update" ∧ artifactKind payload = .str "final_answer"

/-- The update brings the result of a tool, and that has a text. -/
def BringsToolText (payload : Json) : Prop :=
  artifactKind payload = .str "tool_invocation_result" ∧ textFromA2AArtifact payload ≠ ""

instance (payload : Json) : Decidable (BringsAnswer payload) := inferInstanceAs (Decidable (_ ∧ _))

instance (payload : Json) : Decidable (BringsToolText payload) :=
  inferInstanceAs (Decidable (_ ∧ _))

end Envelopes

section Payloads

variable {text : TextEnv} {event : TaskEventRecord} {task : TaskRecord} {db db' : AgentDb}

/-- A projected event is a status or an artifact that is stored. -/
theorem payload_of_project {payload : Json}
    (h : (projectClassifiedMainAgentTaskEvent text event task).run db = .ok (some payload,db')) :
    (∃ status, payload = statusUpdate text event task status) ∨
      ∃ r ∈ db.artifacts.rows, payload = artifactUpdate text event task r := by
  simp only [projectClassifiedMainAgentTaskEvent,Txn.run_bind,eventArtifact_run] at h
  generalize hstored : (if (event.payload.member "artifact_id").truthy then
    db.artifacts.get (text.str (event.payload.member "artifact_id")) else none) = artifact at h
  cases hupdate : taskEventToA2aArtifactUpdate text event task artifact with
  | some update =>
    rw [hupdate] at h
    simp at h
    unfold taskEventToA2aArtifactUpdate at hupdate
    split at hupdate
    · cases hupdate
    · obtain ⟨r,hr,rfl⟩ := Option.map_eq_some_iff.mp hupdate
      subst hr
      split at hstored
      · exact .inr ⟨r,Table.mem_of_get hstored,h.1.symm⟩
      · cases hstored
  | none =>
    rw [hupdate] at h
    cases hstatus : event.status with
    | some status =>
      simp [taskEventToA2aStatusUpdate,hstatus] at h
      exact .inl ⟨status,h.1.symm⟩
    | none =>
      simp only [taskEventToA2aStatusUpdate,hstatus,Option.map_none,Option.or_none,true_and,
        Txn.ite_run] at h
      split at h <;> cases h

theorem statusUpdate_silent (status : TaskStatus) :
    textFromA2AArtifact (statusUpdate text event task status) = "" := by
  have hkind := (@statusUpdate_members text event task status).2.2.2.2
  rw [textFromA2AArtifact,hkind,if_pos (by decide)]

theorem artifactUpdate_artifact (r : ArtifactRecord) :
    textFromA2AArtifact (artifactUpdate text event task r) = textFromA2AParts r.parts ∧
      artifactKind (artifactUpdate text event task r) = r.metadata.member "kind" := by
  have hkind := (@artifactUpdate_members text event task r).2.2.2
  have hartifact : ∃ id, (artifactUpdate text event task r).member "artifact" =
      .obj [("artifactId",id),("parts",.arr r.parts),("metadata",r.metadata)] := by
    refine ⟨.str (text.str (Json.orElse (r.metadata.member "kind") (.str r.artifactId))),?_⟩
    simp (disch := decide) only [artifactUpdate,Json.member_ofOptions_of_ne,
      Json.member_ofOptions_some_self]
  obtain ⟨id,hartifact⟩ := hartifact
  refine ⟨?_,?_⟩
  · rw [textFromA2AArtifact,hkind,hartifact,if_neg (by decide)]
    rfl
  · rw [artifactKind,hartifact]
    rfl

/-- Parts of data have no text. -/
theorem textFromA2AParts_data {parts : List Json}
    (h : ∀ part ∈ parts, part.member "text" = .null) : textFromA2AParts parts = "" := by
  have hnone : ((parts.map fun part => ((part.member "text").asString).getD "").filter
      fun text => text ≠ "") = [] := by
    rw [List.filter_eq_nil_iff]
    intro text htext
    obtain ⟨part,hpart,rfl⟩ := List.mem_map.mp htext
    simp [h part hpart,Json.asString]
  rw [textFromA2AParts,hnone]
  rfl

/-- What a produced artifact says, it says as a final answer or as the result of a tool. -/
theorem update_speaks {r : ArtifactRecord} {agent : Option AgentId} {p : ArtifactProducer}
    (h : r.MadeBy agent p) (htext : textFromA2AArtifact (artifactUpdate text event task r) ≠ "") :
    BringsAnswer (artifactUpdate text event task r) ∨
      BringsToolText (artifactUpdate text event task r) := by
  obtain ⟨hparts,hkind⟩ := @artifactUpdate_artifact text event task r
  rw [h.kind] at hkind
  cases p with
  | toolResult => exact .inr ⟨hkind,htext⟩
  | observations =>
    rw [hparts] at htext
    exact absurd (textFromA2AParts_data (h.data rfl)) htext
  | finalAnswer | remoteFinalAnswer =>
    exact .inl ⟨(@artifactUpdate_members text event task r).2.2.2,hkind⟩

end Payloads

section Merge

/-- The current record is kept, completed or replaced. -/
theorem mergeTaskProjection_cases (clock : Clock) (current incoming : AgentTask) :
    mergeTaskProjection clock current incoming = current ∨
      mergeTaskProjection clock current incoming = mergeEqualTaskProjection current incoming ∨
      mergeTaskProjection clock current incoming = mergeAcceptedTaskProjection current incoming := by
  have hundated : (taskLifecycleRevision current = none ∨ taskLifecycleRevision incoming = none) →
      mergeTaskProjection clock current incoming = current ∨
      mergeTaskProjection clock current incoming = mergeAcceptedTaskProjection current incoming := by
    intro hnone
    unfold mergeTaskProjection
    split
    · rename_i hcurrent hincoming
      rcases hnone with hnone | hnone
      · exact nomatch hcurrent.symm.trans hnone
      · exact nomatch hincoming.symm.trans hnone
    · split
      · split
        · exact .inl rfl
        · exact .inr rfl
      · exact .inr rfl
  cases hcurrent : taskLifecycleRevision current with
  | none => exact (hundated (.inl hcurrent)).imp_right .inr
  | some r =>
    cases hincoming : taskLifecycleRevision incoming with
    | none => exact (hundated (.inr hincoming)).imp_right .inr
    | some r' =>
      simp only [mergeTaskProjection,hcurrent,hincoming]
      split_ifs <;> simp

/-- A merged record has the answer of one of the two. -/
theorem mergeTaskProjection_answer {clock : Clock} {current incoming : AgentTask} {s : String}
    (h : (mergeTaskProjection clock current incoming).finalAnswer = .value s) :
    current.finalAnswer = .value s ∨ incoming.finalAnswer = .value s := by
  have horElse : ∀ a b : Field String, a.orElse b = .value s → a = .value s ∨ b = .value s := by
    intro a b h
    cases a with
    | value => exact .inl h
    | absent | null => exact .inr h
  rcases mergeTaskProjection_cases clock current incoming with heq | heq | heq <;> rw [heq] at h
  · exact .inl h
  · exact horElse _ _ h
  · exact (horElse _ _ h).symm

/-- An event leaves the answer or brings its own. -/
theorem applyTaskEvent_answer {clock : Clock} {tasks : TaskProjectionState} {event : AgentTaskEvent}
    {finalAnswer : Option String} {t : String} {task : AgentTask} {s : String}
    (htask : applyTaskEvent clock tasks event finalAnswer t = some task)
    (h : task.finalAnswer = .value s) :
    finalAnswer = some s ∨ ∃ before, tasks t = some before ∧ before.finalAnswer = .value s := by
  cases hcurrent : tasks event.taskId with
  | none =>
    simp only [applyTaskEvent,hcurrent] at htask
    exact .inr ⟨task,htask,h⟩
  | some current =>
    simp only [applyTaskEvent,hcurrent] at htask
    by_cases ht : t = event.taskId
    · subst ht
      rw [Function.update_self,Option.some.injEq] at htask
      subst htask
      rcases mergeTaskProjection_answer h with h | h
      · exact .inr ⟨current,hcurrent,h⟩
      · cases finalAnswer with
        | none => exact .inr ⟨current,hcurrent,h⟩
        | some answer =>
          left
          simpa [eventCandidate,Field.ofOption,Field.orElse] using h
    · rw [Function.update_of_ne ht] at htask
      exact .inr ⟨task,htask,h⟩

end Merge

section Delivery

variable {core : CoreEnv} {env : LedgerEnv} {t : TaskId}

/-- How an event arrives: the states in which it is projected, and what the client adds. -/
structure Arrival where
  read : Nat
  seen : Nat
  now : String
  timestamp : Option String
  shown : Option AgentTask

/-- The payloads that have arrived, in order, and the tasks after them. -/
structure EventPath where
  payloads : List Json
  tasks : TaskProjectionState

variable (life : TaskLife core env t) (text : TextEnv) (clock : Clock)

/-- The next event of the task arrives. -/
def deliverNext (a : Arrival) (p : EventPath) : Option EventPath :=
  match (publishedEvents life)[p.payloads.length]?,(life.state a.seen).tasks.get t with
  | some event,some task =>
    match (projectClassifiedMainAgentTaskEvent text event task).run (life.state a.read) with
    | .ok (some payload,_) =>
      (recordTaskEnvelope clock a.now a.shown p.tasks ⟨payload,a.timestamp⟩).map fun tasks =>
        ⟨p.payloads++[payload],tasks⟩
    | _ => none
  | _,_ => none

/-- The answer shown for a task is that of an update that brought a final answer. -/
def Answered (t : TaskId) (p : EventPath) : Prop :=
  ∀ task s, p.tasks t = some task → task.finalAnswer = .value s →
    ∃ payload ∈ p.payloads, BringsAnswer payload ∧ textFromA2AArtifact payload = s

variable {life text clock}

theorem produced_state (hlife : ∀ a ∈ life.before++life.during, a.offered = true) (n : Nat) :
    (life.state n).artifactOwners.Produced := by
  refine AgentTxn.produced_history core env _ (fun a ha => ?_) coupled_empty fun id r hr => ?_
  · refine hlife a ?_
    rcases List.mem_append.mp ha with ha | ha
    · exact List.mem_append_left _ ha
    · exact List.mem_append_right _ (List.mem_of_mem_take ha)
  · cases hr

/-- One arrival: an update that is no tool's text changes the answer to a final one at most. -/
theorem deliverNext_answered (hlife : ∀ a ∈ life.before++life.during, a.offered = true)
    {a : Arrival} {p p' : EventPath} (hd : deliverNext life text clock a p = some p')
    (h : Answered t p) (hsilent : ∀ payload ∈ p'.payloads, ¬ BringsToolText payload) :
    Answered t p' := by
  simp only [deliverNext] at hd
  split at hd
  · rename_i event task _ _
    split at hd
    · rename_i payload _ hproject
      obtain ⟨tasks,hrecord,rfl⟩ := Option.map_eq_some_iff.mp hd
      obtain ⟨update,_,rfl⟩ := Option.map_eq_some_iff.mp hrecord
      intro task' s htask hs
      rcases applyTaskEvent_answer htask hs with hanswer | ⟨before,hbefore,hs⟩
      · refine ⟨payload,List.mem_append_right _ (List.mem_singleton_self _),?_⟩
        simp only [ite_eq_iff,reduceCtorEq,and_false,false_or,Option.some.injEq] at hanswer
        obtain ⟨hne,rfl⟩ := hanswer
        refine ⟨?_,rfl⟩
        rcases payload_of_project hproject with ⟨status,rfl⟩ | ⟨r,hr,rfl⟩
        · exact absurd (statusUpdate_silent status) hne
        · obtain ⟨agent,producer,_,hmade⟩ :=
            produced_state hlife a.read r.artifactId r (Table.get_of_mem hr)
          exact (update_speaks hmade hne).resolve_right
            (hsilent _ (List.mem_append_right _ (List.mem_singleton_self _)))
      · obtain ⟨payload',hmem,hbrings⟩ := h before s hbefore hs
        exact ⟨payload',List.mem_append_left _ hmem,hbrings⟩
    · cases hd
  · cases hd

theorem deliverNext_payloads {a : Arrival} {p p' : EventPath}
    (hd : deliverNext life text clock a p = some p') : p.payloads ⊆ p'.payloads := by
  simp only [deliverNext] at hd
  split at hd
  · split at hd
    · obtain ⟨tasks,_,rfl⟩ := Option.map_eq_some_iff.mp hd
      exact List.subset_append_left _ _
    · cases hd
  · cases hd

/-- After every prefix of the events of a task, delivered in order to a record without an answer,
the answer is that of a final answer, if no result of a tool among them has a text. -/
theorem final_answer_of_delivered (life : TaskLife core env t)
    (hlife : ∀ a ∈ life.before++life.during, a.offered = true) (text : TextEnv) (clock : Clock)
    (arrivals : List Arrival) {tasks : TaskProjectionState} {p : EventPath}
    (hstart : ∀ task s, tasks t = some task → task.finalAnswer ≠ .value s)
    (hrun : exec (deliverNext life text clock) arrivals ⟨[],tasks⟩ = some p)
    (hsilent : ∀ payload ∈ p.payloads, ¬ BringsToolText payload) : Answered t p := by
  have hinv : (∀ payload ∈ p.payloads, ¬ BringsToolText payload) → Answered t p := by
    refine exec_invariant (I := fun p => (∀ payload ∈ p.payloads, ¬ BringsToolText payload) →
      Answered t p) (fun a p p' h hd hsilent => ?_) (fun _ task s htask hs => ?_) hrun
    · exact deliverNext_answered hlife hd
        (h fun payload hmem => hsilent payload (deliverNext_payloads hd hmem)) hsilent
    · exact absurd hs (hstart task s htask)
  exact hinv hsilent

end Delivery

section Sample

/-- The record that a message stream starts with. -/
def sampleTasks (life : TaskLife core env "task") : TaskProjectionState :=
  Function.update (fun _ => none) "task" (fetchTask life sampleText (.streamed ⟨0,none,none⟩ "now"))

/-- All events of a life, projected in a late state. -/
def sampleArrivals (n : Nat) : List Arrival := List.replicate n ⟨9,9,"now",none,none⟩

theorem final_answer_of_delivered_sample :
    ∃ p, exec (deliverNext sampleLife sampleText sampleClock) (sampleArrivals 6)
      ⟨[],sampleTasks sampleLife⟩ = some p ∧ p.payloads.length = 6 ∧ Answered "task" p := by
  have hrun : (exec (deliverNext sampleLife sampleText sampleClock) (sampleArrivals 6)
      ⟨[],sampleTasks sampleLife⟩).map (fun p => (p.payloads.length,
        decide (∀ payload ∈ p.payloads, ¬ BringsToolText payload))) = some (6,true) := by
    decide +kernel
  obtain ⟨p,hp,hfacts⟩ := Option.map_eq_some_iff.mp hrun
  obtain ⟨hlength,hsilent⟩ := Prod.mk.inj hfacts
  refine ⟨p,hp,hlength,final_answer_of_delivered sampleLife (by decide) sampleText sampleClock _
    (fun task s htask hs => ?_) hp (of_decide_eq_true hsilent)⟩
  have hnull : (sampleTasks sampleLife "task").map (·.finalAnswer) = some .null := by
    decide +kernel
  rw [htask,Option.map_some,hs] at hnull
  cases hnull

/-- After all of its transactions the store does not change any more. -/
theorem alive_of_le {before during : List AgentTxn} {core : CoreEnv} {env : LedgerEnv} {t : TaskId}
    (h : ∀ n ≤ during.length, ((AgentTxn.history core env (before++during.take n)
      AgentDb.empty).tasks.get t).isSome = true) (n : Nat) :
    ((AgentTxn.history core env (before++during.take n) AgentDb.empty).tasks.get t).isSome =
      true := by
  rcases Nat.le_total n during.length with hle | hle
  · exact h n hle
  · rw [List.take_of_length_le hle,← during.take_length]
    exact h _ (Nat.le_refl _)

/-- A task that deploys and then fails. -/
def failedLife : TaskLife sampleCore deployEnv "task" where
  before := sampleAdmission.map .core
  during := (CoreTxn.claimLocalExecution "task" :: (deployment "staging" "call-1" stagingId ++
    [.recordLocalTaskFailure "task" (.runtimeError "connection lost")])).map .core
  alive := alive_of_le (by decide +kernel)

/-- The browser shows the output of the tool as the final answer of the failed task. -/
theorem tool_text_becomes_final_answer :
    ∃ p task, exec (deliverNext failedLife sampleText sampleClock) (sampleArrivals 5)
        ⟨[],sampleTasks failedLife⟩ = some p ∧ p.tasks "task" = some task ∧
      task.status = .failed ∧ task.finalAnswer = .value "deployed to staging" ∧
      ¬ Answered "task" p := by
  have hrun : (exec (deliverNext failedLife sampleText sampleClock) (sampleArrivals 5)
      ⟨[],sampleTasks failedLife⟩).map (fun p => (decide (∃ u ∈ p.payloads, BringsAnswer u),
        (p.tasks "task").map fun task => (task.status,task.finalAnswer))) =
      some (false,some (.failed,.value "deployed to staging")) := by
    decide +kernel
  obtain ⟨p,hp,hfacts⟩ := Option.map_eq_some_iff.mp hrun
  obtain ⟨hnone,htask⟩ := Prod.mk.inj hfacts
  obtain ⟨task,htask,hshown⟩ := Option.map_eq_some_iff.mp htask
  obtain ⟨hstatus,hanswer⟩ := Prod.mk.inj hshown
  refine ⟨p,task,hp,htask,hstatus,hanswer,fun h => of_decide_eq_false hnone ?_⟩
  obtain ⟨u,hu,hbrings,_⟩ := h task _ htask hanswer
  exact ⟨u,hu,hbrings⟩

end Sample
end VermayAgent.Web
