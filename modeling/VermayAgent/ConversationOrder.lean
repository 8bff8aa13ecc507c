import Mathlib.Data.List.NodupEquivFin
import VermayAgent.TaskPresentation
import VermayAgent.Library.Comparison

/-! The order of a conversation in the browser.
Messages stand by their time; the messages of one task that have one time stand with the user's
first, and all others as they came. The last two rules do not fit together in every list. -/
namespace VermayAgent.Web
open Library

inductive AgentMessageRole where
  | user
  | assistant
  | system
deriving DecidableEq, Repr

structure AgentMessage where
  id : String
  role : AgentMessageRole
  content : String
  createdAt : String
  taskId : Field String
  loading : Field Bool
deriving DecidableEq

namespace AgentMessage

/-- The task of the message; the empty text is none. -/
def task (m : AgentMessage) : Option String :=
  match m.taskId with
  | .value t => if t = "" then none else some t
  | _ => none

/-- `{...current, ...incoming}`. -/
def spread (current incoming : AgentMessage) : AgentMessage :=
  {incoming with
    taskId := current.taskId.spread incoming.taskId
    loading := current.loading.spread incoming.loading}

end AgentMessage

section Timestamps

variable (parse : String → Option ℤ)

/-- `Date.parse` is `parse`, without a value where it is not finite. -/
def conversationMessageTimestamp (m : AgentMessage) : ℤ := (parse m.createdAt).getD 0

def isTransientTaskAssistantMessage (m : AgentMessage) : Bool :=
  m.role == .assistant && m.task.isSome && (m.loading == .value true || m.content == "")

/-- The latest time of a user's message of the task, at least 0; none without such a message. -/
def latestUserTimestamp (messages : List AgentMessage) (t : String) : Option ℤ :=
  messages.foldl (fun latest m =>
    if m.role = .user ∧ m.task = some t then
      some (max (latest.getD 0) (conversationMessageTimestamp parse m))
    else latest) none

def conversationSortTimestamp (messages : List AgentMessage) (m : AgentMessage) : ℤ :=
  match m.task with
  | none => conversationMessageTimestamp parse m
  | some t =>
    let timestamp := conversationMessageTimestamp parse m
    if isTransientTaskAssistantMessage m then
      max timestamp ((latestUserTimestamp parse messages t).getD timestamp)
    else timestamp

/-- The comparison that the sort is given; an entry is a message and its position. -/
def compareEntries (messages : List AgentMessage) (left right : AgentMessage × ℕ) : ℤ :=
  let leftTimestamp := conversationSortTimestamp parse messages left.1
  let rightTimestamp := conversationSortTimestamp parse messages right.1
  if leftTimestamp ≠ rightTimestamp then leftTimestamp-rightTimestamp
  else if left.1.task.isSome = true ∧ left.1.task = right.1.task ∧
      left.1.role ≠ right.1.role then
    if left.1.role = .user then -1
    else if right.1.role = .user then 1
    else (left.2 : ℤ)-right.2
  else (left.2 : ℤ)-right.2

def sortConversationMessages (algorithm : SortAlgorithm (AgentMessage × ℕ))
    (messages : List AgentMessage) : List AgentMessage :=
  (algorithm.sort (compareEntries parse messages) messages.zipIdx).map Prod.fst

def isPending (id : String) : Bool := id.startsWith "pending:"

/-- Set an entry of the map: in place where the id is known, at the end where it is not. -/
def putMessage (combine : AgentMessage → AgentMessage) (byId : List AgentMessage)
    (m : AgentMessage) : List AgentMessage :=
  if byId.any (·.id == m.id) then byId.map fun current =>
    if current.id = m.id then combine current else current
  else byId ++ [m]

/-- An entry of the map that the first list is made into. -/
def replaceMessage (byId : List AgentMessage) (m : AgentMessage) : List AgentMessage :=
  putMessage (fun _ => m) byId m

def setMessage (byId : List AgentMessage) (m : AgentMessage) : List AgentMessage :=
  putMessage (·.spread m) byId m

/-- A durable answer of a task takes the place of the answers that were pending for it. -/
def receiveMessage (byId : List AgentMessage) (m : AgentMessage) : List AgentMessage :=
  if m.role = .assistant ∧ m.task.isSome = true ∧ isPending m.id = false then
    setMessage (byId.filter fun existing =>
      !(isPending existing.id && existing.role == .assistant && existing.taskId == m.taskId)) m
  else setMessage byId m

def mergeConversationMessages (algorithm : SortAlgorithm (AgentMessage × ℕ))
    (previous incoming : List AgentMessage) : List AgentMessage :=
  sortConversationMessages parse algorithm
    (incoming.foldl receiveMessage (previous.foldl replaceMessage []))

end Timestamps

section Merge

variable {combine : AgentMessage → AgentMessage} {byId : List AgentMessage} {m : AgentMessage}

theorem putMessage_ids (hcombine : ∀ current, (combine current).id = m.id) :
    (putMessage combine byId m).map (·.id) =
      if m.id ∈ byId.map (·.id) then byId.map (·.id) else byId.map (·.id) ++ [m.id] := by
  have hany : byId.any (·.id == m.id) = true ↔ m.id ∈ byId.map (·.id) := by simp
  unfold putMessage
  by_cases h : m.id ∈ byId.map (·.id)
  · rw [if_pos (hany.mpr h),if_pos h,List.map_map]
    refine List.map_congr_left fun current _ => ?_
    change (if current.id = m.id then combine current else current).id = current.id
    split
    · rename_i hid
      rw [hcombine,hid]
    · rfl
  · rw [if_neg (mt hany.mp h),if_neg h,List.map_append]
    rfl

theorem putMessage_nodup (hcombine : ∀ current, (combine current).id = m.id)
    (h : (byId.map (·.id)).Nodup) : ((putMessage combine byId m).map (·.id)).Nodup := by
  rw [putMessage_ids hcombine]
  split
  · exact h
  · rename_i hid
    exact List.nodup_append.mpr ⟨h,List.nodup_singleton _,fun a ha b hb => by
      rw [List.mem_singleton.mp hb]
      exact fun heq => hid (heq ▸ ha)⟩

theorem receiveMessage_nodup (m : AgentMessage) (h : (byId.map (·.id)).Nodup) :
    ((receiveMessage byId m).map (·.id)).Nodup := by
  unfold receiveMessage
  split
  · exact @putMessage_nodup (·.spread m) _ m (fun _ => rfl) (h.sublist (List.filter_sublist.map _))
  · exact @putMessage_nodup (·.spread m) _ m (fun _ => rfl) h

theorem mem_putMessage (hcombine : ∀ current, (combine current).id = m.id) {x : AgentMessage}
    (hx : x ∈ putMessage combine byId m) : x ∈ byId ∨ x.id = m.id := by
  unfold putMessage at hx
  split at hx
  · obtain ⟨current,hcurrent,rfl⟩ := List.mem_map.mp hx
    split
    · exact .inr (hcombine current)
    · exact .inl hcurrent
  · rcases List.mem_append.mp hx with hx | hx
    · exact .inl hx
    · exact .inr (by rw [List.mem_singleton.mp hx])

/-- Once the durable answer of a task is there, no pending answer of the task is. -/
theorem receiveMessage_pending (hrole : m.role = .assistant) (htask : m.task.isSome = true)
    (hid : isPending m.id = false) {x : AgentMessage} (hx : x ∈ receiveMessage byId m)
    (hpending : isPending x.id = true) : ¬ (x.role = .assistant ∧ x.taskId = m.taskId) := by
  rintro ⟨hxrole,hxtask⟩
  rw [receiveMessage,if_pos ⟨hrole,htask,hid⟩] at hx
  rcases @mem_putMessage (·.spread m) _ m (fun _ => rfl) x hx with hx | hxid
  · simp [hpending,hxrole,hxtask] at hx
  · rw [hxid,hid] at hpending
    cases hpending

theorem mergeConversationMessages_nodup (parse : String → Option ℤ)
    (algorithm : SortAlgorithm (AgentMessage × ℕ)) (previous incoming : List AgentMessage) :
    ((mergeConversationMessages parse algorithm previous incoming).map (·.id)).Nodup := by
  have hprevious : ((previous.foldl replaceMessage []).map (·.id)).Nodup := by
    have hnil : (([] : List AgentMessage).map (·.id)).Nodup := List.nodup_nil
    refine List.foldlRecOn (motive := fun byId => (byId.map (·.id)).Nodup) previous replaceMessage
      hnil fun _ h m _ => ?_
    exact @putMessage_nodup (fun _ => m) _ m (fun _ => rfl) h
  have hincoming : ((incoming.foldl receiveMessage
      (previous.foldl replaceMessage [])).map (·.id)).Nodup :=
    List.foldlRecOn (motive := fun byId => (byId.map (·.id)).Nodup) incoming receiveMessage
      hprevious fun _ h m _ => receiveMessage_nodup m h
  unfold mergeConversationMessages sortConversationMessages
  have hperm := (algorithm.perm (compareEntries parse (incoming.foldl receiveMessage
    (previous.foldl replaceMessage []))) (List.zipIdx (incoming.foldl receiveMessage
      (previous.foldl replaceMessage [])))).map Prod.fst
  rw [List.zipIdx_map_fst] at hperm
  exact (hperm.map (·.id)).nodup_iff.mpr hincoming

end Merge

/-- A user's message and a message of its task that is not the user's. -/
def Asks (question answer : AgentMessage) : Prop :=
  question.task.isSome = true ∧ question.task = answer.task ∧ question.role = .user ∧
    answer.role ≠ .user

instance (question answer : AgentMessage) : Decidable (Asks question answer) :=
  inferInstanceAs (Decidable (_ ∧ _))

/-- A third message of the task is the user's, and asks too, or is asked for. -/
theorem Asks.third {question answer m : AgentMessage} (h : Asks question answer)
    (hm : m.task = answer.task) : Asks m answer ∨ Asks question m := by
  obtain ⟨hsome,htask,hquestion,hanswer⟩ := h
  by_cases hrole : m.role = .user
  · exact .inl ⟨by rw [hm,← htask]; exact hsome,hm,hrole,hanswer⟩
  · exact .inr ⟨hsome,by rw [hm,htask],hquestion,hrole⟩

theorem Asks.not_symm {a b : AgentMessage} (h : Asks a b) : ¬ Asks b a := fun h' => h'.2.2.2 h.2.2.1

/-- An answer, then a message from outside the task, then a question of the task, all of one
effective time. -/
def Interleaved (parse : String → Option ℤ) (messages : List AgentMessage) : Prop :=
  ∃ answer ∈ messages.zipIdx, ∃ other ∈ messages.zipIdx, ∃ question ∈ messages.zipIdx,
    answer.2 < other.2 ∧ other.2 < question.2 ∧ Asks question.1 answer.1 ∧
    other.1.task ≠ answer.1.task ∧
    conversationSortTimestamp parse messages answer.1 =
      conversationSortTimestamp parse messages other.1 ∧
    conversationSortTimestamp parse messages other.1 =
      conversationSortTimestamp parse messages question.1

section Comparison

variable {parse : String → Option ℤ} {messages : List AgentMessage} {a b c : AgentMessage × ℕ}

/-- The comparison by its rules. -/
theorem compareEntries_eq : compareEntries parse messages a b =
    if conversationSortTimestamp parse messages a.1 ≠ conversationSortTimestamp parse messages b.1
      then conversationSortTimestamp parse messages a.1-conversationSortTimestamp parse messages b.1
    else if Asks a.1 b.1 then -1
    else if Asks b.1 a.1 then 1
    else (a.2 : ℤ)-b.2 := by
  unfold compareEntries Asks
  dsimp only
  split
  · rfl
  · by_cases htask : a.1.task = b.1.task
    · by_cases ha : a.1.role = .user
      · by_cases hb : b.1.role = .user
        · simp [htask,ha,hb]
        · simp [htask,ha,hb,Ne.symm hb]
      · by_cases hb : b.1.role = .user
        · simp [htask,ha,hb]
        · simp [htask,ha,hb]
    · simp [htask,Ne.symm htask]

theorem compareEntries_lt : compareEntries parse messages a b < 0 ↔
    conversationSortTimestamp parse messages a.1 < conversationSortTimestamp parse messages b.1 ∨
      conversationSortTimestamp parse messages a.1 =
        conversationSortTimestamp parse messages b.1 ∧
      (Asks a.1 b.1 ∨ ¬ Asks b.1 a.1 ∧ a.2 < b.2) := by
  rw [compareEntries_eq]
  split
  · rename_i h
    constructor
    · intro hlt
      exact .inl (by omega)
    · rintro (hlt | ⟨heq,-⟩)
      · omega
      · exact absurd heq h
  · rename_i h
    have heq := not_not.mp h
    split
    · rename_i hab
      simp [heq,hab]
    · rename_i hab
      split
      · rename_i hba
        simp [heq,hab,hba]
      · rename_i hba
        simp only [heq,hab,hba,lt_self_iff_false,not_false_eq_true,true_and,false_or]
        omega

theorem compareEntries_antisymm (a b : AgentMessage × ℕ) :
    compareEntries parse messages b a = -compareEntries parse messages a b := by
  rw [compareEntries_eq,compareEntries_eq]
  by_cases h : conversationSortTimestamp parse messages a.1 =
    conversationSortTimestamp parse messages b.1
  · simp only [h,ne_eq,not_true_eq_false,if_false]
    by_cases hab : Asks a.1 b.1
    · simp [hab,hab.not_symm]
    · by_cases hba : Asks b.1 a.1
      · simp [hab,hba]
      · simp only [hab,hba,if_false]
        omega
  · simp only [ne_eq,h,Ne.symm h,not_false_eq_true,if_true]
    omega

theorem eq_of_mem_zipIdx (ha : a ∈ messages.zipIdx) (hb : b ∈ messages.zipIdx) (h : a.2 = b.2) :
    a = b := by
  obtain ⟨a,i⟩ := a
  obtain ⟨b,j⟩ := b
  cases h
  rw [List.mem_zipIdx_iff_getElem?] at ha hb
  exact Prod.ext (Option.some.inj (ha.symm.trans hb)) rfl

theorem eq_of_compareEntries (ha : a ∈ messages.zipIdx) (hb : b ∈ messages.zipIdx)
    (h : compareEntries parse messages a b = 0) : a = b := by
  rw [compareEntries_eq] at h
  split at h
  · omega
  · split at h
    · cases h
    · split at h
      · cases h
      · exact eq_of_mem_zipIdx ha hb (by omega)

/-- Where a question stands after its answer, whatever stands between them is of the task. -/
theorem task_of_between {answer other question : AgentMessage × ℕ}
    (h : ¬ Interleaved parse messages) (hanswer : answer ∈ messages.zipIdx)
    (hother : other ∈ messages.zipIdx) (hquestion : question ∈ messages.zipIdx)
    (hasks : Asks question.1 answer.1)
    (htime : conversationSortTimestamp parse messages answer.1 =
      conversationSortTimestamp parse messages other.1)
    (htime' : conversationSortTimestamp parse messages other.1 =
      conversationSortTimestamp parse messages question.1)
    (hlt : answer.2 < other.2) (hle : other.2 ≤ question.2) : other.1.task = answer.1.task := by
  by_contra htask
  rcases hle.lt_or_eq with hlt' | heq
  · exact h ⟨answer,hanswer,other,hother,question,hquestion,hlt,hlt',hasks,htask,htime,htime'⟩
  · have : other = question := eq_of_mem_zipIdx hother hquestion heq
    exact htask (this ▸ hasks.2.1)

/-- Three entries of one time, by the ways in which the first two pairs may be ordered. -/
theorem compareEntries_trans (h : ¬ Interleaved parse messages) (ha : a ∈ messages.zipIdx)
    (hb : b ∈ messages.zipIdx) (hc : c ∈ messages.zipIdx)
    (hab : compareEntries parse messages a b < 0) (hbc : compareEntries parse messages b c < 0) :
    compareEntries parse messages a c < 0 := by
  rw [compareEntries_lt] at hab hbc ⊢
  rcases hab with hab | ⟨hab,hrule⟩
  · rcases hbc with hbc | ⟨hbc,-⟩
    · exact .inl (hab.trans hbc)
    · exact .inl (hbc ▸ hab)
  rcases hbc with hbc | ⟨hbc,hrule'⟩
  · exact .inl (hab ▸ hbc)
  refine .inr ⟨hab.trans hbc,?_⟩
  rcases hrule with hasks | ⟨hasks,hlt⟩
  · rcases hrule' with hasks' | ⟨hasks',hlt'⟩
    · exact absurd hasks'.2.2.1 hasks.2.2.2
    · -- `c` stands after the answer `b`: it is asked for, or of another task and after `a` too
      by_cases htask : c.1.task = b.1.task
      · exact .inl ((hasks.third htask).resolve_left hasks')
      · refine .inr ⟨fun hca => htask (hca.2.1.trans hasks.2.1),?_⟩
        by_contra hge
        exact htask (task_of_between h hb hc ha hasks hbc (hab.trans hbc).symm hlt' (by omega))
  · rcases hrule' with hasks' | ⟨hasks',hlt'⟩
    · by_cases htask : a.1.task = c.1.task
      · exact .inl ((hasks'.third htask).resolve_right hasks)
      · refine .inr ⟨fun hca => htask hca.2.1.symm,?_⟩
        by_contra hge
        have hne : c.2 ≠ a.2 := fun heq => htask (by rw [eq_of_mem_zipIdx hc ha heq])
        exact htask (task_of_between h hc ha hb hasks' (hab.trans hbc).symm hab (by omega)
          (by omega))
    · refine .inr ⟨fun hca => ?_,hlt.trans hlt'⟩
      have htask : b.1.task = a.1.task :=
        task_of_between h ha hb hc hca hab hbc hlt (Nat.le_of_lt hlt')
      rcases hca.third htask with hba | hcb
      · exact hasks hba
      · exact hasks' hcb

/-- An interleaved list has a cycle: answer, other message, question, and the answer again. -/
theorem not_consistent_of_interleaved (h : Interleaved parse messages) :
    ¬ Consistent (compareEntries parse messages) messages.zipIdx := by
  obtain ⟨answer,hanswer,other,hother,question,hquestion,hlt,hlt',hasks,htask,htime,htime'⟩ := h
  intro hconsistent
  have h₁ : compareEntries parse messages answer other < 0 :=
    compareEntries_lt.mpr (.inr ⟨htime,.inr ⟨fun h => htask h.2.1,hlt⟩⟩)
  have h₂ : compareEntries parse messages other question < 0 :=
    compareEntries_lt.mpr (.inr ⟨htime',.inr ⟨fun h => htask (h.2.1.symm.trans hasks.2.1),hlt'⟩⟩)
  have h₃ : compareEntries parse messages question answer < 0 :=
    compareEntries_lt.mpr (.inr ⟨(htime.trans htime').symm,.inl hasks⟩)
  have h₄ := hconsistent.trans hanswer hother hquestion h₁ h₂
  have hantisymm : compareEntries parse messages question answer =
      -compareEntries parse messages answer question := compareEntries_antisymm answer question
  omega

theorem consistent_of_not_interleaved (h : ¬ Interleaved parse messages) :
    Consistent (compareEntries parse messages) messages.zipIdx :=
  .of_strict compareEntries_antisymm (fun _ ha _ hb => eq_of_compareEntries ha hb)
    fun _ ha _ hb _ hc => compareEntries_trans h ha hb hc

end Comparison

/-- No answer stands before a question of its task that has the same effective time. -/
def QuestionsFirst (parse : String → Option ℤ) (messages result : List AgentMessage) : Prop :=
  result.Pairwise fun a b => ¬ (Asks b a ∧
    conversationSortTimestamp parse messages a = conversationSortTimestamp parse messages b)

theorem questionsFirst_sort {parse : String → Option ℤ} {messages : List AgentMessage}
    (algorithm : SortAlgorithm (AgentMessage × ℕ)) (h : ¬ Interleaved parse messages) :
    QuestionsFirst parse messages (sortConversationMessages parse algorithm messages) := by
  have hsorted := algorithm.sorted _ _ (consistent_of_not_interleaved h)
  refine List.pairwise_map.mpr (hsorted.imp ?_)
  rintro a b hba ⟨hasks,htime⟩
  exact hba (compareEntries_lt.mpr (.inr ⟨htime.symm,.inl hasks⟩))

/-- The conversation has one order, with its questions first, exactly where no message of another
task stands between an answer and a later question of its time. -/
theorem conversation_order (parse : String → Option ℤ) (messages : List AgentMessage) :
    (Consistent (compareEntries parse messages) messages.zipIdx ∧
      (∀ algorithm algorithm' : SortAlgorithm (AgentMessage × ℕ),
        sortConversationMessages parse algorithm messages =
          sortConversationMessages parse algorithm' messages) ∧
      ∀ algorithm, QuestionsFirst parse messages
        (sortConversationMessages parse algorithm messages)) ↔ ¬ Interleaved parse messages := by
  constructor
  · intro h hinterleaved
    exact not_consistent_of_interleaved hinterleaved h.1
  · intro h
    have hconsistent := consistent_of_not_interleaved h
    refine ⟨hconsistent,?_,fun algorithm => questionsFirst_sort algorithm h⟩
    intro algorithm algorithm'
    exact congrArg (List.map Prod.fst) (sortedBy_unique compareEntries_antisymm
      (fun _ ha _ hb => eq_of_compareEntries ha hb) (algorithm.sorted _ _ hconsistent)
      (algorithm'.sorted _ _ hconsistent) (algorithm.perm _ _) (algorithm'.perm _ _))

section Sample

def sampleMessage (id : String) (role : AgentMessageRole) (taskId : Field String) : AgentMessage :=
  ⟨id,role,"text","2026-08-02T00:00:00Z",taskId,.absent⟩

def sampleParse (createdAt : String) : Option ℤ :=
  if createdAt = "2026-08-02T00:00:00Z" then some 1785628800000 else none

/-- The answer of a task, a direct answer and a question of the task, of one millisecond. -/
def sampleConversation : List AgentMessage :=
  [sampleMessage "answer" .assistant (.value "task"),sampleMessage "other" .assistant .null,
    sampleMessage "question" .user (.value "task")]

theorem interleaved_sampleConversation :
    ¬ Consistent (compareEntries sampleParse sampleConversation) sampleConversation.zipIdx ∧
      ¬ QuestionsFirst sampleParse sampleConversation
        (sortConversationMessages sampleParse (.insertion _) sampleConversation) := by
  refine ⟨not_consistent_of_interleaved ?_,?_⟩
  · refine ⟨(sampleMessage "answer" .assistant (.value "task"),0),?_,
      (sampleMessage "other" .assistant .null,1),?_,
      (sampleMessage "question" .user (.value "task"),2),?_,?_⟩ <;> decide +kernel
  · unfold QuestionsFirst
    decide +kernel

end Sample
end VermayAgent.Web
