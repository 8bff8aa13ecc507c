import Mathlib.Data.List.Sort
import VermayAgent.MessageSequences

/-! The input of a task.
A task stores the sequence of its input message; what it shows to the model are the messages up to
that cut, which no later message of the context changes. -/
namespace VermayAgent
open Library Txn MainAgentStore

section Texts

/-- The characters that `str.isspace` accepts. -/
def isSpace (c : Char) : Bool :=
  let n := c.toNat
  (9 ≤ n && n ≤ 13) || (28 ≤ n && n ≤ 32) || n = 0x85 || n = 0xa0 || n = 0x1680 ||
    (0x2000 ≤ n && n ≤ 0x200a) || n = 0x2028 || n = 0x2029 || n = 0x202f || n = 0x205f || n = 0x3000

def strip (s : String) : String :=
  String.ofList (((s.toList.dropWhile isSpace).reverse.dropWhile isSpace).reverse)

/-- The parts that have a text, line by line. -/
def textFromParts (parts : List Json) : String :=
  strip (String.intercalate "\n" (
    parts.filterMap fun part => (part.member "text").asString.map strip))

def truncationSuffix : String := "\n[Earlier content truncated for context.]"

def truncateForContext (text : String) (limit : ℤ) : String :=
  if text.length ≤ limit then text
  else if limit ≤ truncationSuffix.length then firstChars limit.toNat text
  else firstChars (limit-truncationSuffix.length).toNat text ++ truncationSuffix

def messageWithText (message : MessageRecord) (text : String) : MessageRecord :=
  if text = textFromParts message.parts then message
  else {message with parts := [.obj [("kind",.str "text"),("text",.str text)]]}

/-- Bounds on the persisted history that is shown to the model. -/
structure ContextAssemblyPolicy where
  maxMessages : ℤ
  maxHistoryCharacters : ℤ
  maxMessageCharacters : ℤ
  maxMessages_pos : 0 < maxMessages
  maxHistoryCharacters_nonneg : 0 ≤ maxHistoryCharacters
  maxMessageCharacters_pos : 0 < maxMessageCharacters

def localTaskContextPolicy : ContextAssemblyPolicy :=
  ⟨16,18000,5000,by decide,by decide,by decide⟩

variable (protectedMessageId : MessageId) (policy : ContextAssemblyPolicy)

/-- From the newest message on, what the remaining characters allow. -/
def selectHistory : ℤ → List MessageRecord → List MessageRecord
  | _,[] => []
  | remaining,message::older =>
    if message.messageId = protectedMessageId then message::selectHistory remaining older
    else
      let text := textFromParts message.parts
      if text = "" ∨ remaining ≤ 0 then selectHistory remaining older
      else
        let boundedText := truncateForContext text (min policy.maxMessageCharacters remaining)
        if boundedText = "" then selectHistory remaining older
        else messageWithText message boundedText::selectHistory (remaining-boundedText.length) older

def boundHistory (messages : List MessageRecord) : List MessageRecord :=
  (selectHistory protectedMessageId policy policy.maxHistoryCharacters messages.reverse).reverse

end Texts

namespace MainAgentStore

/-- The messages of a context in ascending order; a limit takes them from the newest end. -/
def listContextMessages (contextId : ContextId) (limit : Option ℤ) (offset : ℤ)
    (throughSequence : Option ℤ) : StoreTxn (List MessageRecord) := do
  require (limit.all (1 ≤ ·) = true) (.valueError "context message limit must be positive")
  require (0 ≤ offset) (.valueError "context message offset must not be negative")
  require (offset = 0 ∨ limit.isSome = true) (.valueError "context message offset requires a limit")
  let rows ← select fun db => db.messages.rows.filter fun r =>
    r.contextId = contextId && throughSequence.all fun n => r.contextSequence ≤ n
  match limit with
  | none => return rows.insertionSort fun a b => a.contextSequence ≤ b.contextSequence
  | some n =>
    let newest := rows.insertionSort fun a b => b.contextSequence ≤ a.contextSequence
    return ((newest.drop offset.toNat).take n.toNat).reverse

def taskInputCut (taskId : TaskId) : StoreTxn TaskRecord := do
  let task ← requireTask taskId
  require (0 < task.inputContextSequence)
    (.runtimeError ("task input cut is unavailable: " ++ taskId))
  return task

def listTaskInputMessages (taskId : TaskId) (limit : ℤ) : StoreTxn (List MessageRecord) := do
  let task ← taskInputCut taskId
  listContextMessages task.contextId (some limit) 0 (some task.inputContextSequence)

end MainAgentStore

/-- `local_task_context`: the task's input cut under the policy of local tasks. -/
def localTaskContext (taskId : TaskId) : StoreTxn (List MessageRecord) := do
  let task ← taskInputCut taskId
  let messages ← listContextMessages task.contextId (some localTaskContextPolicy.maxMessages) 0
    (some task.inputContextSequence)
  return boundHistory task.inputMessageId localTaskContextPolicy messages

section History

variable {protectedMessageId : MessageId} {policy : ContextAssemblyPolicy}

theorem messageWithText_contextSequence (m : MessageRecord) (text : String) :
    (messageWithText m text).contextSequence = m.contextSequence := by
  unfold messageWithText
  split <;> rfl

/-- What is selected comes from the messages, each shortened at most. -/
theorem mem_selectHistory {x : MessageRecord} {remaining : ℤ} {l : List MessageRecord}
    (h : x ∈ selectHistory protectedMessageId policy remaining l) :
    ∃ m ∈ l, x.contextSequence = m.contextSequence := by
  induction l generalizing remaining with
  | nil => cases h
  | cons m older ih =>
    have holder : ∀ {remaining}, x ∈ selectHistory protectedMessageId policy remaining older →
        ∃ m' ∈ m::older, x.contextSequence = m'.contextSequence := fun h => by
      obtain ⟨m',hm',heq⟩ := ih h
      exact ⟨m',List.mem_cons_of_mem m hm',heq⟩
    simp only [selectHistory] at h
    split at h
    · rcases List.mem_cons.mp h with rfl | h
      · exact ⟨x,List.mem_cons_self,rfl⟩
      · exact holder h
    · split at h
      · exact holder h
      · split at h
        · exact holder h
        · rcases List.mem_cons.mp h with rfl | h
          · exact ⟨m,List.mem_cons_self,messageWithText_contextSequence _ _⟩
          · exact holder h

theorem mem_boundHistory {x : MessageRecord} {l : List MessageRecord}
    (h : x ∈ boundHistory protectedMessageId policy l) :
    ∃ m ∈ l, x.contextSequence = m.contextSequence := by
  obtain ⟨m,hm,heq⟩ := mem_selectHistory (List.mem_reverse.mp h)
  exact ⟨m,List.mem_reverse.mp hm,heq⟩

/-- The protected message stays as it is, wherever it stands; at the end, it ends the window. -/
theorem boundHistory_getLast? {m : MessageRecord} {l : List MessageRecord}
    (hm : m.messageId = protectedMessageId) (hlast : l.getLast? = some m) :
    (boundHistory protectedMessageId policy l).getLast? = some m := by
  obtain ⟨init,rfl⟩ := List.getLast?_eq_some_iff.mp hlast
  simp [boundHistory,selectHistory,hm]

end History

section Window

/-- Rows that stand in ascending order come out of the descending listing from behind. -/
theorem insertionSort_newest {l : List MessageRecord}
    (h : l.Pairwise fun a b => a.contextSequence < b.contextSequence) :
    l.insertionSort (fun a b => b.contextSequence ≤ a.contextSequence) = l.reverse := by
  have hreverse : l.reverse.Pairwise fun a b => b.contextSequence ≤ a.contextSequence :=
    List.pairwise_reverse.mpr (h.imp Nat.le_of_lt)
  have hsorted := List.pairwise_insertionSort
    (fun a b : MessageRecord => b.contextSequence ≤ a.contextSequence) l
  have hperm := (List.perm_insertionSort
    (fun a b : MessageRecord => b.contextSequence ≤ a.contextSequence) l).trans
    (List.reverse_perm l).symm
  refine hperm.eq_of_pairwise (fun a b ha hb hab hba => ?_) hsorted hreverse
  have ha := (List.mem_insertionSort _).mp ha
  have hb := List.mem_reverse.mp hb
  have hseq : a.contextSequence = b.contextSequence := Nat.le_antisymm hba hab
  have hnodup : (l.map (·.contextSequence)).Nodup := List.pairwise_map.mpr (h.imp Nat.ne_of_lt)
  exact List.inj_on_of_nodup_map hnodup ha hb hseq

/-- The newest `n` rows of a listing. -/
def newest (n : ℤ) (l : List MessageRecord) : List MessageRecord := l.drop (l.length-n.toNat)

theorem getLast?_newest {n : ℤ} (hn : 1 ≤ n) (l : List MessageRecord) :
    (newest n l).getLast? = l.getLast? := by
  rcases List.eq_nil_or_concat l with rfl | ⟨init,m,rfl⟩
  · simp [newest]
  · simp only [newest,List.concat_eq_append,List.length_append,List.length_singleton]
    rw [List.drop_append_of_le_length (by omega)]
    simp

end Window

section Cut

variable {db db' : AgentDb} {A : WriteScope} {t : TaskId} {r : TaskRecord} {m : MessageRecord}

/-- The messages of a context up to a sequence. -/
def AgentDb.messagesThrough (db : AgentDb) (c : ContextId) (n : Nat) : List MessageRecord :=
  (db.messagesIn c).filter fun m => m.contextSequence ≤ n

theorem Sequenced.ascending (h : Sequenced db) (c : ContextId) :
    (db.messagesIn c).Pairwise fun a b => a.contextSequence < b.contextSequence := by
  refine List.pairwise_map.mp ?_
  rw [h.numbers]
  exact List.pairwise_lt_range'

/-- Every local task has the message that it was made for. -/
def InputsStored (db : AgentDb) : Prop :=
  ∀ t r, db.tasks.get t = some r → r.assignedAgentId = none → db.InputOf r

theorem inputOf_congr {r' : TaskRecord} (h : r'.origin = r.origin) :
    db.InputOf r' ↔ db.InputOf r := by
  have hid : r'.inputMessageId = r.inputMessageId := congrArg TaskOrigin.inputMessageId h
  have hcontext : r'.contextId = r.contextId := congrArg TaskOrigin.contextId h
  have hsequence : r'.inputContextSequence = r.inputContextSequence :=
    congrArg TaskOrigin.inputContextSequence h
  simp only [AgentDb.InputOf,hid,hcontext,hsequence]

/-- An update of one task leaves what it was made from. -/
theorem InputsStored.update (h : InputsStored db) (p : TaskRecord → Bool) {f : TaskRecord → TaskRecord}
    (hf : ∀ r, (f r).taskId = r.taskId) (horigin : ∀ r, (f r).origin = r.origin) :
    InputsStored {db with tasks := db.tasks.update p f hf} := by
  intro t r hr hlocal
  have hr : (db.tasks.update p f hf).get t = some r := hr
  rw [Table.get_update] at hr
  obtain ⟨r₀,hr₀,rfl⟩ := Option.map_eq_some_iff.mp hr
  have hsame : (if p r₀ then f r₀ else r₀).origin = r₀.origin := by
    split
    · exact horigin r₀
    · rfl
  have hlocal₀ : r₀.assignedAgentId = none :=
    (congrArg TaskOrigin.assignedAgentId hsame).symm.trans hlocal
  exact (inputOf_congr hsame).mpr (h t r₀ hr₀ hlocal₀)

theorem InputsStored.write (hw : StoreWrite A db db') (h : InputsStored db) : InputsStored db' := by
  cases hw with
  | message hanswers hcontext hsequence hinsert =>
    intro t r hr hlocal
    obtain ⟨hpositive,m,hm,hinput⟩ := h t r hr hlocal
    refine ⟨hpositive,m,?_,hinput⟩
    have hfresh := Table.insert?_fresh hinsert
    refine (Table.get_insert? hinsert _).trans ?_
    rw [if_neg ?_,hm]
    intro heq
    rw [← heq,hfresh] at hm
    cases hm
  | task hcreates hretries hinput hcontext hthread hretry houtput hinsert =>
    intro t r hr hlocal
    have hr := (Table.get_insert? hinsert t).symm.trans hr
    split at hr
    · cases hr
      exact hinput hlocal
    · exact h t r hr hlocal
  | progress t horigin => exact h.update _ _ horigin
  | output => exact h.update _ _ fun _ => rfl
  | deletion taskIds hdeletes hrun =>
    rename_i c u
    have hdb := deleteContextRows_ok hrun
    intro t r hr hlocal
    rw [hdb] at hr
    obtain ⟨hr,hne⟩ := Option.filter_eq_some_iff.mp ((Table.get_delete _ _ _).symm.trans hr)
    obtain ⟨hpositive,m,hm,hcontext,hsequence⟩ := h t r hr hlocal
    refine ⟨hpositive,m,?_,hcontext,hsequence⟩
    rw [hdb]
    simp only [Table.get_delete,hm,Option.filter,hcontext]
    simpa using hne
  | _ => exact h

/-- The cut of a task: its own input message is the last of the messages up to its sequence. -/
structure CutIs (r : TaskRecord) (m : MessageRecord) (l : List MessageRecord) (db : AgentDb) :
    Prop where
  sequenced : Sequenced db
  stored : ∃ r', db.tasks.get r.taskId = some r' ∧ r'.origin = r.origin
  input : m ∈ db.messagesIn r.contextId
  sequence : m.contextSequence = r.inputContextSequence
  through : db.messagesThrough r.contextId r.inputContextSequence = l

/-- Later messages are numbered above the cut. -/
theorem messagesThrough_append {c : ContextId} {n : Nat} (h : Sequenced db')
    (hextends : db.messagesIn c <+: db'.messagesIn c) (hm : m ∈ db.messagesIn c)
    (hn : m.contextSequence = n) : db'.messagesThrough c n = db.messagesThrough c n := by
  obtain ⟨later,hlater⟩ := hextends
  have hascending := h.ascending c
  rw [← hlater,List.pairwise_append] at hascending
  have hnone : later.filter (fun m => m.contextSequence ≤ n) = [] := by
    refine List.filter_eq_nil_iff.mpr fun x hx hle => ?_
    have hlt := hascending.2.2 m hm x hx
    have hle := of_decide_eq_true hle
    omega
  rw [AgentDb.messagesThrough,← hlater,List.filter_append,hnone,List.append_nil]
  rfl

theorem CutIs.write {l : List MessageRecord} (hw : StoreWrite A db db')
    (hkept : ¬ A.deletes r.contextId) (h : CutIs r m l db) : CutIs r m l db' := by
  have hsequenced := h.sequenced.write hw
  have hextends := messagesIn_write hw hkept
  obtain ⟨r₁,hr₁,horigin₁⟩ := h.stored
  have hcontext : r₁.contextId = r.contextId := congrArg TaskOrigin.contextId horigin₁
  obtain ⟨r₂,hr₂,horigin₂⟩ := hw.origin hr₁ (hcontext ▸ hkept)
  refine ⟨hsequenced,⟨r₂,hr₂,horigin₂.trans horigin₁⟩,hextends.subset h.input,h.sequence,?_⟩
  rw [messagesThrough_append hsequenced hextends h.input h.sequence,h.through]

end Cut

section Reads

variable {P : AgentDb → Prop} {r : TaskRecord} {m : MessageRecord} {l : List MessageRecord}

theorem listContextMessages_reads {c : ContextId} {n : Nat} {limit : ℤ}
    (hP : ∀ db, P db → Sequenced db ∧ db.messagesThrough c n = l) (hlimit : 1 ≤ limit) :
    (listContextMessages c (some limit) 0 (some n)).Reads P (.ok (newest limit l)) := by
  refine .require_bind (by simpa using hlimit) (.require_bind le_rfl (.require_bind (.inl rfl)
    (.select_bind fun db hdb => ?_)))
  obtain ⟨hsequenced,hthrough⟩ := hP db hdb
  have hrows : (db.messages.rows.filter fun r =>
      r.contextId = c && (some (n : ℤ)).all fun n => r.contextSequence ≤ n) = l := by
    rw [← hthrough,AgentDb.messagesThrough,AgentDb.messagesIn,List.filter_filter]
    refine List.filter_congr fun m _ => ?_
    simp [Bool.and_comm]
  have hascending : l.Pairwise fun a b => a.contextSequence < b.contextSequence :=
    hthrough ▸ (hsequenced.ascending c).filter _
  refine congrArg Except.ok ?_
  rw [hrows,insertionSort_newest hascending,Int.toNat_zero,List.drop_zero,List.take_reverse,List.reverse_reverse]
  rfl

theorem listContextMessages_limit {c : ContextId} {offset limit : ℤ} {through : Option ℤ}
    (hlimit : ¬ 1 ≤ limit) : (listContextMessages c (some limit) offset through).Reads P
      (.error (.valueError "context message limit must be positive")) :=
  .require_fail (by simpa using hlimit)

/-- The cut that is read is the task's, at whatever time. -/
theorem taskInputCut_bind {α : Type} {f : TaskRecord → StoreTxn α} {result : Except PyException α}
    (hP : ∀ db, P db → CutIs r m l db) (hpositive : 0 < r.inputContextSequence)
    (hf : ∀ r' : TaskRecord, r'.origin = r.origin → (f r').Reads P result) :
    (taskInputCut r.taskId >>= f).Reads P result := by
  simp only [taskInputCut,requireTask,getTask,bind_assoc,pure_bind]
  refine .select_bind fun db hdb => ?_
  obtain ⟨r',hr',horigin⟩ := (hP db hdb).stored
  have hsequence : r'.inputContextSequence = r.inputContextSequence :=
    congrArg TaskOrigin.inputContextSequence horigin
  have hrequire : 0 < r'.inputContextSequence := hsequence ▸ hpositive
  rw [hr']
  exact .require_bind hrequire (hf r' horigin)

theorem listTaskInputMessages_reads {limit : ℤ} (hP : ∀ db, P db → CutIs r m l db)
    (hpositive : 0 < r.inputContextSequence) : (listTaskInputMessages r.taskId limit).Reads P (
      if 1 ≤ limit then .ok (newest limit l)
      else .error (.valueError "context message limit must be positive")) := by
  refine taskInputCut_bind hP hpositive fun r' horigin => ?_
  have hcontext : r'.contextId = r.contextId := congrArg TaskOrigin.contextId horigin
  have hsequence : r'.inputContextSequence = r.inputContextSequence :=
    congrArg TaskOrigin.inputContextSequence horigin
  rw [hcontext,hsequence]
  split
  · exact listContextMessages_reads (fun db hdb => ⟨(hP db hdb).sequenced,(hP db hdb).through⟩) ‹_›
  · exact listContextMessages_limit ‹_›

theorem localTaskContext_reads (hP : ∀ db, P db → CutIs r m l db)
    (hpositive : 0 < r.inputContextSequence) : (localTaskContext r.taskId).Reads P (
      .ok (boundHistory r.inputMessageId localTaskContextPolicy
        (newest localTaskContextPolicy.maxMessages l))) := by
  refine taskInputCut_bind hP hpositive fun r' horigin => ?_
  have hcontext : r'.contextId = r.contextId := congrArg TaskOrigin.contextId horigin
  have hsequence : r'.inputContextSequence = r.inputContextSequence :=
    congrArg TaskOrigin.inputContextSequence horigin
  have hinput : r'.inputMessageId = r.inputMessageId := congrArg TaskOrigin.inputMessageId horigin
  rw [hcontext,hsequence,hinput]
  refine .bind (listContextMessages_reads
    (fun db hdb => ⟨(hP db hdb).sequenced,(hP db hdb).through⟩) (by decide)) rfl

/-- The input message ends the cut. -/
theorem CutIs.getLast? {db : AgentDb} (h : CutIs r m l db) : l.getLast? = some m := by
  have hmem : m ∈ l := by
    rw [← h.through]
    exact List.mem_filter.mpr ⟨h.input,decide_eq_true (Nat.le_of_eq h.sequence)⟩
  have hascending : l.Pairwise fun a b => a.contextSequence < b.contextSequence := by
    rw [← h.through]
    exact (h.sequenced.ascending _).filter _
  have hle : ∀ x ∈ l, x.contextSequence ≤ r.inputContextSequence := fun x hx => by
    rw [← h.through] at hx
    exact of_decide_eq_true (List.mem_filter.mp hx).2
  rcases List.eq_nil_or_concat l with rfl | ⟨init,last,rfl⟩
  · cases hmem
  · rw [List.concat_eq_append] at hmem hascending hle ⊢
    have hlast : m = last := by
      rcases List.mem_append.mp hmem with hinit | hlast
      · have hlt := (List.pairwise_append.mp hascending).2.2 m hinit last (by simp)
        have hsequence := h.sequence
        have hle := hle last (by simp)
        omega
      · simpa using hlast
    simp [hlast]

end Reads

section Main

variable (core : CoreEnv) (env : LedgerEnv)

/-- The states that connections commit after `s`, as long as none of them deletes the context. -/
def LaterThan (s : SharedState AgentDb PyException) (c : ContextId) (db : AgentDb) : Prop :=
  ∃ steps s', (∀ i x, .begin i x ∈ steps → ¬ x.deletes c) ∧
    exec (SharedState.step (ContextTxn.txn core env)) steps s = some s' ∧ s'.state = db

variable {core env}

/-- Whatever was committed before a local task and whatever is appended after it, the messages that
it shows are those of its cut: in every later state both listings give what they give now, nothing
in them is younger than the input message, and that message ends them as it is stored. -/
theorem task_inputs_fixed {steps : List (SharedStep ContextTxn)}
    {s : SharedState AgentDb PyException} {t : TaskId} {r : TaskRecord}
    (hrun : exec (SharedState.step (ContextTxn.txn core env)) steps (.start .empty) = some s)
    (hstored : s.state.tasks.get t = some r) (hlocal : r.assignedAgentId = none)
    (hkept : ∀ i x, .begin i x ∈ steps → ¬ x.deletes r.contextId) :
    ∃ m, s.state.messages.get r.inputMessageId = some m ∧
      (∀ db, LaterThan core env s r.contextId db → db.messages.get r.inputMessageId = some m) ∧
      ∃ context, (localTaskContext t).Reads (LaterThan core env s r.contextId) (.ok context) ∧
        (∀ x ∈ context, x.contextSequence ≤ r.inputContextSequence) ∧ context.getLast? = some m ∧
      ∀ limit, ∃ inputs, (listTaskInputMessages t limit).Reads
          (LaterThan core env s r.contextId) inputs ∧
        if 1 ≤ limit then ∃ messages, inputs = .ok messages ∧
          (∀ x ∈ messages, x.contextSequence ≤ r.inputContextSequence) ∧
          messages.getLast? = some m
        else inputs = .error (.valueError "context message limit must be positive") := by
  have hkey : r.taskId = t := Table.key_of_get hstored
  have hok : s.Ok (StoreWrite .all) fun db => Sequenced db ∧ InputsStored db := by
    refine SharedState.ok_exec (fun i x _ => ?_) (fun _ _ hw h => ⟨h.1.write hw,h.2.write hw⟩)
      (SharedState.ok_start ⟨sequenced_empty,fun t r hr => by simp [AgentDb.empty] at hr⟩) hrun
    exact (x.writes core env).mono fun _ _ hw => hw.mono (WriteScope.le_all _)
  obtain ⟨hpositive,m,hm,hcontext,hsequence⟩ := hok.state.2 t r hstored hlocal
  have hid : m.messageId = r.inputMessageId := Table.key_of_get hm
  let l := s.state.messagesThrough r.contextId r.inputContextSequence
  have hnow : CutIs r m l s.state := by
    refine ⟨hok.state.1,⟨r,hkey ▸ hstored,rfl⟩,?_,hsequence,rfl⟩
    exact List.mem_filter.mpr ⟨Table.mem_of_get hm,decide_eq_true hcontext⟩
  have hlater : ∀ db, LaterThan core env s r.contextId db → CutIs r m l db := by
    rintro db ⟨steps',s',hkept',hrun',rfl⟩
    exact ContextTxn.kept_invariant (fun _ _ hw h => h.write hw fun hne => hne rfl) hkept hrun hnow
      hkept' hrun'
  have hle : ∀ x ∈ l, x.contextSequence ≤ r.inputContextSequence := fun x hx =>
    of_decide_eq_true (List.mem_filter.mp hx).2
  have hnewest : ∀ n, ∀ x ∈ newest n l, x.contextSequence ≤ r.inputContextSequence :=
    fun n x hx => hle x (List.mem_of_mem_drop hx)
  refine ⟨m,hm,fun db hdb => ?_,_,hkey ▸ localTaskContext_reads hlater hpositive,fun x hx => ?_,
    boundHistory_getLast? hid ?_,fun limit =>
      ⟨_,hkey ▸ listTaskInputMessages_reads hlater hpositive,?_⟩⟩
  · rw [← hid]
    exact Table.get_of_mem (List.mem_filter.mp (hlater db hdb).input).1
  · obtain ⟨y,hy,heq⟩ := mem_boundHistory hx
    exact heq ▸ hnewest _ y hy
  · rw [getLast?_newest (by decide),hnow.getLast?]
  · split
    · rename_i hlimit
      refine ⟨_,rfl,hnewest limit,?_⟩
      rw [getLast?_newest hlimit,hnow.getLast?]
    · rfl

end Main

section Sample

/-- One transaction admits a message and accepts it as a local task. -/
def sampleAcceptance : List (SharedStep ContextTxn) :=
  [.begin 0 ⟨sampleAdmission.map fun x => .nested (.core x),none⟩,.statement 0,.statement 0,
    .statement 0]

def sampleAccepted : SharedState AgentDb PyException :=
  (exec (SharedState.step (ContextTxn.txn sampleCore sampleEnv)) sampleAcceptance
    (.start .empty)).getD (.start .empty)

end Sample

theorem task_inputs_fixed_sample : ∃ context : List MessageRecord,
    (localTaskContext "task").Reads (LaterThan sampleCore sampleEnv sampleAccepted "context")
      (.ok context) ∧ context.getLast?.map (·.messageId) = some "message" := by
  have hrun : exec (SharedState.step (ContextTxn.txn sampleCore sampleEnv)) sampleAcceptance
      (.start .empty) = some sampleAccepted := by
    have hsome : (exec (SharedState.step (ContextTxn.txn sampleCore sampleEnv)) sampleAcceptance
        (.start .empty)).isSome = true := by decide +kernel
    obtain ⟨s,hs⟩ := Option.isSome_iff_exists.mp hsome
    rw [sampleAccepted,hs]
    rfl
  have hstored : sampleAccepted.state.tasks.get "task" = some sampleTask := by decide +kernel
  have hkept : ∀ i x, .begin i x ∈ sampleAcceptance → ¬ x.deletes sampleTask.contextId := by
    intro i x hx
    simp only [sampleAcceptance,List.mem_cons,SharedStep.begin.injEq,reduceCtorEq,
      List.not_mem_nil,or_false] at hx
    obtain ⟨rfl,rfl⟩ := hx
    rintro ⟨op,hop,hdeletes⟩
    obtain ⟨x,_,rfl⟩ := List.mem_map.mp hop
    exact hdeletes
  obtain ⟨m,hm,_,context,hreads,_,hlast,_⟩ := task_inputs_fixed hrun hstored rfl hkept
  have hid : m.messageId = "message" := Table.key_of_get hm
  exact ⟨context,hreads,by rw [hlast,Option.map_some,hid]⟩

end VermayAgent
