import Mathlib
import VermayAgent.TaskInputs

/-! The history that a model is shown.
From the newest message on, texts are taken while characters remain; what is cut off is cut at the
end of a text, and the input itself is never touched. -/
namespace VermayAgent
open Library

section Strip

/-- The text starts with no space. -/
def Flush (l : List Char) : Prop := ∀ c ∈ l.head?, isSpace c = false

theorem flush_iff {l : List Char} : Flush l ↔ l.dropWhile isSpace = l := by
  cases l with
  | nil => simp [Flush]
  | cons c l =>
    simp only [Flush,List.head?_cons,Option.mem_some_iff,forall_eq']
    constructor
    · intro hc
      exact List.dropWhile_cons_of_neg (by simp [hc])
    · intro h
      by_contra hc
      rw [List.dropWhile_cons_of_pos (by simpa using hc)] at h
      have hlength := (List.dropWhile_suffix isSpace (l := l)).length_le
      rw [h] at hlength
      simp only [List.length_cons] at hlength
      omega

theorem flush_dropWhile (l : List Char) : Flush (l.dropWhile isSpace) :=
  flush_iff.mpr (List.dropWhile_idempotent isSpace l)

theorem Flush.append {l l' : List Char} (h : Flush l) (hl : l ≠ []) : Flush (l ++ l') := by
  cases l with
  | nil => exact absurd rfl hl
  | cons c l => exact h

theorem Flush.initial {l l' : List Char} (h : Flush l) (hl : l' <+: l) : Flush l' := by
  obtain ⟨rest,rfl⟩ := hl
  cases l' with
  | nil => simp [Flush]
  | cons c l' => exact h

variable {s : String}

theorem toList_strip (s : String) :
    (strip s).toList = (s.toList.dropWhile isSpace).rdropWhile isSpace := by
  simp [strip,List.rdropWhile]

/-- A text that starts with no space loses spaces at its end only. -/
theorem toList_strip_of_flush (h : Flush s.toList) :
    (strip s).toList = s.toList.rdropWhile isSpace := by
  rw [toList_strip,flush_iff.mp h]

theorem flush_strip (s : String) : Flush (strip s).toList := by
  rw [toList_strip]
  exact (flush_dropWhile s.toList).initial (List.rdropWhile_prefix isSpace _)

theorem strip_strip (s : String) : strip (strip s) = strip s := by
  apply String.toList_inj.mp
  rw [toList_strip_of_flush (flush_strip s),toList_strip,List.rdropWhile_idempotent]

theorem flush_textFromParts (parts : List Json) : Flush (textFromParts parts).toList :=
  flush_strip _

/-- A part that holds one text shows that text. -/
theorem textFromParts_text (text : String) :
    textFromParts [.obj [("kind",.str "text"),("text",.str text)]] = strip text := by
  have hmember : (Json.obj [("kind",.str "text"),("text",.str text)]).member "text" = .str text := rfl
  simp only [textFromParts,List.filterMap_cons,hmember,Json.asString,Option.map_some,
    List.filterMap_nil,String.intercalate_singleton]
  exact strip_strip text

end Strip

section Truncation

/-- What may stand for a text: the text, its beginning, or its beginning and the suffix. -/
def Excerpt (original text : String) : Prop :=
  text = original ∨ text.toList <+: original.toList ∨
    ∃ head, head <+: original.toList ∧ text.toList = head ++ truncationSuffix.toList

variable {text : String} {limit : ℤ}

theorem toList_firstChars (n : Nat) (text : String) :
    (firstChars n text).toList = text.toList.take n := by
  simp [firstChars]

theorem length_truncateForContext (hlimit : 0 ≤ limit) :
    ((truncateForContext text limit).length : ℤ) = min (text.length : ℤ) limit := by
  have hlength (n : Nat) : (firstChars n text).length = min n text.length := by
    rw [← String.length_toList,toList_firstChars,List.length_take,String.length_toList]
  unfold truncateForContext
  split
  · omega
  · split
    · rw [hlength]
      omega
    · rw [String.length_append,hlength]
      omega

theorem truncateForContext_ne_empty (htext : text ≠ "") (hlimit : 0 < limit) :
    truncateForContext text limit ≠ "" := by
  intro h
  have hlength := @length_truncateForContext text limit hlimit.le
  have hpos : text.length ≠ 0 := by simpa using htext
  rw [h] at hlength
  simp only [String.length_empty] at hlength
  omega

theorem rdropWhile_append_suffix (l : List Char) :
    (l ++ truncationSuffix.toList).rdropWhile isSpace = l ++ truncationSuffix.toList := by
  obtain ⟨init,hinit⟩ : ∃ init, truncationSuffix.toList = init ++ [']'] :=
    ⟨truncationSuffix.toList.dropLast,by decide +kernel⟩
  rw [hinit,← List.append_assoc]
  exact List.rdropWhile_concat_neg _ _ _ (by decide)

/-- Whatever is cut off a text, and the spaces that the cut leaves, an excerpt remains. -/
theorem excerpt_strip_truncate (htext : Flush text.toList) :
    Excerpt text (strip (truncateForContext text limit)) := by
  unfold truncateForContext
  split
  · refine .inr (.inl ?_)
    rw [toList_strip_of_flush htext]
    exact List.rdropWhile_prefix isSpace _
  · split
    · have hflush : Flush (firstChars limit.toNat text).toList := by
        rw [toList_firstChars]
        exact htext.initial (List.take_prefix _ _)
      refine .inr (.inl ?_)
      rw [toList_strip_of_flush hflush,toList_firstChars]
      exact (List.rdropWhile_prefix isSpace _).trans (List.take_prefix _ _)
    · rename_i hlong hsuffix
      have htake : text.toList.take (limit-truncationSuffix.length).toNat ≠ [] := by
        rw [← List.length_pos_iff,List.length_take,String.length_toList]
        omega
      have hflush : Flush (firstChars (limit-truncationSuffix.length).toNat text ++
          truncationSuffix).toList := by
        rw [String.toList_append,toList_firstChars]
        exact (htext.initial (List.take_prefix _ _)).append htake
      refine .inr (.inr ⟨text.toList.take (limit-truncationSuffix.length).toNat,
        List.take_prefix _ _,?_⟩)
      rw [toList_strip_of_flush hflush,String.toList_append,toList_firstChars,
        rdropWhile_append_suffix]

theorem length_strip_le (s : String) : (strip s).length ≤ s.length := by
  rw [← String.length_toList,← String.length_toList,toList_strip]
  exact (List.rdropWhile_prefix isSpace _).length_le.trans (List.dropWhile_suffix isSpace).length_le

end Truncation
section Window

variable (protectedMessageId : MessageId) (policy : ContextAssemblyPolicy)

def isInput (m : MessageRecord) : Bool := m.messageId = protectedMessageId

/-- The messages of a list that are not the input. -/
def historyOf (l : List MessageRecord) : List MessageRecord :=
  l.filter fun m => !isInput protectedMessageId m

/-- Those of them that have a text. -/
def textsOf (l : List MessageRecord) : List MessageRecord :=
  (historyOf protectedMessageId l).filter fun m => textFromParts m.parts ≠ ""

/-- The characters that the policy lets a message take. -/
def historyCost (m : MessageRecord) : ℤ :=
  min ((textFromParts m.parts).length : ℤ) policy.maxMessageCharacters

def totalCost (l : List MessageRecord) : ℤ := (l.map (historyCost policy)).sum

def totalLength (l : List MessageRecord) : ℤ :=
  (l.map fun m => ((textFromParts m.parts).length : ℤ)).sum

/-- The message with its text cut to the cap of one message. -/
def capped (m : MessageRecord) : MessageRecord :=
  messageWithText m (truncateForContext (textFromParts m.parts) policy.maxMessageCharacters)

/-- How a message is shown: the input as it is, another one by an excerpt of its text. -/
def ShownAs (m shown : MessageRecord) : Prop :=
  if m.messageId = protectedMessageId then shown = m
  else ∃ text, shown = messageWithText m text ∧
    Excerpt (textFromParts m.parts) (textFromParts shown.parts)

/-- `window` are the messages that `result` shows, both from the newest on, where the history has
`budget` characters: a run of the newest texts that leaves room for its oldest member, and that
takes all texts or all room; all but the oldest are cut by the cap alone. -/
structure HistoryWindow (budget : ℤ) (messages window result : List MessageRecord) : Prop where
  order : window.Sublist messages
  input : window.filter (isInput protectedMessageId) = messages.filter (isInput protectedMessageId)
  run : historyOf protectedMessageId window <+: textsOf protectedMessageId messages
  room : ∀ newer oldest, historyOf protectedMessageId window = newer ++ [oldest] →
    totalCost policy newer < budget
  full : historyOf protectedMessageId window = textsOf protectedMessageId messages ∨
    budget ≤ totalCost policy (historyOf protectedMessageId window)
  shown : List.Forall₂ (ShownAs protectedMessageId) window result
  whole : ∀ newer oldest, historyOf protectedMessageId window = newer ++ [oldest] →
    ∃ last, historyOf protectedMessageId result = newer.map (capped policy) ++ [last]
  each : ∀ m ∈ historyOf protectedMessageId result,
    ((textFromParts m.parts).length : ℤ) ≤ policy.maxMessageCharacters
  total : totalLength (historyOf protectedMessageId result) ≤ budget

end Window

section Selection

variable {protectedMessageId : MessageId} {policy : ContextAssemblyPolicy} {m : MessageRecord}
  {messages window result l : List MessageRecord} {budget : ℤ}

theorem messageWithText_messageId (m : MessageRecord) (text : String) :
    (messageWithText m text).messageId = m.messageId := by
  unfold messageWithText
  split <;> rfl

/-- The text that a message shows once it was given one. -/
theorem textFromParts_messageWithText (m : MessageRecord) (text : String) :
    textFromParts (messageWithText m text).parts =
      if text = textFromParts m.parts then textFromParts m.parts else strip text := by
  unfold messageWithText
  split
  · rfl
  · exact textFromParts_text text

theorem historyOf_cons_input (hm : m.messageId = protectedMessageId) :
    historyOf protectedMessageId (m::l) = historyOf protectedMessageId l := by
  simp [historyOf,isInput,hm]

theorem historyOf_cons (hm : m.messageId ≠ protectedMessageId) :
    historyOf protectedMessageId (m::l) = m::historyOf protectedMessageId l := by
  simp [historyOf,isInput,hm]

theorem textsOf_cons_input (hm : m.messageId = protectedMessageId) :
    textsOf protectedMessageId (m::l) = textsOf protectedMessageId l := by
  rw [textsOf,historyOf_cons_input hm,textsOf]

theorem textsOf_cons_empty (hm : m.messageId ≠ protectedMessageId)
    (htext : textFromParts m.parts = "") :
    textsOf protectedMessageId (m::l) = textsOf protectedMessageId l := by
  simp [textsOf,historyOf_cons hm,htext]

theorem textsOf_cons (hm : m.messageId ≠ protectedMessageId) (htext : textFromParts m.parts ≠ "") :
    textsOf protectedMessageId (m::l) = m::textsOf protectedMessageId l := by
  simp [textsOf,historyOf_cons hm,htext]

theorem totalCost_cons (m : MessageRecord) (l : List MessageRecord) :
    totalCost policy (m::l) = historyCost policy m+totalCost policy l := by
  rw [totalCost,List.map_cons,List.sum_cons,totalCost]

theorem totalLength_cons (m : MessageRecord) (l : List MessageRecord) :
    totalLength (m::l) = (textFromParts m.parts).length+totalLength l := by
  rw [totalLength,List.map_cons,List.sum_cons,totalLength]

theorem totalCost_nonneg (policy : ContextAssemblyPolicy) (l : List MessageRecord) : 0 ≤ totalCost policy l := by
  induction l with
  | nil => exact le_refl _
  | cons m l ih =>
    have hpos := policy.maxMessageCharacters_pos
    rw [totalCost_cons,historyCost]
    omega

/-- Without room nothing of the history is in the window. -/
theorem HistoryWindow.historyOf_eq_nil
    (h : HistoryWindow protectedMessageId policy budget messages window result)
    (hbudget : budget ≤ 0) : historyOf protectedMessageId window = [] := by
  rcases List.eq_nil_or_concat (historyOf protectedMessageId window) with hnil | ⟨newer,oldest,heq⟩
  · exact hnil
  · have hroom := h.room newer oldest (by rw [heq,List.concat_eq_append])
    have := totalCost_nonneg policy newer
    omega

@[simp] theorem historyOf_nil : historyOf protectedMessageId [] = [] := rfl

theorem HistoryWindow.nil (hbudget : 0 ≤ budget) :
    HistoryWindow protectedMessageId policy budget [] [] [] where
  order := .refl _
  input := rfl
  run := List.nil_prefix
  room newer oldest h := by simp at h
  full := .inl rfl
  shown := .nil
  whole newer oldest h := by simp at h
  each m hm := by simp at hm
  total := hbudget

theorem HistoryWindow.cons_input
    (h : HistoryWindow protectedMessageId policy budget messages window result)
    (hm : m.messageId = protectedMessageId) :
    HistoryWindow protectedMessageId policy budget (m::messages) (m::window) (m::result) where
  order := h.order.cons_cons m
  input := by
    have hinput : isInput protectedMessageId m = true := by simp [isInput,hm]
    rw [List.filter_cons_of_pos hinput,List.filter_cons_of_pos hinput,h.input]
  run := by
    rw [historyOf_cons_input hm,textsOf_cons_input hm]
    exact h.run
  room := by
    rw [historyOf_cons_input hm]
    exact h.room
  full := by
    rw [historyOf_cons_input hm,textsOf_cons_input hm]
    exact h.full
  shown := .cons (if_pos hm |>.mpr rfl) h.shown
  whole := by
    rw [historyOf_cons_input hm,historyOf_cons_input hm]
    exact h.whole
  each := by
    rw [historyOf_cons_input hm]
    exact h.each
  total := by
    rw [historyOf_cons_input hm]
    exact h.total

/-- A message that is not shown has no text, or comes when no room is left. -/
theorem HistoryWindow.skip
    (h : HistoryWindow protectedMessageId policy budget messages window result)
    (hm : m.messageId ≠ protectedMessageId)
    (hskip : textFromParts m.parts = "" ∨ budget ≤ 0) :
    HistoryWindow protectedMessageId policy budget (m::messages) window result where
  order := h.order.cons m
  input := by
    have hinput : ¬ isInput protectedMessageId m = true := by simp [isInput,hm]
    rw [List.filter_cons_of_neg hinput,h.input]
  run := by
    rcases hskip with htext | hbudget
    · rw [textsOf_cons_empty hm htext]
      exact h.run
    · rw [h.historyOf_eq_nil hbudget]
      exact List.nil_prefix
  room := h.room
  full := by
    rcases hskip with htext | hbudget
    · rw [textsOf_cons_empty hm htext]
      exact h.full
    · rw [h.historyOf_eq_nil hbudget]
      exact .inr hbudget
  shown := h.shown
  whole := h.whole
  each := h.each
  total := h.total

theorem ShownAs.messageId {shown : MessageRecord} (h : ShownAs protectedMessageId m shown) :
    shown.messageId = m.messageId := by
  unfold ShownAs at h
  split at h
  · rw [h]
  · obtain ⟨text,rfl,-⟩ := h
    exact messageWithText_messageId m text

theorem historyOf_shown (h : List.Forall₂ (ShownAs protectedMessageId) window result)
    (hwindow : historyOf protectedMessageId window = []) :
    historyOf protectedMessageId result = [] := by
  induction h with
  | nil => rfl
  | cons hshown _ ih =>
    rename_i m shown window result _
    by_cases hm : m.messageId = protectedMessageId
    · rw [historyOf_cons_input hm] at hwindow
      rw [historyOf_cons_input (hshown.messageId.trans hm)]
      exact ih hwindow
    · rw [historyOf_cons hm] at hwindow
      cases hwindow

/-- The text that `selectHistory` gives a message when `budget` characters remain. -/
def boundedText (policy : ContextAssemblyPolicy) (budget : ℤ) (m : MessageRecord) : String :=
  truncateForContext (textFromParts m.parts) (min policy.maxMessageCharacters budget)

theorem length_boundedText (policy : ContextAssemblyPolicy) (hbudget : 0 ≤ budget)
    (m : MessageRecord) :
    ((boundedText policy budget m).length : ℤ) =
      min ((textFromParts m.parts).length : ℤ) (min policy.maxMessageCharacters budget) := by
  have hpos := policy.maxMessageCharacters_pos
  exact length_truncateForContext (by omega)

theorem length_shown_le (policy : ContextAssemblyPolicy) (budget : ℤ) (m : MessageRecord) :
    (textFromParts (messageWithText m (boundedText policy budget m)).parts).length ≤
      (boundedText policy budget m).length := by
  rw [textFromParts_messageWithText]
  split
  · rename_i h
    rw [h]
  · exact length_strip_le _

theorem shownAs_boundedText (hm : m.messageId ≠ protectedMessageId) :
    ShownAs protectedMessageId m (messageWithText m (boundedText policy budget m)) := by
  rw [ShownAs,if_neg hm]
  refine ⟨_,rfl,?_⟩
  rw [textFromParts_messageWithText]
  split
  · exact .inl rfl
  · exact excerpt_strip_truncate (flush_textFromParts _)

/-- Where characters are left after a message, only the cap of one message cut it. -/
theorem boundedText_eq_capped (hbudget : 0 ≤ budget)
    (h : ((boundedText policy budget m).length : ℤ) < budget) :
    messageWithText m (boundedText policy budget m) = capped policy m := by
  have hlength := length_boundedText policy hbudget m
  unfold boundedText at h hlength ⊢
  rcases le_total policy.maxMessageCharacters budget with hle | hle
  · rw [min_eq_left hle]
    rfl
  · have hshort : ((textFromParts m.parts).length : ℤ) ≤ budget := by omega
    rw [capped,truncateForContext,if_pos (by omega),truncateForContext,if_pos (by omega)]

/-- A message with a text is shown while room is left, and leaves less room. -/
theorem HistoryWindow.take (hm : m.messageId ≠ protectedMessageId)
    (htext : textFromParts m.parts ≠ "") (hbudget : 0 < budget)
    (h : HistoryWindow protectedMessageId policy (budget-(boundedText policy budget m).length)
      messages window result) :
    HistoryWindow protectedMessageId policy budget (m::messages) (m::window)
      (messageWithText m (boundedText policy budget m)::result) := by
  have hlength := length_boundedText policy hbudget.le m
  have hle := length_shown_le policy budget m
  have hcost : historyCost policy m = min ((textFromParts m.parts).length : ℤ)
    policy.maxMessageCharacters := rfl
  have hshownId := (messageWithText_messageId m (boundedText policy budget m)).trans_ne hm
  -- what the next older message leaves, if one is shown after `m`
  have hnext : ∀ newer oldest, historyOf protectedMessageId window = newer ++ [oldest] →
      totalCost policy newer < budget-(boundedText policy budget m).length ∧
        0 ≤ totalCost policy newer :=
    fun newer oldest heq => ⟨h.room newer oldest heq,totalCost_nonneg policy newer⟩
  constructor
  · exact h.order.cons_cons m
  · have hinput : ¬ isInput protectedMessageId m = true := by simp [isInput,hm]
    rw [List.filter_cons_of_neg hinput,List.filter_cons_of_neg hinput,h.input]
  · rw [historyOf_cons hm,textsOf_cons hm htext]
    exact List.cons_prefix_cons.mpr ⟨rfl,h.run⟩
  · intro newer oldest heq
    rw [historyOf_cons hm] at heq
    cases newer with
    | nil => simpa [totalCost] using hbudget
    | cons m' newer =>
      obtain ⟨rfl,htail⟩ := List.cons.inj heq
      have := hnext newer oldest htail
      rw [totalCost_cons]
      omega
  · rw [historyOf_cons hm,textsOf_cons hm htext,totalCost_cons]
    rcases h.full with hfull | hfull
    · exact .inl (by rw [hfull])
    · right
      omega
  · exact .cons (shownAs_boundedText hm) h.shown
  · intro newer oldest heq
    rw [historyOf_cons hm] at heq
    rw [historyOf_cons hshownId]
    cases newer with
    | nil =>
      obtain ⟨rfl,htail⟩ := List.cons.inj heq
      exact ⟨_,by rw [historyOf_shown h.shown htail]; rfl⟩
    | cons m' newer =>
      obtain ⟨rfl,htail⟩ := List.cons.inj heq
      obtain ⟨last,hlast⟩ := h.whole newer oldest htail
      have := hnext newer oldest htail
      refine ⟨last,?_⟩
      rw [hlast,boundedText_eq_capped hbudget.le (by omega)]
      rfl
  · intro m' hm'
    rw [historyOf_cons hshownId] at hm'
    rcases List.mem_cons.mp hm' with rfl | hm'
    · omega
    · exact h.each m' hm'
  · have htotal := h.total
    rw [historyOf_cons hshownId,totalLength_cons]
    omega

theorem selectHistory_window (hbudget : 0 ≤ budget) (messages : List MessageRecord) :
    ∃ window, HistoryWindow protectedMessageId policy budget messages window
      (selectHistory protectedMessageId policy budget messages) := by
  induction messages generalizing budget with
  | nil => exact ⟨[],.nil hbudget⟩
  | cons m messages ih =>
    by_cases hm : m.messageId = protectedMessageId
    · obtain ⟨window,h⟩ := ih hbudget
      rw [selectHistory,if_pos hm]
      exact ⟨m::window,h.cons_input hm⟩
    · by_cases hskip : textFromParts m.parts = "" ∨ budget ≤ 0
      · obtain ⟨window,h⟩ := ih hbudget
        rw [selectHistory,if_neg hm]
        simp only [hskip,if_true]
        exact ⟨window,h.skip hm hskip⟩
      · rw [selectHistory,if_neg hm]
        simp only [hskip,if_false]
        obtain ⟨htext,hpos⟩ := not_or.mp hskip
        have hpos : 0 < budget := not_le.mp hpos
        have hlimit := policy.maxMessageCharacters_pos
        have hlength := length_boundedText policy hbudget m
        have hne : truncateForContext (textFromParts m.parts)
            (min policy.maxMessageCharacters budget) ≠ "" :=
          truncateForContext_ne_empty htext (by omega)
        rw [if_neg hne]
        have hleft : 0 ≤ budget-(boundedText policy budget m).length := by omega
        obtain ⟨window,h⟩ := ih hleft
        exact ⟨m::window,h.take hm htext hpos⟩

theorem filter_isInput_shown (h : List.Forall₂ (ShownAs protectedMessageId) window result) :
    result.filter (isInput protectedMessageId) = window.filter (isInput protectedMessageId) := by
  induction h with
  | nil => rfl
  | cons hshown _ ih =>
    rename_i m shown window result _
    by_cases hm : m.messageId = protectedMessageId
    · rw [ShownAs,if_pos hm] at hshown
      have hinput : isInput protectedMessageId m = true := by simp [isInput,hm]
      rw [hshown,List.filter_cons_of_pos hinput,List.filter_cons_of_pos hinput,ih]
    · have hinput : ¬ isInput protectedMessageId m = true := by simp [isInput,hm]
      have hinput' : ¬ isInput protectedMessageId shown = true := by
        simp [isInput,hshown.messageId,hm]
      rw [List.filter_cons_of_neg hinput,List.filter_cons_of_neg hinput',ih]

/-- The bounded history has the input as it was and shows, from the newest message on, the run of
texts that the policy has room for. -/
theorem boundHistory_window (protectedMessageId : MessageId) (policy : ContextAssemblyPolicy)
    (messages : List MessageRecord) :
    (boundHistory protectedMessageId policy messages).filter (isInput protectedMessageId) =
        messages.filter (isInput protectedMessageId) ∧
      ∃ window, HistoryWindow protectedMessageId policy policy.maxHistoryCharacters
        messages.reverse window (boundHistory protectedMessageId policy messages).reverse := by
  obtain ⟨window,h⟩ : ∃ window, HistoryWindow protectedMessageId policy policy.maxHistoryCharacters
      messages.reverse window (selectHistory protectedMessageId policy policy.maxHistoryCharacters
        messages.reverse) :=
    selectHistory_window policy.maxHistoryCharacters_nonneg _
  have hreverse : (boundHistory protectedMessageId policy messages).reverse =
      selectHistory protectedMessageId policy policy.maxHistoryCharacters messages.reverse :=
    List.reverse_reverse _
  refine ⟨?_,window,hreverse ▸ h⟩
  have hinput := filter_isInput_shown h.shown
  rw [h.input,← hreverse,List.filter_reverse,List.filter_reverse] at hinput
  exact List.reverse_injective hinput

end Selection

section Assembly
open Txn MainAgentStore

def routerContextPolicy : ContextAssemblyPolicy :=
  ⟨8,6000,1500,by decide,by decide,by decide⟩

def directMessageContextPolicy : ContextAssemblyPolicy :=
  ⟨12,14000,4000,by decide,by decide,by decide⟩

def contextThroughInput (contextId : ContextId) (inputMessageId : MessageId)
    (policy : ContextAssemblyPolicy) : StoreTxn (List MessageRecord) := do
  let inputMessage ← orFail (← getMessage inputMessageId)
    (.valueError ("unknown input message: " ++ inputMessageId))
  require (inputMessage.contextId = contextId)
    (.valueError ("input message context mismatch: " ++ inputMessageId))
  let messages ← listContextMessages contextId (some policy.maxMessages) 0
    (some inputMessage.contextSequence)
  return boundHistory inputMessageId policy messages

def routerContextThroughInput (contextId : ContextId) (inputMessageId : MessageId) :
    StoreTxn (List MessageRecord) :=
  contextThroughInput contextId inputMessageId routerContextPolicy

def directMessageContextThroughInput (contextId : ContextId) (inputMessageId : MessageId) :
    StoreTxn (List MessageRecord) :=
  contextThroughInput contextId inputMessageId directMessageContextPolicy

theorem totalLength_reverse (l : List MessageRecord) : totalLength l.reverse = totalLength l := by
  rw [totalLength,List.map_reverse,List.sum_reverse,totalLength]

/-- What is assembled is within the policy. -/
theorem contextThroughInput_ok {contextId : ContextId} {inputMessageId : MessageId}
    {policy : ContextAssemblyPolicy} {db db' : AgentDb} {result : List MessageRecord}
    (h : (contextThroughInput contextId inputMessageId policy).run db = .ok (result,db')) :
    totalLength (historyOf inputMessageId result) ≤ policy.maxHistoryCharacters ∧
      ∀ m ∈ historyOf inputMessageId result,
        ((textFromParts m.parts).length : ℤ) ≤ policy.maxMessageCharacters := by
  simp only [contextThroughInput,bind_ok,pure_ok] at h
  obtain ⟨_,_,_,_,_,_,_,_,_,messages,_,_,rfl,_⟩ := h
  obtain ⟨-,window,hwindow⟩ := boundHistory_window inputMessageId policy messages
  have hreverse (l : List MessageRecord) :
      historyOf inputMessageId l.reverse = (historyOf inputMessageId l).reverse :=
    List.filter_reverse
  refine ⟨?_,fun m hm => ?_⟩
  · rw [← totalLength_reverse,← hreverse]
    exact hwindow.total
  · exact hwindow.each m (by rw [hreverse]; exact List.mem_reverse.mpr hm)

end Assembly
end VermayAgent
