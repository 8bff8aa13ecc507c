import VermayAgent.Models
import VermayAgent.ArgumentRedaction
import VermayAgent.Library.Objects

/-! How a worker command is stored and read back.
The objects of a request are frozen when the command is made, thawed into new objects whenever
they are asked for, and stored as JSON text. -/
namespace VermayAgent
open Library

/-- The typed commands, with user input as one kind of value or another. -/
inductive TaskExecutionPayload (α : Type) where
  | initial
  | approval (approved : Bool) (reason : Option Text)
  | userInput (parts : List α) (metadata : α)

abbrev PyObject := Object PyNumber

abbrev PyHeap := Heap PyNumber

abbrev HeapTxn := Txn PyHeap PyException

/-- A command as the process holds it. -/
abbrev Command := TaskExecutionPayload PyObject

/-- What a command says. -/
abbrev CommandContent := TaskExecutionPayload PyJson

section Source

-- How many calls the interpreter lets stand inside each other.
variable (stack : Nat)

def freezing : Copying PyException where
  enters _ := true
  refuses className :=
    some (.valueError ("queued execution payload is not JSON-compatible: " ++ className))
  frozen := true
  tooDeep := recursionError

def thawing : Copying PyException where
  enters frozen := frozen
  refuses _ := none
  frozen := false
  tooDeep := recursionError

/-- `_freeze_json_value`, which on mappings is `_freeze_json_object`. -/
def freezeJsonValue (value : PyObject) : HeapTxn PyObject := copy freezing stack value

/-- `_thaw_json_value`, which on mappings is `_thaw_json_object`. -/
def thawJsonValue (value : PyObject) : HeapTxn PyObject := copy thawing stack value

/-- The members of an object that is a `Mapping`. -/
def mappingMembers? (h : PyHeap) (value : PyObject) : Option (List (Text × PyObject)) :=
  match h.cell value with
  | some (.mapping _ members) => some members
  | _ => none

/-- The members of an object that is a `dict`. -/
def dictMembers? (h : PyHeap) (value : PyObject) : Option (List (Text × PyObject)) :=
  match h.cell value with
  | some (.mapping false members) => some members
  | _ => none

/-- The items of an object that is a `list`. -/
def listItems? (h : PyHeap) (value : PyObject) : Option (List PyObject) :=
  match h.cell value with
  | some (.sequence false items) => some items
  | _ => none

/-- `UserInputTaskExecutionPayload.from_values`. -/
def userInputFromValues (parts : List PyObject) (metadata : PyObject) : HeapTxn Command := do
  let h ← Txn.select id
  .require (parts.isEmpty = false) (.valueError "queued input command parts are required")
  .require (parts.all fun part => (mappingMembers? h part).isSome)
    (.typeError "queued input command parts must be mappings")
  .require (metadata.isNone || (mappingMembers? h metadata).isSome)
    (.typeError "queued input command metadata must be a mapping or None")
  let frozenParts ← parts.mapM' (freezeJsonValue stack)
  let frozenMetadata ← if metadata.isNone then pure .none else freezeJsonValue stack metadata
  pure (.userInput frozenParts frozenMetadata)

def materializeParts (parts : List PyObject) : HeapTxn (List PyObject) :=
  parts.mapM' (thawJsonValue stack)

def materializeMetadata (metadata : PyObject) : HeapTxn PyObject :=
  if metadata.isNone then pure .none else thawJsonValue stack metadata

/-- `payload.get(key)`. -/
def getItem (members : List (Text × PyObject)) (key : String) : PyObject :=
  (members.lookup (Text.of key)).getD .none

/-- No member has another key. -/
def onlyKeys {α : Type} (keys : List String) (members : List (Text × α)) : Bool :=
  members.all fun m => keys.any fun key => m.1 = Text.of key

def queuedTaskExecutionPayloadFromDict (kind : QueuedTaskExecutionKind) (commandVersion : Int)
    (payload : List (Text × PyObject)) : HeapTxn Command := do
  .require (commandVersion = localExecutionCommandVersion)
    (.valueError ("unsupported local execution command version: " ++ toString commandVersion))
  let h ← Txn.select id
  match kind with
  | .initial =>
    .require (payload.isEmpty = true)
      (.valueError "queued initial command payload must be empty")
    pure .initial
  | .approval =>
    .require (onlyKeys ["approved","reason"] payload)
      (.valueError "queued approval command contains unsupported fields")
    match getItem payload "approved",getItem payload "reason" with
    | .bool approved,.none => pure (.approval approved none)
    | .bool approved,.string reason => pure (.approval approved (some reason))
    | _,_ => .fail (.valueError "queued approval command is invalid")
  | .userInput =>
    .require (onlyKeys ["parts","metadata"] payload)
      (.valueError "queued input command contains unsupported fields")
    let metadata := getItem payload "metadata"
    match listItems? h (getItem payload "parts") with
    | none => .fail (.valueError "queued input command is invalid")
    | some parts =>
      .require (parts.all (fun part => (dictMembers? h part).isSome) &&
          (metadata.isNone || (dictMembers? h metadata).isSome))
        (.valueError "queued input command is invalid")
      userInputFromValues stack parts metadata

def queuedTaskExecutionPayloadToDict (kind : QueuedTaskExecutionKind) (payload : Command) :
    HeapTxn PyObject :=
  match kind,payload with
  | .initial,.initial => alloc (.mapping false [])
  | .approval,.approval approved reason =>
    alloc (.mapping false ((Text.of "approved",.bool approved)::
      (match reason with
        | some reason => [(Text.of "reason",.string reason)]
        | none => [])))
  | .userInput,.userInput parts metadata => do
    let parts ← materializeParts stack parts
    let parts ← alloc (.sequence false parts)
    let metadata ← materializeMetadata stack metadata
    alloc (.mapping false [(Text.of "parts",parts),(Text.of "metadata",metadata)])
  | kind,_ =>
    .fail (.valueError ("queued execution payload does not match kind: " ++ kind.value))

/-- `_dumps`. -/
def storeDumps (value : PyObject) : HeapTxn Text := do
  let h ← Txn.select id
  let json ← Txn.ofExcept (readObject h
    (fun className => .typeError ("Object of type " ++ className ++ " is not JSON serializable"))
    recursionError stack value)
  pure (dumps PyNumber.token .default json)

/-- The message of a decode error, which also tells the place, is left out. -/
def jsonException : JsonError → PyException
  | .decode => .valueError "JSONDecodeError"
  | .digits => .valueError "Exceeds the limit (4300 digits) for integer string conversion"
  | .recursion => recursionError

/-- `_loads` of a column. -/
def storeLoads : Option Text → HeapTxn PyObject
  | none => pure .none
  | some text =>
    match loads (python (some stack)) text with
    | .ok json => .isolated fun h => .ok (buildObject json h)
    | .error e => .fail (jsonException e)

/-- A row of `main_agent_queued_executions`. -/
structure CommandRow where
  taskId : TaskId
  kind : String
  runtimeThreadId : ThreadId
  commandVersion : Int
  payload : Option Text

structure CommandRecord where
  taskId : TaskId
  kind : QueuedTaskExecutionKind
  runtimeThreadId : ThreadId
  commandVersion : Int
  payload : Command

/-- The row that `enqueue_task_execution` inserts. -/
def enqueuedRow (taskId : TaskId) (kind : QueuedTaskExecutionKind) (runtimeThreadId : ThreadId)
    (payload : Option Command) (commandVersion : Int) : HeapTxn CommandRow := do
  .require (commandVersion = localExecutionCommandVersion)
    (.valueError ("unsupported local execution command version: " ++ toString commandVersion))
  .require (payload.isSome ∨ kind = .initial)
    (.valueError ("queued execution payload is required: " ++ taskId))
  let serializedPayload ← queuedTaskExecutionPayloadToDict stack kind (payload.getD .initial)
  let text ← storeDumps stack serializedPayload
  pure ⟨taskId,kind.value,runtimeThreadId,commandVersion,some text⟩

/-- An empty `dict` for `None`. -/
def orEmptyDict (payload : PyObject) : HeapTxn PyObject :=
  if payload.isNone then alloc (.mapping false []) else pure payload

/-- `_queued_task_execution_from_row`. -/
def CommandRow.decode (row : CommandRow) : HeapTxn CommandRecord := do
  let payload ← storeLoads stack row.payload
  let payload ← orEmptyDict payload
  let h ← Txn.select id
  let members ← Txn.orFail (dictMembers? h payload)
    (.valueError ("queued execution payload must be an object: " ++ row.taskId))
  let kind ← Txn.orFail (QueuedTaskExecutionKind.ofValue? row.kind)
    (.valueError ("'" ++ row.kind ++ "' is not a valid QueuedTaskExecutionKind"))
  let payload ← queuedTaskExecutionPayloadFromDict stack kind row.commandVersion members
  pure ⟨row.taskId,kind,row.runtimeThreadId,row.commandVersion,payload⟩

end Source

section Contents

def IsJsonObject (value : PyJson) : Prop := ∃ members, value = .object members

namespace TaskExecutionPayload

variable {α β : Type}

def kind : TaskExecutionPayload α → QueuedTaskExecutionKind
  | initial => .initial
  | approval _ _ => .approval
  | userInput _ _ => .userInput

def map (f : α → β) : TaskExecutionPayload α → TaskExecutionPayload β
  | initial => initial
  | approval approved reason => approval approved reason
  | userInput parts metadata => userInput (parts.map f) (f metadata)

/-- User input is a list of JSON objects that is not empty, and an object or null. -/
def WellFormed : CommandContent → Prop
  | userInput parts metadata => parts ≠ [] ∧ (∀ part ∈ parts, IsJsonObject part) ∧
      (metadata = .null ∨ IsJsonObject metadata)
  | _ => True

def depth : CommandContent → Nat
  | userInput parts metadata => max (JsonValue.depthItems parts) metadata.depth
  | _ => 0

/-- The members of the payload that is stored. -/
def members : CommandContent → List (Text × PyJson)
  | initial => []
  | approval approved none => [(Text.of "approved",.bool approved)]
  | approval approved (some reason) =>
    [(Text.of "approved",.bool approved),(Text.of "reason",.string reason)]
  | userInput parts metadata => [(Text.of "parts",.array parts),(Text.of "metadata",metadata)]

end TaskExecutionPayload

/-- The command stands for the content. -/
def Command.Holds (h : PyHeap) (F : Bool → Prop) : Command → CommandContent → Prop
  | .initial,.initial => True
  | .approval approved reason,.approval approved' reason' => approved = approved' ∧ reason = reason'
  | .userInput parts metadata,.userInput ts t => DenotesItems h F parts ts ∧ Denotes h F metadata t
  | _,_ => False

theorem Command.Holds.carry {h h' : PyHeap} {F F' : Bool → Prop} (hcells : h.Carries h' F F')
    {command : Command} {content : CommandContent} (hc : command.Holds h F content) :
    command.Holds h' F' content := by
  cases command <;> cases content <;> try exact hc
  exact ⟨hc.1.carry hcells,hc.2.carry hcells⟩

theorem Command.Holds.kind_eq {h : PyHeap} {F : Bool → Prop} {command : Command}
    {content : CommandContent} (hc : command.Holds h F content) : command.kind = content.kind := by
  cases command <;> cases content <;> first | rfl | exact hc.elim

def reasonJson : Option Text → PyJson
  | none => .null
  | some reason => .string reason

/-- The members of a payload say this under this kind. -/
inductive Says : QueuedTaskExecutionKind → List (Text × PyJson) → CommandContent → Prop
  | initial : Says .initial [] .initial
  | approval {members : List (Text × PyJson)} (approved : Bool) (reason : Option Text)
      (hkeys : onlyKeys ["approved","reason"] members = true)
      (happroved : JsonValue.get members "approved" = .bool approved)
      (hreason : JsonValue.get members "reason" = reasonJson reason) :
      Says .approval members (.approval approved reason)
  | userInput {members : List (Text × PyJson)} (parts : List PyJson) (metadata : PyJson)
      (hkeys : onlyKeys ["parts","metadata"] members = true)
      (hparts : JsonValue.get members "parts" = .array parts)
      (hmetadata : JsonValue.get members "metadata" = metadata)
      (hformed : (TaskExecutionPayload.userInput parts metadata).WellFormed) :
      Says .userInput members (.userInput parts metadata)

theorem TaskExecutionPayload.nodup_members (content : CommandContent) :
    (content.members.map Prod.fst).Nodup := by
  cases content with
  | initial => exact List.nodup_nil
  | approval approved reason =>
    cases reason with
    | none => exact List.nodup_singleton _
    | some reason =>
      change [Text.of "approved",Text.of "reason"].Nodup
      decide
  | userInput parts metadata =>
    change [Text.of "parts",Text.of "metadata"].Nodup
    decide

/-- The payload of a content says it. -/
theorem says_members {content : CommandContent} (hformed : content.WellFormed) :
    Says content.kind content.members content := by
  cases content with
  | initial => exact .initial
  | approval approved reason =>
    cases reason with
    | none => exact .approval approved none rfl rfl rfl
    | some reason => exact .approval approved (some reason) rfl rfl rfl
  | userInput parts metadata => exact .userInput parts metadata rfl rfl rfl hformed

theorem isJsonObject_sorted {value : PyJson} : IsJsonObject value.sorted ↔ IsJsonObject value := by
  constructor
  · rintro ⟨members,h⟩
    cases value with
    | object members => exact ⟨members,rfl⟩
    | null | bool | number | string | array => cases h
  · rintro ⟨members,rfl⟩
    exact ⟨_,rfl⟩

theorem get_sorted {members : List (Text × PyJson)} (h : (members.map Prod.fst).Nodup)
    (key : String) :
    JsonValue.get (JsonValue.sortMembers (JsonValue.sortedMembers members)) key =
      (JsonValue.get members key).sorted := by
  unfold JsonValue.get
  rw [JsonValue.lookup_sorted h]
  cases members.lookup (Text.of key) <;> rfl

theorem onlyKeys_sorted (keys : List String) (members : List (Text × PyJson)) :
    onlyKeys keys (JsonValue.sortMembers (JsonValue.sortedMembers members)) =
      onlyKeys keys members := by
  unfold onlyKeys
  rw [(JsonValue.sortMembers_perm _).all_eq,JsonValue.sortedMembers_eq,List.all_map]
  rfl

theorem wellFormed_sorted {content : CommandContent} (h : content.WellFormed) :
    (content.map JsonValue.sorted).WellFormed := by
  cases content with
  | initial | approval => trivial
  | userInput parts metadata =>
    obtain ⟨hne,hparts,hmetadata⟩ := h
    have hmetadata' : metadata.sorted = .null ∨ IsJsonObject metadata.sorted := by
      rcases hmetadata with rfl | hobject
      · exact .inl rfl
      · exact .inr (isJsonObject_sorted.mpr hobject)
    refine ⟨by simpa using hne,?_,hmetadata'⟩
    intro part hpart
    obtain ⟨part,hmem,rfl⟩ := List.mem_map.mp hpart
    exact isJsonObject_sorted.mpr (hparts part hmem)

/-- With its members in order a payload says the same. -/
theorem Says.sorted {kind : QueuedTaskExecutionKind} {members : List (Text × PyJson)}
    {content : CommandContent} (hkeys : (members.map Prod.fst).Nodup)
    (h : Says kind members content) :
    Says kind (JsonValue.sortMembers (JsonValue.sortedMembers members))
      (content.map JsonValue.sorted) := by
  have hitem := fun key => get_sorted hkeys key
  cases h with
  | initial => exact .initial
  | approval approved reason honly happroved hreason =>
    refine .approval approved reason (by rwa [onlyKeys_sorted]) (by rw [hitem,happroved]; rfl) ?_
    rw [hitem,hreason]
    cases reason <;> rfl
  | userInput parts metadata honly hparts hmetadata hformed =>
    refine .userInput _ _ (by rwa [onlyKeys_sorted]) ?_ (by rw [hitem,hmetadata])
      (wellFormed_sorted hformed)
    rw [hitem,hparts,JsonValue.sorted,JsonValue.sortedItems_eq]

end Contents

section Objects

variable {stack : Nat} {h : PyHeap} {F : Bool → Prop}

theorem mappingMembers?_isSome {v : PyObject} {t : PyJson} (hv : Denotes h F v t) :
    (mappingMembers? h v).isSome = true ↔ IsJsonObject t := by
  unfold mappingMembers? IsJsonObject
  cases hv with
  | null | bool | number | string => simp [Heap.cell]
  | array hcell => simp [Heap.cell,hcell]
  | object hcell => simp [Heap.cell,hcell]

theorem dictMembers?_isSome {v : PyObject} {t : PyJson} (hv : Denotes h (· = false) v t) :
    (dictMembers? h v).isSome = true ↔ IsJsonObject t := by
  unfold dictMembers? IsJsonObject
  cases hv with
  | null | bool | number | string => simp [Heap.cell]
  | array hcell => simp [Heap.cell,hcell]
  | object hcell hF =>
    cases hF
    simp [Heap.cell,hcell]

theorem listItems?_of_denotes {v : PyObject} {t : PyJson} (hv : Denotes h (· = false) v t) :
    (∃ items ts, listItems? h v = some items ∧ t = .array ts ∧
        DenotesItems h (· = false) items ts) ∨
      listItems? h v = none ∧ ∀ ts, t ≠ .array ts := by
  unfold listItems?
  cases hv with
  | null | bool | number | string => exact .inr ⟨rfl,nofun⟩
  | array hcell hF hs =>
    cases hF
    exact .inl ⟨_,_,by simp [Heap.cell,hcell],rfl,hs⟩
  | object hcell => exact .inr ⟨by simp [Heap.cell,hcell],nofun⟩

/-- The user input of a request is frozen into a command that stands for it. -/
theorem userInputFromValues_ok {parts : List PyObject} {metadata : PyObject} {ts : List PyJson}
    {t : PyJson} (hparts : DenotesItems h F parts ts) (hmetadata : Denotes h F metadata t)
    (hformed : (TaskExecutionPayload.userInput ts t).WellFormed)
    (hdepth : (TaskExecutionPayload.userInput ts t).depth < stack) :
    ∃ command h', (userInputFromValues stack parts metadata).run h = .ok (command,h') ∧
      h <+: h' ∧ command.Holds h' (· = true) (.userInput ts t) := by
  obtain ⟨hne,hobjects,hnull⟩ := hformed
  obtain ⟨hdepth₁,hdepth₂⟩ := Nat.max_lt.mp hdepth
  have hempty : parts.isEmpty = false := by
    rw [hparts.isEmpty]
    cases ts with
    | nil => exact absurd rfl hne
    | cons => rfl
  have hmappings : (parts.all fun part => (mappingMembers? h part).isSome) = true := by
    rw [List.all_eq_true]
    exact (hparts.forall_iff mappingMembers?_isSome).mpr hobjects
  have hmapping : (metadata.isNone || (mappingMembers? h metadata).isSome) = true := by
    rw [Bool.or_eq_true,hmetadata.isNone_iff,mappingMembers?_isSome hmetadata]
    exact hnull
  have henters : ∀ b, F b → freezing.enters b = true := fun _ _ => rfl
  obtain ⟨frozen,h₁,hrun₁,hgrows₁,hfrozen⟩ := hparts.copy henters List.prefix_rfl hdepth₁
  obtain ⟨frozenMetadata,h₂,hrun₂,hgrows₂,hfrozen₂⟩ :=
    hmetadata.copy henters hgrows₁ hdepth₂
  change (parts.mapM' (freezeJsonValue stack)).run h = _ at hrun₁
  change (freezeJsonValue stack metadata).run h₁ = _ at hrun₂
  by_cases hnone : metadata.isNone = true
  · have ht := hmetadata.isNone_iff.mp hnone
    subst ht
    refine ⟨.userInput frozen .none,h₁,?_,hgrows₁,hfrozen,.null⟩
    rw [userInputFromValues,Txn.run_bind_of (Txn.run_select _)]
    simp only [id,Txn.run_require_bind,if_pos hempty,if_pos hmappings,if_pos hmapping]
    rw [Txn.run_bind_of hrun₁,if_pos hnone]
    rfl
  · refine ⟨.userInput frozen frozenMetadata,h₂,?_,hgrows₁.trans hgrows₂,
      hfrozen.carry (Heap.carries_kept hgrows₂ _),hfrozen₂⟩
    rw [userInputFromValues,Txn.run_bind_of (Txn.run_select _)]
    simp only [id,Txn.run_require_bind,if_pos hempty,if_pos hmappings,if_pos hmapping]
    rw [Txn.run_bind_of hrun₁,if_neg hnone,Txn.run_bind_of hrun₂]
    rfl

/-- Frozen parts are thawed into new objects that stand for the same. -/
theorem materializeParts_ok {parts : List PyObject} {ts : List PyJson}
    (hparts : DenotesItems h (· = true) parts ts) (hdepth : JsonValue.depthItems ts < stack) :
    ∃ copies h', (materializeParts stack parts).run h = .ok (copies,h') ∧ h <+: h' ∧
      DenotesItems h' (· = false) copies ts :=
  hparts.copy (fun _ hb => hb) List.prefix_rfl hdepth

theorem materializeMetadata_ok {metadata : PyObject} {t : PyJson}
    (hmetadata : Denotes h (· = true) metadata t) (hdepth : t.depth < stack) :
    ∃ copy h', (materializeMetadata stack metadata).run h = .ok (copy,h') ∧ h <+: h' ∧
      Denotes h' (· = false) copy t := by
  by_cases hnone : metadata.isNone = true
  · cases hmetadata.isNone_iff.mp hnone
    refine ⟨.none,h,?_,List.prefix_rfl,.null⟩
    rw [materializeMetadata,if_pos hnone]
    rfl
  · rw [materializeMetadata,if_neg hnone]
    exact hmetadata.copy (fun _ hb => hb) List.prefix_rfl hdepth

/-- A command becomes a dict of the members of its content. -/
theorem queuedTaskExecutionPayloadToDict_ok {command : Command} {content : CommandContent}
    (hc : command.Holds h (· = true) content) (hdepth : content.depth < stack) :
    ∃ payload h', (queuedTaskExecutionPayloadToDict stack content.kind command).run h =
        .ok (payload,h') ∧ h <+: h' ∧
      Denotes h' (· = false) payload (.object content.members) := by
  have hlast := fun (h : PyHeap) (c : Cell PyNumber) => Heap.cell_last h c
  cases command with
  | initial =>
    cases content with
    | approval | userInput => exact hc.elim
    | initial =>
      exact ⟨_,_,rfl,List.prefix_append h _,.object (hlast h _) rfl List.nodup_nil .nil⟩
  | approval approved reason =>
    cases content with
    | initial | userInput => exact hc.elim
    | approval =>
      obtain ⟨rfl,rfl⟩ := hc
      refine ⟨_,_,rfl,List.prefix_append h _,
        .object (hlast h _) rfl (TaskExecutionPayload.nodup_members _) ?_⟩
      cases reason with
      | none => exact .cons _ (.bool approved) .nil
      | some reason => exact .cons _ (.bool approved) (.cons _ (.string reason) .nil)
  | userInput parts metadata =>
    cases content with
    | initial | approval => exact hc.elim
    | userInput ts t =>
      obtain ⟨hdepth₁,hdepth₂⟩ := Nat.max_lt.mp hdepth
      obtain ⟨copies,h₁,hrun₁,hgrows₁,hcopies⟩ := materializeParts_ok hc.1 hdepth₁
      have hgrows₂ := List.prefix_append h₁ [Cell.sequence false copies]
      have hlater := (hgrows₁.trans hgrows₂)
      obtain ⟨copy,h₃,hrun₃,hgrows₃,hcopy⟩ := materializeMetadata_ok
        (hc.2.carry (Heap.carries_kept hlater _)) hdepth₂
      have hgrows₄ := List.prefix_append h₃ [Cell.mapping false
        [(Text.of "parts",.ref h₁.length),(Text.of "metadata",copy)]]
      have hpartsAt : Denotes (h₁++[Cell.sequence false copies]) (· = false) (.ref h₁.length)
          (.array ts) :=
        .array (hlast h₁ _) rfl (hcopies.carry (Heap.carries_kept hgrows₂ _))
      have hpartsLater := hpartsAt.carry (Heap.carries_kept (hgrows₃.trans hgrows₄) _)
      have hcopyLater := hcopy.carry (Heap.carries_kept hgrows₄ _)
      refine ⟨_,_,?_,hlater.trans (hgrows₃.trans hgrows₄),.object (hlast h₃ _) rfl
        (TaskExecutionPayload.nodup_members (.userInput ts t))
        (.cons _ hpartsLater (.cons _ hcopyLater .nil))⟩
      rw [TaskExecutionPayload.kind,queuedTaskExecutionPayloadToDict,Txn.run_bind_of hrun₁,
        Txn.run_bind_of (run_alloc _ _),Txn.run_bind_of hrun₃,run_alloc]

variable {kind : QueuedTaskExecutionKind} {members : List (Text × PyObject)}
  {ts : List (Text × PyJson)} {content : CommandContent}

theorem onlyKeys_of_denotes (hm : DenotesMembers h F members ts) (keys : List String) :
    onlyKeys keys members = onlyKeys keys ts := by
  have hall : ∀ {α : Type} (l : List (Text × α)), onlyKeys keys l =
      (l.map Prod.fst).all fun k => keys.any fun key => k = Text.of key := by
    intro α l
    rw [List.all_map]
    rfl
  rw [hall,hall,hm.keys]

theorem members_isEmpty (hm : DenotesMembers h F members ts) : members.isEmpty = ts.isEmpty := by
  cases hm <;> rfl

theorem lookup_depth (ts : List (Text × PyJson)) (key : String) :
    (JsonValue.get ts key).depth ≤ JsonValue.depthMembers ts := by
  unfold JsonValue.get
  cases hl : ts.lookup (Text.of key) with
  | none => exact Nat.zero_le _
  | some t =>
    obtain ⟨before,after,rfl,_⟩ := List.lookup_eq_some_iff.mp hl
    exact JsonValue.depthMembers_le.mp le_rfl (Text.of key,t) (by simp)

theorem dictMembers?_all {items : List PyObject} {ps : List PyJson}
    (hs : DenotesItems h (· = false) items ps) :
    (items.all fun part => (dictMembers? h part).isSome) = true ↔
      ∀ p ∈ ps, IsJsonObject p := by
  rw [List.all_eq_true]
  exact hs.forall_iff dictMembers?_isSome

theorem dictMembers?_orNone {v : PyObject} {t : PyJson} (hv : Denotes h (· = false) v t) :
    (v.isNone || (dictMembers? h v).isSome) = true ↔ t = .null ∨ IsJsonObject t := by
  rw [Bool.or_eq_true,hv.isNone_iff,dictMembers?_isSome hv]

/-- A payload that says something under its kind is decoded to it. -/
theorem queuedTaskExecutionPayloadFromDict_ok (hm : DenotesMembers h (· = false) members ts)
    (hmeans : Says kind ts content) (hdepth : JsonValue.depthMembers ts < stack) :
    ∃ command h', (queuedTaskExecutionPayloadFromDict stack kind localExecutionCommandVersion
        members).run h = .ok (command,h') ∧ h <+: h' ∧ command.Holds h' (· = true) content := by
  have hitem := fun key => hm.lookup (Text.of key)
  cases hmeans with
  | initial =>
    refine ⟨.initial,h,?_,List.prefix_rfl,trivial⟩
    cases hm
    rfl
  | approval approved reason hkeys happroved hreason =>
    refine ⟨.approval approved reason,h,?_,List.prefix_rfl,rfl,rfl⟩
    have happroved' := hitem "approved"
    have hreason' := hitem "reason"
    change Denotes h _ (getItem members "approved") (JsonValue.get ts "approved") at happroved'
    change Denotes h _ (getItem members "reason") (JsonValue.get ts "reason") at hreason'
    rw [happroved] at happroved'
    rw [hreason] at hreason'
    rw [← onlyKeys_of_denotes hm] at hkeys
    rw [queuedTaskExecutionPayloadFromDict]
    simp only [Txn.run_require_bind,if_true,Txn.run_bind_of (Txn.run_select id),if_pos hkeys]
    generalize getItem members "approved" = v at happroved' ⊢
    generalize getItem members "reason" = w at hreason' ⊢
    cases happroved'
    cases reason <;> cases hreason' <;> rfl
  | userInput parts metadata hkeys hparts hmetadata hformed =>
    have hparts' := hitem "parts"
    have hmetadata' := hitem "metadata"
    change Denotes h _ (getItem members "parts") (JsonValue.get ts "parts") at hparts'
    change Denotes h _ (getItem members "metadata") (JsonValue.get ts "metadata") at hmetadata'
    have hdepth₁ := lookup_depth ts "parts"
    have hdepth₂ := lookup_depth ts "metadata"
    rw [hparts] at hparts' hdepth₁
    rw [hmetadata] at hmetadata' hdepth₂
    rw [← onlyKeys_of_denotes hm] at hkeys
    rcases listItems?_of_denotes hparts' with ⟨items,ps,hlist,heq,hs⟩ | ⟨_,hnot⟩
    · cases heq
      have hdicts := (dictMembers?_all hs).mpr hformed.2.1
      have hdict := (dictMembers?_orNone hmetadata').mpr hformed.2.2
      rw [queuedTaskExecutionPayloadFromDict]
      simp only [Txn.run_require_bind,if_true,Txn.run_bind_of (Txn.run_select id),if_pos hkeys,id,
        hlist,hdicts,hdict,Bool.and_self]
      refine userInputFromValues_ok hs hmetadata' hformed ?_
      rw [JsonValue.depth] at hdepth₁
      exact Nat.max_lt.mpr ⟨by omega,by omega⟩
    · exact absurd rfl (hnot parts)

/-- A payload of another version, or that says nothing under its kind, is refused. -/
theorem queuedTaskExecutionPayloadFromDict_refused {commandVersion : Int}
    (hm : DenotesMembers h (· = false) members ts)
    (hnot : ¬(commandVersion = localExecutionCommandVersion ∧ ∃ content, Says kind ts content)) :
    ∃ message, (queuedTaskExecutionPayloadFromDict stack kind commandVersion members).run h =
      .error (.valueError message) := by
  have hitem := fun key => hm.lookup (Text.of key)
  unfold queuedTaskExecutionPayloadFromDict
  simp only [Txn.run_require_bind,Txn.run_bind_of (Txn.run_select id),id]
  by_cases hversion : commandVersion = localExecutionCommandVersion
  · rw [if_pos hversion]
    have hmeans : ∀ content, ¬Says kind ts content := fun content h => hnot ⟨hversion,content,h⟩
    cases kind with
    | initial =>
      simp only [Txn.run_require_bind,members_isEmpty hm]
      by_cases hempty : ts.isEmpty = true
      · cases List.isEmpty_iff.mp hempty
        exact absurd .initial (hmeans .initial)
      · exact ⟨_,if_neg hempty⟩
    | approval =>
      simp only [Txn.run_require_bind,onlyKeys_of_denotes hm]
      by_cases hkeys : onlyKeys ["approved","reason"] ts = true
      · rw [if_pos hkeys]
        have happroved := hitem "approved"
        have hreason := hitem "reason"
        change Denotes h _ (getItem members "approved") (JsonValue.get ts "approved") at happroved
        change Denotes h _ (getItem members "reason") (JsonValue.get ts "reason") at hreason
        split
        · rename_i approved hbool hnone
          rw [hbool] at happroved
          rw [hnone] at hreason
          generalize happroved' : JsonValue.get ts "approved" = t at happroved
          generalize hreason' : JsonValue.get ts "reason" = t' at hreason
          cases happroved
          cases hreason
          exact absurd (.approval approved none hkeys happroved' hreason') (hmeans _)
        · rename_i approved reason hbool hstring
          rw [hbool] at happroved
          rw [hstring] at hreason
          generalize happroved' : JsonValue.get ts "approved" = t at happroved
          generalize hreason' : JsonValue.get ts "reason" = t' at hreason
          cases happroved
          cases hreason
          exact absurd (.approval approved (some reason) hkeys happroved' hreason') (hmeans _)
        · exact ⟨_,rfl⟩
      · exact ⟨_,if_neg hkeys⟩
    | userInput =>
      simp only [Txn.run_require_bind,onlyKeys_of_denotes hm]
      by_cases hkeys : onlyKeys ["parts","metadata"] ts = true
      · rw [if_pos hkeys]
        have hparts := hitem "parts"
        have hmetadata := hitem "metadata"
        change Denotes h _ (getItem members "parts") (JsonValue.get ts "parts") at hparts
        change Denotes h _ (getItem members "metadata") (JsonValue.get ts "metadata") at hmetadata
        rcases listItems?_of_denotes hparts with ⟨items,ps,hlist,heq,hs⟩ | ⟨hlist,_⟩
        · simp only [hlist,Txn.run_require_bind]
          split
          · rename_i hdicts
            rw [Bool.and_eq_true,dictMembers?_all hs,dictMembers?_orNone hmetadata] at hdicts
            have hempty : ps = [] := by
              by_contra hne
              exact hmeans _ (.userInput ps _ hkeys heq rfl ⟨hne,hdicts⟩)
            subst hempty
            cases hs
            exact ⟨_,rfl⟩
          · exact ⟨_,rfl⟩
        · simp only [hlist]
          exact ⟨_,rfl⟩
      · exact ⟨_,if_neg hkeys⟩
  · exact ⟨_,if_neg hversion⟩

end Objects

section Storage

variable {stack : Nat} {h : PyHeap} {content : CommandContent}

theorem storeDumps_ok {v : PyObject} {t : PyJson} (hv : Denotes h (· = false) v t)
    (hdepth : t.depth < stack) :
    (storeDumps stack v).run h = .ok (dumps PyNumber.token .default t,h) := by
  rw [storeDumps,Txn.run_bind_of (Txn.run_select _),id,hv.read (fun _ hb => hb) hdepth]
  rfl

/-- The objects that are read from the text of a value stand for it, its members in order. -/
theorem storeLoads_dumps {t : PyJson} (ht : t.Distinct) (hdepth : t.depth < stack) (h : PyHeap) :
    ∃ v h', (storeLoads stack (some (dumps PyNumber.token .default t))).run h = .ok (v,h') ∧
      Denotes h' (· = false) v t.sorted := by
  have hfits : (python (some stack)).Fits t.sorted.depth := by
    rintro m ⟨⟩
    rw [JsonValue.depth_sorted]
    exact hdepth.le
  have hloads := loads_dumps Separators.default_plain (python_scanned Separators.default)
    (python_reads (some stack)) ht hfits
  rw [JsonValue.map_id] at hloads
  refine ⟨_,_,?_,(buildObject_denotes ht.sorted h).2⟩
  rw [storeLoads,hloads]
  rfl

def objectMembers? : PyJson → Option (List (Text × PyJson))
  | .null => some []
  | .object members => some members
  | _ => none

/-- The members of the object in a column: none where the column is empty or holds `null`. -/
def columnMembers? (stack : Nat) : Option Text → Option (List (Text × PyJson))
  | none => some []
  | some text =>
    match loads (python (some stack)) text with
    | .ok json => objectMembers? json
    | .error _ => none

theorem dictMembers?_of_object {v : PyObject} {ts : List (Text × PyJson)}
    (hv : Denotes h (· = false) v (.object ts)) :
    ∃ members, dictMembers? h v = some members ∧ DenotesMembers h (· = false) members ts := by
  cases hv with
  | object hcell hF hkeys hs =>
    cases hF
    exact ⟨_,by simp [dictMembers?,Heap.cell,hcell],hs⟩

theorem storeLoads_ok {payload : Option Text} {v : PyObject} {h₁ : PyHeap}
    (hload : (storeLoads stack payload).run h = .ok (v,h₁)) :
    ∃ t, Denotes h₁ (· = false) v t ∧ columnMembers? stack payload = objectMembers? t := by
  cases payload with
  | none =>
    cases hload
    exact ⟨.null,.null,rfl⟩
  | some text =>
    rw [storeLoads] at hload
    cases hloads : loads (python (some stack)) text with
    | error e =>
      rw [hloads] at hload
      cases hload
    | ok t =>
      rw [hloads] at hload
      have hv := (buildObject_denotes (loads_distinct hloads) h).2
      rw [Except.ok.inj hload] at hv
      refine ⟨t,hv,?_⟩
      simp only [columnMembers?,hloads]

/-- The dict that is read from a column has the members of the object in it. -/
theorem orEmptyDict_members {v w : PyObject} {h₁ : PyHeap} {t : PyJson}
    {members : List (Text × PyObject)} (hv : Denotes h (· = false) v t)
    (hobject : (orEmptyDict v).run h = .ok (w,h₁)) (hmembers : dictMembers? h₁ w = some members) :
    ∃ ts, objectMembers? t = some ts ∧ DenotesMembers h₁ (· = false) members ts := by
  rw [orEmptyDict] at hobject
  split at hobject
  · rename_i hnone
    cases hv.isNone_iff.mp hnone
    cases hobject
    simp only [dictMembers?,Heap.cell,List.getElem?_concat_length] at hmembers
    cases hmembers
    exact ⟨[],rfl,.nil⟩
  · cases hobject
    obtain ⟨ts,rfl⟩ := (dictMembers?_isSome hv).mp (hmembers ▸ rfl)
    obtain ⟨members',hmembers',hm⟩ := dictMembers?_of_object hv
    cases hmembers.symm.trans hmembers'
    exact ⟨ts,rfl,hm⟩

/-- A row is decoded as its payload is, once that is read. -/
theorem CommandRow.decode_of_object {row : CommandRow} {v : PyObject} {h₁ : PyHeap}
    {ts : List (Text × PyJson)} {kind : QueuedTaskExecutionKind}
    (hload : (storeLoads stack row.payload).run h = .ok (v,h₁))
    (hv : Denotes h₁ (· = false) v (.object ts))
    (hkind : QueuedTaskExecutionKind.ofValue? row.kind = some kind)
    (hversion : row.commandVersion = localExecutionCommandVersion)
    (hmeans : Says kind ts content) (hdepth : JsonValue.depthMembers ts < stack) :
    ∃ record h', (row.decode stack).run h = .ok (record,h') ∧ record.kind = kind ∧
      record.commandVersion = localExecutionCommandVersion ∧
      record.payload.Holds h' (· = true) content := by
  obtain ⟨members,hmembers,hm⟩ := dictMembers?_of_object hv
  obtain ⟨command,h',hrun,_,hholds⟩ := queuedTaskExecutionPayloadFromDict_ok hm hmeans hdepth
  have hsame : (orEmptyDict v).run h₁ = .ok (v,h₁) := by
    rw [orEmptyDict,if_neg (by rw [hv.isNone_iff]; nofun)]
    rfl
  refine ⟨⟨row.taskId,kind,row.runtimeThreadId,row.commandVersion,command⟩,h',?_,rfl,hversion,
    hholds⟩
  rw [decode,Txn.run_bind_of hload,Txn.run_bind_of hsame,Txn.run_bind_of (Txn.run_select _),
    id,Txn.run_bind_of (Txn.run_orFail_of hmembers _),Txn.run_bind_of (Txn.run_orFail_of hkind _),
    hversion,Txn.run_bind_of hrun]
  rfl

theorem QueuedTaskExecutionKind.ofValue?_value (kind : QueuedTaskExecutionKind) :
    ofValue? kind.value = some kind := by
  cases kind <;> rfl

theorem members_depth (content : CommandContent) :
    content.depth ≤ JsonValue.depthMembers content.members := by
  cases content with
  | initial | approval => exact Nat.zero_le _
  | userInput parts metadata =>
    simp only [TaskExecutionPayload.depth,TaskExecutionPayload.members,JsonValue.depthMembers,
      JsonValue.depth]
    omega

/-- A command that is stored is read back, its members in order. -/
theorem enqueuedRow_decode {command : Command} (hformed : content.WellFormed)
    (hc : command.Holds h (· = true) content)
    (hdepth : (JsonValue.object content.members).depth < stack) (taskId : TaskId)
    (runtimeThreadId : ThreadId) :
    ∃ row h₁, (enqueuedRow stack taskId content.kind runtimeThreadId (some command)
        localExecutionCommandVersion).run h = .ok (row,h₁) ∧ row.kind = content.kind.value ∧
      row.commandVersion = localExecutionCommandVersion ∧
      ∀ h₂, ∃ record h₃, (row.decode stack).run h₂ = .ok (record,h₃) ∧
        record.kind = content.kind ∧ record.commandVersion = localExecutionCommandVersion ∧
        record.payload.Holds h₃ (· = true) (content.map JsonValue.sorted) := by
  rw [JsonValue.depth] at hdepth
  have hmembers : JsonValue.depthMembers content.members < stack := by omega
  obtain ⟨payload,h₁,hrun,_,hpayload⟩ := queuedTaskExecutionPayloadToDict_ok hc
    ((members_depth content).trans_lt hmembers)
  have hdumps := storeDumps_ok hpayload hdepth
  refine ⟨⟨taskId,content.kind.value,runtimeThreadId,localExecutionCommandVersion,
    some (dumps PyNumber.token .default (.object content.members))⟩,h₁,?_,rfl,rfl,fun h₂ => ?_⟩
  · rw [enqueuedRow]
    simp only [Txn.run_require_bind,if_true,Option.isSome_some,true_or,Option.getD_some]
    rw [Txn.run_bind_of hrun,Txn.run_bind_of hdumps]
    rfl
  · obtain ⟨v,h₃,hload,hv⟩ := storeLoads_dumps hpayload.distinct hdepth h₂
    refine CommandRow.decode_of_object hload hv (QueuedTaskExecutionKind.ofValue?_value _) rfl
      ((says_members hformed).sorted content.nodup_members) ?_
    rw [JsonValue.depthMembers_sortMembers,JsonValue.depthMembers_sorted]
    exact hmembers

/-- A row whose version is not supported, or whose payload does not fit its kind, is refused. -/
theorem CommandRow.decode_refused {row : CommandRow}
    (hnot : ¬(row.commandVersion = localExecutionCommandVersion ∧ ∃ kind members content,
      QueuedTaskExecutionKind.ofValue? row.kind = some kind ∧
      columnMembers? stack row.payload = some members ∧ Says kind members content)) :
    ∃ e, (row.decode stack).run h = .error e := by
  cases hrun : (row.decode stack).run h with
  | error e => exact ⟨e,rfl⟩
  | ok result =>
    exfalso
    obtain ⟨record,h'⟩ := result
    rw [decode] at hrun
    simp only [Txn.bind_ok,Txn.orFail_ok] at hrun
    obtain ⟨v,h₁,hload,w,h₂,hobject,_,_,hselect,members,_,⟨hmembers,rfl⟩,kind,_,⟨hkind,rfl⟩,
      command,h₃,hdecode,_⟩ := hrun
    cases hselect
    obtain ⟨t,hv,hcolumn⟩ := storeLoads_ok hload
    obtain ⟨ts,hts,hm⟩ := orEmptyDict_members hv hobject hmembers
    have hmeans : ¬(row.commandVersion = localExecutionCommandVersion ∧
        ∃ content, Says kind ts content) := by
      rintro ⟨hversion,content,hmeans⟩
      exact hnot ⟨hversion,kind,ts,content,hkind,hcolumn.trans hts,hmeans⟩
    obtain ⟨message,hrefused⟩ :=
      @queuedTaskExecutionPayloadFromDict_refused stack _ _ _ _ _ hm hmeans
    cases hdecode.symm.trans hrefused

/-- No row is written for another version, or for a command of another kind. -/
theorem enqueuedRow_refused {taskId : TaskId} {kind : QueuedTaskExecutionKind}
    {runtimeThreadId : ThreadId} {payload : Option Command} {commandVersion : Int}
    (hnot : ¬(commandVersion = localExecutionCommandVersion ∧
      (payload.getD .initial).kind = kind)) :
    ∃ message, (enqueuedRow stack taskId kind runtimeThreadId payload commandVersion).run h =
      .error (.valueError message) := by
  rw [enqueuedRow]
  simp only [Txn.run_require_bind]
  split
  · rename_i hversion
    split
    · have hkind : (payload.getD .initial).kind ≠ kind := fun hkind => hnot ⟨hversion,hkind⟩
      have hdict : (queuedTaskExecutionPayloadToDict stack kind (payload.getD .initial)).run h =
          .error (.valueError
            ("queued execution payload does not match kind: " ++ kind.value)) := by
        generalize payload.getD .initial = command at hkind
        cases kind <;> cases command <;> first | rfl | exact absurd rfl hkind
      refine ⟨"queued execution payload does not match kind: " ++ kind.value,?_⟩
      rw [Txn.run_bind,hdict]
    · exact ⟨_,rfl⟩
  · exact ⟨_,rfl⟩

end Storage

section Codec

/-- The command of the values that its constructor is given. -/
def Command.construct (stack : Nat) : Command → HeapTxn Command
  | .userInput parts metadata => userInputFromValues stack parts metadata
  | command => pure command

/-- What is materialized of user input are new objects that stand for it. -/
def Command.Materializes (stack : Nat) (h : PyHeap) : Command → CommandContent → Prop
  | .userInput parts metadata,.userInput ts t =>
    (∃ copies h', (materializeParts stack parts).run h = .ok (copies,h') ∧ h.Later h' ∧
      DenotesItems h' (· = false) copies ts) ∧
    (∃ copy h', (materializeMetadata stack metadata).run h = .ok (copy,h') ∧ h.Later h' ∧
      Denotes h' (· = false) copy t)
  | _,_ => True

variable {stack : Nat} {h : PyHeap} {content : CommandContent} {command : Command}

theorem Command.construct_ok {F : Bool → Prop} (hgiven : command.Holds h F content)
    (hformed : content.WellFormed) (hdepth : content.depth < stack) :
    ∃ made h', (command.construct stack).run h = .ok (made,h') ∧ h <+: h' ∧
      made.Holds h' (· = true) content := by
  cases command with
  | initial =>
    cases content <;> first | exact hgiven.elim | exact ⟨_,h,rfl,List.prefix_rfl,trivial⟩
  | approval approved reason =>
    cases content <;> first | exact hgiven.elim | exact ⟨_,h,rfl,List.prefix_rfl,hgiven⟩
  | userInput parts metadata =>
    cases content with
    | initial | approval => exact hgiven.elim
    | userInput ts t => exact userInputFromValues_ok hgiven.1 hgiven.2 hformed hdepth

/-- What is done to other objects does not change what a command stands for. -/
theorem Command.Holds.later {h' : PyHeap} (hc : command.Holds h (· = true) content)
    (hlater : h.Later h') : command.Holds h' (· = true) content :=
  hc.carry hlater.carries

theorem Command.Holds.materializes (hc : command.Holds h (· = true) content)
    (hdepth : content.depth < stack) : command.Materializes stack h content := by
  cases command with
  | initial | approval => trivial
  | userInput parts metadata =>
    cases content with
    | initial | approval => exact hc.elim
    | userInput ts t =>
      obtain ⟨hdepth₁,hdepth₂⟩ := Nat.max_lt.mp hdepth
      obtain ⟨copies,h₁,hrun₁,hgrows₁,hcopies⟩ := materializeParts_ok hc.1 hdepth₁
      obtain ⟨copy,h₂,hrun₂,hgrows₂,hcopy⟩ := materializeMetadata_ok hc.2 hdepth₂
      exact ⟨⟨copies,h₁,hrun₁,Heap.later_of_prefix hgrows₁,hcopies⟩,
        ⟨copy,h₂,hrun₂,Heap.later_of_prefix hgrows₂,hcopy⟩⟩

theorem depth_map_sorted (content : CommandContent) :
    (content.map JsonValue.sorted).depth = content.depth := by
  cases content with
  | initial | approval => rfl
  | userInput parts metadata =>
    simp only [TaskExecutionPayload.map,TaskExecutionPayload.depth,JsonValue.depth_sorted,
      ← JsonValue.sortedItems_eq,JsonValue.depthItems_sorted]

theorem Says.wellFormed {kind : QueuedTaskExecutionKind} {ts : List (Text × PyJson)}
    (h : Says kind ts content) : content.WellFormed ∧ content.kind = kind := by
  cases h with
  | initial | approval => exact ⟨trivial,rfl⟩
  | userInput _ _ _ _ _ hformed => exact ⟨hformed,rfl⟩

/-- The payload of what a payload says is nested no deeper. -/
theorem Says.depth_le {kind : QueuedTaskExecutionKind} {ts : List (Text × PyJson)}
    (h : Says kind ts content) :
    JsonValue.depthMembers content.members ≤ JsonValue.depthMembers ts := by
  cases h with
  | initial => exact le_rfl
  | approval approved reason =>
    cases reason <;> exact Nat.zero_le _
  | userInput parts metadata _ hparts hmetadata =>
    have hdepth₁ := lookup_depth ts "parts"
    have hdepth₂ := lookup_depth ts "metadata"
    rw [hparts] at hdepth₁
    rw [hmetadata] at hdepth₂
    exact max_le hdepth₁ (max_le hdepth₂ (Nat.zero_le _))

/-- A payload that is decoded says what the command stands for. -/
theorem queuedTaskExecutionPayloadFromDict_says {kind : QueuedTaskExecutionKind}
    {commandVersion : Int} {members : List (Text × PyObject)} {ts : List (Text × PyJson)}
    {h₁ : PyHeap} (hm : DenotesMembers h (· = false) members ts)
    (hdepth : JsonValue.depthMembers ts < stack)
    (hrun : (queuedTaskExecutionPayloadFromDict stack kind commandVersion members).run h =
      .ok (command,h₁)) :
    commandVersion = localExecutionCommandVersion ∧ ∃ content, Says kind ts content ∧
      command.Holds h₁ (· = true) content := by
  have hmeans : commandVersion = localExecutionCommandVersion ∧ ∃ content, Says kind ts content := by
    by_contra hnot
    obtain ⟨message,hrefused⟩ := @queuedTaskExecutionPayloadFromDict_refused stack _ _ _ _ _ hm hnot
    cases hrun.symm.trans hrefused
  obtain ⟨rfl,content,hmeans⟩ := hmeans
  obtain ⟨command',h',hrun',_,hholds⟩ := queuedTaskExecutionPayloadFromDict_ok hm hmeans hdepth
  cases hrun.symm.trans hrun'
  exact ⟨rfl,content,hmeans,hholds⟩

/-- What is decoded is encoded again as a payload that decodes to the same command. -/
theorem payload_reencoded {kind : QueuedTaskExecutionKind} {ts : List (Text × PyJson)}
    (hmeans : Says kind ts content) (hc : command.Holds h (· = true) content)
    (hdepth : JsonValue.depthMembers ts < stack) :
    ∃ payload h₁ members command' h₂,
      (queuedTaskExecutionPayloadToDict stack kind command).run h = .ok (payload,h₁) ∧
      dictMembers? h₁ payload = some members ∧
      (queuedTaskExecutionPayloadFromDict stack kind localExecutionCommandVersion members).run h₁ =
        .ok (command',h₂) ∧
      command'.Holds h₂ (· = true) content := by
  obtain ⟨hformed,rfl⟩ := hmeans.wellFormed
  have hdepth' := hmeans.depth_le.trans_lt hdepth
  obtain ⟨payload,h₁,hrun,_,hpayload⟩ := queuedTaskExecutionPayloadToDict_ok hc
    ((members_depth content).trans_lt hdepth')
  obtain ⟨members,hmembers,hm⟩ := dictMembers?_of_object hpayload
  obtain ⟨command',h₂,hrun',_,hholds⟩ := queuedTaskExecutionPayloadFromDict_ok hm
    (says_members hformed) hdepth'
  exact ⟨payload,h₁,members,command',h₂,hrun,hmembers,hrun',hholds⟩

def samplePart : PyJson :=
  .object [(Text.of "kind",.string (Text.of "data")),
    (Text.of "data",.object [(Text.of "items",.array [.string (Text.of "staging")])])]

def sampleOperator : PyJson :=
  .object [(Text.of "operator",.object [(Text.of "id",.string (Text.of "user-1"))])]

end Codec
end VermayAgent
