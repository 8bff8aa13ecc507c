import VermayAgent.Library.Blocks
import VermayAgent.Library.JsonCharacters
import VermayAgent.Library.JsonDialects
import VermayAgent.Library.Utf8

/-! Server-sent events from the process to the browser.
The process writes each envelope as a block of lines; the browser reads the bytes as they come,
splits them at blank lines and parses the data of each block. -/
namespace VermayAgent
open Library

section Envelopes

variable {ν : Type}

/-- The members of a value that is a `dict`, or that `isRecord`. -/
def recordMembers? : Option (JsonValue ν) → Option (List (Text × JsonValue ν))
  | some (.object members) => some members
  | _ => none

theorem recordMembers?_object (members : List (Text × JsonValue ν)) :
    recordMembers? (some (.object members)) = some members := rfl

def textOf? : Option (JsonValue ν) → Option Text
  | some (.string s) => some s
  | _ => none

def isItems : Option (JsonValue ν) → Bool
  | some (.array _) => true
  | _ => false

def property (members : List (Text × JsonValue ν)) (name : String) : Option (JsonValue ν) :=
  members.lookup (Text.of name)

def hasText (members : List (Text × JsonValue ν)) (name : String) : Bool :=
  (textOf? (property members name)).isSome

end Envelopes

section Writer

abbrev WireJson := JsonValue WireNumber

/-- The text of an `int`, which a `bool` is too. -/
def intText? : Option WireJson → Option Text
  | some (.number (.int n _)) => some (NumberToken.ofInt n).text
  | some (.bool b) => some (Text.of (if b then "True" else "False"))
  | _ => none

/-- The id in the metadata of a value. -/
def localEventId? (members : List (Text × WireJson)) : Option Text :=
  (recordMembers? (property members "metadata")).bind fun metadata =>
    intText? (property metadata "localEventId")

/-- `_event_id`. -/
def sseEventId (event : List (Text × WireJson)) : Option Text :=
  let inResult :=
    if textOf? (property event "jsonrpc") = some (Text.of "2.0") then
      (recordMembers? (property event "result")).bind localEventId?
    else none
  let inBody := (recordMembers? (event.head?.map Prod.snd)).bind localEventId?
  (inResult.or (localEventId? event)).or inBody

/-- `_sse_event_type`, which raises for an empty event. -/
def sseEventType (event : List (Text × WireJson)) : Option Text :=
  let ofEnvelope :=
    if textOf? (property event "jsonrpc") = some (Text.of "2.0") then
      if (recordMembers? (property event "error")).isSome then some (Text.of "error")
      else (recordMembers? (property event "result")).bind fun result =>
        textOf? (property result "kind")
    else none
  (ofEnvelope.or (textOf? (property event "kind"))).or (event.head?.map Prod.fst)

def newline : CodePoint := .char '\n'

/-- `_format_a2a_sse_event`. -/
def formatA2ASseEvent (event : List (Text × WireJson)) : Option Text := do
  let eventType ← sseEventType event
  let data := dumps WireNumber.token .default (.object event)
  let idLine :=
    match sseEventId event with
    | some id => Text.of "id: " ++ id ++ [newline]
    | none => []
  some (idLine ++ Text.of "event: " ++ eventType ++ [newline] ++ Text.of "data: " ++ data ++
    [newline,newline])

end Writer

namespace Web

section Reader

variable {ν : Type}

def hasState (value : Option (JsonValue ν)) : Bool :=
  ((recordMembers? value).map fun members => hasText members "state").getD false

def isValidA2AStreamResult (result : List (Text × JsonValue ν)) : Bool :=
  match textOf? (property result "kind") with
  | none => false
  | some kind =>
    if kind = Text.of "message" then
      hasText result "messageId" && hasText result "contextId" && isItems (property result "parts")
    else if kind = Text.of "task" then
      hasText result "id" && hasText result "contextId" && hasState (property result "status")
    else if kind = Text.of "status-update" then
      hasText result "taskId" && hasText result "contextId" && hasState (property result "status")
    else if kind = Text.of "artifact-update" then
      hasText result "taskId" && hasText result "contextId" &&
        ((recordMembers? (property result "artifact")).map fun artifact =>
          isItems (property artifact "parts")).getD false
    else false

/-- What is wrong with an envelope, if anything is. -/
def envelopeError? (value : JsonValue ν) : Option String :=
  match recordMembers? (some value) with
  | none => some "The A2A stream returned an invalid JSON-RPC envelope."
  | some members =>
    if textOf? (property members "jsonrpc") ≠ some (Text.of "2.0") then
      some "The A2A stream returned an invalid JSON-RPC envelope."
    else if (recordMembers? (property members "error")).isSome then none
    else
      match recordMembers? (property members "result") with
      | none => some "The A2A stream returned an invalid result payload."
      | some result =>
        if isValidA2AStreamResult result then none
        else some "The A2A stream returned an invalid result payload."

def parseA2AStreamEnvelope (data : Text) : Except String (JsonValue Float64) :=
  match loads javascript data with
  | .error _ => .error "The A2A stream returned malformed JSON."
  | .ok value =>
    match envelopeError? value with
    | some message => .error message
    | none => .ok value

/-- The envelopes that are handed on, and the error that ends the stream. -/
structure StreamResult where
  events : List (JsonValue Float64)
  error : Option String

/-- What comes next happens unless an error has ended the stream. -/
def StreamResult.andThen (r next : StreamResult) : StreamResult :=
  match r.error with
  | some _ => r
  | none => ⟨r.events++next.events,next.error⟩

/-- White space and line terminators. -/
def isJsSpace (c : CodePoint) : Bool :=
  c.value ∈ [0x09,0x0A,0x0B,0x0C,0x0D,0x20,0xA0,0x1680,0x2028,0x2029,0x202F,0x205F,0x3000,0xFEFF] ||
    (decide (0x2000 ≤ c.value) && decide (c.value ≤ 0x200A))

def trimStart (text : Text) : Text := text.dropWhile isJsSpace

/-- `text.trim()` is not empty. -/
def isBlank (text : Text) : Bool := text.all isJsSpace

/-- The lines of a chunk that carry data. -/
def dataLines (chunk : Text) : List Text :=
  (chunk.splitOn newline).filter fun line => (Text.of "data:").isPrefixOf line

def emitSseChunk (chunk : Text) : StreamResult :=
  let data := [newline].intercalate
    ((dataLines chunk).map fun line => trimStart (line.drop "data:".length))
  if data.isEmpty then ⟨[],none⟩
  else
    match parseA2AStreamEnvelope data with
    | .ok value => ⟨[value],none⟩
    | .error message => ⟨[],some message⟩

def emitSseChunks (chunks : List Text) : StreamResult :=
  chunks.foldr (fun chunk next => (emitSseChunk chunk).andThen next) ⟨[],none⟩

/-- What is left in the buffer when the body ends. -/
def emitRest (buffer : Text) : StreamResult :=
  if isBlank buffer then ⟨[],none⟩ else emitSseChunk buffer

/-- The loop of `readSseStream` over the chunks of the body. -/
def readSseStreamFrom : TextDecoder → Text → List (List UInt8) → StreamResult
  | decoder, buffer, [] => emitRest (buffer++decoder.finish)
  | decoder, buffer, value::values =>
    let read := decoder.decode value
    let chunks := splitPairs newline (buffer++read.1)
    (emitSseChunks chunks.dropLast).andThen
      (readSseStreamFrom read.2 (chunks.getLast?.getD []) values)

/-- `readSseStream` of a body that is not aborted. -/
def readSseStream (body : List (List UInt8)) : StreamResult :=
  readSseStreamFrom TextDecoder.new [] body

end Reader
section Views

variable {ν μ : Type} (f : ν → μ)

/-- A value as it is read from the text that is written of it. -/
def readBack (v : JsonValue ν) : JsonValue μ := v.sorted.map f

def readBackMembers (members : List (Text × JsonValue ν)) : List (Text × JsonValue μ) :=
  JsonValue.mapMembers f (JsonValue.sortMembers (JsonValue.sortedMembers members))

theorem readBack_object (members : List (Text × JsonValue ν)) :
    readBack f (.object members) = .object (readBackMembers f members) := rfl

theorem property_readBack {members : List (Text × JsonValue ν)}
    (h : (members.map Prod.fst).Nodup) (name : String) :
    property (readBackMembers f members) name = (property members name).map (readBack f) := by
  unfold property readBackMembers
  rw [JsonValue.mapMembers_eq,JsonValue.lookup_map,JsonValue.lookup_sorted h,Option.map_map]
  rfl

theorem textOf?_readBack (o : Option (JsonValue ν)) : textOf? (o.map (readBack f)) = textOf? o := by
  rcases o with _ | v
  · rfl
  · cases v <;> rfl

theorem isItems_readBack (o : Option (JsonValue ν)) :
    isItems (o.map (readBack f)) = isItems o := by
  rcases o with _ | v
  · rfl
  · cases v <;> rfl

theorem recordMembers?_readBack (o : Option (JsonValue ν)) :
    recordMembers? (o.map (readBack f)) = (recordMembers? o).map (readBackMembers f) := by
  rcases o with _ | v
  · rfl
  · cases v <;> rfl

/-- A record in an object has distinct keys if the object does. -/
theorem record_distinct {members inner : List (Text × JsonValue ν)} {name : String}
    (h : (JsonValue.object members).Distinct)
    (hinner : recordMembers? (property members name) = some inner) :
    (JsonValue.object inner).Distinct := by
  cases hp : property members name with
  | none =>
    rw [hp] at hinner
    cases hinner
  | some v =>
    rw [hp] at hinner
    obtain ⟨before,after,rfl,_⟩ := List.lookup_eq_some_iff.mp hp
    have hv : v.Distinct := JsonValue.distinctMembers_iff.mp h.2 (Text.of name,v) (by simp)
    cases v with
    | object members' =>
      cases hinner
      exact hv
    | null | bool | number | string | array => cases hinner

theorem hasText_readBack {members : List (Text × JsonValue ν)}
    (h : (JsonValue.object members).Distinct) (name : String) :
    hasText (readBackMembers f members) name = hasText members name := by
  rw [hasText,property_readBack f h.1,textOf?_readBack,hasText]

theorem hasState_readBack {members : List (Text × JsonValue ν)}
    (h : (JsonValue.object members).Distinct) (name : String) :
    hasState (property (readBackMembers f members) name) = hasState (property members name) := by
  unfold hasState
  rw [property_readBack f h.1,recordMembers?_readBack]
  cases hr : recordMembers? (property members name) with
  | none => rfl
  | some inner => exact hasText_readBack f (record_distinct h hr) "state"

theorem isValidA2AStreamResult_readBack {result : List (Text × JsonValue ν)}
    (h : (JsonValue.object result).Distinct) :
    isValidA2AStreamResult (readBackMembers f result) = isValidA2AStreamResult result := by
  have hartifact : ((recordMembers? (property (readBackMembers f result) "artifact")).map
      fun artifact => isItems (property artifact "parts")).getD false =
      ((recordMembers? (property result "artifact")).map
        fun artifact => isItems (property artifact "parts")).getD false := by
    rw [property_readBack f h.1,recordMembers?_readBack]
    cases hr : recordMembers? (property result "artifact") with
    | none => rfl
    | some inner =>
      simp only [Option.map_some,Option.getD_some]
      rw [property_readBack f (record_distinct h hr).1,isItems_readBack]
  unfold isValidA2AStreamResult
  simp only [hartifact,hasText_readBack f h,hasState_readBack f h]
  simp only [property_readBack f h.1,textOf?_readBack,isItems_readBack]

/-- An envelope is as valid when it has been written and read as it was before. -/
theorem envelopeError?_readBack {members : List (Text × JsonValue ν)}
    (h : (JsonValue.object members).Distinct) :
    envelopeError? (readBack f (.object members)) = envelopeError? (.object members) := by
  unfold envelopeError?
  rw [readBack_object,recordMembers?_object,recordMembers?_object]
  simp only [property_readBack f h.1,textOf?_readBack,recordMembers?_readBack,Option.isSome_map]
  split
  · rfl
  · split
    · rfl
    · cases hr : recordMembers? (property members "result") with
      | none => rfl
      | some result =>
        simp only [Option.map_some,isValidA2AStreamResult_readBack f (record_distinct h hr)]

/-- What makes an envelope valid. -/
theorem valid_cases {members : List (Text × JsonValue ν)}
    (h : envelopeError? (.object members) = none) :
    textOf? (property members "jsonrpc") = some (Text.of "2.0") ∧
      ((recordMembers? (property members "error")).isSome = true ∨
        ∃ result, recordMembers? (property members "result") = some result ∧
          isValidA2AStreamResult result = true) := by
  unfold envelopeError? at h
  rw [recordMembers?_object] at h
  by_cases hversion : textOf? (property members "jsonrpc") = some (Text.of "2.0")
  · refine ⟨hversion,?_⟩
    simp only [hversion,ne_eq,not_true_eq_false,if_false] at h
    split at h
    · rename_i herror
      exact .inl herror
    · split at h
      · cases h
      · rename_i result hresult
        split at h
        · rename_i hvalid
          exact .inr ⟨result,hresult,hvalid⟩
        · cases h
  · simp only [hversion,ne_eq,not_false_eq_true,if_true] at h
    cases h

def resultKinds : List String := ["message","task","status-update","artifact-update"]

theorem kind_of_valid {result : List (Text × JsonValue ν)}
    (h : isValidA2AStreamResult result = true) :
    ∃ kind ∈ resultKinds, textOf? (property result "kind") = some (Text.of kind) := by
  unfold isValidA2AStreamResult at h
  split at h
  · cases h
  · rename_i kind hkind
    split at h
    · rename_i heq
      exact ⟨"message",by simp [resultKinds],by rw [hkind,heq]⟩
    split at h
    · rename_i heq
      exact ⟨"task",by simp [resultKinds],by rw [hkind,heq]⟩
    split at h
    · rename_i heq
      exact ⟨"status-update",by simp [resultKinds],by rw [hkind,heq]⟩
    split at h
    · rename_i heq
      exact ⟨"artifact-update",by simp [resultKinds],by rw [hkind,heq]⟩
    · cases h

end Views

section Loop

theorem andThen_assoc (a b c : StreamResult) :
    (a.andThen b).andThen c = a.andThen (b.andThen c) := by
  rcases a with ⟨events,_ | message⟩
  · rcases b with ⟨events',_ | message'⟩
    · simp [StreamResult.andThen]
    · rfl
  · rfl

theorem nothing_andThen (r : StreamResult) : StreamResult.andThen ⟨[],none⟩ r = r := rfl

theorem emitSseChunks_append (a b : List Text) :
    emitSseChunks (a++b) = (emitSseChunks a).andThen (emitSseChunks b) := by
  induction a with
  | nil => rfl
  | cons chunk a ih =>
    change (emitSseChunk chunk).andThen (emitSseChunks (a++b)) = _
    rw [ih,← andThen_assoc]
    rfl

theorem decode_nil (decoder : TextDecoder) : decoder.decode [] = ([],decoder) := by
  simp [TextDecoder.decode,Utf8State.decode,TextDecoder.dropMark]

/-- However the bytes are cut, the chunks that are emitted are those of the whole text. -/
theorem readSseStreamFrom_eq {values : List (List UInt8)} {decoder : TextDecoder} {buffer : Text}
    {parts : List Text} {last : Text} (hbuffer : splitPairs newline buffer = [buffer])
    (h : splitPairs newline (buffer++(decoder.decode values.flatten).1) = parts++[last]) :
    readSseStreamFrom decoder buffer values = (emitSseChunks parts).andThen
      (emitRest (last++(decoder.decode values.flatten).2.finish)) := by
  induction values generalizing decoder buffer parts with
  | nil =>
    rw [List.flatten_nil,decode_nil] at h ⊢
    rw [List.append_nil,hbuffer] at h
    cases parts with
    | cons part parts => simp at h
    | nil =>
      cases h
      rw [readSseStreamFrom]
      rfl
  | cons value values ih =>
    rw [List.flatten_cons,TextDecoder.decode_append] at h ⊢
    rw [readSseStreamFrom]
    obtain ⟨first,kept,hfirst⟩ := (List.eq_nil_or_concat
      (splitPairs newline (buffer++(decoder.decode value).1))).resolve_left (splitPairs_ne_nil _)
    rw [List.concat_eq_append] at hfirst
    rw [← List.append_assoc,splitPairs_append hfirst] at h
    obtain ⟨more,last',hmore⟩ := (List.eq_nil_or_concat (splitPairs newline
      (kept++((decoder.decode value).2.decode values.flatten).1))).resolve_left
        (splitPairs_ne_nil _)
    rw [List.concat_eq_append] at hmore
    rw [hmore,← List.append_assoc] at h
    obtain ⟨rfl,hlast⟩ := List.append_inj' h rfl
    cases hlast
    simp only [hfirst,List.dropLast_concat,List.getLast?_concat,Option.getD_some]
    rw [ih (splitPairs_last hfirst) hmore,emitSseChunks_append,andThen_assoc]

end Loop
end Web

section Delivery

/-- An envelope that the browser takes as one and that can be written as UTF-8. -/
structure StreamEnvelope where
  members : List (Text × WireJson)
  valid : Web.envelopeError? (.object members) = none
  distinct : (JsonValue.object members).Distinct
  scalar : (JsonValue.object members).AllCharacters fun c => ∃ char, c = .char char

namespace StreamEnvelope

variable (e : StreamEnvelope)

/-- The type of an envelope's event is that of its result, or `error`. -/
theorem sseEventType_eq :
    ∃ name ∈ "error"::Web.resultKinds, sseEventType e.members = some (Text.of name) := by
  obtain ⟨hversion,herror | ⟨result,hresult,hvalid⟩⟩ := Web.valid_cases e.valid
  · refine ⟨"error",List.mem_cons_self,?_⟩
    simp only [sseEventType,hversion,herror,if_true]
    rfl
  · obtain ⟨kind,hmem,hkind⟩ := Web.kind_of_valid hvalid
    unfold sseEventType
    rw [hversion,if_pos rfl]
    split
    · exact ⟨"error",List.mem_cons_self,rfl⟩
    · refine ⟨kind,List.mem_cons_of_mem _ hmem,?_⟩
      rw [hresult,Option.bind_some,hkind]
      rfl

theorem newline_not_printable (c : Char) (h : IsPrintable c) : CodePoint.char c ≠ newline := by
  rintro ⟨⟩
  revert h
  decide

section EventId

variable {P : CodePoint → Prop} (hprintable : ∀ c : Char, IsPrintable c → P (.char c))
  {id : Text}

include hprintable

theorem intText?_all {o : Option WireJson} (h : intText? o = some id) : ∀ c ∈ id, P c := by
  unfold intText? at h
  split at h
  · cases h
    exact numberText_all hprintable _
  · rename_i b
    cases h
    cases b <;> exact all_of_printable hprintable (by decide)
  · cases h

theorem localEventId?_all {members : List (Text × WireJson)}
    (h : localEventId? members = some id) : ∀ c ∈ id, P c := by
  obtain ⟨metadata,_,hid⟩ := Option.bind_eq_some_iff.mp h
  exact intText?_all hprintable hid

/-- The id of an event is made of printable characters. -/
theorem eventId_all {event : List (Text × WireJson)} (h : sseEventId event = some id) :
    ∀ c ∈ id, P c := by
  unfold sseEventId at h
  rcases Option.or_eq_some_iff.mp h with h | ⟨_,h⟩
  · rcases Option.or_eq_some_iff.mp h with h | ⟨_,h⟩
    · split at h
      · obtain ⟨result,_,hid⟩ := Option.bind_eq_some_iff.mp h
        exact localEventId?_all hprintable hid
      · cases h
    · exact localEventId?_all hprintable h
  · obtain ⟨body,_,hid⟩ := Option.bind_eq_some_iff.mp h
    exact localEventId?_all hprintable hid

end EventId

/-- The JSON text of the envelope. -/
def data : Text := dumps WireNumber.token .default (.object e.members)

theorem data_line : newline ∉ e.data := by
  have hlow : ∀ c : CodePoint, 0x20 ≤ c.value → c ≠ newline := by
    rintro c hc rfl
    exact absurd hc (by decide)
  have hall : ∀ c ∈ e.data, c ≠ newline :=
    dumps_all newline_not_printable (by decide) (by decide) WireNumber.token_ne_string
      (e.scalar.mono fun c _ => hlow c)
  exact fun hmem => hall newline hmem rfl

theorem data_scalar : ∀ c ∈ e.data, ∃ char, c = .char char :=
  dumps_all (fun c _ => ⟨c,rfl⟩) (all_of_printable (fun c _ => ⟨c,rfl⟩) (by decide))
    (all_of_printable (fun c _ => ⟨c,rfl⟩) (by decide)) WireNumber.token_ne_string
    (e.scalar.mono fun c hc (_ : 0x20 ≤ c.value) => hc)

theorem data_brace : ∃ rest, e.data = .char '{'::rest := by
  unfold data dumps
  rw [JsonValue.sorted]
  cases JsonValue.sortMembers (JsonValue.sortedMembers e.members) with
  | nil => exact ⟨_,rfl⟩
  | cons m members => exact ⟨_,rfl⟩

/-- The envelope as the browser has it. -/
def received : JsonValue Float64 := Web.readBack WireNumber.float (.object e.members)

theorem parse_data : Web.parseA2AStreamEnvelope e.data = .ok e.received := by
  have hfits : javascript.Fits (JsonValue.object e.members).sorted.depth := nofun
  have hloads := loads_dumps Separators.default_plain (wire_scanned Separators.default)
    javascript_reads e.distinct hfits
  have hvalid := Web.envelopeError?_readBack WireNumber.float e.distinct
  rw [e.valid] at hvalid
  unfold Web.parseA2AStreamEnvelope data
  rw [hloads]
  change (match Web.envelopeError? e.received with | some message => _ | none => _) = _
  rw [received,hvalid]
  rfl

def eventLine : Text := Text.of "event: " ++ (sseEventType e.members).getD []

def dataLine : Text := Text.of "data: " ++ e.data

/-- The lines of an event without the blank line that ends it. -/
def block : Text :=
  match sseEventId e.members with
  | some id => (Text.of "id: " ++ id) ++ newline::(e.eventLine ++ newline::e.dataLine)
  | none => e.eventLine ++ newline::e.dataLine

theorem formatA2ASseEvent_eq :
    formatA2ASseEvent e.members = some (e.block ++ [newline,newline]) := by
  obtain ⟨name,_,hname⟩ := e.sseEventType_eq
  unfold formatA2ASseEvent block eventLine
  rw [hname]
  cases sseEventId e.members <;> simp [dataLine,data]

theorem trimStart_data : Web.trimStart (e.dataLine.drop "data:".length) = e.data := by
  obtain ⟨rest,hrest⟩ := e.data_brace
  unfold dataLine
  rw [hrest]
  rfl

section Lines

theorem eventLine_line : newline ∉ e.eventLine := by
  have hall : ∀ name ∈ "error"::Web.resultKinds, newline ∉ Text.of name := by decide
  obtain ⟨name,hmem,hname⟩ := e.sseEventType_eq
  rw [eventLine,hname,List.mem_append,not_or]
  exact ⟨by decide,hall name hmem⟩

theorem dataLine_line : newline ∉ e.dataLine := by
  rw [dataLine,List.mem_append,not_or]
  exact ⟨by decide,e.data_line⟩

theorem idLine_line {id : Text} (h : sseEventId e.members = some id) :
    newline ∉ Text.of "id: " ++ id := by
  have hid : ∀ c ∈ id, c ≠ newline := eventId_all newline_not_printable h
  rw [List.mem_append,not_or]
  exact ⟨by decide,fun hmem => hid newline hmem rfl⟩

theorem block_unbroken : Unbroken newline e.block := by
  have htail : Unbroken newline (e.eventLine ++ newline::e.dataLine) :=
    unbroken_lines e.eventLine_line (unbroken_line e.dataLine_line) ⟨.char 'd',_,rfl,by decide⟩
  unfold block
  split
  · rename_i id hid
    exact unbroken_lines (e.idLine_line hid) htail ⟨.char 'e',_,rfl,by decide⟩
  · exact htail

/-- One line of an event carries data. -/
theorem dataLines_block : Web.dataLines e.block = [e.dataLine] := by
  have htail : Web.dataLines (e.eventLine ++ newline::e.dataLine) = [e.dataLine] := by
    rw [Web.dataLines,List.splitOn_append_cons_self_of_not_mem e.eventLine_line,
      List.splitOn_eq_singleton e.dataLine_line]
    rfl
  unfold block
  split
  · rename_i id hid
    rw [Web.dataLines,List.splitOn_append_cons_self_of_not_mem (e.idLine_line hid)]
    exact htail
  · exact htail

/-- A block is taken for the envelope that it was written of. -/
theorem emitSseChunk_block : Web.emitSseChunk e.block = ⟨[e.received],none⟩ := by
  obtain ⟨rest,hrest⟩ := e.data_brace
  have hdata : [newline].intercalate ((Web.dataLines e.block).map fun line =>
      Web.trimStart (line.drop "data:".length)) = e.data := by
    rw [e.dataLines_block,List.map_singleton,e.trimStart_data]
    exact List.append_nil e.data
  have hnonempty : e.data.isEmpty = false := by
    rw [hrest]
    rfl
  unfold Web.emitSseChunk
  simp only [hdata,hnonempty,e.parse_data]
  rfl

theorem block_scalar : ∀ c ∈ e.block, ∃ char, c = .char char := by
  have hof : ∀ s : String, ∀ c ∈ Text.of s, ∃ char, c = .char char := fun s c hc => by
    obtain ⟨char,_,rfl⟩ := List.mem_map.mp hc
    exact ⟨char,rfl⟩
  have hevent : ∀ c ∈ e.eventLine, ∃ char, c = .char char := by
    obtain ⟨name,_,hname⟩ := e.sseEventType_eq
    rw [eventLine,hname]
    exact List.forall_mem_append.mpr ⟨hof _,hof _⟩
  have htail : ∀ c ∈ e.eventLine ++ newline::e.dataLine, ∃ char, c = .char char :=
    List.forall_mem_append.mpr ⟨hevent,
      List.forall_mem_cons.mpr ⟨⟨_,rfl⟩,List.forall_mem_append.mpr ⟨hof _,e.data_scalar⟩⟩⟩
  unfold block
  split
  · rename_i id hid
    have hid' : ∀ c ∈ id, ∃ char, c = .char char := eventId_all (fun c _ => ⟨c,rfl⟩) hid
    exact List.forall_mem_append.mpr ⟨List.forall_mem_append.mpr ⟨hof _,hid'⟩,
      List.forall_mem_cons.mpr ⟨⟨_,rfl⟩,htail⟩⟩
  · exact htail

theorem block_head : e.block.head? = some (.char 'i') ∨ e.block.head? = some (.char 'e') := by
  unfold block
  split
  · exact .inl rfl
  · exact .inr rfl

end Lines

end StreamEnvelope

/-- The text of a stream of envelopes. -/
def sseText (envelopes : List StreamEnvelope) : Text :=
  envelopes.flatMap fun e => e.block ++ [newline,newline]

theorem splitPairs_sseText (envelopes : List StreamEnvelope) :
    splitPairs newline (sseText envelopes) = envelopes.map StreamEnvelope.block ++ [[]] := by
  induction envelopes with
  | nil => rfl
  | cons e envelopes ih =>
    change splitPairs newline ((e.block ++ [newline,newline]) ++ sseText envelopes) = _
    rw [List.append_assoc]
    change splitPairs newline (e.block ++ newline::newline::sseText envelopes) = _
    rw [splitPairs_block e.block_unbroken,ih]
    rfl

theorem emitSseChunks_blocks (envelopes : List StreamEnvelope) :
    Web.emitSseChunks (envelopes.map StreamEnvelope.block) =
      ⟨envelopes.map StreamEnvelope.received,none⟩ := by
  induction envelopes with
  | nil => rfl
  | cons e envelopes ih =>
    change (Web.emitSseChunk e.block).andThen
      (Web.emitSseChunks (envelopes.map StreamEnvelope.block)) = _
    rw [e.emitSseChunk_block,ih]
    rfl

theorem sseText_scalar (envelopes : List StreamEnvelope) :
    ∀ c ∈ sseText envelopes, ∃ char, c = .char char := by
  intro c hc
  obtain ⟨e,_,hmem⟩ := List.mem_flatMap.mp hc
  rcases List.mem_append.mp hmem with hmem | hmem
  · exact e.block_scalar c hmem
  · rw [List.mem_cons,List.mem_singleton,or_self] at hmem
    exact ⟨_,hmem⟩

theorem sseText_head (envelopes : List StreamEnvelope) :
    (sseText envelopes).head? ≠ some TextDecoder.byteOrderMark := by
  cases envelopes with
  | nil => nofun
  | cons e envelopes =>
    have hhead : (sseText (e::envelopes)).head? = e.block.head? := by
      change ((e.block ++ [newline,newline]) ++ sseText envelopes).head? = _
      rcases e.block_head with h | h <;> simp [h]
    rw [hhead]
    rcases e.block_head with h | h <;> rw [h] <;> decide

/-- A message whose text holds a blank line, the name of a field and a character of four bytes. -/
def sampleMessage : List (Text × WireJson) :=
  [(Text.of "jsonrpc",.string (Text.of "2.0")),(Text.of "id",.number (.int 1 (by decide))),
    (Text.of "result",.object [(Text.of "kind",.string (Text.of "message")),
      (Text.of "messageId",.string (Text.of "message-1")),
      (Text.of "contextId",.string (Text.of "context-1")),
      (Text.of "parts",.array [.object [(Text.of "kind",.string (Text.of "text")),
        (Text.of "text",.string (Text.of "one\n\ndata: 🙂"))]])])]

def sampleEnvelope : StreamEnvelope where
  members := sampleMessage
  valid := by decide
  distinct := by
    simp only [sampleMessage,JsonValue.Distinct,JsonValue.DistinctMembers,
      JsonValue.DistinctItems]
    decide
  scalar := by
    have hof : ∀ s : String, ∀ c ∈ Text.of s, ∃ char, c = .char char := fun s c hc => by
      obtain ⟨char,_,rfl⟩ := List.mem_map.mp hc
      exact ⟨char,rfl⟩
    simp only [sampleMessage,JsonValue.AllCharacters,JsonValue.AllCharactersMembers,
      JsonValue.AllCharactersItems]
    exact ⟨hof _,hof _,hof _,trivial,hof _,⟨hof _,hof _,hof _,hof _,hof _,hof _,hof _,
      ⟨⟨hof _,hof _,hof _,hof _,trivial⟩,trivial⟩,trivial⟩,trivial⟩

end Delivery
end VermayAgent
