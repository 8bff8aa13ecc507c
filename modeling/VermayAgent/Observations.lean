import VermayAgent.TaskInputs
import VermayAgent.LedgerFacts

/-! What the runtime makes of the message of a tool.
The ledger, the observation and the progress payload each judge for themselves whether a tool has
succeeded; JSON text is the environment's, and a message content is a text or a list. -/
namespace VermayAgent
open Library

/-- A message of `ToolNode`. -/
structure ToolMessage where
  toolCallId : String
  name : Option String
  status : String
  content : Json
deriving DecidableEq

/-- The part of the message that the ledger reads. -/
def ToolMessage.response (message : ToolMessage) : ToolResponse := ⟨message.status,message.content⟩

structure Observation where
  loopIndex : Int
  toolCallId : String
  toolName : String
  ok : Bool
  summary : String
  structuredData : Json
  errorCategory : Option String
  retryable : Bool
  changedResources : List Json
  artifactRefs : List ArtifactId
deriving DecidableEq

structure ToolMessagePayload where
  name : Option String
  toolCallId : String
  status : String
  ok : Bool
  content : Json

section Summaries

/-- A character at which `str.splitlines` ends a line. -/
def isLineBreak (c : Char) : Bool :=
  let n := c.toNat
  (10 ≤ n && n ≤ 13) || (0x1c ≤ n && n ≤ 0x1e) || n = 0x85 || n = 0x2028 || n = 0x2029

def splitLines : List Char → List Char → List (List Char)
  | [], [] => []
  | line, [] => [line.reverse]
  | line, '\r' :: '\n' :: cs => line.reverse::splitLines [] cs
  | line, c::cs => if isLineBreak c then line.reverse::splitLines [] cs else splitLines (c::line) cs

def splitlines (s : String) : List String := (splitLines [] s.toList).map String.ofList

variable (env : LedgerEnv) (text : TextEnv)

/-- `str(value or "")`. -/
def strOrEmpty (value : Json) : String := if value.truthy then text.str value else ""

/-- The summary that the members of an object give. -/
def objectSummary (output : Json) : Option String :=
  match output.member "message",output.member "status" with
  | .str message,status =>
    if message ≠ "" then some message else status.asString.map ("status=" ++ ·)
  | _,.str status => some ("status=" ++ status)
  | _,_ => none

/-- The summary that the streams of a command give. -/
def streamSummary (output : Json) : Option String :=
  let stdout := strOrEmpty text (output.member "stdout")
  let stderr := strOrEmpty text (output.member "stderr")
  if stdout ≠ "" then
    let lines := splitlines stdout
    let preview := "\n".intercalate (lines.take 8)
    let more := if 8 < lines.length then
      "\n... (" ++ toString (lines.length-8) ++ " more lines in JSONL trace)" else ""
    some ("stdout_lines: " ++ toString lines.length ++ "\n" ++ preview ++ more)
  else if stderr ≠ "" then some ("stderr:\n" ++ stderr)
  else none

def observationSummary (output : Json) (content : String) : String :=
  let structured := if output.isObject then (objectSummary output).or (streamSummary text output)
    else none
  let parsed := if (strip content).startsWith "\x7b" then
    (((env.jsonLoads content).getD .null).member "status").asString.map ("status=" ++ ·) else none
  (structured.or parsed).getD content

end Summaries

section Normalisation

variable (env : LedgerEnv) (text : TextEnv)

def maxObservationDataChars : Nat := 16000
def maxObservationSummaryChars : Nat := 2000

/-- `_content_text`. -/
def contentText (content : Json) : String :=
  match content with
  | .str text => text
  | content => env.jsonDumps content

/-- `_structured_data`: only objects and lists count. -/
def structuredData (content : Json) : Json :=
  match content with
  | .obj fields => .obj fields
  | .arr items => .arr items
  | .str text =>
    match env.jsonLoads text with
    | some (.obj fields) => .obj fields
    | some (.arr items) => .arr items
    | _ => .null
  | _ => .null

/-- The category of an error and whether it may be retried. -/
def errorFields (data : Json) (ok : Bool) : Option String × Bool :=
  if ok then (none,false)
  else if data.isObject then
    let error := data.member "error"
    let category := MainAgentToolInvocationLedger.firstText [data.member "error_category",
      data.member "errorCategory",data.member "error_code",data.member "errorCode",
      data.member "code",error.member "category",error.member "code"] "tool_execution_error"
    let retryable : Json :=
      match data.member "retryable" with
      | .bool b => .bool b
      | value => if error.isObject then error.member "retryable" else value
    (some category,retryable.truthy)
  else (some "tool_execution_error",false)

/-- `data.get(key, data.get(other))`. -/
def memberOr (data : Json) (key other : String) : Json :=
  (data.fields.lookup key).getD (data.member other)

def changedResources (data : Json) : List Json :=
  match memberOr data "changed_resources" "changedResources" with
  | .arr items => items.filterMap fun item =>
    match item with
    | .obj fields => some (.obj fields)
    | .str s => if s = "" then none else some (.obj [("id",.str s)])
    | _ => none
  | _ => []

def nonEmptyText (value : Json) : Option String := value.asString.filter fun s => s ≠ ""

/-- `_artifact_refs`: each reference once, those of the caller first. -/
def artifactRefs (data : Json) (explicitRefs : List ArtifactId) : List ArtifactId :=
  let listed :=
    match memberOr data "artifact_refs" "artifactRefs" with
    | .arr items => items.filterMap nonEmptyText
    | _ => []
  let single := [data.member "artifact_id",data.member "artifactId"].filterMap nonEmptyText
  (explicitRefs ++ listed ++ single).eraseDups

def boundedData (data : Json) : Json :=
  if data = .null then .null
  else
    let serialized := env.jsonDumps data
    if serialized.length ≤ maxObservationDataChars then data
    else .obj [("truncated",.bool true),
      ("preview",.str (String.ofList (serialized.toList.take maxObservationDataChars))),
      ("original_characters",.num serialized.length)]

def truncate (value : String) (limit : Nat) : String :=
  if value.length ≤ limit then value
  else String.ofList (value.toList.take limit) ++ "...<truncated>"

/-- `normalize_tool_observation`. -/
def normalizeToolObservation (message : ToolMessage) (loopIndex : Int)
    (refs : List ArtifactId) : Observation :=
  let content := contentText env message.content
  let data := structuredData env message.content
  let status := if message.status = "" then "success" else message.status
  let ok := decide (status ≠ "error") && !(data.isObject && data.member "ok" = .bool false)
  {
    loopIndex
    toolCallId := message.toolCallId
    toolName := (message.name.filter fun s => s ≠ "").getD "tool"
    ok
    summary := truncate (observationSummary env text data content) maxObservationSummaryChars
    structuredData := boundedData env data
    errorCategory := (errorFields data ok).1
    retryable := (errorFields data ok).2
    changedResources := changedResources data
    artifactRefs := artifactRefs data refs}

def toolMessageStructuredData (content : Json) : Json :=
  match content with
  | .obj fields => .obj fields
  | .str text => (env.jsonLoads text).getD .null
  | _ => .null

/-- `_tool_message_payload`. -/
def toolMessagePayload (message : ToolMessage) : ToolMessagePayload :=
  let data := toolMessageStructuredData env message.content
  ⟨message.name,message.toolCallId,message.status,
    decide (message.status ≠ "error") && !(data.isObject && data.member "ok" = .bool false),
    message.content⟩

end Normalisation

section Judgement

variable {env : LedgerEnv} {text : TextEnv} {message : ToolMessage}

/-- The data reports a failure. -/
def saysNo (data : Json) : Bool := data.isObject && data.member "ok" = .bool false

/-- The three readings of a content see the same reports of failure. -/
theorem saysNo_alike (content : Json) :
    saysNo (structuredData env content) = saysNo (toolMessageStructuredData env content) ∧
      saysNo (MainAgentToolInvocationLedger.structuredToolResponse env content) =
        saysNo (toolMessageStructuredData env content) := by
  cases content with
  | str s =>
    refine ⟨?_,rfl⟩
    simp only [structuredData,toolMessageStructuredData]
    cases env.jsonLoads s with
    | none => rfl
    | some value =>
      cases value with
      | obj | arr => rfl
      | null | bool | num | str => rfl
  | null | bool | num | arr | obj => exact ⟨rfl,rfl⟩

theorem normalizeToolObservation_ok (loopIndex : Int) (refs : List ArtifactId) :
    (normalizeToolObservation env text message loopIndex refs).ok =
      (decide (message.status ≠ "error") &&
        !saysNo (toolMessageStructuredData env message.content)) := by
  have hstatus : (if message.status = "" then "success" else message.status) = "error" ↔
      message.status = "error" := by
    by_cases hs : message.status = "" <;> simp [hs]
  have hok : (normalizeToolObservation env text message loopIndex refs).ok =
      (decide ((if message.status = "" then "success" else message.status) ≠ "error") &&
        !saysNo (structuredData env message.content)) := rfl
  rw [hok,(saysNo_alike message.content).1]
  simp only [ne_eq,hstatus]

theorem toolMessagePayload_ok (loopIndex : Int) (refs : List ArtifactId) :
    (toolMessagePayload env message).ok =
      (normalizeToolObservation env text message loopIndex refs).ok := by
  rw [normalizeToolObservation_ok]
  rfl

theorem failedToolResponse_none_iff (loopIndex : Int) (refs : List ArtifactId) :
    MainAgentToolInvocationLedger.failedToolResponse env message.response = none ↔
      (normalizeToolObservation env text message loopIndex refs).ok = true := by
  rw [normalizeToolObservation_ok,← (saysNo_alike message.content).2]
  unfold MainAgentToolInvocationLedger.failedToolResponse ToolMessage.response
  by_cases hs : message.status = "error"
  · simp [hs]
  · simp only [hs,if_false,ne_eq,not_false_eq_true,decide_true,Bool.true_and,saysNo]
    generalize MainAgentToolInvocationLedger.structuredToolResponse env message.content = data
    by_cases hobject : data.isObject = true
    · by_cases hno : data.member "ok" = .bool false <;> simp [hobject,hno]
    · simp [hobject]

end Judgement
end VermayAgent
