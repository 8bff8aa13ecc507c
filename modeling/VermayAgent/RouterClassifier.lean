import VermayAgent.ArgumentRedaction
import VermayAgent.TaskInputs

/-! The route that a model's text is read as.
The text is searched for a JSON object, the object is checked and repaired, and a text that cannot
be read is searched for labels; what is left falls back to a direct message. -/
namespace VermayAgent
open Library

/-- What is raised on the way. -/
inductive RouterError where
  | valueError (message : Text)
  | typeError (message : Text)
  | overflowError
  | recursionError

abbrev RouterPayload := List (Text × PyJson)

structure RouterModelDecision where
  kind : RouteDecisionKind
  reason : Text
  confidence : Option Float64
  targetAgentId : Option Text
  metadata : RouterPayload

/-- The configuration of the client, and what the interpreter makes of texts: the depth that
`json.loads` reads to, the messages of its errors and the characters that `repr` shows. -/
structure DirectModelRouterModelClient where
  confidenceThreshold : Float64
  modelName : Option Text
  maxDepth : Option Nat
  loadsMessage : Text → Text
  isPrintable : CodePoint → Bool

section PythonText

def isSpacePoint : CodePoint → Bool
  | .char c => isSpace c
  | .surrogate _ => false

def stripText (text : Text) : Text :=
  ((text.dropWhile isSpacePoint).reverse.dropWhile isSpacePoint).reverse

/-- `lower()` as far as it leads to ASCII letters; other letters are in no label. -/
def lowerPoint (c : CodePoint) : Text :=
  if 0x41 ≤ c.value ∧ c.value ≤ 0x5A then [.ofNat (c.value+0x20)]
  else if c.value = 0x130 then [.char 'i',.ofNat 0x307]
  else if c.value = 0x212A then [.char 'k']
  else [c]

def lowerText (text : Text) : Text := text.flatMap lowerPoint

/-- The last hexadecimal digits of a number. -/
def hexText (width n : Nat) : Text :=
  (List.range width).reverse.map fun k => hexChar (Fin.ofNat 16 (n/16^k))

variable (isPrintable : CodePoint → Bool)

def reprPoint (quote c : CodePoint) : Text :=
  if c = quote ∨ c = .char '\\' then [.char '\\',c]
  else if c = .char '\n' then Text.of "\\n"
  else if c = .char '\r' then Text.of "\\r"
  else if c = .char '\t' then Text.of "\\t"
  else if 0x20 ≤ c.value ∧ c.value < 0x7F then [c]
  else if 0x7F < c.value ∧ isPrintable c then [c]
  else if c.value ≤ 0xFF then Text.of "\\x" ++ hexText 2 c.value
  else if c.value ≤ 0xFFFF then Text.of "\\u" ++ hexText 4 c.value
  else Text.of "\\U" ++ hexText 8 c.value

def reprText (s : Text) : Text :=
  let quote := if .char '\'' ∈ s ∧ .char '"' ∉ s then .char '"' else .char '\''
  quote::s.flatMap (reprPoint isPrintable quote) ++ [quote]

mutual

/-- `repr` of what `json.loads` makes. -/
def reprJson : PyJson → Text
  | .null => Text.of "None"
  | .bool b => Text.of (if b then "True" else "False")
  | .number n => n.text
  | .string s => reprText isPrintable s
  | .array items => Text.of "[" ++ (Text.of ", ").intercalate (reprItems items) ++ Text.of "]"
  | .object members => Text.of "\x7b" ++ (Text.of ", ").intercalate (reprMembers members) ++
    Text.of "\x7d"

def reprItems : List PyJson → List Text
  | [] => []
  | v::items => reprJson v::reprItems items

def reprMembers : List (Text × PyJson) → List Text
  | [] => []
  | (key,v)::members =>
    (reprText isPrintable key ++ Text.of ": " ++ reprJson v)::reprMembers members

end

/-- `str`. -/
def strJson : PyJson → Text
  | .string s => s
  | v => reprJson isPrintable v

def truthyJson : PyJson → Bool
  | .null => false
  | .bool b => b
  | .number (.int n _) => n ≠ 0
  | .number (.finite _ m) => m.val ≠ 0
  | .number (.constant _) => true
  | .string s => !s.isEmpty
  | .array items => !items.isEmpty
  | .object members => !members.isEmpty

/-- `v or w`. -/
def orJson (v w : PyJson) : PyJson := if truthyJson v then v else w

/-- `{**payload, **other}`. -/
def mergePayload (payload other : RouterPayload) : RouterPayload :=
  other.foldl (fun members m => JsonValue.set m.1 m.2 members) payload

end PythonText

namespace DirectModelRouterModelClient

variable (client : DirectModelRouterModelClient)

/-- `json.loads`, with the errors that are `ValueError`s told apart by `decodes`. -/
def routerLoads (decodeError : Text → Text) (text : Text) : Except RouterError PyJson :=
  match loads (python client.maxDepth) text with
  | .ok json => .ok json
  | .error .decode => .error (.valueError (decodeError (client.loadsMessage text)))
  | .error .digits => .error (.valueError (client.loadsMessage text))
  | .error .recursion => .error .recursionError

/-- The text from the first opening brace to the last closing one. -/
def braced? (text : Text) : Option Text :=
  match text.findIdx? (· = .char '{'),text.reverse.findIdx? (· = .char '}') with
  | some start,some back =>
    let stop := text.length-1-back
    if stop ≤ start then none else some ((text.take (stop+1)).drop start)
  | _,_ => none

def routerObject : PyJson → Except RouterError RouterPayload
  | .object payload => .ok payload
  | _ => .error (.valueError (Text.of "router output must be an object"))

/-- `_extract_json_object`. -/
def extractJsonObject (content : Text) : Except RouterError RouterPayload := do
  let text := stripText content
  if text.isEmpty then .error (.valueError (Text.of "empty output"))
  let json ←
    match loads (python client.maxDepth) text with
    | .ok json => .ok json
    | .error .digits => .error (.valueError (client.loadsMessage text))
    | .error .recursion => .error .recursionError
    | .error .decode =>
      match braced? text with
      | none => .error (.valueError (Text.of "missing JSON object"))
      | some inner => client.routerLoads (Text.of "invalid JSON: " ++ ·) inner
  routerObject json

def schemaRepairKey : Text := Text.of "_schemaRepair"

def classifierPayload : PyJson := .string (Text.of "classifier_payload")

/-- What a payload is once `_schemaRepair` is popped. -/
def withoutRepair (payload : RouterPayload) : RouterPayload :=
  payload.filter fun m => m.1 ≠ schemaRepairKey

/-- `_classifier_payload_reason`. -/
def classifierPayloadReason (payload : RouterPayload) (fallback : Text) : Text :=
  let used := ["reason","intent","classification","suggested_action"].findSome? fun key =>
    match JsonValue.get payload key with
    | .string value =>
      if (stripText value).isEmpty then none
      else some (Text.of ("Model classifier output used " ++ key ++ "=") ++ stripText value ++
        Text.of ".")
    | _ => none
  used.getD fallback

def requiresTool (payload : RouterPayload) : PyJson :=
  let direct := JsonValue.get payload "requires_tool"
  let value :=
    match direct with
    | .null => JsonValue.get payload "requires_tool_access"
    | value => value
  match value with
  | .string s => if (stripText s).isEmpty then .string s else .bool true
  | value => value

def classifierText (payload : RouterPayload) : Text :=
  lowerText ((Text.of " ").intercalate
    (["classification","intent","category","suggested_action"].map fun key =>
      strJson client.isPrintable (orJson (JsonValue.get payload key) (.string []))))

def routeKinds : List RouteDecisionKind := [.localMessage,.localTask,.remoteAgent]

def chatTokens : List String := ["joke","humor","chat","conversation","entertainment"]

/-- The target that a payload names, under either key. -/
def targetOf (payload : RouterPayload) : PyJson :=
  orJson (JsonValue.get payload "targetAgentId") (JsonValue.get payload "target_agent_id")

/-- The route, the reason and the target that a payload is repaired to. -/
def classifierLabel (payload : RouterPayload) : Option (RouteDecisionKind × Text × PyJson) :=
  match requiresTool payload with
  | .bool b =>
    some (if b then .localTask else .localMessage,
      classifierPayloadReason payload (Text.of ("Model classifier requires_tool=" ++
        (if b then "True" else "False") ++ ".")),
      targetOf payload)
  | _ =>
    let text := client.classifierText payload
    match routeKinds.find? fun kind => Text.of kind.value <:+: text with
    | some kind =>
      some (kind,Text.of ("Model classifier returned route label " ++ kind.value ++ "."),
        targetOf payload)
    | none =>
      if chatTokens.any fun token => Text.of token <:+: text then
        some (.localMessage,classifierPayloadReason payload
          (Text.of "Model classifier identified a direct message request."),.null)
      else none

/-- 0.75 -/
def defaultConfidence : Float64 := NumberToken.float ⟨false,[0],[7,5],none⟩

/-- The number that an `int`, a `bool` or a `float` is converted to. -/
def toFloat : PyJson → Option (Except RouterError Float64)
  | .bool b => some (.ok (.ofInt (if b then 1 else 0)))
  | .number n =>
    match n.float? with
    | some x => some (.ok x)
    | none => some (.error .overflowError)
  | _ => none

/-- `_numeric_or_default`. -/
def numericOrDefault (value : PyJson) : Except RouterError Float64 :=
  (toFloat value).getD (.ok defaultConfidence)

def repairedMembers (kind : RouteDecisionKind) (confidence : Float64) (reason : Text)
    (target : PyJson) : RouterPayload :=
  [(Text.of "route",.string (Text.of kind.value)),
    (Text.of "confidence",.number (.ofFloat confidence)),(Text.of "reason",.string reason),
    (Text.of "targetAgentId",target),(schemaRepairKey,classifierPayload)]

/-- `_repair_router_payload`. -/
def repairRouterPayload (payload : RouterPayload) : Except RouterError (Option RouterPayload) :=
  match client.classifierLabel payload with
  | none => .ok none
  | some (kind,reason,target) => do
    let confidence ← numericOrDefault (JsonValue.get payload "confidence")
    .ok (some (repairedMembers kind confidence reason target))

/-- The label that a route is, unless it cannot be looked up in a set. -/
def routeKind? : PyJson → Except RouterError (Option RouteDecisionKind)
  | .array _ => .error (.typeError (Text.of "unhashable type: 'list'"))
  | .object _ => .error (.typeError (Text.of "unhashable type: 'dict'"))
  | .string s => .ok (routeKinds.find? fun kind => Text.of kind.value = s)
  | _ => .ok none

variable (agents : List RegisteredAgentRecord)

/-- An enabled agent has this id. -/
def isEnabledAgent (target : Text) : Bool :=
  agents.any fun agent => agent.enabled && Text.of agent.agentId = target

/-- The confidence, still to be converted. -/
def readConfidence : PyJson → Except RouterError (Option (Except RouterError Float64))
  | .null => .ok none
  | value =>
    match toFloat value with
    | none => .error (.valueError (Text.of "confidence must be numeric"))
    | some converted => .ok (some converted)

def readReason : PyJson → Except RouterError Text
  | .string reason =>
    if stripText reason = [] then .error (.valueError (Text.of "reason is required"))
    else .ok (stripText reason)
  | _ => .error (.valueError (Text.of "reason is required"))

def readTarget : PyJson → Except RouterError (Option Text)
  | .null => .ok none
  | .string target => .ok (some target)
  | _ => .error (.valueError (Text.of "targetAgentId must be a string"))

/-- A remote agent is named and enabled. -/
def checkAgent (kind : RouteDecisionKind) (target : Option Text) : Except RouterError Unit :=
  if kind = .remoteAgent then
    match target with
    | none | some [] => .error (.valueError (Text.of "remote_agent requires targetAgentId"))
    | some target =>
      if isEnabledAgent agents target then .ok ()
      else .error (.valueError (Text.of "unknown targetAgentId: " ++ target))
  else .ok ()

def convertConfidence : Option (Except RouterError Float64) → Except RouterError (Option Float64)
  | none => .ok none
  | some converted => some <$> converted

def cleanTarget (target : Option Text) : Option Text :=
  (target.map stripText).filter fun t => !t.isEmpty

/-- The part of `_router_model_decision_from_payload` that follows the route. -/
def checkedDecision (kind : RouteDecisionKind) (payload : RouterPayload) (schemaRepair : PyJson)
    (repaired : Bool) : Except RouterError RouterModelDecision := do
  let confidence ← readConfidence (JsonValue.get payload "confidence")
  let reason ← readReason (JsonValue.get payload "reason")
  let target ← readTarget (targetOf payload)
  checkAgent agents kind target
  let confidence ← convertConfidence confidence
  let repair :=
    if repaired || truthyJson schemaRepair then
      [(Text.of "schemaRepair",orJson schemaRepair classifierPayload)]
    else []
  .ok ⟨kind,reason,confidence,cleanTarget target,(Text.of "modelReason",.string reason)::repair⟩

/-- `_router_model_decision_from_payload`. -/
def routerModelDecisionFromPayload (payload : RouterPayload) :
    Except RouterError RouterModelDecision := do
  let schemaRepair := JsonValue.get payload "_schemaRepair"
  let payload := withoutRepair payload
  let unsupported := fun payload => RouterError.valueError
    (Text.of "unsupported route: " ++ strJson client.isPrintable (JsonValue.get payload "route"))
  match ← routeKind? (JsonValue.get payload "route") with
  | some kind => checkedDecision agents kind payload schemaRepair false
  | none =>
    match ← client.repairRouterPayload payload with
    | none => .error (unsupported payload)
    | some repaired =>
      let payload := mergePayload payload repaired
      match ← routeKind? (JsonValue.get payload "route") with
      | some kind => checkedDecision agents kind payload schemaRepair true
      | none => .error (unsupported payload)

def modelMember : RouterPayload :=
  match client.modelName with
  | none | some [] => []
  | some name => [(Text.of "model",.string name)]

/-- What `classify` makes of a decision. -/
def finishDecision (decision : RouterModelDecision) : RouterModelDecision :=
  match decision.confidence.filter (·.lt client.confidenceThreshold) with
  | some confidence =>
    ⟨.localMessage,Text.of "router model confidence below threshold",some confidence,none,
      [(Text.of "source",.string (Text.of "fallback")),
        (Text.of "fallbackReason",.string (Text.of "low_confidence")),
        (Text.of "modelRoute",.string (Text.of decision.kind.value)),
        (Text.of "modelReason",.string decision.reason),
        (Text.of "confidenceThreshold",.number (.ofFloat client.confidenceThreshold))] ++
      client.modelMember⟩
  | none =>
    let model := client.modelName.map fun name => (Text.of "model",JsonValue.string name)
    { decision with
      metadata := mergePayload ((Text.of "source",.string (Text.of "model"))::model.toList)
        decision.metadata }

/-- The payload that a text which cannot be read stands for. -/
def rawPayload (raw : Text) : RouterPayload := [(Text.of "classification",.string raw)]

/-- What `classify` makes of a text after a `ValueError`. -/
def repairText (raw message : Text) : Except RouterError RouterModelDecision := do
  match ← client.repairRouterPayload (rawPayload raw) with
  | some repaired =>
    let decision ← client.routerModelDecisionFromPayload agents
      (mergePayload (rawPayload raw) repaired)
    .ok (client.finishDecision decision)
  | none =>
    .ok ⟨.localMessage,Text.of "router model output was invalid",none,none,
      [(Text.of "source",.string (Text.of "fallback")),
        (Text.of "fallbackReason",.string message),(Text.of "routerModelRaw",.string raw)] ++
      client.modelMember⟩

/-- `classify`, given the text that the model returns. -/
def classify (raw : Text) : Except RouterError RouterModelDecision :=
  match client.extractJsonObject raw >>= client.routerModelDecisionFromPayload agents with
  | .ok decision => .ok (client.finishDecision decision)
  | .error (.valueError message) => client.repairText agents raw message
  | .error e => .error e

end DirectModelRouterModelClient
end VermayAgent
