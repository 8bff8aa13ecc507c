import Mathlib
import VermayAgent.RouterClassifier
import VermayAgent.Library.QueryText

/-! The MCP selection of a request and its text form for the runtime.
Servers, prompt names and resource URIs stand in the texts as they are; arguments are quoted. -/
namespace VermayAgent
open Library

inductive McpError
  | valueError (message : Text)
  | unicodeEncodeError
deriving DecidableEq

structure McpPromptSelectionConfig where
  server : Text
  name : Text
  arguments : List (Text × Text)
deriving DecidableEq

structure McpResourceSelectionConfig where
  server : Text
  uri : Text
deriving DecidableEq

structure McpSelectionConfig where
  servers : List Text
  prompts : List McpPromptSelectionConfig
  resources : List McpResourceSelectionConfig
deriving DecidableEq

structure McpPromptSelection where
  server : Text
  name : Text
  arguments : List (Text × Text)
deriving DecidableEq

structure McpResourceSelection where
  server : Text
  uri : Text
deriving DecidableEq

def mcpFail {α : Type} (message : String) : Except McpError α :=
  .error (.valueError (Text.of message))

section Payload

variable (isPrintable : CodePoint → Bool)

/-- `_list_value`. -/
def listValue (label : String) : PyJson → Except McpError (List PyJson)
  | .array items => .ok items
  | _ => mcpFail (label ++ " must be a list")

/-- `_normalize_names`, with the names that have been seen. -/
def normalizeNames (label : String) : List PyJson → List Text → Except McpError (List Text)
  | [], seen => .ok seen
  | raw::values, seen =>
    let value := stripText (strJson isPrintable raw)
    if value = [] then mcpFail (label ++ " name cannot be empty")
    else if value ∈ seen then normalizeNames label values seen
    else normalizeNames label values (seen ++ [value])

/-- The text of a scalar argument value. -/
def promptArgumentValue : PyJson → Except McpError Text
  | .null => .ok []
  | .string s => .ok s
  | .number n => .ok (strJson isPrintable (.number n))
  | .bool b => .ok (strJson isPrintable (.bool b))
  | .array _ | .object _ => mcpFail "MCP prompt argument values must be scalar"

/-- The loop of `_prompt_arguments`. -/
def promptArguments : List (Text × PyJson) → List (Text × Text) →
    Except McpError (List (Text × Text))
  | [], arguments => .ok arguments
  | (rawKey,rawValue)::items, arguments =>
    let key := stripText rawKey
    if key = [] then mcpFail "MCP prompt argument key cannot be empty"
    else do
      let value ← promptArgumentValue isPrintable rawValue
      promptArguments items (setEntry key value arguments)

/-- `str(value.get(key) or "").strip()`. -/
def memberText (value : List (Text × PyJson)) (key : String) : Text :=
  stripText (strJson isPrintable (orJson (JsonValue.get value key) (.string [])))

/-- `_prompt_selection`. -/
def promptSelection : PyJson → Except McpError McpPromptSelectionConfig
  | .object value => do
    let server := memberText isPrintable value "server"
    let name := memberText isPrintable value "name"
    let arguments ←
      match orJson (JsonValue.get value "arguments") (.object []) with
      | .object items => promptArguments isPrintable items []
      | _ => mcpFail "MCP prompt arguments must be an object"
    if server = [] then mcpFail "MCP prompt server cannot be empty"
    else if name = [] then mcpFail "MCP prompt name cannot be empty"
    else return ⟨server,name,arguments⟩
  | _ => mcpFail "MCP prompt selection must be an object"

/-- `_resource_selection`. -/
def resourceSelection : PyJson → Except McpError McpResourceSelectionConfig
  | .object value =>
    let server := memberText isPrintable value "server"
    let uri := memberText isPrintable value "uri"
    if server = [] then mcpFail "MCP resource server cannot be empty"
    else if uri = [] then mcpFail "MCP resource URI cannot be empty"
    else .ok ⟨server,uri⟩
  | _ => mcpFail "MCP resource selection must be an object"

namespace McpSelectionConfig

def validate (selection : McpSelectionConfig) : Except McpError Unit :=
  match selection.prompts.find? fun p => p.server ∉ selection.servers with
  | some p =>
    .error (.valueError (Text.of "MCP prompt references unselected server: " ++ p.server))
  | none =>
    match selection.resources.find? fun r => r.server ∉ selection.servers with
    | some r =>
      .error (.valueError (Text.of "MCP resource references unselected server: " ++ r.server))
    | none => .ok ()

def fromPayload (payload : Option (List (Text × PyJson))) :
    Except McpError (Option McpSelectionConfig) :=
  match payload with
  | none => .ok none
  | some payload => do
    let items (key label : String) := listValue label (orJson (JsonValue.get payload key) (.array []))
    let names ← items "servers" "MCP servers"
    let servers ← normalizeNames isPrintable "MCP server" names []
    let prompts ← (← items "prompts" "MCP prompts").mapM (promptSelection isPrintable)
    let resources ← (← items "resources" "MCP resources").mapM (resourceSelection isPrintable)
    let selection : McpSelectionConfig := ⟨servers,prompts,resources⟩
    selection.validate
    return some selection

end McpSelectionConfig

end Payload

section Runtime

/-- `_runtime_prompt_value`. -/
def runtimePromptValue (prompt : McpPromptSelectionConfig) : Except McpError Text :=
  let value := prompt.server ++ .char ':'::prompt.name
  if prompt.arguments = [] then .ok value
  else
    match urlencode prompt.arguments with
    | some query => .ok (value ++ .char '?'::query)
    | none => .error .unicodeEncodeError

def McpSelectionConfig.toRuntimePrompts (selection : McpSelectionConfig) :
    Except McpError (List Text) :=
  selection.prompts.mapM runtimePromptValue

def runtimeResourceValue (resource : McpResourceSelectionConfig) : Text :=
  resource.server ++ .char ':'::resource.uri

def McpSelectionConfig.toRuntimeResources (selection : McpSelectionConfig) : List Text :=
  selection.resources.map runtimeResourceValue

/-- The entries of a query as a dictionary, under trimmed keys. -/
def queryArguments : List (Text × Text) → List (Text × Text) → Except McpError (List (Text × Text))
  | [], arguments => .ok arguments
  | (rawKey,value)::entries, arguments =>
    let key := stripText rawKey
    if key = [] then mcpFail "--mcp-prompt argument key cannot be empty"
    else queryArguments entries (setEntry key value arguments)

/-- `_split_prompt_value`. -/
def splitPromptValue (value : Text) : Except McpError (Text × List (Text × Text)) :=
  match splitFirst (.char '?') (stripText value) with
  | (target,none) => .ok (target,[])
  | (target,some query) => (queryArguments (parseQsl query) []).map fun arguments => (target,arguments)

/-- The text after the first colon. -/
def afterColon (text : Text) : Text := (splitFirst (.char ':') text).2.getD []

/-- `_resolve_single_server_prompt`. -/
def resolveSingleServerPrompt (server value : Text) : Except McpError McpPromptSelection := do
  let (target,arguments) ← splitPromptValue value
  if target = [] then mcpFail "--mcp-prompt name cannot be empty"
  else if (server ++ [CodePoint.char ':']).isPrefixOf target then
    let name := afterColon target
    if name = [] then mcpFail "--mcp-prompt name cannot be empty"
    else return ⟨server,name,arguments⟩
  else return ⟨server,target,arguments⟩

/-- A prompt value that names one of several servers. -/
def resolveServerPrompt (servers : List Text) (value : Text) : Except McpError McpPromptSelection := do
  let (target,arguments) ← splitPromptValue value
  match splitFirst (.char ':') target with
  | (_,none) => mcpFail "--mcp-prompt must use server:name when multiple MCP servers are selected"
  | (server,some name) =>
    if server ∉ servers then
      .error (.valueError (Text.of "--mcp-prompt references unselected MCP server: " ++ server))
    else if name = [] then mcpFail "--mcp-prompt name cannot be empty"
    else return ⟨server,name,arguments⟩

/-- `_dedupe`. -/
def dedupeTexts : List Text → List Text → List Text
  | [], result => result
  | value::values, result =>
    dedupeTexts values (if value ∈ result then result else result ++ [value])

def resolveMcpPromptSelections (selectedServers selectedPrompts : List Text) :
    Except McpError (List McpPromptSelection) :=
  if selectedPrompts = [] then .ok []
  else if selectedServers = [] then mcpFail "--mcp-prompt requires at least one --mcp-server"
  else
    match dedupeTexts selectedServers [] with
    | [server] => selectedPrompts.mapM (resolveSingleServerPrompt server)
    | servers => selectedPrompts.mapM (resolveServerPrompt servers)

/-- `_resolve_single_server_resource`. -/
def resolveSingleServerResource (server value : Text) : Except McpError McpResourceSelection :=
  if (server ++ [CodePoint.char ':']).isPrefixOf value ∧
      (server ++ Text.of "://").isPrefixOf value = false then
    let uri := afterColon value
    if uri = [] then mcpFail "--mcp-resource URI cannot be empty" else .ok ⟨server,uri⟩
  else .ok ⟨server,value⟩

/-- A resource value that names one of several servers. -/
def resolveServerResource (servers : List Text) (value : Text) :
    Except McpError McpResourceSelection :=
  let unqualified :=
    "--mcp-resource must use server:uri when multiple MCP servers are selected"
  match splitFirst (.char ':') value with
  | (_,none) => mcpFail unqualified
  | (server,some uri) =>
    if (server ++ Text.of "://").isPrefixOf value then mcpFail unqualified
    else if server ∉ servers then
      .error (.valueError (Text.of "--mcp-resource references unselected MCP server: " ++ server))
    else if uri = [] then mcpFail "--mcp-resource URI cannot be empty"
    else .ok ⟨server,uri⟩

def resolveMcpResourceSelections (selectedServers selectedResources : List Text) :
    Except McpError (List McpResourceSelection) :=
  if selectedResources = [] then .ok []
  else if selectedServers = [] then mcpFail "--mcp-resource requires at least one --mcp-server"
  else
    match dedupeTexts selectedServers [] with
    | [server] => selectedResources.mapM (resolveSingleServerResource server)
    | servers => selectedResources.mapM (resolveServerResource servers)

end Runtime

end VermayAgent
