import VermayAgent.InvocationLedger
import VermayAgent.Library.JsonDialects

/-! What the ledger records of the arguments of a call.
An argument value is any Python value; the record is JSON in which the values of sensitive keys are
replaced, and the digest is taken of the JSON in which they stand. -/
namespace VermayAgent
open Library

/-- A value that is given to a tool. A key of a mapping is known by its text, which another key
may share, and so is an object that is no JSON value. -/
inductive ArgumentValue where
  | none
  | bool (b : Bool)
  | number (n : PyNumber)
  | str (s : String)
  | list (items : List ArgumentValue)
  | tuple (items : List ArgumentValue)
  | mapping (entries : List (String × ArgumentValue))
  | other (text : String)

abbrev PyJson := JsonValue PyNumber

def redacted : PyJson := .string (Text.of "[REDACTED]")

def casefoldPoint : CodePoint → Text
  | .char c => (casefoldChar c).map .char
  | .surrogate n => [.surrogate n]

/-- The key is one of those whose values are not recorded. -/
def isSensitive (key : Text) : Bool :=
  sensitiveArgumentKeys.any fun s => Text.of s = key.flatMap casefoldPoint

theorem isSensitive_of (key : String) :
    isSensitive (Text.of key) = decide (casefold key ∈ sensitiveArgumentKeys) := by
  have hfold : (Text.of key).flatMap casefoldPoint = Text.of (casefold key) := by
    unfold Text.of casefold
    rw [String.toList_ofList,List.flatMap_map,List.map_flatMap]
    rfl
  unfold isSensitive
  rw [hfold,Bool.eq_iff_iff,List.any_eq_true,decide_eq_true_eq]
  constructor
  · rintro ⟨s,hs,heq⟩
    exact Text.of_injective (of_decide_eq_true heq) ▸ hs
  · intro hmem
    exact ⟨casefold key,hmem,decide_eq_true rfl⟩

namespace ArgumentValue

mutual

/-- `_json_safe`. -/
def jsonSafe : ArgumentValue → PyJson
  | none => .null
  | bool b => .bool b
  | number n => .number n
  | str s => .string (Text.of s)
  | list items | tuple items => .array (jsonSafeItems items)
  | mapping entries => .object (jsonSafeEntries entries [])
  | other text => .string (Text.of text)

def jsonSafeItems : List ArgumentValue → List PyJson
  | [] => []
  | v::items => jsonSafe v::jsonSafeItems items

def jsonSafeEntries : List (String × ArgumentValue) → List (Text × PyJson) → List (Text × PyJson)
  | [], members => members
  | (key,v)::entries, members =>
    jsonSafeEntries entries (JsonValue.set (Text.of key) (jsonSafe v) members)

end

mutual

/-- `_redact_value` where it is not given a key that is sensitive. -/
def redactValue : ArgumentValue → PyJson
  | mapping entries => .object (redactEntries entries [])
  | list items | tuple items => .array (redactItems items)
  | none => .null
  | bool b => .bool b
  | number n => .number n
  | str s => .string (Text.of s)
  | other text => .string (Text.of text)

def redactItems : List ArgumentValue → List PyJson
  | [] => []
  | v::items => redactValue v::redactItems items

def redactEntries : List (String × ArgumentValue) → List (Text × PyJson) → List (Text × PyJson)
  | [], members => members
  | (key,v)::entries, members =>
    redactEntries entries (JsonValue.set (Text.of key)
      (if isSensitive (Text.of key) then redacted else redactValue v) members)

end

/-- The mapping that is recorded: the value itself, or one that holds it. -/
def asMapping : ArgumentValue → ArgumentValue
  | mapping entries => mapping entries
  | value => mapping [("value",value)]

/-- `_normalized_arguments`. -/
def normalizedArguments (value : ArgumentValue) : PyJson := redactValue value.asMapping

/-- The JSON text that the digest is taken of. -/
def canonical (value : ArgumentValue) : Text :=
  dumps PyNumber.token .compact value.jsonSafe

/-- `_arguments_digest`, with the hash of the UTF-8 bytes of a text. -/
def argumentsDigest (sha256 : Text → String) (value : ArgumentValue) : String :=
  sha256 value.canonical

end ArgumentValue

section Noninterference

mutual

/-- The values differ at most in what is stored under sensitive keys. -/
inductive Alike : ArgumentValue → ArgumentValue → Prop
  | same (v : ArgumentValue) : Alike v v
  | list {a b : List ArgumentValue} (h : AlikeItems a b) : Alike (.list a) (.list b)
  | tuple {a b : List ArgumentValue} (h : AlikeItems a b) : Alike (.tuple a) (.tuple b)
  | mapping {a b : List (String × ArgumentValue)} (h : AlikeEntries a b) :
      Alike (.mapping a) (.mapping b)

inductive AlikeItems : List ArgumentValue → List ArgumentValue → Prop
  | nil : AlikeItems [] []
  | cons {v w : ArgumentValue} {a b : List ArgumentValue} (h : Alike v w) (hs : AlikeItems a b) :
      AlikeItems (v::a) (w::b)

inductive AlikeEntries :
    List (String × ArgumentValue) → List (String × ArgumentValue) → Prop
  | nil : AlikeEntries [] []
  | entry {v w : ArgumentValue} {a b : List (String × ArgumentValue)} (key : String)
      (h : Alike v w) (hs : AlikeEntries a b) : AlikeEntries ((key,v)::a) ((key,w)::b)
  | secret {a b : List (String × ArgumentValue)} (key : String) (v w : ArgumentValue)
      (hkey : casefold key ∈ sensitiveArgumentKeys) (hs : AlikeEntries a b) :
      AlikeEntries ((key,v)::a) ((key,w)::b)

end

mutual

theorem Alike.redactValue {a b : ArgumentValue} : Alike a b → a.redactValue = b.redactValue
  | .same v => rfl
  | .list h => congrArg JsonValue.array h.redactItems
  | .tuple h => congrArg JsonValue.array h.redactItems
  | .mapping h => congrArg JsonValue.object (h.redactEntries [])

theorem AlikeItems.redactItems {a b : List ArgumentValue} :
    AlikeItems a b → ArgumentValue.redactItems a = ArgumentValue.redactItems b
  | .nil => rfl
  | .cons h hs => congrArg₂ List.cons h.redactValue hs.redactItems

theorem AlikeEntries.redactEntries {a b : List (String × ArgumentValue)} :
    AlikeEntries a b → ∀ members,
      ArgumentValue.redactEntries a members = ArgumentValue.redactEntries b members
  | .nil, _ => rfl
  | .entry key h hs, members => by
    rw [ArgumentValue.redactEntries,ArgumentValue.redactEntries,h.redactValue]
    exact hs.redactEntries _
  | .secret key v w hkey hs, members => by
    have hsensitive : isSensitive (Text.of key) = true := by
      rw [isSensitive_of]
      exact decide_eq_true hkey
    rw [ArgumentValue.redactEntries,ArgumentValue.redactEntries,if_pos hsensitive,
      if_pos hsensitive]
    exact hs.redactEntries _

end

theorem Alike.asMapping {a b : ArgumentValue} (h : Alike a b) : Alike a.asMapping b.asMapping := by
  cases h with
  | same => exact .same a.asMapping
  | list h => exact .mapping (.entry "value" (.list h) .nil)
  | tuple h => exact .mapping (.entry "value" (.tuple h) .nil)
  | mapping h => exact .mapping h

end Noninterference

section Masking

mutual

/-- The value with those of sensitive keys replaced. -/
def mask : PyJson → PyJson
  | .array items => .array (maskItems items)
  | .object members => .object (maskMembers members)
  | value => value

def maskItems : List PyJson → List PyJson
  | [] => []
  | v::items => mask v::maskItems items

def maskMembers : List (Text × PyJson) → List (Text × PyJson)
  | [] => []
  | (key,v)::members => (key,if isSensitive key then redacted else mask v)::maskMembers members

end

theorem maskMembers_set (key : Text) (v : PyJson) (members : List (Text × PyJson)) :
    maskMembers (JsonValue.set key v members) =
      JsonValue.set key (if isSensitive key then redacted else mask v) (maskMembers members) := by
  induction members with
  | nil => rfl
  | cons m members ih =>
    by_cases h : m.1 = key
    · simp only [JsonValue.set,h,if_true,maskMembers]
    · simp only [JsonValue.set,h,if_false,maskMembers,ih]

mutual

/-- The record of a value is its JSON, masked. -/
theorem redactValue_eq : ∀ v : ArgumentValue, v.redactValue = mask v.jsonSafe
  | .none | .bool _ | .number _ | .str _ | .other _ => rfl
  | .list items | .tuple items => congrArg JsonValue.array (redactItems_eq items)
  | .mapping entries => congrArg JsonValue.object (redactEntries_eq entries [])

theorem redactItems_eq : ∀ items : List ArgumentValue,
    ArgumentValue.redactItems items = maskItems (ArgumentValue.jsonSafeItems items)
  | [] => rfl
  | v::items => congrArg₂ List.cons (redactValue_eq v) (redactItems_eq items)

theorem redactEntries_eq : ∀ (entries : List (String × ArgumentValue))
    (members : List (Text × PyJson)),
    ArgumentValue.redactEntries entries (maskMembers members) =
      maskMembers (ArgumentValue.jsonSafeEntries entries members)
  | [], _ => rfl
  | (key,v)::entries, members => by
    rw [ArgumentValue.redactEntries,redactValue_eq v,← maskMembers_set]
    exact redactEntries_eq entries _

end

/-- A step into a value. -/
inductive PathStep where
  | member (key : Text)
  | item (i : Nat)

/-- The step is into the value of a sensitive key. -/
def PathStep.sensitive : PathStep → Bool
  | member key => isSensitive key
  | item _ => false

def child : PyJson → PathStep → Option PyJson
  | .object members, .member key => members.lookup key
  | .array items, .item i => items[i]?
  | _, _ => none

/-- What stands at the end of a path. -/
def valueAt (v : PyJson) : List PathStep → Option PyJson
  | [] => some v
  | step::path => (child v step).bind fun v => valueAt v path

/-- A value without what is inside it. -/
inductive Node where
  | null
  | bool (b : Bool)
  | number (n : PyNumber)
  | string (s : Text)
  | array (length : Nat)
  | object (keys : List Text)

def node : PyJson → Node
  | .null => .null
  | .bool b => .bool b
  | .number n => .number n
  | .string s => .string s
  | .array items => .array items.length
  | .object members => .object (members.map Prod.fst)

theorem maskItems_eq (items : List PyJson) : maskItems items = items.map mask := by
  induction items with
  | nil => rfl
  | cons v items ih => rw [maskItems,ih,List.map_cons]

theorem maskMembers_eq (members : List (Text × PyJson)) : maskMembers members =
    members.map fun m => (m.1,if isSensitive m.1 then redacted else mask m.2) := by
  induction members with
  | nil => rfl
  | cons m members ih => rw [maskMembers,ih,List.map_cons]

theorem node_mask (v : PyJson) : node (mask v) = node v := by
  cases v with
  | array items =>
    rw [mask,maskItems_eq]
    exact congrArg Node.array (List.length_map _)
  | object members =>
    rw [mask,maskMembers_eq,node,List.map_map]
    rfl
  | null | bool b | number n | string s => rfl

theorem lookup_maskMembers (key : Text) (members : List (Text × PyJson)) :
    (maskMembers members).lookup key = (members.lookup key).map fun v =>
      if isSensitive key then redacted else mask v := by
  induction members with
  | nil => rfl
  | cons m members ih =>
    obtain ⟨k,v⟩ := m
    rw [maskMembers]
    by_cases h : key = k
    · subst h
      simp
    · simp [List.lookup_cons,beq_false_of_ne h,ih]

theorem child_mask (v : PyJson) (step : PathStep) :
    child (mask v) step = (child v step).map fun v =>
      if step.sensitive then redacted else mask v := by
  cases v with
  | array items =>
    cases step with
    | member key => rfl
    | item i =>
      rw [mask,maskItems_eq]
      simp [child,PathStep.sensitive]
  | object members =>
    cases step with
    | member key => exact lookup_maskMembers key members
    | item i => rfl
  | null | bool b | number n | string s => cases step <;> rfl

/-- Off the sensitive keys, masking changes nothing that is there. -/
theorem valueAt_mask {path : List PathStep} (hpath : ∀ step ∈ path, step.sensitive = false)
    (v : PyJson) : valueAt (mask v) path = (valueAt v path).map mask := by
  induction path generalizing v with
  | nil => rfl
  | cons step path ih =>
    have hstep := hpath step List.mem_cons_self
    rw [valueAt,valueAt,child_mask,hstep,Option.bind_map,Option.map_bind]
    refine congrArg (Option.bind _) (funext fun w => ?_)
    exact ih (fun step hmem => hpath step (List.mem_cons_of_mem _ hmem)) w

theorem valueAt_append (v : PyJson) (path : List PathStep) (step : PathStep) :
    valueAt v (path++[step]) = (valueAt v path).bind fun w => child w step := by
  induction path generalizing v with
  | nil => simp [valueAt]
  | cons first path ih =>
    rw [List.cons_append,valueAt,valueAt,Option.bind_assoc]
    exact congrArg (Option.bind _) (funext fun w => ih w)

/-- At a sensitive key stands the mask. -/
theorem valueAt_mask_sensitive {path : List PathStep} {step : PathStep}
    (hpath : ∀ step ∈ path, step.sensitive = false) (hstep : step.sensitive = true) (v : PyJson) :
    valueAt (mask v) (path++[step]) = (valueAt v (path++[step])).map fun _ => redacted := by
  rw [valueAt_append,valueAt_append,valueAt_mask hpath,Option.bind_map,Option.map_bind]
  refine congrArg (Option.bind _) (funext fun w => ?_)
  simp only [Function.comp,child_mask,hstep,if_true]

end Masking

section Digest

mutual

theorem jsonSafe_distinct : ∀ v : ArgumentValue, v.jsonSafe.Distinct
  | .none | .bool _ | .number _ | .str _ | .other _ => trivial
  | .list items | .tuple items => jsonSafeItems_distinct items
  | .mapping entries => jsonSafeEntries_distinct entries [] ⟨List.nodup_nil,trivial⟩

theorem jsonSafeItems_distinct : ∀ items : List ArgumentValue,
    JsonValue.DistinctItems (ArgumentValue.jsonSafeItems items)
  | [] => trivial
  | v::items => ⟨jsonSafe_distinct v,jsonSafeItems_distinct items⟩

theorem jsonSafeEntries_distinct : ∀ (entries : List (String × ArgumentValue))
    (members : List (Text × PyJson)), (JsonValue.object members).Distinct →
      (JsonValue.object (ArgumentValue.jsonSafeEntries entries members)).Distinct
  | [], _, h => h
  | (key,v)::entries, _, h =>
    jsonSafeEntries_distinct entries _ (h.set (Text.of key) (jsonSafe_distinct v))

end

/-- The canonical texts are those of values that are equal up to the order of their members. -/
theorem canonical_eq_iff (a b : ArgumentValue) :
    a.canonical = b.canonical ↔ a.jsonSafe.sorted = b.jsonSafe.sorted := by
  constructor
  · intro h
    have hread : ∀ v : ArgumentValue,
        loads (python none) v.canonical = .ok v.jsonSafe.sorted := fun v => by
      rw [ArgumentValue.canonical,loads_dumps Separators.compact_plain
        (python_scanned Separators.compact) (python_reads none) (jsonSafe_distinct v) nofun,
        JsonValue.map_id]
    have hboth := (hread a).symm.trans (h ▸ hread b)
    exact Except.ok.inj hboth
  · intro h
    unfold ArgumentValue.canonical dumps
    rw [h]

end Digest

section Ledger

mutual

/-- The keys of every object are distinct, as those of a dictionary are. -/
def KeysDistinct : Json → Prop
  | .arr items => ItemKeysDistinct items
  | .obj fields => (fields.map Prod.fst).Nodup ∧ FieldKeysDistinct fields
  | _ => True

def ItemKeysDistinct : List Json → Prop
  | [] => True
  | v::items => KeysDistinct v ∧ ItemKeysDistinct items

def FieldKeysDistinct : List (String × Json) → Prop
  | [] => True
  | (_,v)::fields => KeysDistinct v ∧ FieldKeysDistinct fields

end

variable (number : ℚ → PyNumber)

mutual

/-- The decoded arguments of a call as a value that is given to its tool. -/
def argumentValue : Json → ArgumentValue
  | .null => .none
  | .bool b => .bool b
  | .num n => .number (number n)
  | .str s => .str s
  | .arr items => .list (argumentItems items)
  | .obj fields => .mapping (argumentEntries fields)

def argumentItems : List Json → List ArgumentValue
  | [] => []
  | v::items => argumentValue v::argumentItems items

def argumentEntries : List (String × Json) → List (String × ArgumentValue)
  | [] => []
  | (key,v)::fields => (key,argumentValue v)::argumentEntries fields

end

mutual

def pyJson : Json → PyJson
  | .null => .null
  | .bool b => .bool b
  | .num n => .number (number n)
  | .str s => .string (Text.of s)
  | .arr items => .array (pyItems items)
  | .obj fields => .object (pyMembers fields)

def pyItems : List Json → List PyJson
  | [] => []
  | v::items => pyJson v::pyItems items

def pyMembers : List (String × Json) → List (Text × PyJson)
  | [] => []
  | (key,v)::fields => (Text.of key,pyJson v)::pyMembers fields

end

mutual

/-- On decoded arguments this is the redaction of the ledger. -/
theorem redactValue_argumentValue : ∀ v : Json, KeysDistinct v →
    (argumentValue number v).redactValue = pyJson number (redactValue v)
  | .null, _ | .bool _, _ | .num _, _ | .str _, _ => rfl
  | .arr items, h => congrArg JsonValue.array (redactItems_argumentItems items h)
  | .obj fields, h => by
    rw [argumentValue,ArgumentValue.redactValue,redactValue,pyJson]
    have hnodup : (([] : List (Text × PyJson)).map Prod.fst++
        fields.map fun f => Text.of f.1).Nodup := by
      have hkeys := h.1.map Text.of_injective
      rw [List.map_map] at hkeys
      exact hkeys
    exact congrArg JsonValue.object (redactEntries_argumentEntries fields [] hnodup h.2)

theorem redactItems_argumentItems : ∀ items : List Json, ItemKeysDistinct items →
    ArgumentValue.redactItems (argumentItems number items) = pyItems number (redactItems items)
  | [], _ => rfl
  | v::items, h => congrArg₂ List.cons (redactValue_argumentValue v h.1)
      (redactItems_argumentItems items h.2)

theorem redactEntries_argumentEntries : ∀ (fields : List (String × Json))
    (members : List (Text × PyJson)),
    (members.map Prod.fst++fields.map fun f => Text.of f.1).Nodup → FieldKeysDistinct fields →
    ArgumentValue.redactEntries (argumentEntries number fields) members =
      members++pyMembers number (redactFields fields)
  | [], members, _, _ => by
    rw [redactFields,pyMembers,List.append_nil]
    rfl
  | (key,v)::fields, members, hnodup, h => by
    have hvalue : (if isSensitive (Text.of key) then redacted else
        (argumentValue number v).redactValue) = pyJson number
          (if casefold key ∈ sensitiveArgumentKeys then .str "[REDACTED]" else redactValue v) := by
      rw [redactValue_argumentValue v h.1,isSensitive_of]
      by_cases hs : casefold key ∈ sensitiveArgumentKeys
      · simp only [hs,decide_true,if_true]
        rfl
      · simp only [hs,decide_false,if_false,Bool.false_eq_true]
    rw [argumentEntries,ArgumentValue.redactEntries,hvalue,JsonValue.set_fresh fun hmem =>
      List.disjoint_of_nodup_append hnodup hmem List.mem_cons_self]
    have hnext := redactEntries_argumentEntries fields (members++[(Text.of key,pyJson number
      (if casefold key ∈ sensitiveArgumentKeys then .str "[REDACTED]" else redactValue v))])
      (by simpa using hnodup) h.2
    rw [hnext,List.append_assoc]
    rfl

end

/-- What the ledger stores for a call is what is recorded of its arguments. -/
theorem normalizedArguments_argumentValue {v : Json} (h : KeysDistinct v) :
    (argumentValue number v).normalizedArguments = pyJson number (normalizedArguments v) := by
  unfold normalizedArguments ArgumentValue.normalizedArguments
  cases v with
  | obj fields => exact redactValue_argumentValue number (.obj fields) h
  | null | bool b | num n | str s | arr items =>
    exact redactValue_argumentValue number (.obj [("value",_)]) ⟨by simp,h,trivial⟩

end Ledger

section Sample

def loginArguments (password : String) : ArgumentValue :=
  .mapping [("user",.str "ops"),("options",.list [.mapping [("PassWord",.str password)]])]

/-- SHA-256 on the canonical texts of two logins. -/
def loginSha256 (text : Text) : String :=
  if text = Text.of "\x7b\"options\":[\x7b\"PassWord\":\"one\"\x7d],\"user\":\"ops\"\x7d" then
    "c376199811e69cf619ca9143487850f55007a7871edac97861795832a190f289"
  else "87cd4a32a698e831c38842e133a21cf81b06cd4319f5bef600936370ef3a036b"

end Sample
end VermayAgent
