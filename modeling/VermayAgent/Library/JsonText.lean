import Mathlib
import VermayAgent.Library.JsonValue

/-! JSON text: its tokens, a reader and a writer.
The reader splits a text into tokens character by character and reads a value from them with a
stack of the containers that are open; what a number is, is left to a dialect. -/
namespace VermayAgent.Library

instance tenNeZero : NeZero 10 := ⟨by decide⟩

instance sixteenNeZero : NeZero 16 := ⟨by decide⟩

abbrev Digit := Fin 10

inductive ExponentSign where
  | none | plus | minus
deriving DecidableEq

/-- A number as it is written. -/
structure NumberToken where
  negative : Bool
  integer : List Digit
  fraction : List Digit
  exponent : Option (ExponentSign × List Digit)
deriving DecidableEq

/-- The token can be a number of a JSON text. -/
structure NumberToken.WellFormed (t : NumberToken) : Prop where
  integer : ∃ d digits, t.integer = d::digits ∧ (d = 0 → digits = [])
  exponent : ∀ sign digits, t.exponent = some (sign,digits) → digits ≠ []

inductive Constant where
  | nan | infinity | negInfinity
deriving DecidableEq

inductive Token where
  | lbrace | rbrace | lbracket | rbracket | colon | comma
  | null
  | bool (b : Bool)
  | constant (c : Constant)
  | number (t : NumberToken)
  | string (s : Text)
  | bad
deriving DecidableEq

section Lexer

/-- What has been read of a token. -/
inductive LexState where
  | start
  | word (rest : List Char) (token : Token)
  | string (read : Text) (high : Bool)
  | escape (read : Text) (high : Bool)
  | unicode (read : Text) (high : Bool) (digits : List Nat)
  | minus
  | integer (negative : Bool) (digits : List Digit)
  | point (negative : Bool) (digits : List Digit)
  | fraction (negative : Bool) (integer digits : List Digit)
  | exponent (negative : Bool) (integer fraction : List Digit)
  | exponentSign (negative : Bool) (integer fraction : List Digit) (sign : ExponentSign)
  | exponentDigits (negative : Bool) (integer fraction : List Digit) (sign : ExponentSign)
      (digits : List Digit)

def isWhitespace (c : Char) : Bool := c ∈ [' ','\t','\n','\r']

def digit? (c : Char) : Option Digit :=
  if h : 48 ≤ c.toNat ∧ c.toNat < 58 then some ⟨c.toNat-48,by omega⟩ else none

def hexDigit? (c : Char) : Option Nat :=
  let n := c.toNat
  if 48 ≤ n ∧ n < 58 then some (n-48)
  else if 97 ≤ n ∧ n < 103 then some (n-87)
  else if 65 ≤ n ∧ n < 71 then some (n-55)
  else none

/-- The character that a one-letter escape stands for. -/
def unescape? (c : Char) : Option Char :=
  if c ∈ ['"','\\','/'] then some c
  else if c = 'b' then some '\x08'
  else if c = 'f' then some '\x0c'
  else if c = 'n' then some '\n'
  else if c = 'r' then some '\r'
  else if c = 't' then some '\t'
  else none

/-- The text with the unit of an escape added; the second half of a pair joins the first, where
that has just been escaped too. -/
def addUnit (read : Text) (high : Bool) (unit : Nat) : Text × Bool :=
  match high,read with
  | true,first::read' =>
    if 0xDC00 ≤ unit ∧ unit < 0xE000 then
      (.ofNat (0x10000+(first.value-0xD800)*0x400+(unit-0xDC00))::read',false)
    else (.ofNat unit::read,decide (0xD800 ≤ unit ∧ unit < 0xDC00))
  | _,_ => (.ofNat unit::read,decide (0xD800 ≤ unit ∧ unit < 0xDC00))

def isExponentMark (c : CodePoint) : Bool := c = .char 'e' ∨ c = .char 'E'

def pointDigit? : CodePoint → Option Digit
  | .char c => digit? c
  | .surrogate _ => none

/-- The first character of a token. -/
def lexStart (c : CodePoint) : List Token × LexState :=
  match c with
  | .surrogate _ => ([.bad],.start)
  | .char c =>
    if isWhitespace c then ([],.start)
    else if c = '{' then ([.lbrace],.start)
    else if c = '}' then ([.rbrace],.start)
    else if c = '[' then ([.lbracket],.start)
    else if c = ']' then ([.rbracket],.start)
    else if c = ':' then ([.colon],.start)
    else if c = ',' then ([.comma],.start)
    else if c = '"' then ([],.string [] false)
    else if c = 'n' then ([],.word ['u','l','l'] .null)
    else if c = 't' then ([],.word ['r','u','e'] (.bool true))
    else if c = 'f' then ([],.word ['a','l','s','e'] (.bool false))
    else if c = 'N' then ([],.word ['a','N'] (.constant .nan))
    else if c = 'I' then ([],.word ['n','f','i','n','i','t','y'] (.constant .infinity))
    else if c = '-' then ([],.minus)
    else match digit? c with
      | some d => ([],.integer false [d])
      | none => ([.bad],.start)

/-- A number that ends before the character. -/
def lexAfter (t : NumberToken) (c : CodePoint) : List Token × LexState :=
  (.number t::(lexStart c).1,(lexStart c).2)

def lexStep (state : LexState) (c : CodePoint) : List Token × LexState :=
  match state with
  | .start => lexStart c
  | .word [] token => (token::(lexStart c).1,(lexStart c).2)
  | .word (c'::rest) token =>
    if c = .char c' then
      if rest = [] then ([token],.start) else ([],.word rest token)
    else ([.bad],.start)
  | .string read high =>
    if c = .char '"' then ([.string read.reverse],.start)
    else if c = .char '\\' then ([],.escape read high)
    else if c.value < 0x20 then ([.bad],.start)
    else ([],.string (c::read) false)
  | .escape read high =>
    match c with
    | .surrogate _ => ([.bad],.start)
    | .char c =>
      if c = 'u' then ([],.unicode read high [])
      else match unescape? c with
        | some c => ([],.string (.char c::read) false)
        | none => ([.bad],.start)
  | .unicode read high digits =>
    match c with
    | .surrogate _ => ([.bad],.start)
    | .char c =>
      match hexDigit? c,digits with
      | none,_ => ([.bad],.start)
      | some d,[d₁,d₂,d₃] =>
        let added := addUnit read high (((d₁*16+d₂)*16+d₃)*16+d)
        ([],.string added.1 added.2)
      | some d,digits => ([],.unicode read high (digits++[d]))
  | .minus =>
    if c = .char 'I' then
      ([],.word ['n','f','i','n','i','t','y'] (.constant .negInfinity))
    else match pointDigit? c with
      | some d => ([],.integer true [d])
      | none => ([.bad],.start)
  | .integer negative digits =>
    match pointDigit? c with
    | some d =>
      if digits = [0] then lexAfter ⟨negative,digits,[],none⟩ c
      else ([],.integer negative (digits++[d]))
    | none =>
      if c = .char '.' then ([],.point negative digits)
      else if isExponentMark c then ([],.exponent negative digits [])
      else lexAfter ⟨negative,digits,[],none⟩ c
  | .point negative integer =>
    match pointDigit? c with
    | some d => ([],.fraction negative integer [d])
    | none => ([.number ⟨negative,integer,[],none⟩,.bad],.start)
  | .fraction negative integer digits =>
    match pointDigit? c with
    | some d => ([],.fraction negative integer (digits++[d]))
    | none =>
      if isExponentMark c then ([],.exponent negative integer digits)
      else lexAfter ⟨negative,integer,digits,none⟩ c
  | .exponent negative integer fraction =>
    if c = .char '+' then ([],.exponentSign negative integer fraction .plus)
    else if c = .char '-' then ([],.exponentSign negative integer fraction .minus)
    else match pointDigit? c with
      | some d => ([],.exponentDigits negative integer fraction .none [d])
      | none => ([.number ⟨negative,integer,fraction,none⟩,.bad],.start)
  | .exponentSign negative integer fraction sign =>
    match pointDigit? c with
    | some d => ([],.exponentDigits negative integer fraction sign [d])
    | none => ([.number ⟨negative,integer,fraction,none⟩,.bad],.start)
  | .exponentDigits negative integer fraction sign digits =>
    match pointDigit? c with
    | some d => ([],.exponentDigits negative integer fraction sign (digits++[d]))
    | none => lexAfter ⟨negative,integer,fraction,some (sign,digits)⟩ c

/-- The end of the text. -/
def lexEnd : LexState → List Token
  | .start => []
  | .integer negative digits => [.number ⟨negative,digits,[],none⟩]
  | .point negative integer => [.number ⟨negative,integer,[],none⟩,.bad]
  | .fraction negative integer digits => [.number ⟨negative,integer,digits,none⟩]
  | .exponent negative integer fraction | .exponentSign negative integer fraction _ =>
    [.number ⟨negative,integer,fraction,none⟩,.bad]
  | .exponentDigits negative integer fraction sign digits =>
    [.number ⟨negative,integer,fraction,some (sign,digits)⟩]
  | .word _ _ | .string _ _ | .escape _ _ | .unicode _ _ _ | .minus => [.bad]

def lex : LexState → Text → List Token
  | state, [] => lexEnd state
  | state, c::cs => (lexStep state c).1++lex (lexStep state c).2 cs

end Lexer

section Reader

inductive JsonError where
  | decode | digits | recursion
deriving DecidableEq, Repr

/-- What a reader makes of numbers and of the constants that are none, and how many containers
may be open at once. -/
structure Dialect (ν : Type) where
  number : NumberToken → Except JsonError ν
  constant : Constant → Option ν
  maxDepth : Option Nat

variable {ν : Type}

/-- A container that is open around a value. -/
inductive Frame (ν : Type) where
  | array (items : List (JsonValue ν))
  | object (members : List (Text × JsonValue ν)) (key : Text)

/-- What may follow. The items of an open array stand in reverse. -/
inductive ReadState (ν : Type) where
  | value (stack : List (Frame ν))
  | firstItem (stack : List (Frame ν))
  | firstKey (stack : List (Frame ν))
  | key (members : List (Text × JsonValue ν)) (stack : List (Frame ν))
  | colon (members : List (Text × JsonValue ν)) (key : Text) (stack : List (Frame ν))
  | afterItem (items : List (JsonValue ν)) (stack : List (Frame ν))
  | afterMember (members : List (Text × JsonValue ν)) (stack : List (Frame ν))
  | done (v : JsonValue ν)

/-- A value is complete. -/
def ReadState.give (v : JsonValue ν) : List (Frame ν) → ReadState ν
  | [] => .done v
  | .array items::stack => .afterItem (v::items) stack
  | .object members k::stack => .afterMember (JsonValue.set k v members) stack

variable (dialect : Dialect ν)

/-- Another container is opened, unless too many are. -/
def openContainer (stack : List (Frame ν)) (state : ReadState ν) :
    Except JsonError (ReadState ν) :=
  if dialect.maxDepth.any (· ≤ stack.length) then .error .recursion else .ok state

/-- The first token of a value. -/
def readValue (stack : List (Frame ν)) : Token → Except JsonError (ReadState ν)
  | .null => .ok (.give .null stack)
  | .bool b => .ok (.give (.bool b) stack)
  | .constant c =>
    match dialect.constant c with
    | some n => .ok (.give (.number n) stack)
    | none => .error .decode
  | .number t => (fun n => .give (.number n) stack) <$> dialect.number t
  | .string s => .ok (.give (.string s) stack)
  | .lbracket => openContainer dialect stack (.firstItem stack)
  | .lbrace => openContainer dialect stack (.firstKey stack)
  | .rbrace | .rbracket | .colon | .comma | .bad => .error .decode

def readStep : ReadState ν → Token → Except JsonError (ReadState ν)
  | .value stack, token => readValue dialect stack token
  | .firstItem stack, .rbracket => .ok (.give (.array []) stack)
  | .firstItem stack, token => readValue dialect (.array []::stack) token
  | .firstKey stack, .rbrace => .ok (.give (.object []) stack)
  | .firstKey stack, .string key => .ok (.colon [] key stack)
  | .key members stack, .string key => .ok (.colon members key stack)
  | .colon members key stack, .colon => .ok (.value (.object members key::stack))
  | .afterItem items stack, .comma => .ok (.value (.array items::stack))
  | .afterItem items stack, .rbracket => .ok (.give (.array items.reverse) stack)
  | .afterMember members stack, .comma => .ok (.key members stack)
  | .afterMember members stack, .rbrace => .ok (.give (.object members) stack)
  | _, _ => .error .decode

def readTokens : ReadState ν → List Token → Except JsonError (ReadState ν)
  | state, [] => .ok state
  | state, token::tokens => do readTokens (← readStep dialect state token) tokens

/-- `json.loads`, `JSON.parse`. -/
def loads (text : Text) : Except JsonError (JsonValue ν) :=
  match readTokens dialect (.value []) (lex .start text) with
  | .ok (.done v) => .ok v
  | .ok _ => .error .decode
  | .error e => .error e

section Distinct

variable {dialect}

def Frame.Distinct : Frame ν → Prop
  | .array items => JsonValue.DistinctItems items
  | .object members _ => (JsonValue.object members).Distinct

/-- No object that is read so far has two members of one key. -/
def ReadState.Distinct : ReadState ν → Prop
  | .value stack | .firstItem stack | .firstKey stack => ∀ frame ∈ stack, frame.Distinct
  | .key members stack | .colon members _ stack | .afterMember members stack =>
    (JsonValue.object members).Distinct ∧ ∀ frame ∈ stack, frame.Distinct
  | .afterItem items stack => JsonValue.DistinctItems items ∧ ∀ frame ∈ stack, frame.Distinct
  | .done v => v.Distinct

theorem ReadState.Distinct.give {v : JsonValue ν} : ∀ {stack : List (Frame ν)},
    (∀ frame ∈ stack, frame.Distinct) → v.Distinct → (give v stack).Distinct
  | [], _, hv => hv
  | .array items::stack, h, hv => by
    rw [List.forall_mem_cons] at h
    exact ⟨⟨hv,h.1⟩,h.2⟩
  | .object members k::stack, h, hv => by
    rw [List.forall_mem_cons] at h
    exact ⟨JsonValue.Distinct.set h.1 k hv,h.2⟩

theorem openContainer_ok {stack : List (Frame ν)} {state state' : ReadState ν}
    (h : openContainer dialect stack state = .ok state') : state' = state := by
  unfold openContainer at h
  split at h
  · cases h
  · cases h
    rfl

theorem readValue_distinct {stack : List (Frame ν)} {token : Token} {state : ReadState ν}
    (h : readValue dialect stack token = .ok state)
    (hstack : ∀ frame ∈ stack, frame.Distinct) : state.Distinct := by
  cases token with
  | null | bool | string =>
    cases h
    exact .give hstack trivial
  | constant c =>
    rw [readValue] at h
    split at h
    · cases h
      exact .give hstack trivial
    · cases h
  | number t =>
    rw [readValue] at h
    cases hn : dialect.number t with
    | error e =>
      rw [hn] at h
      cases h
    | ok n =>
      rw [hn] at h
      cases h
      exact .give hstack trivial
  | lbracket | lbrace =>
    rw [openContainer_ok h]
    exact hstack
  | rbrace | rbracket | colon | comma | bad => cases h

theorem readStep_distinct {state state' : ReadState ν} {token : Token}
    (h : readStep dialect state token = .ok state') (hs : state.Distinct) : state'.Distinct := by
  unfold readStep at h
  split at h
  · exact readValue_distinct h hs
  · cases h
    exact .give hs trivial
  · exact readValue_distinct h (List.forall_mem_cons.mpr ⟨trivial,hs⟩)
  · cases h
    exact .give hs ⟨List.nodup_nil,trivial⟩
  · cases h
    exact ⟨⟨List.nodup_nil,trivial⟩,hs⟩
  · cases h
    exact hs
  · cases h
    exact List.forall_mem_cons.mpr hs
  · cases h
    exact List.forall_mem_cons.mpr hs
  · cases h
    have hitems := JsonValue.distinctItems_iff.mp hs.1
    exact .give hs.2 (JsonValue.distinctItems_iff.mpr fun v hv => hitems v (List.mem_reverse.mp hv))
  · cases h
    exact hs
  · cases h
    exact .give hs.2 hs.1
  · cases h

theorem readTokens_distinct {tokens : List Token} {state state' : ReadState ν}
    (h : readTokens dialect state tokens = .ok state') (hs : state.Distinct) :
    state'.Distinct := by
  induction tokens generalizing state with
  | nil =>
    cases h
    exact hs
  | cons token tokens ih =>
    rw [readTokens] at h
    cases hstep : readStep dialect state token with
    | error e =>
      rw [hstep] at h
      cases h
    | ok next =>
      rw [hstep] at h
      exact ih h (readStep_distinct hstep hs)

/-- What is read from a text has no two members of one key. -/
theorem loads_distinct {text : Text} {v : JsonValue ν} (h : loads dialect text = .ok v) :
    v.Distinct := by
  unfold loads at h
  split at h
  · rename_i read hread
    cases h
    exact readTokens_distinct hread (by simp [ReadState.Distinct])
  · cases h
  · cases h

end Distinct
end Reader

section Writer

def digitChar (d : Digit) : CodePoint := .char (Char.ofNat (48+d))

def hexChar (n : Fin 16) : CodePoint := .char (Char.ofNat (if n < 10 then 48+n else 87+n))

/-- A character inside a string; only quotes, backslashes and control characters are escaped. -/
def escapeChar (c : CodePoint) : Text :=
  if c = .char '"' then Text.of "\\\""
  else if c = .char '\\' then Text.of "\\\\"
  else if c = .char '\n' then Text.of "\\n"
  else if c = .char '\r' then Text.of "\\r"
  else if c = .char '\t' then Text.of "\\t"
  else if c = .char '\x0c' then Text.of "\\f"
  else if c = .char '\x08' then Text.of "\\b"
  else if c.value < 0x20 then
    Text.of "\\u00" ++ [hexChar (Fin.ofNat 16 (c.value/16)),hexChar (Fin.ofNat 16 c.value)]
  else [c]

def ExponentSign.text : ExponentSign → Text
  | none => []
  | plus => [.char '+']
  | minus => [.char '-']

def NumberToken.text (t : NumberToken) : Text :=
  (if t.negative then [.char '-'] else []) ++ t.integer.map digitChar ++
    (if t.fraction = [] then [] else .char '.'::t.fraction.map digitChar) ++
    (match t.exponent with
      | none => []
      | some (sign,digits) => .char 'e'::sign.text ++ digits.map digitChar)

def Constant.text : Constant → Text
  | nan => Text.of "NaN"
  | infinity => Text.of "Infinity"
  | negInfinity => Text.of "-Infinity"

/-- The separators of `json.dumps`. -/
structure Separators where
  item : Text
  key : Text

def Token.text (separators : Separators) : Token → Text
  | lbrace => [.char '{']
  | rbrace => [.char '}']
  | lbracket => [.char '[']
  | rbracket => [.char ']']
  | colon => separators.key
  | comma => separators.item
  | null => Text.of "null"
  | bool b => Text.of (if b then "true" else "false")
  | constant c => c.text
  | number t => t.text
  | string s => .char '"'::s.flatMap escapeChar ++ [.char '"']
  | bad => []

variable {ν : Type} (numberToken : ν → Token)

namespace JsonValue

mutual

def tokens : JsonValue ν → List Token
  | null => [.null]
  | bool b => [.bool b]
  | number n => [numberToken n]
  | string s => [.string s]
  | array [] => [.lbracket,.rbracket]
  | array (v::items) => .lbracket::tokens v ++ moreItems items
  | object [] => [.lbrace,.rbrace]
  | object ((key,v)::members) => .lbrace::.string key::.colon::tokens v ++ moreMembers members

def moreItems : List (JsonValue ν) → List Token
  | [] => [.rbracket]
  | v::items => .comma::tokens v ++ moreItems items

def moreMembers : List (Text × JsonValue ν) → List Token
  | [] => [.rbrace]
  | (key,v)::members => .comma::.string key::.colon::tokens v ++ moreMembers members

end

end JsonValue

/-- `json.dumps` with `ensure_ascii=False` and `sort_keys=True`. -/
def dumps (separators : Separators) (v : JsonValue ν) : Text :=
  (v.sorted.tokens numberToken).flatMap (Token.text separators)

/-- The separators that `json.dumps` takes if it is given none. -/
def Separators.default : Separators := ⟨Text.of ", ",Text.of ": "⟩

def Separators.compact : Separators := ⟨Text.of ",",Text.of ":"⟩

end Writer
end VermayAgent.Library
