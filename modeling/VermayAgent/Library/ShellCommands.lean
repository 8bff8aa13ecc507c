import Mathlib
import VermayAgent.Library.ShellTokens

/-! The commands of a POSIX shell.
A script is a sequence of simple commands and conditionals; what a program does when it runs is
its exit status only, which the surroundings decide. Pipelines, loops, functions and
here-documents are outside what is read. -/
namespace VermayAgent.Library.Shell

structure Redirect where
  fd : Option Word
  operator : Operator
  target : Word
deriving DecidableEq

structure Simple where
  assignments : List (String × Word) := []
  words : List Word := []
  redirects : List Redirect := []
deriving DecidableEq

inductive Script
  | done
  | simple (command : Simple) (next : Script)
  | branch (cond body other next : Script)
deriving DecidableEq

inductive Reserved
  | ifWord | thenWord | elifWord | elseWord | fiWord | unread
deriving DecidableEq

/-- The reserved word that stands where a command begins. -/
def reserved (w : Word) : Option Reserved :=
  if w.any Letter.quoted then none
  else [("if",Reserved.ifWord),("then",.thenWord),("elif",.elifWord),("else",.elseWord),
    ("fi",.fiWord),("!",.unread),("\x7b",.unread),("\x7d",.unread),("case",.unread),("do",.unread),
    ("done",.unread),("esac",.unread),("for",.unread),("in",.unread),("until",.unread),
    ("while",.unread)].lookup w.text

/-- The name and the value of a word that assigns a variable. -/
def assignment? (w : Word) : Option (String × Word) :=
  let isName := fun l : Letter => !l.quoted && (l.char.isAlphanum || l.char = '_')
  match w.takeWhile isName, w.dropWhile isName with
  | first::name, ⟨false,'='⟩::value =>
    if first.char.isDigit then none else some (Word.text (first::name),value)
  | _, _ => none

namespace Simple

/-- A word more: an assignment as long as no command has been named. -/
def addWord (c : Simple) (w : Word) : Simple :=
  match c.words, assignment? w with
  | [], some a => {c with assignments := c.assignments ++ [a]}
  | words, _ => {c with words := words ++ [w]}

def addRedirect (c : Simple) (fd : Option Word) (o : Operator) (w : Word) : Simple :=
  {c with redirects := c.redirects ++ [⟨fd,o,w⟩]}

def addWords (c : Simple) (words : List Word) : Simple := {c with words := c.words ++ words}

end Simple

def Operator.redirects (o : Operator) : Bool :=
  o ∈ [.less,.great,.dgreat,.lessAnd,.greatAnd,.lessGreat,.clobber]

/-- What a simple command goes on with. -/
inductive Expected
  | any
  | operator (fd : Word)
  | target (fd : Option Word) (o : Operator)

/-- A simple command up to what ends it. -/
def parseSimple : List Token → Expected → Simple → Option (Simple × List Token)
  | .word w::rest, .any, c => parseSimple rest .any (c.addWord w)
  | .word w::rest, .target fd o, c => parseSimple rest .any (c.addRedirect fd o w)
  | .number fd::rest, .any, c => parseSimple rest (.operator fd) c
  | .operator o::rest, .operator fd, c =>
    if o.redirects then parseSimple rest (.target (some fd) o) c else none
  | .operator o::rest, .any, c =>
    if o.redirects then parseSimple rest (.target none o) c else some (c,.operator o::rest)
  | rest, .any, c => some (c,rest)
  | _, _, _ => none

/-- What stands between two commands. -/
def separator : List Token → Option (List Token)
  | [] => some []
  | .operator .semi::rest | .newline::rest => some rest
  | _ => none

def expect (r : Reserved) : List Token → Option (List Token)
  | .word w::rest => if reserved w = some r then some rest else none
  | _ => none

mutual

/-- The commands up to the end of the text or to the reserved word that ends them. -/
def parseList : ℕ → List Token → Option (Script × List Token)
  | 0, _ => none
  | _+1, [] => some (.done,[])
  | n+1, .newline::rest => parseList n rest
  | n+1, .word w::rest =>
    match reserved w with
    | some .ifWord => do
      let (cond,body,other,rest) ← parseBranch n rest
      let rest ← separator rest
      let (next,rest) ← parseList n rest
      return (.branch cond body other next,rest)
    | some .unread => none
    | some _ => some (.done,.word w::rest)
    | none => do
      let (command,rest) ← parseSimple (.word w::rest) .any {}
      let rest ← separator rest
      let (next,rest) ← parseList n rest
      return (.simple command next,rest)
  | n+1, rest => do
    let (command,rest) ← parseSimple rest .any {}
    if command = {} then none
    else
      let rest ← separator rest
      let (next,rest) ← parseList n rest
      return (.simple command next,rest)

/-- What follows `if` or `elif`. -/
def parseBranch : ℕ → List Token → Option (Script × Script × Script × List Token)
  | 0, _ => none
  | n+1, rest => do
    let (cond,rest) ← parseList n rest
    let rest ← expect .thenWord rest
    let (body,rest) ← parseList n rest
    let (other,rest) ← parseOther n rest
    if cond = .done ∨ body = .done then none else return (cond,body,other,rest)

/-- What follows the commands after `then`. -/
def parseOther : ℕ → List Token → Option (Script × List Token)
  | n+1, .word w::rest =>
    match reserved w with
    | some .fiWord => some (.done,rest)
    | some .elseWord => do
      let (other,rest) ← parseList n rest
      let rest ← expect .fiWord rest
      if other = .done then none else return (other,rest)
    | some .elifWord => do
      let (cond,body,other,rest) ← parseBranch n rest
      return (.branch cond body other .done,rest)
    | _ => none
  | _, _ => none

end

/-- The script that a text is. -/
def parse (text : List Char) : Option Script := do
  let tokens ← lex text
  match ← parseList (tokens.length + 1) tokens with
  | (script,[]) => some script
  | _ => none

/-- What a shell does: it gives a variable a value, or runs a command. -/
inductive Event
  | assign (name value : String)
  | call (argv : List String) (redirects : List Redirect)
deriving DecidableEq

/-- The surroundings of a shell: how it expands a word that is to be expanded, what a variable is
given, and with which status a command ends after what happened before it. -/
structure World where
  expand : Word → List String
  value : Word → String
  status : List Event → List String → ℕ

/-- How a script ends. -/
inductive Outcome
  | ended (status : ℕ)
  | exited (status : ℕ)
deriving DecidableEq

namespace World

variable (world : World)

/-- The fields that a word becomes. -/
def fields (w : Word) : List String := if expands w then world.expand w else [w.text]

def argv (words : List Word) : List String := words.flatMap world.fields

/-- The built-in commands that change the shell itself, `exit` apart. -/
def unreadCommands : List String :=
  [".","break","continue","eval","exec","export","readonly","return","set","shift","times","trap",
    "unset"]

/-- What happens when a script runs after what `events` tells. -/
def exec : Script → ℕ → List Event → Option (List Event × Outcome)
  | .done, status, events => some (events,.ended status)
  | .simple command next, _, events =>
    let events := events ++ command.assignments.map fun a => .assign a.1 (world.value a.2)
    match world.argv command.words with
    | [] => exec next 0 events
    | name::args =>
      if name ∈ unreadCommands then none
      else
        let status := world.status events (name::args)
        let events := events ++ [.call (name::args) command.redirects]
        if name = "exit" then some (events,.exited status) else exec next status events
  | .branch cond body other next, _, events =>
    match exec cond 0 events with
    | some (events,.ended 0) =>
      match exec body 0 events with
      | some (events,.ended status) => exec next status events
      | stopped => stopped
    | some (events,.ended _) =>
      match exec other 0 events with
      | some (events,.ended status) => exec next status events
      | stopped => stopped
    | stopped => stopped

/-- A run of the shell on a text. -/
def run (text : List Char) : Option (List Event × Outcome) :=
  (parse text).bind fun script => world.exec script 0 []

end World

section Parsing

variable {w : Word} {words : List Word} {rest : List Token} {c : Simple}

/-- Words after the name of a command are its arguments, whatever they are. -/
theorem parseSimple_words (rest : List Token) (hc : c.words ≠ []) (words : List Word) :
    parseSimple (words.map Token.word ++ .operator .semi::rest) .any c =
      some (c.addWords words,.operator .semi::rest) := by
  induction words generalizing c with
  | nil =>
    rw [Simple.addWords,List.append_nil]
    rfl
  | cons w words ih =>
    have hadd : c.addWord w = c.addWords [w] := by
      unfold Simple.addWord
      split
      · next h _ => exact absurd h hc
      · rfl
    have hne : (c.addWords [w]).words ≠ [] := by simp [Simple.addWords]
    rw [List.map_cons,List.cons_append,parseSimple,hadd,ih hne]
    simp [Simple.addWords]

variable {n : ℕ} {e t : Word} {tokens tokens₁ tokens₂ : List Token} {cond body other next : Script}

/-- The word ends a sequence of commands. -/
def Closes (e : Word) : Prop :=
  reserved e ∈ [some .thenWord,some .elifWord,some .elseWord,some .fiWord]

instance (e : Word) : Decidable (Closes e) := inferInstanceAs (Decidable (_ ∈ _))

theorem parseList_closes (he : Closes e) :
    parseList (n+1) (.word e::rest) = some (.done,.word e::rest) := by
  simp only [Closes,List.mem_cons,List.not_mem_nil,or_false] at he
  rcases he with he | he | he | he <;> rw [parseList,he]

/-- A command and those after it. -/
theorem parseList_simple (hw : reserved w = none)
    (hsimple : parseSimple (.word w::tokens) .any {} = some (c,.operator .semi::tokens₁))
    (hnext : parseList n tokens₁ = some (next,rest)) :
    parseList (n+1) (.word w::tokens) = some (.simple c next,rest) := by
  rw [parseList,hw]
  simp [hsimple,separator,hnext]

theorem parseList_if (hw : reserved w = some .ifWord)
    (hbranch : parseBranch n tokens = some (cond,body,other,tokens₁))
    (hsep : separator tokens₁ = some tokens₂) (hnext : parseList n tokens₂ = some (next,rest)) :
    parseList (n+1) (.word w::tokens) = some (.branch cond body other next,rest) := by
  rw [parseList,hw]
  simp [hbranch,hsep,hnext]

theorem parseBranch_of (hcond : parseList n tokens = some (cond,.word t::tokens₁))
    (ht : reserved t = some .thenWord) (hbody : parseList n tokens₁ = some (body,tokens₂))
    (hother : parseOther n tokens₂ = some (other,rest)) (hne : cond ≠ .done) (hne' : body ≠ .done) :
    parseBranch (n+1) tokens = some (cond,body,other,rest) := by
  rw [parseBranch]
  simp [hcond,expect,ht,hbody,hother,hne,hne']

theorem parseOther_elif (he : reserved e = some .elifWord)
    (hbranch : parseBranch n tokens = some (cond,body,other,rest)) :
    parseOther (n+1) (.word e::tokens) = some (.branch cond body other .done,rest) := by
  rw [parseOther,he]
  simp [hbranch]

theorem parseOther_else (he : reserved e = some .elseWord)
    (hother : parseList n tokens = some (other,.word t::rest)) (ht : reserved t = some .fiWord)
    (hne : other ≠ .done) : parseOther (n+1) (.word e::tokens) = some (other,rest) := by
  rw [parseOther,he]
  simp [hother,expect,ht,hne]

end Parsing

section Fields

variable {n : ℕ} (world : World)

theorem fields_quotedWord (s : String) : world.fields (quotedWord s.toList) = [s] := by
  rw [World.fields,expands_quotedWord,text_quotedWord]
  rfl

/-- Quoted texts become the arguments that they were. -/
theorem argv_quotedWords (args : List String) :
    world.argv (args.map fun s => quotedWord s.toList) = args := by
  induction args with
  | nil => rfl
  | cons s args ih =>
    rw [List.map_cons,World.argv,List.flatMap_cons,fields_quotedWord]
    exact congrArg (s::·) ih

theorem argv_append (a b : List Word) : world.argv (a ++ b) = world.argv a ++ world.argv b :=
  List.flatMap_append

variable {world : World} {c : Simple} {next cond body other : Script} {events events₁ events₂ : List Event}
  {name : String} {args : List String} {status : ℕ}

/-- A command that is no built-in of a kind of its own runs, and then what follows it. -/
theorem exec_simple (hargv : world.argv c.words = name::args) (hname : name ∉ World.unreadCommands)
    (hexit : name ≠ "exit") (hassign : c.assignments = []) (before : ℕ) (events : List Event) :
    world.exec (.simple c next) before events = world.exec next (world.status events (name::args))
      (events ++ [.call (name::args) c.redirects]) := by
  rw [World.exec,hassign,List.map_nil,List.append_nil]
  simp only [hargv,if_neg hname,if_neg hexit]

theorem exec_exit (hargv : world.argv c.words = "exit"::args) (hassign : c.assignments = [])
    (before : ℕ) (events : List Event) : world.exec (.simple c next) before events =
      some (events ++ [.call ("exit"::args) c.redirects],
        .exited (world.status events ("exit"::args))) := by
  have hread : "exit" ∉ World.unreadCommands := by decide
  rw [World.exec,hassign,List.map_nil,List.append_nil]
  simp only [hargv,if_neg hread,if_true]

theorem exec_branch (hcond : world.exec cond 0 events = some (events₁,.ended status))
    (hbody : world.exec (if status = 0 then body else other) 0 events₁ =
      some (events₂,.ended n)) (before : ℕ) :
    world.exec (.branch cond body other next) before events = world.exec next n events₂ := by
  rw [World.exec,hcond]
  cases status with
  | zero =>
    rw [if_pos rfl] at hbody
    simp only [hbody]
  | succ status =>
    rw [if_neg (Nat.succ_ne_zero status)] at hbody
    simp only [hbody]

/-- A branch in which the shell exits. -/
theorem exec_branch_exited (hcond : world.exec cond 0 events = some (events₁,.ended status))
    (hstatus : status ≠ 0) (hother : world.exec other 0 events₁ = some (events₂,.exited n))
    (before : ℕ) :
    world.exec (.branch cond body other next) before events = some (events₂,.exited n) := by
  rw [World.exec,hcond]
  cases status with
  | zero => exact absurd rfl hstatus
  | succ status => simp only [hother]

end Fields

end VermayAgent.Library.Shell
