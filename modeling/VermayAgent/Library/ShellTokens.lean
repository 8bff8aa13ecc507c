import Mathlib

/-! The words of a POSIX shell.
A text is read character by character into operators and words, in which a character is quoted or
not. Command substitutions, braced parameters and continued lines are outside what is read. -/
namespace VermayAgent.Library.Shell

/-- A character of a word. -/
structure Letter where
  quoted : Bool
  char : Char
deriving DecidableEq

abbrev Word := List Letter

def Word.text (w : Word) : String := String.ofList (w.map Letter.char)

inductive Operator
  | amp | andIf | pipe | orIf | semi | dsemi | less | great | lparen | rparen
  | dless | dgreat | lessAnd | greatAnd | lessGreat | clobber | dlessDash
deriving DecidableEq

namespace Operator

def ofChar (c : Char) : Option Operator :=
  [('&',amp),('|',pipe),(';',semi),('<',less),('>',great),('(',lparen),(')',rparen)].lookup c

/-- The operator that is longer by a character. -/
def extend (o : Operator) (c : Char) : Option Operator :=
  [((amp,'&'),andIf),((pipe,'|'),orIf),((semi,';'),dsemi),((less,'<'),dless),((less,'&'),lessAnd),
    ((less,'>'),lessGreat),((great,'>'),dgreat),((great,'&'),greatAnd),((great,'|'),clobber),
    ((dless,'-'),dlessDash)].lookup (o,c)

end Operator

inductive Token
  | word (w : Word)
  | number (w : Word)
  | operator (o : Operator)
  | newline
deriving DecidableEq

/-- Where the reader stands, with the word or the operator that it has begun. -/
inductive State
  | blank
  | comment
  | operator (o : Operator)
  | word (w : Word)
  | escaped (w : Word)
  | single (w : Word)
  | double (w : Word)
  | doubleEscaped (w : Word)
deriving DecidableEq

/-- The token of a word that the operator ends: a number in front of a redirection. -/
def delimited (w : Word) (o : Operator) : Token :=
  if (o = .less ∨ o = .great) ∧ w ≠ [] ∧ w.all (fun l => !l.quoted && l.char.isDigit) then .number w
  else .word w

/-- A character that neither ends the word nor is quoted. -/
def inWord (w : Word) (c : Char) : Option State :=
  if c = '\\' then some (.escaped w)
  else if c = '\'' then some (.single w)
  else if c = '"' then some (.double w)
  else if c = '`' then none
  else some (.word (w ++ [⟨false,c⟩]))

/-- A character where no word has begun. -/
def atStart (c : Char) : Option (State × List Token) :=
  if c = ' ' ∨ c = '\t' then some (.blank,[])
  else if c = '\n' then some (.blank,[.newline])
  else if c = '#' then some (.comment,[])
  else
    match Operator.ofChar c with
    | some o => some (.operator o,[])
    | none => (inWord [] c).map fun s => (s,[])

/-- The character begins an expansion that is not read. -/
def opensExpansion (w : Word) (c : Char) : Prop :=
  w.getLast? = some ⟨false,'$'⟩ ∧ c ∈ ['(','{','\'']

instance (w : Word) (c : Char) : Decidable (opensExpansion w c) :=
  inferInstanceAs (Decidable (_ ∧ _))

def step : State → Char → Option (State × List Token)
  | .blank, c => atStart c
  | .comment, c => if c = '\n' then some (.blank,[.newline]) else some (.comment,[])
  | .operator o, c =>
    match o.extend c with
    | some o => some (.operator o,[])
    | none => (atStart c).map fun r => (r.1,.operator o::r.2)
  | .word w, c =>
    if opensExpansion w c then none
    else if c = ' ' ∨ c = '\t' then some (.blank,[.word w])
    else if c = '\n' then some (.blank,[.word w,.newline])
    else
      match Operator.ofChar c with
      | some o => some (.operator o,[delimited w o])
      | none => (inWord w c).map fun s => (s,[])
  | .escaped w, c => if c = '\n' then none else some (.word (w ++ [⟨true,c⟩]),[])
  | .single w, c =>
    if c = '\'' then some (.word w,[]) else some (.single (w ++ [⟨true,c⟩]),[])
  | .double w, c =>
    if c = '"' then some (.word w,[])
    else if c = '\\' then some (.doubleEscaped w,[])
    else if c = '$' ∨ c = '`' then none
    else some (.double (w ++ [⟨true,c⟩]),[])
  | .doubleEscaped w, c =>
    if c = '\n' then none
    else if c ∈ ['$','`','"','\\'] then some (.double (w ++ [⟨true,c⟩]),[])
    else some (.double (w ++ [⟨true,'\\'⟩,⟨true,c⟩]),[])

def feed : State → List Char → Option (State × List Token)
  | s, [] => some (s,[])
  | s, c::text => (step s c).bind fun r => (feed r.1 text).map fun r' => (r'.1,r.2 ++ r'.2)

/-- What the end of the text ends; a quotation is not to be open there. -/
def finish : State → Option (List Token)
  | .blank | .comment => some []
  | .operator o => some [.operator o]
  | .word w => some [.word w]
  | .escaped _ | .single _ | .double _ | .doubleEscaped _ => none

def lex (text : List Char) : Option (List Token) :=
  (feed .blank text).bind fun r => (finish r.1).map (r.2 ++ ·)

section Feed

variable {s s₁ s₂ : State} {t t₁ t₂ : List Token} {a b : List Char} {c : Char}

theorem feed_cons (h : step s c = some (s₁,t)) (hrest : feed s₁ a = some (s₂,t₂)) :
    feed s (c::a) = some (s₂,t ++ t₂) := by
  rw [feed,h,Option.bind_some,hrest]
  rfl

/-- Reading a text and then another. -/
theorem feed_append (h : feed s a = some (s₁,t₁)) (hrest : feed s₁ b = some (s₂,t₂)) :
    feed s (a ++ b) = some (s₂,t₁ ++ t₂) := by
  induction a generalizing s t₁ with
  | nil =>
    cases h
    exact hrest
  | cons c a ih =>
    rw [feed] at h
    obtain ⟨⟨s',t'⟩,hstep,h⟩ := Option.bind_eq_some_iff.mp h
    obtain ⟨⟨s'',t''⟩,hfeed,h⟩ := Option.map_eq_some_iff.mp h
    cases h
    rw [List.cons_append,List.append_assoc]
    exact feed_cons hstep (ih hfeed)

end Feed

section Quoting

/-- The characters that `shlex.quote` lets stand. -/
def safeChar (c : Char) : Bool :=
  c.isAlphanum || c ∈ ['_','@','%','+','=',':',',','.','/','-']

/-- `shlex.quote`. -/
def quote (s : List Char) : List Char :=
  if s = [] then ['\'','\'']
  else if s.all safeChar then s
  else '\''::s.flatMap (fun c => if c = '\'' then ['\'','"','\'','"','\''] else [c]) ++ ['\'']

/-- The word that a quoted text is. -/
def quotedWord (s : List Char) : Word := s.map (Letter.mk (!s.all safeChar))

/-- The characters that a shell treats in a way of their own. -/
def specialChars : List Char :=
  [' ','\t','\n','#','\\','\'','"','`','$','&','|',';','<','>','(',')','{','}','*','?','[',']','~','!']

theorem safeChar_notMem {c : Char} (h : safeChar c = true) : c ∉ specialChars := by
  have hall : specialChars.all (fun d => !safeChar d) = true := by rfl
  intro hmem
  have hc := List.all_eq_true.mp hall c hmem
  rw [h] at hc
  cases hc

theorem ofChar_safe {c : Char} (h : safeChar c = true) : Operator.ofChar c = none := by
  have hne := safeChar_notMem h
  simp only [specialChars,List.mem_cons,not_or] at hne
  simp [Operator.ofChar,List.lookup_eq_none_iff,hne]

theorem inWord_safe {c : Char} (h : safeChar c = true) (w : Word) :
    inWord w c = some (.word (w ++ [⟨false,c⟩])) := by
  have hne := safeChar_notMem h
  simp only [specialChars,List.mem_cons,not_or] at hne
  simp [inWord,hne]

theorem step_safe {c : Char} (h : safeChar c = true) (w : Word) :
    step (.word w) c = some (.word (w ++ [⟨false,c⟩]),[]) := by
  have hne := safeChar_notMem h
  simp only [specialChars,List.mem_cons,not_or] at hne
  simp [step,opensExpansion,hne,ofChar_safe h,inWord_safe h]

theorem atStart_safe {c : Char} (h : safeChar c = true) :
    step .blank c = some (.word [⟨false,c⟩],[]) := by
  have hne := safeChar_notMem h
  simp only [specialChars,List.mem_cons,not_or] at hne
  simp [step,atStart,hne,ofChar_safe h,inWord_safe h]

theorem feed_safe {s : List Char} (h : s.all safeChar = true) (w : Word) :
    feed (.word w) s = some (.word (w ++ s.map (Letter.mk false)),[]) := by
  induction s generalizing w with
  | nil => simp [feed]
  | cons c s ih =>
    rw [List.all_cons,Bool.and_eq_true] at h
    have hrest := ih h.2 (w ++ [⟨false,c⟩])
    rw [List.append_assoc] at hrest
    exact feed_cons (step_safe h.1 w) hrest

/-- The way in which an apostrophe is written inside single quotes. -/
theorem feed_apostrophe (w : Word) : feed (.single w) ['\'','"','\'','"','\''] =
    some (.single (w ++ [⟨true,'\''⟩]),[]) := by
  have hdouble : Operator.ofChar '"' = none := by rfl
  have hsingle : Operator.ofChar '\'' = none := by rfl
  have hopen : step (.word w) '"' = some (.double w,[]) := by
    simp [step,opensExpansion,hdouble,inWord]
  have hreopen : step (.word (w ++ [⟨true,'\''⟩])) '\'' =
      some (.single (w ++ [⟨true,'\''⟩]),[]) := by
    simp [step,opensExpansion,hsingle,inWord]
  refine feed_cons (t := []) (by rfl) (feed_cons (t := []) hopen (feed_cons (t := []) (by rfl)
    (feed_cons (t := []) (by rfl) (feed_cons (t := []) hreopen ?_))))
  rfl

/-- Inside single quotes every text is taken as it stands, its own quotes included. -/
theorem feed_single (s : List Char) (w : Word) :
    feed (.single w) (s.flatMap fun c => if c = '\'' then ['\'','"','\'','"','\''] else [c]) =
      some (.single (w ++ s.map (Letter.mk true)),[]) := by
  induction s generalizing w with
  | nil => simp [feed]
  | cons c s ih =>
    have hrest := ih (w ++ [⟨true,c⟩])
    rw [List.append_assoc] at hrest
    have hfirst : feed (.single w) (if c = '\'' then ['\'','"','\'','"','\''] else [c]) =
        some (.single (w ++ [⟨true,c⟩]),[]) := by
      by_cases hc : c = '\''
      · subst hc
        exact feed_apostrophe w
      · simp [feed,step,hc]
    exact feed_append hfirst hrest

/-- A quoted text is one word, whatever it holds. -/
theorem feed_quote (s : List Char) :
    feed .blank (quote s) = some (.word (quotedWord s),[]) := by
  unfold quote quotedWord
  cases s with
  | nil => rfl
  | cons c s =>
    rw [if_neg (List.cons_ne_nil c s)]
    by_cases hsafe : (c::s).all safeChar = true
    · rw [if_pos hsafe,hsafe]
      rw [List.all_cons,Bool.and_eq_true] at hsafe
      exact feed_cons (atStart_safe hsafe.1) (feed_safe hsafe.2 [⟨false,c⟩])
    · rw [if_neg hsafe,Bool.eq_false_of_not_eq_true hsafe]
      have hclose : feed (.single (quotedWord (c::s))) ['\''] = some (.word (quotedWord (c::s)),[]) := by
        rfl
      have hword : quotedWord (c::s) = (c::s).map (Letter.mk true) := by
        rw [quotedWord,Bool.eq_false_of_not_eq_true hsafe]
        rfl
      rw [hword] at hclose
      exact feed_cons (t := []) (by rfl) (feed_append (feed_single (c::s) []) hclose)

/-- A blank ends a word, and so does an operator. -/
theorem step_blank (w : Word) : step (.word w) ' ' = some (.blank,[.word w]) := by
  simp [step,opensExpansion]

theorem step_semi (w : Word) : step (.word w) ';' = some (.operator .semi,[.word w]) := by
  have hsemi : Operator.ofChar ';' = some .semi := by rfl
  simp [step,opensExpansion,hsemi,delimited]

/-- Quoted texts that blanks join are words, one for each text. -/
theorem feed_quotes (texts : List (List Char)) :
    feed .blank ([' '].intercalate (texts.map quote) ++ [';']) =
      some (.operator .semi,texts.map fun s => .word (quotedWord s)) := by
  induction texts with
  | nil => rfl
  | cons s texts ih =>
    cases texts with
    | nil =>
      rw [List.map_singleton,List.intercalate_singleton]
      exact feed_append (feed_quote s) (feed_cons (step_semi _) (by rfl))
    | cons s' texts =>
      rw [List.map_cons,List.map_cons,List.intercalate_cons_cons,List.append_assoc,
        List.append_assoc]
      exact feed_append (feed_quote s) (feed_cons (step_blank _) ih)

end Quoting

section Plain

/-- The word is expanded: it holds a parameter, a pattern or a tilde that is not quoted. -/
def expands (w : Word) : Bool :=
  w.any (fun l => !l.quoted && l.char ∈ ['$','*','?','~']) ||
    (w.any (fun l => !l.quoted && l.char = '[') && w.any (fun l => !l.quoted && l.char = ']'))

theorem expands_quotedWord (s : List Char) : expands (quotedWord s) = false := by
  unfold quotedWord
  cases hsafe : s.all safeChar with
  | false => simp [expands]
  | true =>
    have hplain : ∀ c ∈ s, (c ∉ ['$','*','?','~']) ∧ c ≠ '[' := by
      intro c hc
      have hne := safeChar_notMem (List.all_eq_true.mp hsafe c hc)
      simp only [specialChars,List.mem_cons,not_or] at hne
      simp [hne]
    simp only [expands,Bool.or_eq_false_iff,Bool.and_eq_false_iff,List.any_eq_false,List.mem_map,
      Bool.not_true]
    refine ⟨?_,.inl ?_⟩
    · rintro _ ⟨c,hc,rfl⟩
      simpa using (hplain c hc).1
    · rintro _ ⟨c,hc,rfl⟩
      simpa using (hplain c hc).2

theorem text_quotedWord (s : String) : Word.text (quotedWord s.toList) = s := by
  unfold Word.text quotedWord
  rw [List.map_map]
  simp [Function.comp_def]

end Plain

end VermayAgent.Library.Shell
