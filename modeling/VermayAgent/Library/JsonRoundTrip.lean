import VermayAgent.Library.JsonText
import Mathlib.Data.Fintype.Basic
import Mathlib.Tactic.FinCases

/-! What is written is read back.
The reader is taken token by token through the tokens of a value, the lexer character by character
through their texts; numbers go through a token that the reader's dialect knows. -/
namespace VermayAgent.Library

variable {ν μ : Type} {dialect : Dialect μ} {numberToken : ν → Token} {f : ν → μ}

section Reader

/-- The dialect reads the token of a number as `f` of it. -/
def Reads (dialect : Dialect μ) (numberToken : ν → Token) (f : ν → μ) : Prop :=
  ∀ n stack, readValue dialect stack (numberToken n) = .ok (.give (.number (f n)) stack)

/-- So many containers may be open. -/
def Dialect.Fits (dialect : Dialect μ) (n : Nat) : Prop := ∀ m, dialect.maxDepth = some m → n ≤ m

theorem Dialect.Fits.mono {m n : Nat} (h : dialect.Fits n) (hmn : m ≤ n) : dialect.Fits m :=
  fun k hk => hmn.trans (h k hk)

@[simp] theorem openContainer_fits {stack : List (Frame μ)} {state : ReadState μ}
    (h : dialect.Fits (stack.length+1)) : openContainer dialect stack state = .ok state := by
  unfold openContainer
  cases hd : dialect.maxDepth with
  | none => rfl
  | some m =>
    have hm := h m hd
    exact if_neg (by simp only [Option.any_some,decide_eq_true_eq]; omega)

theorem readTokens_cons {state state' : ReadState μ} {token : Token} {tokens : List Token}
    (h : readStep dialect state token = .ok state') :
    readTokens dialect state (token::tokens) = readTokens dialect state' tokens := by
  rw [readTokens,h]
  rfl

theorem readTokens_lbracket {stack : List (Frame μ)} (h : dialect.Fits (stack.length+1))
    (tokens : List Token) : readTokens dialect (.value stack) (.lbracket::tokens) =
      readTokens dialect (.firstItem stack) tokens :=
  readTokens_cons (openContainer_fits h)

theorem readTokens_lbrace {stack : List (Frame μ)} (h : dialect.Fits (stack.length+1))
    (tokens : List Token) : readTokens dialect (.value stack) (.lbrace::tokens) =
      readTokens dialect (.firstKey stack) tokens :=
  readTokens_cons (openContainer_fits h)

/-- The first item of an array is read as any other. -/
theorem readTokens_firstItem (hreads : Reads dialect numberToken f) (v : JsonValue ν)
    (stack : List (Frame μ)) (rest : List Token) :
    readTokens dialect (.firstItem stack) (v.tokens numberToken ++ rest) =
      readTokens dialect (.value (.array []::stack)) (v.tokens numberToken ++ rest) := by
  cases v with
  | number n =>
    have hn := hreads n (.array []::stack)
    rw [JsonValue.tokens]
    cases h : numberToken n with
    | rbracket =>
      rw [h] at hn
      cases hn
    | _ => rfl
  | array items => cases items <;> rfl
  | object members => cases members <;> rfl
  | null | bool b | string s => rfl

mutual

/-- Reading the tokens of a value gives the value to the container around it. -/
theorem readTokens_value (hreads : Reads dialect numberToken f) :
    ∀ (v : JsonValue ν) (stack : List (Frame μ)) (rest : List Token), v.Distinct →
      dialect.Fits (stack.length+v.depth) →
      readTokens dialect (.value stack) (v.tokens numberToken ++ rest) =
        readTokens dialect (.give (v.map f) stack) rest
  | .null, stack, rest, _, _ => rfl
  | .bool b, stack, rest, _, _ => rfl
  | .number n, stack, rest, _, _ => readTokens_cons (hreads n stack)
  | .string s, stack, rest, _, _ => rfl
  | .array [], stack, rest, _, hfits => by
    rw [JsonValue.tokens,List.cons_append,readTokens_lbracket (hfits.mono (by simp
      [JsonValue.depth])),JsonValue.map,JsonValue.mapItems]
    rfl
  | .array (v::items), stack, rest, hdistinct, hfits => by
    simp only [JsonValue.depth,JsonValue.depthItems] at hfits
    have hv : dialect.Fits (((Frame.array [] : Frame μ)::stack).length+v.depth) :=
      hfits.mono (by simp only [List.length_cons]; omega)
    rw [JsonValue.tokens,List.cons_append,List.cons_append,List.append_assoc,
      readTokens_lbracket (hfits.mono (by omega)),readTokens_firstItem hreads,
      readTokens_value hreads v _ _ hdistinct.1 hv,JsonValue.map,JsonValue.mapItems]
    exact readTokens_items hreads items [v.map f] stack rest hdistinct.2 (hfits.mono (by omega))
  | .object [], stack, rest, _, hfits => by
    rw [JsonValue.tokens,List.cons_append,readTokens_lbrace (hfits.mono (by simp
      [JsonValue.depth])),JsonValue.map,JsonValue.mapMembers]
    rfl
  | .object ((key,v)::members), stack, rest, hdistinct, hfits => by
    simp only [JsonValue.depth,JsonValue.depthMembers] at hfits
    have hv : dialect.Fits (((Frame.object [] key : Frame μ)::stack).length+v.depth) :=
      hfits.mono (by simp only [List.length_cons]; omega)
    have hrest := readTokens_members hreads members [(key,v.map f)] stack rest hdistinct.1
      hdistinct.2.2 (hfits.mono (by omega))
    rw [JsonValue.tokens,List.cons_append,List.cons_append,List.cons_append,List.cons_append,
      List.append_assoc,readTokens_lbrace (hfits.mono (by omega)),JsonValue.map,
      JsonValue.mapMembers]
    exact (readTokens_value hreads v _ _ hdistinct.2.1 hv).trans hrest

/-- Reading the items that remain of an array completes it. -/
theorem readTokens_items (hreads : Reads dialect numberToken f) :
    ∀ (items : List (JsonValue ν)) (read : List (JsonValue μ)) (stack : List (Frame μ))
      (rest : List Token), JsonValue.DistinctItems items →
      dialect.Fits (stack.length+1+JsonValue.depthItems items) →
      readTokens dialect (.afterItem read stack)
          (JsonValue.moreItems numberToken items ++ rest) =
        readTokens dialect (.give (.array (read.reverse++JsonValue.mapItems f items)) stack) rest
  | [], read, stack, rest, _, _ => by
    rw [JsonValue.mapItems,List.append_nil]
    rfl
  | v::items, read, stack, rest, hdistinct, hfits => by
    simp only [JsonValue.depthItems] at hfits
    have hv : dialect.Fits ((Frame.array read::stack).length+v.depth) :=
      hfits.mono (by simp only [List.length_cons]; omega)
    have hrest := readTokens_items hreads items (v.map f::read) stack rest hdistinct.2
      (hfits.mono (by omega))
    rw [List.reverse_cons,List.append_assoc,List.singleton_append] at hrest
    rw [JsonValue.moreItems,List.cons_append,List.cons_append,List.append_assoc,JsonValue.mapItems]
    exact (readTokens_value hreads v _ _ hdistinct.1 hv).trans hrest

/-- Reading the members that remain of an object completes it. -/
theorem readTokens_members (hreads : Reads dialect numberToken f) :
    ∀ (members : List (Text × JsonValue ν)) (read : List (Text × JsonValue μ))
      (stack : List (Frame μ)) (rest : List Token),
      (read.map Prod.fst++members.map Prod.fst).Nodup → JsonValue.DistinctMembers members →
      dialect.Fits (stack.length+1+JsonValue.depthMembers members) →
      readTokens dialect (.afterMember read stack)
          (JsonValue.moreMembers numberToken members ++ rest) =
        readTokens dialect (.give (.object (read++JsonValue.mapMembers f members)) stack) rest
  | [], read, stack, rest, _, _, _ => by
    rw [JsonValue.mapMembers,List.append_nil]
    rfl
  | (key,v)::members, read, stack, rest, hnodup, hdistinct, hfits => by
    simp only [JsonValue.depthMembers] at hfits
    have hv : dialect.Fits ((Frame.object read key::stack).length+v.depth) :=
      hfits.mono (by simp only [List.length_cons]; omega)
    have hfresh : JsonValue.set key (v.map f) read = read++[(key,v.map f)] :=
      JsonValue.set_fresh fun hmem => List.disjoint_of_nodup_append hnodup hmem List.mem_cons_self
    have hnodup' : ((read++[(key,v.map f)]).map Prod.fst++members.map Prod.fst).Nodup := by
      simpa using hnodup
    have hrest := readTokens_members hreads members (read++[(key,v.map f)]) stack rest hnodup'
      hdistinct.2 (hfits.mono (by omega))
    rw [List.append_assoc,List.singleton_append] at hrest
    rw [JsonValue.moreMembers,List.cons_append,List.cons_append,List.cons_append,List.cons_append,
      List.append_assoc,JsonValue.mapMembers]
    refine (readTokens_value hreads v _ _ hdistinct.1 hv).trans ?_
    rw [ReadState.give,hfresh]
    exact hrest

end

end Reader

section Lexer

/-- What follows does not continue a number. -/
def Delimited (rest : Text) : Prop :=
  ∀ c cs, rest = c::cs → pointDigit? c = none ∧ c ≠ .char '.' ∧ isExponentMark c = false

theorem delimited_nil : Delimited [] := nofun

theorem delimited_cons {c : CodePoint} (hdigit : pointDigit? c = none) (hpoint : c ≠ .char '.')
    (hmark : isExponentMark c = false) (rest : Text) : Delimited (c::rest) := by
  rintro _ _ ⟨⟩
  exact ⟨hdigit,hpoint,hmark⟩

@[simp] theorem pointDigit?_digitChar (d : Digit) : pointDigit? (digitChar d) = some d := by
  fin_cases d <;> rfl

theorem lexStart_digitChar (d : Digit) : lexStart (digitChar d) = ([],.integer false [d]) := by
  fin_cases d <;> rfl

section Numbers

variable {negative : Bool} {integer fraction : List Digit} {sign : ExponentSign} {rest : Text}

theorem lex_integerDigits (digits more : List Digit) (hzero : digits ≠ [0]) (hne : digits ≠ []) :
    lex (.integer negative digits) (more.map digitChar ++ rest) =
      lex (.integer negative (digits++more)) rest := by
  induction more generalizing digits with
  | nil => rw [List.append_nil,List.map_nil,List.nil_append]
  | cons d more ih =>
    have hlonger : digits++[d] ≠ [0] := fun h => by
      have hlength := congrArg List.length h
      have hpos := List.length_pos_iff.mpr hne
      simp only [List.length_append,List.length_singleton] at hlength
      omega
    have hstep := ih (digits++[d]) hlonger (by simp)
    rw [List.append_assoc,List.singleton_append] at hstep
    rw [List.map_cons,List.cons_append,lex,lexStep,pointDigit?_digitChar]
    simp only [hzero,if_false,List.nil_append]
    exact hstep

theorem lex_fractionDigits (digits more : List Digit) :
    lex (.fraction negative integer digits) (more.map digitChar ++ rest) =
      lex (.fraction negative integer (digits++more)) rest := by
  induction more generalizing digits with
  | nil => rw [List.append_nil,List.map_nil,List.nil_append]
  | cons d more ih =>
    have hstep := ih (digits++[d])
    rw [List.append_assoc,List.singleton_append] at hstep
    rw [List.map_cons,List.cons_append,lex,lexStep,pointDigit?_digitChar]
    exact hstep

theorem lex_exponentDigits (digits more : List Digit) :
    lex (.exponentDigits negative integer fraction sign digits) (more.map digitChar ++ rest) =
      lex (.exponentDigits negative integer fraction sign (digits++more)) rest := by
  induction more generalizing digits with
  | nil => rw [List.append_nil,List.map_nil,List.nil_append]
  | cons d more ih =>
    have hstep := ih (digits++[d])
    rw [List.append_assoc,List.singleton_append] at hstep
    rw [List.map_cons,List.cons_append,lex,lexStep,pointDigit?_digitChar]
    exact hstep

/-- The text of an exponent, after its number so far. -/
def exponentText : Option (ExponentSign × List Digit) → Text
  | none => []
  | some (sign,digits) => .char 'e'::sign.text ++ digits.map digitChar

/-- An exponent, or none, ends the number. -/
theorem lex_exponent (exponent : Option (ExponentSign × List Digit))
    (hdigits : ∀ sign digits, exponent = some (sign,digits) → digits ≠ [])
    (hrest : Delimited rest) {state : LexState}
    (hmark : ∀ cs, lex state (.char 'e'::cs) = lex (.exponent negative integer fraction) cs)
    (hend : exponent = none → lex state rest =
      .number ⟨negative,integer,fraction,none⟩::lex .start rest) :
    lex state (exponentText exponent ++ rest) =
      .number ⟨negative,integer,fraction,exponent⟩::lex .start rest := by
  cases exponent with
  | none => exact hend rfl
  | some e =>
    obtain ⟨sign,digits⟩ := e
    obtain ⟨d,more,rfl⟩ := List.exists_cons_of_ne_nil (hdigits sign digits rfl)
    have hdone : lex (.exponentDigits negative integer fraction sign (d::more)) rest =
        .number ⟨negative,integer,fraction,some (sign,d::more)⟩::lex .start rest := by
      cases rest with
      | nil => rfl
      | cons c cs =>
        obtain ⟨hdigit,_⟩ := hrest c cs rfl
        rw [lex,lexStep,hdigit]
        rfl
    have hfirst : lex (.exponent negative integer fraction)
        (sign.text ++ ((d::more).map digitChar ++ rest)) =
          lex (.exponentDigits negative integer fraction sign [d])
            (more.map digitChar ++ rest) := by
      cases sign with
      | none => fin_cases d <;> rfl
      | plus => fin_cases d <;> rfl
      | minus => fin_cases d <;> rfl
    rw [exponentText,List.append_assoc,List.cons_append,hmark,hfirst,lex_exponentDigits]
    exact hdone

theorem NumberToken.text_eq (t : NumberToken) : t.text =
    (if t.negative then [.char '-'] else []) ++ (t.integer.map digitChar ++
      ((if t.fraction = [] then [] else .char '.'::t.fraction.map digitChar) ++
        exponentText t.exponent)) := by
  change _ ++ _ ++ _ ++ exponentText t.exponent = _
  rw [List.append_assoc,List.append_assoc]

/-- The digits before the point, with a sign before them. -/
theorem lex_integer (d : Digit) (digits : List Digit) (hzero : d = 0 → digits = [])
    (cs : Text) : lex .start ((if negative then [.char '-'] else []) ++
      ((d::digits).map digitChar ++ cs)) = lex (.integer negative (d::digits)) cs := by
  have hfirst : lex .start ((if negative then [.char '-'] else []) ++
      ((d::digits).map digitChar ++ cs)) =
        lex (.integer negative [d]) (digits.map digitChar ++ cs) := by
    cases negative with
    | false =>
      rw [List.map_cons,List.cons_append]
      simp only [Bool.false_eq_true,if_false,List.nil_append]
      rw [lex,lexStep,lexStart_digitChar]
      rfl
    | true => fin_cases d <;> rfl
  rw [hfirst]
  by_cases hd : d = 0
  · rw [hzero hd]
    rfl
  · exact lex_integerDigits [d] digits (by simpa using hd) (by simp)

/-- A number in a text is one token. -/
theorem lex_number {t : NumberToken} (ht : t.WellFormed) (hrest : Delimited rest) :
    lex .start (t.text ++ rest) = .number t::lex .start rest := by
  obtain ⟨negative,integer,fraction,exponent⟩ := t
  obtain ⟨⟨d,digits,rfl,hzero⟩,hexponent⟩ := ht
  rw [NumberToken.text_eq,List.append_assoc,List.append_assoc,List.append_assoc,
    lex_integer d digits hzero]
  cases fraction with
  | nil =>
    refine lex_exponent exponent hexponent hrest (fun cs => rfl) fun _ => ?_
    cases rest with
    | nil => rfl
    | cons c cs =>
      obtain ⟨hdigit,hpoint,hmark⟩ := hrest c cs rfl
      rw [lex,lexStep,hdigit]
      simp only [hpoint,hmark,if_false]
      rfl
  | cons d' more =>
    have hfirst : lex (.integer negative (d::digits)) (.char '.'::((d'::more).map digitChar ++
        (exponentText exponent ++ rest))) = lex (.fraction negative (d::digits) [d'])
          (more.map digitChar ++ (exponentText exponent ++ rest)) := by
      fin_cases d' <;> rfl
    rw [if_neg (by simp),List.cons_append,hfirst,lex_fractionDigits]
    refine lex_exponent exponent hexponent hrest (fun cs => rfl) fun _ => ?_
    cases rest with
    | nil => rfl
    | cons c cs =>
      obtain ⟨hdigit,_,hmark⟩ := hrest c cs rfl
      rw [lex,lexStep,hdigit]
      simp only [hmark]
      rfl

end Numbers

section Strings

variable {read rest : Text}

theorem hexDigit?_hexChar (n : Fin 16) : ∃ c, hexChar n = .char c ∧ hexDigit? c = some n.val := by
  fin_cases n <;> exact ⟨_,rfl,rfl⟩

/-- An escaped character is read as that character. -/
theorem lex_escapeChar (c : CodePoint) : lex (.string read false) (escapeChar c ++ rest) =
    lex (.string (c::read) false) rest := by
  unfold escapeChar
  split_ifs with hquote hback hn hr ht hf hb hcontrol
  · exact hquote ▸ rfl
  · exact hback ▸ rfl
  · exact hn ▸ rfl
  · exact hr ▸ rfl
  · exact ht ▸ rfl
  · exact hf ▸ rfl
  · exact hb ▸ rfl
  · obtain ⟨c₁,h₁,hd₁⟩ := hexDigit?_hexChar (Fin.ofNat 16 (c.value/16))
    obtain ⟨c₂,h₂,hd₂⟩ := hexDigit?_hexChar (Fin.ofNat 16 c.value)
    have hunit : ((0*16+0)*16+(Fin.ofNat 16 (c.value/16)).val)*16+(Fin.ofNat 16 c.value).val =
        c.value := by
      simp only [Fin.ofNat]
      omega
    have hhigh : decide (0xD800 ≤ c.value ∧ c.value < 0xDC00) = false := by
      simp only [decide_eq_false_iff_not]
      omega
    have hlast : lexStep (.unicode read false [0,0,(Fin.ofNat 16 (c.value/16)).val]) (.char c₂) =
        ([],.string (c::read) false) := by
      simp only [lexStep,hd₂,hunit,addUnit,CodePoint.ofNat_value,hhigh]
    have hthird : lexStep (.unicode read false [0,0]) (.char c₁) =
        ([],.unicode read false [0,0,(Fin.ofNat 16 (c.value/16)).val]) := by
      simp only [lexStep,hd₁,List.cons_append,List.nil_append]
    have hopen : lex (.string read false) (Text.of "\\u00" ++ (.char c₁::.char c₂::rest)) =
        lex (.unicode read false [0,0]) (.char c₁::.char c₂::rest) := rfl
    rw [h₁,h₂,List.append_assoc,List.cons_append,List.singleton_append,hopen,lex,hthird,
      List.nil_append,lex,hlast]
    rfl
  · rw [List.singleton_append,lex,lexStep]
    simp only [hquote,hback,hcontrol,if_false,List.nil_append]

/-- The text of a string is one token. -/
theorem lex_string (s : Text) :
    lex (.string read false) (s.flatMap escapeChar ++ .char '"'::rest) =
      .string (read.reverse++s)::lex .start rest := by
  induction s generalizing read with
  | nil =>
    rw [List.append_nil]
    rfl
  | cons c s ih =>
    rw [List.flatMap_cons,List.append_assoc,lex_escapeChar,ih,List.reverse_cons,List.append_assoc,
      List.singleton_append]

end Strings

section Values

variable {separators : Separators}

/-- A separator is its character and whitespace. -/
structure Separators.Plain (separators : Separators) : Prop where
  item : ∃ space, separators.item = .char ','::space ∧
    ∀ c ∈ space, ∃ c', c = .char c' ∧ isWhitespace c' = true
  key : ∃ space, separators.key = .char ':'::space ∧
    ∀ c ∈ space, ∃ c', c = .char c' ∧ isWhitespace c' = true

/-- In front of a delimiter the text of the token is that token alone. -/
def Token.Scanned (separators : Separators) (token : Token) : Prop :=
  ∀ rest, Delimited rest → lex .start (token.text separators ++ rest) = token::lex .start rest

theorem lex_whitespace {space : Text}
    (hspace : ∀ c ∈ space, ∃ c', c = .char c' ∧ isWhitespace c' = true) (rest : Text) :
    lex .start (space ++ rest) = lex .start rest := by
  induction space with
  | nil => rfl
  | cons c space ih =>
    obtain ⟨c',rfl,hc⟩ := hspace c List.mem_cons_self
    have hstart : lexStart (.char c') = ([],.start) := by
      simp only [lexStart,hc,if_true]
    rw [List.cons_append,lex,lexStep,hstart]
    exact ih fun c hmem => hspace c (List.mem_cons_of_mem _ hmem)

theorem Separators.Plain.lex_item (h : separators.Plain) (rest : Text) :
    lex .start (Token.comma.text separators ++ rest) = .comma::lex .start rest := by
  obtain ⟨space,hitem,hspace⟩ := h.item
  rw [Token.text,hitem,List.cons_append]
  exact congrArg (Token.comma::·) (lex_whitespace hspace rest)

theorem Separators.Plain.lex_key (h : separators.Plain) (rest : Text) :
    lex .start (Token.colon.text separators ++ rest) = .colon::lex .start rest := by
  obtain ⟨space,hkey,hspace⟩ := h.key
  rw [Token.text,hkey,List.cons_append]
  exact congrArg (Token.colon::·) (lex_whitespace hspace rest)

theorem lex_stringToken (s rest : Text) :
    lex .start ((Token.string s).text separators ++ rest) = .string s::lex .start rest := by
  have hquote : lex .start ((Token.string s).text separators ++ rest) =
      lex (.string [] false) (s.flatMap escapeChar ++ .char '"'::rest) := by
    simp only [Token.text,List.cons_append,List.append_assoc,List.nil_append]
    rfl
  exact hquote.trans (lex_string s)

theorem lex_bool (b : Bool) (rest : Text) :
    lex .start ((Token.bool b).text separators ++ rest) = .bool b::lex .start rest := by
  cases b <;> rfl

theorem scanned_constant (c : Constant) : (Token.constant c).Scanned separators := by
  intro rest _
  cases c <;> rfl

theorem scanned_number {t : NumberToken} (ht : t.WellFormed) :
    (Token.number t).Scanned separators := fun _ hrest => lex_number ht hrest

theorem delimited_moreItems (h : separators.Plain) (items : List (JsonValue ν)) (rest : Text) :
    Delimited
      ((JsonValue.moreItems numberToken items).flatMap (Token.text separators) ++ rest) := by
  cases items with
  | nil => exact delimited_cons rfl (by decide) rfl _
  | cons v items =>
    obtain ⟨space,hitem,_⟩ := h.item
    rw [JsonValue.moreItems,List.cons_append,List.flatMap_cons,Token.text,hitem]
    exact delimited_cons rfl (by decide) rfl _

theorem delimited_moreMembers (h : separators.Plain) (members : List (Text × JsonValue ν))
    (rest : Text) : Delimited
      ((JsonValue.moreMembers numberToken members).flatMap (Token.text separators) ++ rest) := by
  cases members with
  | nil => exact delimited_cons rfl (by decide) rfl _
  | cons m members =>
    obtain ⟨space,hitem,_⟩ := h.item
    rw [JsonValue.moreMembers,List.cons_append,List.flatMap_cons,Token.text,hitem]
    exact delimited_cons rfl (by decide) rfl _

/-- The texts of tokens, put together, before the rest of a text. -/
theorem flatMap_cons_append (token : Token) (tokens : List Token) (rest : Text) :
    (token::tokens).flatMap (Token.text separators) ++ rest =
      token.text separators ++ (tokens.flatMap (Token.text separators) ++ rest) := by
  rw [List.flatMap_cons,List.append_assoc]

theorem flatMap_append_append (tokens more : List Token) (rest : Text) :
    (tokens++more).flatMap (Token.text separators) ++ rest =
      tokens.flatMap (Token.text separators) ++
        (more.flatMap (Token.text separators) ++ rest) := by
  rw [List.flatMap_append,List.append_assoc]

mutual

/-- The text of a value is split into its tokens. -/
theorem lex_value (h : separators.Plain) (hn : ∀ n, (numberToken n).Scanned separators) :
    ∀ (v : JsonValue ν) (rest : Text), Delimited rest →
      lex .start ((v.tokens numberToken).flatMap (Token.text separators) ++ rest) =
        v.tokens numberToken ++ lex .start rest
  | .null, rest, _ => rfl
  | .bool b, rest, _ => by
    rw [JsonValue.tokens,flatMap_cons_append]
    exact lex_bool b rest
  | .number n, rest, hrest => by
    rw [JsonValue.tokens,flatMap_cons_append]
    exact hn n rest hrest
  | .string s, rest, _ => by
    rw [JsonValue.tokens,flatMap_cons_append]
    exact lex_stringToken s rest
  | .array [], rest, _ => rfl
  | .array (v::items), rest, _ => by
    have hopen : ∀ cs, lex .start (Token.lbracket.text separators ++ cs) =
        .lbracket::lex .start cs := fun _ => rfl
    rw [JsonValue.tokens,List.cons_append,flatMap_cons_append,flatMap_append_append,hopen,
      lex_value h hn v _ (delimited_moreItems h items rest),lex_moreItems h hn items rest,
      List.cons_append,List.append_assoc]
  | .object [], rest, _ => rfl
  | .object ((key,v)::members), rest, _ => by
    have hopen : ∀ cs, lex .start (Token.lbrace.text separators ++ cs) =
        .lbrace::lex .start cs := fun _ => rfl
    rw [JsonValue.tokens]
    simp only [List.cons_append,flatMap_cons_append,flatMap_append_append,hopen,lex_stringToken,
      h.lex_key]
    rw [lex_value h hn v _ (delimited_moreMembers h members rest),
      lex_moreMembers h hn members rest,List.append_assoc]

theorem lex_moreItems (h : separators.Plain) (hn : ∀ n, (numberToken n).Scanned separators) :
    ∀ (items : List (JsonValue ν)) (rest : Text),
      lex .start ((JsonValue.moreItems numberToken items).flatMap (Token.text separators) ++
          rest) = JsonValue.moreItems numberToken items ++ lex .start rest
  | [], rest => rfl
  | v::items, rest => by
    rw [JsonValue.moreItems,List.cons_append,flatMap_cons_append,flatMap_append_append,h.lex_item,
      lex_value h hn v _ (delimited_moreItems h items rest),lex_moreItems h hn items rest,
      List.cons_append,List.append_assoc]

theorem lex_moreMembers (h : separators.Plain) (hn : ∀ n, (numberToken n).Scanned separators) :
    ∀ (members : List (Text × JsonValue ν)) (rest : Text),
      lex .start ((JsonValue.moreMembers numberToken members).flatMap (Token.text separators) ++
          rest) = JsonValue.moreMembers numberToken members ++ lex .start rest
  | [], rest => rfl
  | (key,v)::members, rest => by
    rw [JsonValue.moreMembers]
    simp only [List.cons_append,flatMap_cons_append,flatMap_append_append,lex_stringToken,
      h.lex_key,h.lex_item]
    rw [lex_value h hn v _ (delimited_moreMembers h members rest),
      lex_moreMembers h hn members rest,List.append_assoc]

end

end Values

end Lexer

section RoundTrip

variable {separators : Separators}

/-- A value is read back from its text, its members in order and its numbers as the reader takes
them. -/
theorem loads_dumps (h : separators.Plain) (hn : ∀ n, (numberToken n).Scanned separators)
    (hreads : Reads dialect numberToken f) {v : JsonValue ν} (hv : v.Distinct)
    (hfits : dialect.Fits v.sorted.depth) :
    loads dialect (dumps numberToken separators v) = .ok (v.sorted.map f) := by
  have hlex := lex_value h hn v.sorted [] delimited_nil
  have hread := readTokens_value hreads v.sorted [] [] hv.sorted (by simpa using hfits)
  rw [List.append_nil] at hlex
  have hend : lex .start [] = [] := rfl
  rw [hend,List.append_nil] at hlex
  rw [List.append_nil] at hread
  unfold loads dumps
  rw [hlex,hread]
  rfl

theorem Separators.default_plain : Separators.default.Plain :=
  ⟨⟨[.char ' '],rfl,by simp [isWhitespace]⟩,⟨[.char ' '],rfl,by simp [isWhitespace]⟩⟩

theorem Separators.compact_plain : Separators.compact.Plain :=
  ⟨⟨[],rfl,by simp⟩,⟨[],rfl,by simp⟩⟩

end RoundTrip
end VermayAgent.Library
