import VermayAgent.Library.JsonText

/-! The characters of a JSON text: printable ones, and those of the strings in the value. -/
namespace VermayAgent.Library

/-- A character of its own that the writer puts into a text. -/
def IsPrintable (c : Char) : Prop := 0x20 ≤ c.toNat ∧ c.toNat < 0x7F

instance : DecidablePred IsPrintable := fun _ => inferInstanceAs (Decidable (_ ∧ _))

namespace JsonValue

variable {ν : Type} (P : CodePoint → Prop)

mutual

/-- The strings in the value, keys included, have characters of `P` alone. -/
def AllCharacters : JsonValue ν → Prop
  | string s => ∀ c ∈ s, P c
  | array items => AllCharactersItems items
  | object members => AllCharactersMembers members
  | _ => True

def AllCharactersItems : List (JsonValue ν) → Prop
  | [] => True
  | v::items => AllCharacters v ∧ AllCharactersItems items

def AllCharactersMembers : List (Text × JsonValue ν) → Prop
  | [] => True
  | (key,v)::members => (∀ c ∈ key, P c) ∧ AllCharacters v ∧ AllCharactersMembers members

end

variable {P}

theorem allCharactersMembers_iff {members : List (Text × JsonValue ν)} :
    AllCharactersMembers P members ↔
      ∀ m ∈ members, (∀ c ∈ m.1, P c) ∧ AllCharacters P m.2 := by
  induction members with
  | nil => simp [AllCharactersMembers]
  | cons m members ih =>
    rw [AllCharactersMembers,ih,List.forall_mem_cons,and_assoc]

section Mono

variable {Q : CodePoint → Prop}

mutual

theorem AllCharacters.mono (hPQ : ∀ c, P c → Q c) : ∀ {v : JsonValue ν},
    v.AllCharacters P → v.AllCharacters Q
  | string _, h => fun c hc => hPQ c (h c hc)
  | array _, h => AllCharactersItems.mono hPQ h
  | object _, h => AllCharactersMembers.mono hPQ h
  | null, _ | bool _, _ | number _, _ => trivial

theorem AllCharactersItems.mono (hPQ : ∀ c, P c → Q c) : ∀ {items : List (JsonValue ν)},
    AllCharactersItems P items → AllCharactersItems Q items
  | [], _ => trivial
  | _::_, h => ⟨h.1.mono hPQ,AllCharactersItems.mono hPQ h.2⟩

theorem AllCharactersMembers.mono (hPQ : ∀ c, P c → Q c) : ∀ {members : List (Text × JsonValue ν)},
    AllCharactersMembers P members → AllCharactersMembers Q members
  | [], _ => trivial
  | (_,_)::_, h => ⟨fun c hc => hPQ c (h.1 c hc),h.2.1.mono hPQ,AllCharactersMembers.mono hPQ h.2.2⟩

end

end Mono

mutual

theorem AllCharacters.sorted : ∀ {v : JsonValue ν}, v.AllCharacters P → v.sorted.AllCharacters P
  | array items, h => by
    rw [JsonValue.sorted,AllCharacters]
    exact AllCharactersItems.sorted h
  | object members, h => by
    rw [JsonValue.sorted,AllCharacters]
    have hall := allCharactersMembers_iff.mp (AllCharactersMembers.sorted h)
    exact allCharactersMembers_iff.mpr fun m hm =>
      hall m ((sortMembers_perm (sortedMembers members)).mem_iff.mp hm)
  | null, h | bool _, h | number _, h | string _, h => h

theorem AllCharactersItems.sorted : ∀ {items : List (JsonValue ν)}, AllCharactersItems P items →
    AllCharactersItems P (sortedItems items)
  | [], _ => trivial
  | _::_, h => ⟨h.1.sorted,AllCharactersItems.sorted h.2⟩

theorem AllCharactersMembers.sorted : ∀ {members : List (Text × JsonValue ν)},
    AllCharactersMembers P members → AllCharactersMembers P (sortedMembers members)
  | [], _ => trivial
  | (_,_)::_, h => ⟨h.1,h.2.1.sorted,AllCharactersMembers.sorted h.2.2⟩

end

end JsonValue

section Texts

variable {P : CodePoint → Prop} (hprintable : ∀ c : Char, IsPrintable c → P (.char c))

include hprintable

theorem all_of_printable {s : String} (h : s.toList.all (IsPrintable ·)) :
    ∀ c ∈ Text.of s, P c := by
  intro c hc
  obtain ⟨c,hmem,rfl⟩ := List.mem_map.mp hc
  exact hprintable c (by simpa using List.all_eq_true.mp h c hmem)

theorem digitChar_all (d : Digit) : P (digitChar d) := by
  have h : ∀ d : Digit, IsPrintable (Char.ofNat (48+d)) := by decide
  exact hprintable _ (h d)

theorem hexChar_all (n : Fin 16) : P (hexChar n) := by
  have h : ∀ n : Fin 16, IsPrintable (Char.ofNat (if n < 10 then 48+n else 87+n)) := by decide
  exact hprintable _ (h n)

/-- A control character is written as printable ones. -/
theorem escapeChar_all {c : CodePoint} (hc : 0x20 ≤ c.value → P c) :
    ∀ c' ∈ escapeChar c, P c' := by
  unfold escapeChar
  split
  · exact all_of_printable hprintable (by decide)
  split
  · exact all_of_printable hprintable (by decide)
  split
  · exact all_of_printable hprintable (by decide)
  split
  · exact all_of_printable hprintable (by decide)
  split
  · exact all_of_printable hprintable (by decide)
  split
  · exact all_of_printable hprintable (by decide)
  split
  · exact all_of_printable hprintable (by decide)
  split
  · intro c' hmem
    rcases List.mem_append.mp hmem with hmem | hmem
    · exact all_of_printable hprintable (by decide) c' hmem
    · rw [List.mem_cons,List.mem_singleton] at hmem
      rcases hmem with rfl | rfl <;> exact hexChar_all hprintable _
  · rename_i hlow
    exact List.forall_mem_singleton.mpr (hc (Nat.le_of_not_lt hlow))

theorem numberText_all (t : NumberToken) : ∀ c ∈ t.text, P c := by
  have hdigits : ∀ digits : List Digit, ∀ c ∈ digits.map digitChar, P c := by
    intro digits c hc
    obtain ⟨d,_,rfl⟩ := List.mem_map.mp hc
    exact digitChar_all hprintable d
  have hchar : ∀ c : Char, IsPrintable c → ∀ c' ∈ [CodePoint.char c], P c' := fun c hc =>
    List.forall_mem_singleton.mpr (hprintable c hc)
  unfold NumberToken.text
  simp only [List.forall_mem_append]
  refine ⟨⟨⟨?_,hdigits _⟩,?_⟩,?_⟩
  · split
    · exact hchar '-' (by decide)
    · nofun
  · split
    · nofun
    · exact List.forall_mem_cons.mpr ⟨hprintable '.' (by decide),hdigits _⟩
  · split
    · nofun
    · rename_i sign digits _
      rw [List.cons_append]
      refine List.forall_mem_cons.mpr ⟨hprintable 'e' (by decide),?_⟩
      refine List.forall_mem_append.mpr ⟨?_,hdigits digits⟩
      cases sign with
      | none => nofun
      | plus => exact hchar '+' (by decide)
      | minus => exact hchar '-' (by decide)

end Texts

section Dumps

variable {ν : Type} {P : CodePoint → Prop} {numberToken : ν → Token} {separators : Separators}

/-- The text of a token has characters of `P` alone. -/
def Token.AllCharacters (P : CodePoint → Prop) (separators : Separators) (t : Token) : Prop :=
  ∀ c ∈ t.text separators, P c

variable (hprintable : ∀ c : Char, IsPrintable c → P (.char c))
  (hitem : ∀ c ∈ separators.item, P c) (hkey : ∀ c ∈ separators.key, P c)

include hprintable hitem hkey

theorem token_all {t : Token} (hs : ∀ s, t = .string s → ∀ c ∈ s, 0x20 ≤ c.value → P c) :
    t.AllCharacters P separators := by
  have hchar : ∀ c : Char, IsPrintable c → ∀ c' ∈ [CodePoint.char c], P c' := fun c hc =>
    List.forall_mem_singleton.mpr (hprintable c hc)
  unfold Token.AllCharacters
  cases t with
  | lbrace => exact hchar '{' (by decide)
  | rbrace => exact hchar '}' (by decide)
  | lbracket => exact hchar '[' (by decide)
  | rbracket => exact hchar ']' (by decide)
  | colon => exact hkey
  | comma => exact hitem
  | null => exact all_of_printable hprintable (by decide)
  | bool b => cases b <;> exact all_of_printable hprintable (by decide)
  | constant c => cases c <;> exact all_of_printable hprintable (by decide)
  | number t => exact numberText_all hprintable t
  | string s =>
    rw [Token.text,List.cons_append]
    refine List.forall_mem_cons.mpr ⟨hprintable '"' (by decide),?_⟩
    refine List.forall_mem_append.mpr ⟨fun c hc => ?_,hchar '"' (by decide)⟩
    obtain ⟨c',hc',hmem⟩ := List.mem_flatMap.mp hc
    exact escapeChar_all hprintable (hs s rfl c' hc') c hmem
  | bad => nofun

mutual

theorem tokens_all (hn : ∀ n s, numberToken n ≠ .string s) :
    ∀ v : JsonValue ν, v.AllCharacters (fun c => 0x20 ≤ c.value → P c) →
    ∀ t ∈ v.tokens numberToken, t.AllCharacters P separators
  | .null, _ | .bool _, _ => List.forall_mem_singleton.mpr (token_all hprintable hitem hkey nofun)
  | .number n, _ => List.forall_mem_singleton.mpr
    (token_all hprintable hitem hkey fun s hs => absurd hs (hn n s))
  | .string s, h => List.forall_mem_singleton.mpr
    (token_all hprintable hitem hkey fun s' hs => by cases hs; exact h)
  | .array [], _ | .object [], _ => List.forall_mem_cons.mpr
    ⟨token_all hprintable hitem hkey nofun,
      List.forall_mem_singleton.mpr (token_all hprintable hitem hkey nofun)⟩
  | .array (v::items), h => List.forall_mem_cons.mpr ⟨token_all hprintable hitem hkey nofun,
      List.forall_mem_append.mpr ⟨tokens_all hn v h.1,moreItems_all hn items h.2⟩⟩
  | .object ((key,v)::members), h => List.forall_mem_cons.mpr
    ⟨token_all hprintable hitem hkey nofun,List.forall_mem_cons.mpr
      ⟨token_all hprintable hitem hkey fun s hs => by cases hs; exact h.1,
        List.forall_mem_cons.mpr ⟨token_all hprintable hitem hkey nofun,
          List.forall_mem_append.mpr ⟨tokens_all hn v h.2.1,moreMembers_all hn members h.2.2⟩⟩⟩⟩

theorem moreItems_all (hn : ∀ n s, numberToken n ≠ .string s) :
    ∀ items : List (JsonValue ν),
    JsonValue.AllCharactersItems (fun c => 0x20 ≤ c.value → P c) items →
    ∀ t ∈ JsonValue.moreItems numberToken items, t.AllCharacters P separators
  | [], _ => List.forall_mem_singleton.mpr (token_all hprintable hitem hkey nofun)
  | v::items, h => List.forall_mem_cons.mpr ⟨token_all hprintable hitem hkey nofun,
      List.forall_mem_append.mpr ⟨tokens_all hn v h.1,moreItems_all hn items h.2⟩⟩

theorem moreMembers_all (hn : ∀ n s, numberToken n ≠ .string s) :
    ∀ members : List (Text × JsonValue ν),
    JsonValue.AllCharactersMembers (fun c => 0x20 ≤ c.value → P c) members →
    ∀ t ∈ JsonValue.moreMembers numberToken members, t.AllCharacters P separators
  | [], _ => List.forall_mem_singleton.mpr (token_all hprintable hitem hkey nofun)
  | (key,v)::members, h => List.forall_mem_cons.mpr
    ⟨token_all hprintable hitem hkey nofun,List.forall_mem_cons.mpr
      ⟨token_all hprintable hitem hkey fun s hs => by cases hs; exact h.1,
        List.forall_mem_cons.mpr ⟨token_all hprintable hitem hkey nofun,
          List.forall_mem_append.mpr ⟨tokens_all hn v h.2.1,moreMembers_all hn members h.2.2⟩⟩⟩⟩

end

/-- A JSON text has printable characters and those of its strings that are no control characters. -/
theorem dumps_all (hn : ∀ n s, numberToken n ≠ .string s) {v : JsonValue ν}
    (h : v.AllCharacters fun c => 0x20 ≤ c.value → P c) :
    ∀ c ∈ dumps numberToken separators v, P c := by
  intro c hc
  obtain ⟨t,ht,hmem⟩ := List.mem_flatMap.mp hc
  exact tokens_all hprintable hitem hkey hn v.sorted h.sorted t ht c hmem

end Dumps
end VermayAgent.Library
