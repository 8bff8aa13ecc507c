import Mathlib
import VermayAgent.Library.Delimited
import VermayAgent.Library.JsonText
import VermayAgent.Library.Utf8

/-! Texts as parts of a query: `urllib.parse`.
What `quote_plus` and `urlencode` write, `unquote` and `parse_qsl` read back. -/
namespace VermayAgent.Library

section FirstDelimiter

universe u

variable {α : Type u} [DecidableEq α] {x : α} {a b : List α}

/-- The text in front of the first delimiter, and what follows it if there is one. -/
def splitFirst (x : α) : List α → List α × Option (List α)
  | [] => ([],none)
  | c::text => if c = x then ([],some text) else (c::(splitFirst x text).1,(splitFirst x text).2)

theorem splitFirst_free (h : x ∉ a) : splitFirst x a = (a,none) := by
  induction a with
  | nil => rfl
  | cons c a ih =>
    rw [List.mem_cons,not_or] at h
    rw [splitFirst,if_neg (Ne.symm h.1),ih h.2]

theorem splitFirst_append (h : x ∉ a) (b : List α) : splitFirst x (a ++ x::b) = (a,some b) := by
  induction a with
  | nil => simp [splitFirst]
  | cons c a ih =>
    rw [List.mem_cons,not_or] at h
    rw [List.cons_append,splitFirst,if_neg (Ne.symm h.1),ih h.2]

theorem splitFirst_fst_free (x : α) (a : List α) : x ∉ (splitFirst x a).1 := by
  induction a with
  | nil => exact List.not_mem_nil
  | cons c a ih =>
    rw [splitFirst]
    by_cases hc : c = x
    · rw [if_pos hc]
      exact List.not_mem_nil
    · rw [if_neg hc,List.mem_cons,not_or]
      exact ⟨Ne.symm hc,ih⟩

theorem splitFirst_some {front back : List α} (h : splitFirst x a = (front,some back)) :
    a = front ++ x::back := by
  induction a generalizing front with
  | nil => cases h
  | cons c a ih =>
    rw [splitFirst] at h
    by_cases hc : c = x
    · rw [if_pos hc] at h
      cases h
      rw [hc,List.nil_append]
    · rw [if_neg hc,Prod.mk.injEq] at h
      rw [← h.1,List.cons_append,← ih (Prod.ext rfl h.2)]

/-- A text that holds the delimiter is split at it. -/
theorem exists_splitFirst (h : x ∈ a) : ∃ front back, a = front ++ x::back ∧ x ∉ front := by
  induction a with
  | nil => cases h
  | cons c a ih =>
    by_cases hc : c = x
    · exact ⟨[],a,by rw [hc]; rfl,List.not_mem_nil⟩
    · obtain ⟨front,back,rfl,hfront⟩ := ih ((List.mem_cons.mp h).resolve_left (Ne.symm hc))
      refine ⟨c::front,back,rfl,?_⟩
      rw [List.mem_cons,not_or]
      exact ⟨Ne.symm hc,hfront⟩

end FirstDelimiter

section Entries

variable {κ ν : Type} [DecidableEq κ] {entries : List (κ × ν)}

/-- `entries[key] = value`: in the place of the entry of the key, or as the last one. -/
def setEntry (key : κ) (value : ν) : List (κ × ν) → List (κ × ν)
  | [] => [(key,value)]
  | e::entries => if e.1 = key then (key,value)::entries else e::setEntry key value entries

theorem setEntry_fresh {key : κ} (h : key ∉ entries.map Prod.fst) (value : ν) :
    setEntry key value entries = entries ++ [(key,value)] := by
  induction entries with
  | nil => rfl
  | cons e entries ih =>
    rw [List.map_cons,List.mem_cons,not_or] at h
    rw [setEntry,if_neg (Ne.symm h.1),ih h.2]
    rfl

theorem keys_setEntry (key : κ) (value : ν) (entries : List (κ × ν)) :
    (setEntry key value entries).map Prod.fst =
      if key ∈ entries.map Prod.fst then entries.map Prod.fst
      else entries.map Prod.fst ++ [key] := by
  induction entries with
  | nil => rfl
  | cons e entries ih =>
    by_cases h : e.1 = key
    · rw [setEntry,if_pos h]
      simp [h]
    · rw [setEntry,if_neg h,List.map_cons,ih]
      by_cases hmem : key ∈ entries.map Prod.fst
      · rw [if_pos hmem,if_pos (by rw [List.map_cons]; exact List.mem_cons_of_mem _ hmem)]
        rfl
      · rw [if_neg hmem,if_neg (by rw [List.map_cons,List.mem_cons,not_or]; exact ⟨Ne.symm h,hmem⟩)]
        rfl

theorem nodup_setEntry (h : (entries.map Prod.fst).Nodup) (key : κ) (value : ν) :
    ((setEntry key value entries).map Prod.fst).Nodup := by
  rw [keys_setEntry]
  split
  · exact h
  · next hfresh =>
    rw [List.nodup_append]
    refine ⟨h,List.nodup_singleton key,fun a ha b hb => ?_⟩
    rw [List.mem_singleton.mp hb]
    rintro rfl
    exact hfresh ha

end Entries

section Quoting

/-- The bytes that stand for themselves. -/
def unreserved (n : ℕ) : Bool :=
  (0x41 ≤ n && n ≤ 0x5A) || (0x61 ≤ n && n ≤ 0x7A) || (0x30 ≤ n && n ≤ 0x39) ||
    n ∈ [0x5F,0x2E,0x2D,0x7E]

def upperHex (n : ℕ) : CodePoint := .ofNat (if n < 10 then 0x30+n else 0x37+n)

def quoteByte (n : ℕ) : Text :=
  if n = 0x20 then [.char '+']
  else if unreserved n then [.ofNat n]
  else [.char '%',upperHex (n/16),upperHex (n%16)]

/-- `quote_plus`; half of a surrogate pair has no bytes. -/
def quotePlus (text : Text) : Option Text :=
  text.encode?.map fun bytes => bytes.flatMap fun b => quoteByte b.toNat

def isAscii (c : CodePoint) : Bool := c.value < 0x80

def pointHex? : CodePoint → Option ℕ
  | .char c => hexDigit? c
  | .surrogate _ => none

def pointByte (c : CodePoint) : UInt8 := UInt8.ofNat c.value

/-- `unquote_to_bytes`. -/
def percentBytes : Text → List UInt8
  | [] => []
  | c::a::b::rest =>
    if c = .char '%' then
      match pointHex? a,pointHex? b with
      | some x,some y => UInt8.ofNat (16*x+y)::percentBytes rest
      | _,_ => pointByte c::percentBytes (a::b::rest)
    else pointByte c::percentBytes (a::b::rest)
  | c::rest => pointByte c::percentBytes rest

/-- The text of bytes, with a mark for those that are none. -/
def decodeReplace (bytes : List UInt8) : Text :=
  let read := Utf8State.start.decode bytes
  read.1 ++ read.2.finish

/-- `unquote`: what is not ASCII stands for itself. -/
def unquote (text : Text) : Text :=
  (text.splitBy fun a b => isAscii a == isAscii b).flatMap fun run =>
    if run.all isAscii then decodeReplace (percentBytes run) else run

def plusToSpace (c : CodePoint) : CodePoint := if c = .char '+' then .char ' ' else c

/-- The reading of a name or a value of a query. -/
def unquotePlus (text : Text) : Text := unquote (text.map plusToSpace)

/-- The characters that `quote_plus` writes. -/
def quotedPoints : Text :=
  Text.of "ABCDEFGHIJKLMNOPQRSTUVWXYZabcdefghijklmnopqrstuvwxyz0123456789_.-~+%"

theorem quoteByte_points : ∀ n < 256, ∀ c ∈ quoteByte n, c ∈ quotedPoints := by decide +kernel

theorem percentBytes_cons {c : CodePoint} (h : c ≠ .char '%') (rest : Text) :
    percentBytes (c::rest) = pointByte c::percentBytes rest := by
  cases rest with
  | nil => rfl
  | cons a rest =>
    cases rest with
    | nil => rfl
    | cons b rest => rw [percentBytes,if_neg h]

/-- A byte is read back, with a blank for the plus sign that stands for one. -/
theorem percentBytes_quoteByte {n : ℕ} (hn : n < 256) (rest : Text) :
    percentBytes ((quoteByte n).map plusToSpace ++ rest) = UInt8.ofNat n::percentBytes rest := by
  by_cases hspace : n = 0x20
  · subst hspace
    exact percentBytes_cons (by decide) rest
  by_cases hsafe : unreserved n = true
  · have hpoint : ∀ n < 256, unreserved n = true → plusToSpace (.ofNat n) ≠ .char '%' ∧
        pointByte (plusToSpace (.ofNat n)) = UInt8.ofNat n := by decide +kernel
    obtain ⟨hne,hbyte⟩ := hpoint n hn hsafe
    rw [quoteByte,if_neg hspace,if_pos hsafe,List.map_singleton,List.singleton_append,
      percentBytes_cons hne,hbyte]
  · have hhex : ∀ m < 16, pointHex? (plusToSpace (upperHex m)) = some m := by decide +kernel
    have hsum : 16*(n/16)+n%16 = n := Nat.div_add_mod n 16
    rw [quoteByte,if_neg hspace,if_neg hsafe]
    simp only [List.map_cons,List.map_nil,List.cons_append,List.nil_append]
    rw [percentBytes,if_pos (by decide),hhex _ (by omega),hhex _ (by omega)]
    simp only [hsum]

theorem percentBytes_quoted (bytes : List UInt8) :
    percentBytes ((bytes.flatMap fun b => quoteByte b.toNat).map plusToSpace) = bytes := by
  induction bytes with
  | nil => rfl
  | cons b bytes ih =>
    rw [List.flatMap_cons,List.map_append,percentBytes_quoteByte b.toNat_lt,ih]
    simp

theorem decodeReplace_utf8 (s : List Char) : decodeReplace (utf8 s) = s.map .char := by
  simp [decodeReplace,Utf8State.decode_utf8,Utf8State.finish]

/-- On ASCII, what is read are the bytes that the text stands for. -/
theorem unquote_ascii {text : Text} (h : text.all isAscii = true) :
    unquote text = decodeReplace (percentBytes text) := by
  cases text with
  | nil => rfl
  | cons c text =>
    have hchain : (c::text).IsChain fun a b => (isAscii a == isAscii b) = true := by
      refine List.Pairwise.isChain (List.pairwise_of_forall_mem_list fun a ha b hb => ?_)
      rw [List.all_eq_true.mp h a ha,List.all_eq_true.mp h b hb]
      rfl
    rw [unquote,List.splitBy_of_isChain (List.cons_ne_nil c text) hchain,List.flatMap_singleton,
      if_pos h]

theorem mem_quotePlus {text quoted : Text} (h : quotePlus text = some quoted) {c : CodePoint}
    (hc : c ∈ quoted) : c ∈ quotedPoints := by
  obtain ⟨bytes,_,rfl⟩ := Option.map_eq_some_iff.mp h
  obtain ⟨b,_,hmem⟩ := List.mem_flatMap.mp hc
  exact quoteByte_points b.toNat b.toNat_lt c hmem

theorem quotePlus_isSome_iff {text : Text} :
    (quotePlus text).isSome = true ↔ ∀ c ∈ text, ∃ char, c = .char char := by
  have hchars : text.chars?.isSome = true ↔ ∀ c ∈ text, ∃ char, c = .char char := by
    induction text with
    | nil => simp [Text.chars?]
    | cons c text ih =>
      cases c with
      | char c => simpa [Text.chars?] using ih
      | surrogate n => simp [Text.chars?]
  simpa [quotePlus,Text.encode?] using hchars

/-- What is quoted is read back. -/
theorem unquotePlus_quotePlus {text quoted : Text} (h : quotePlus text = some quoted) :
    unquotePlus quoted = text := by
  obtain ⟨bytes,hbytes,rfl⟩ := Option.map_eq_some_iff.mp h
  obtain ⟨chars,hchars,rfl⟩ := Option.map_eq_some_iff.mp hbytes
  have htext : text = chars.map .char := by
    have hall := quotePlus_isSome_iff.mp (h ▸ rfl : (quotePlus text).isSome = true)
    obtain ⟨s,hs,heq⟩ := Text.chars?_of hall
    cases hs.symm.trans hchars
    exact heq
  have hascii : ((((utf8 chars).flatMap fun b => quoteByte b.toNat)).map plusToSpace).all isAscii =
      true := by
    have hpoints : ∀ c ∈ quotedPoints, isAscii (plusToSpace c) = true := by decide +kernel
    rw [List.all_eq_true]
    intro c hc
    obtain ⟨c',hc',rfl⟩ := List.mem_map.mp hc
    exact hpoints c' (mem_quotePlus h hc')
  rw [unquotePlus,unquote_ascii hascii,percentBytes_quoted,decodeReplace_utf8,htext]

end Quoting

section Queries

/-- A name and its value in a query. -/
def quoteEntry (e : Text × Text) : Option Text :=
  (quotePlus e.1).bind fun name => (quotePlus e.2).map fun value => name ++ .char '='::value

def quoteEntries : List (Text × Text) → Option (List Text)
  | [] => some []
  | e::entries => (quoteEntry e).bind fun part => (quoteEntries entries).map (part::·)

/-- `urlencode`. -/
def urlencode (entries : List (Text × Text)) : Option Text :=
  (quoteEntries entries).map [.char '&'].intercalate

def readEntry (part : Text) : Text × Text :=
  let parts := splitFirst (.char '=') part
  (unquotePlus parts.1,unquotePlus (parts.2.getD []))

/-- `parse_qsl` with blank values kept. -/
def parseQsl (query : Text) : List (Text × Text) :=
  ((query.splitOn (.char '&')).filter fun part => !part.isEmpty).map readEntry

variable {e : Text × Text} {part query : Text} {entries : List (Text × Text)} {parts : List Text}

theorem quoteEntry_some (h : quoteEntry e = some part) :
    readEntry part = e ∧ part ≠ [] ∧ ∀ c ∈ part, c ∈ .char '='::quotedPoints := by
  obtain ⟨name,hname,h⟩ := Option.bind_eq_some_iff.mp h
  obtain ⟨value,hvalue,rfl⟩ := Option.map_eq_some_iff.mp h
  have hfree : CodePoint.char '=' ∉ name := by
    intro hmem
    exact absurd (mem_quotePlus hname hmem) (by decide +kernel)
  refine ⟨?_,by simp,?_⟩
  · rw [readEntry,splitFirst_append hfree,unquotePlus_quotePlus hname]
    exact congrArg (e.1,·) (unquotePlus_quotePlus hvalue)
  · intro c hc
    rcases List.mem_append.mp hc with hc | hc
    · exact List.mem_cons_of_mem _ (mem_quotePlus hname hc)
    · rcases List.mem_cons.mp hc with rfl | hc
      · exact List.mem_cons_self
      · exact List.mem_cons_of_mem _ (mem_quotePlus hvalue hc)

theorem quoteEntries_some (h : quoteEntries entries = some parts) :
    parts.map readEntry = entries ∧
      ∀ part ∈ parts, part ≠ [] ∧ ∀ c ∈ part, c ∈ .char '='::quotedPoints := by
  induction entries generalizing parts with
  | nil =>
    cases h
    exact ⟨rfl,fun part hpart => absurd hpart List.not_mem_nil⟩
  | cons e entries ih =>
    obtain ⟨part,hpart,h⟩ := Option.bind_eq_some_iff.mp h
    obtain ⟨rest,hrest,rfl⟩ := Option.map_eq_some_iff.mp h
    obtain ⟨hread,hne,hpoints⟩ := quoteEntry_some hpart
    obtain ⟨hreads,hall⟩ := ih hrest
    refine ⟨by rw [List.map_cons,hread,hreads],?_⟩
    rw [List.forall_mem_cons]
    exact ⟨⟨hne,hpoints⟩,hall⟩

theorem mem_urlencode (h : urlencode entries = some query) {c : CodePoint} (hc : c ∈ query) :
    c ∈ .char '&'::.char '='::quotedPoints := by
  obtain ⟨parts,hparts,rfl⟩ := Option.map_eq_some_iff.mp h
  have hall := (quoteEntries_some hparts).2
  clear h hparts
  induction parts with
  | nil => cases hc
  | cons part parts ih =>
    rw [List.forall_mem_cons] at hall
    cases parts with
    | nil =>
      rw [List.intercalate_singleton] at hc
      exact List.mem_cons_of_mem _ (hall.1.2 c hc)
    | cons part' parts =>
      rw [List.intercalate_cons_cons,List.mem_append,List.mem_append,List.mem_singleton] at hc
      rcases hc with (hc | rfl) | hc
      · exact List.mem_cons_of_mem _ (hall.1.2 c hc)
      · exact List.mem_cons_self
      · exact ih hc hall.2

/-- Entries that are written as a query are read from it. -/
theorem parseQsl_urlencode (h : urlencode entries = some query) : parseQsl query = entries := by
  obtain ⟨parts,hparts,rfl⟩ := Option.map_eq_some_iff.mp h
  obtain ⟨hread,hall⟩ := quoteEntries_some hparts
  by_cases hne : parts = []
  · subst hne
    exact hread
  · have hfree : ∀ part ∈ parts, CodePoint.char '&' ∉ part := fun part hpart hmem =>
      absurd ((hall part hpart).2 _ hmem) (by decide +kernel)
    have hkept : ∀ part ∈ parts, (!part.isEmpty) = true := by
      intro part hpart
      simpa using (hall part hpart).1
    rw [parseQsl,splitOn_joined hne,flatMap_splitOn hfree,List.filter_eq_self.mpr hkept,hread]

/-- A query can be written unless there is half of a surrogate pair in it. -/
theorem urlencode_isSome_iff : (urlencode entries).isSome = true ↔
    ∀ e ∈ entries, (∀ c ∈ e.1, ∃ char, c = .char char) ∧ ∀ c ∈ e.2, ∃ char, c = .char char := by
  rw [urlencode,Option.isSome_map]
  induction entries with
  | nil => simp [quoteEntries]
  | cons e entries ih =>
    rw [List.forall_mem_cons,← ih,← quotePlus_isSome_iff,← quotePlus_isSome_iff,quoteEntries,
      quoteEntry]
    cases quotePlus e.1 <;> cases quotePlus e.2 <;> cases quoteEntries entries <;> simp

end Queries

end VermayAgent.Library
