import Mathlib.Data.List.Basic

/-! Text that comes in pieces and is split at pairs of separators.
What is split off a piece stays split off; the rest of it is split again with what follows. -/
namespace VermayAgent.Library

variable {α : Type} {sep : α}

/-- No separator is followed by another or ends the text. -/
def Unbroken (sep : α) : List α → Prop
  | [] => True
  | c::text => (c = sep → ∃ d rest, text = d::rest ∧ d ≠ sep) ∧ Unbroken sep text

/-- A line in front of one that is not empty. -/
theorem unbroken_lines {line text : List α} (hline : sep ∉ line)
    (htext : Unbroken sep text) (hhead : ∃ d rest, text = d::rest ∧ d ≠ sep) :
    Unbroken sep (line++sep::text) := by
  have hall : ∀ line : List α, sep ∉ line → Unbroken sep (line++sep::text) := by
    intro line hline
    induction line with
    | nil => exact ⟨fun _ => hhead,htext⟩
    | cons c line ih =>
      rw [List.mem_cons,not_or] at hline
      exact ⟨fun hc => absurd hc.symm hline.1,ih hline.2⟩
  exact hall line hline

theorem unbroken_line {line : List α} (hline : sep ∉ line) : Unbroken sep line := by
  induction line with
  | nil => trivial
  | cons c line ih =>
    rw [List.mem_cons,not_or] at hline
    exact ⟨fun hc => absurd hc.symm hline.1,ih hline.2⟩

section Split

variable [DecidableEq α]

/-- Another character in front of the first part. -/
def prependFirst (c : α) : List (List α) → List (List α)
  | [] => [[c]]
  | part::parts => (c::part)::parts

/-- The parts between two separators that follow each other, from the left. -/
def splitPairs (sep : α) : List α → List (List α)
  | [] => [[]]
  | [c] => [[c]]
  | c::d::rest =>
    if c = sep ∧ d = sep then []::splitPairs sep rest
    else prependFirst c (splitPairs sep (d::rest))

theorem splitPairs_ne_nil (text : List α) : splitPairs sep text ≠ [] := by
  cases text with
  | nil => nofun
  | cons c text =>
    cases text with
    | nil => nofun
    | cons d rest =>
      rw [splitPairs]
      split
      · nofun
      · cases splitPairs sep (d::rest) <;> nofun

/-- One part is the whole text. -/
theorem eq_of_splitPairs {text part : List α} (h : splitPairs sep text = [part]) :
    text = part := by
  induction text using splitPairs.induct sep generalizing part with
  | case1 =>
    cases h
    rfl
  | case2 c =>
    cases h
    rfl
  | case3 c d rest hsep =>
    rw [splitPairs,if_pos hsep] at h
    exact absurd (List.cons.inj h).2 (splitPairs_ne_nil rest)
  | case4 c d rest hsep ih =>
    rw [splitPairs,if_neg hsep] at h
    cases hparts : splitPairs sep (d::rest) with
    | nil => exact absurd hparts (splitPairs_ne_nil _)
    | cons first parts =>
      rw [hparts] at h
      cases h
      rw [ih hparts]

/-- The last part of a text is split again with what follows. -/
theorem splitPairs_append {text : List α} {parts : List (List α)} {last : List α}
    (h : splitPairs sep text = parts++[last]) (more : List α) :
    splitPairs sep (text++more) = parts++splitPairs sep (last++more) := by
  induction text using splitPairs.induct sep generalizing parts with
  | case1 | case2 =>
    cases parts with
    | nil =>
      cases h
      rfl
    | cons part parts => simp [splitPairs] at h
  | case3 c d rest hsep ih =>
    rw [splitPairs,if_pos hsep] at h
    cases parts with
    | nil => exact absurd (List.cons.inj h).2 (splitPairs_ne_nil rest)
    | cons part parts =>
      obtain ⟨rfl,hrest⟩ := List.cons.inj h
      rw [List.cons_append,List.cons_append,splitPairs,if_pos hsep,ih hrest,List.cons_append]
  | case4 c d rest hsep ih =>
    cases parts with
    | nil => rw [eq_of_splitPairs h,List.nil_append]
    | cons part parts =>
      rw [splitPairs,if_neg hsep] at h
      cases hparts : splitPairs sep (d::rest) with
      | nil => exact absurd hparts (splitPairs_ne_nil _)
      | cons first others =>
        rw [hparts] at h
        obtain ⟨rfl,hothers⟩ := List.cons.inj h
        have hrest := @ih (first::parts) (hparts.trans (congrArg (first::·) hothers))
        rw [List.cons_append,List.cons_append,splitPairs,if_neg hsep]
        exact congrArg (prependFirst c) hrest

/-- The last part of a text has no pair in it. -/
theorem splitPairs_last {text : List α} {parts : List (List α)} {last : List α}
    (h : splitPairs sep text = parts++[last]) : splitPairs sep last = [last] := by
  have happend := splitPairs_append h []
  rw [List.append_nil,List.append_nil,h] at happend
  exact (List.append_cancel_left happend).symm

/-- A text without a pair in it is split off before one. -/
theorem splitPairs_block {block : List α} (h : Unbroken sep block) (rest : List α) :
    splitPairs sep (block++sep::sep::rest) = block::splitPairs sep rest := by
  induction block with
  | nil => rw [List.nil_append,splitPairs,if_pos ⟨rfl,rfl⟩]
  | cons c block ih =>
    have hrest := ih h.2
    have hstep : ∀ d tail, block++sep::sep::rest = d::tail → ¬(c = sep ∧ d = sep) := by
      rintro d tail heq ⟨hc,hd⟩
      obtain ⟨d',tail',rfl,hne⟩ := h.1 hc
      exact hne ((List.cons.inj heq).1.trans hd)
    cases htail : block++sep::sep::rest with
    | nil => simp at htail
    | cons d tail =>
      rw [htail] at hrest
      rw [List.cons_append,htail,splitPairs,if_neg (hstep d tail htail),hrest]
      rfl

end Split
end VermayAgent.Library
