import Mathlib

/-! Texts of fields that a delimiter joins.
Splitting the text at the delimiter finds the fields again; a field that may hold the delimiter
itself is found too, where it is known how many fields stand before it and after it. -/
namespace VermayAgent.Library

universe u

variable {α : Type u} [DecidableEq α] {x : α} {as bs cs ds fields : List (List α)} {m n : List α}

/-- The parts of a joined text are those of its fields. -/
theorem splitOn_joined (h : fields ≠ []) :
    ([x].intercalate fields).splitOn x = fields.flatMap (List.splitOn x) := by
  induction fields with
  | nil => exact absurd rfl h
  | cons a fields ih =>
    cases fields with
    | nil => simp
    | cons b fields =>
      rw [List.intercalate_cons_cons,List.append_assoc,List.singleton_append,
        List.splitOn_append_cons_self,ih (List.cons_ne_nil b fields)]
      rfl

theorem flatMap_splitOn (h : ∀ l ∈ fields, x ∉ l) : fields.flatMap (List.splitOn x) = fields := by
  induction fields with
  | nil => rfl
  | cons a fields ih =>
    rw [List.flatMap_cons,List.splitOn_eq_singleton (h a List.mem_cons_self),
      ih fun l hl => h l (List.mem_cons_of_mem a hl)]
    rfl

/-- With one free field the parts are the fields before it, its own parts, the fields after it. -/
theorem splitOn_free_field (has : ∀ l ∈ as, x ∉ l) (hbs : ∀ l ∈ bs, x ∉ l) :
    ([x].intercalate (as ++ m::bs)).splitOn x = as ++ (m.splitOn x ++ bs) := by
  rw [splitOn_joined (by simp),List.flatMap_append,List.flatMap_cons,flatMap_splitOn has,
    flatMap_splitOn hbs]

/-- A joined text tells its fields, one of them free. -/
theorem joined_inj (has : ∀ l ∈ as, x ∉ l) (hbs : ∀ l ∈ bs, x ∉ l) (hcs : ∀ l ∈ cs, x ∉ l)
    (hds : ∀ l ∈ ds, x ∉ l) (hbefore : as.length = cs.length) (hafter : bs.length = ds.length)
    (h : [x].intercalate (as ++ m::bs) = [x].intercalate (cs ++ n::ds)) :
    as = cs ∧ m = n ∧ bs = ds := by
  have hparts := congrArg (List.splitOn x) h
  rw [splitOn_free_field has hbs,splitOn_free_field hcs hds] at hparts
  obtain ⟨hac,hrest⟩ := List.append_inj hparts hbefore
  obtain ⟨hmn,hbd⟩ := List.append_inj' hrest hafter
  have hjoined := congrArg [x].intercalate hmn
  rw [List.intercalate_splitOn,List.intercalate_splitOn] at hjoined
  exact ⟨hac,hjoined,hbd⟩

end VermayAgent.Library
