import Mathlib.Data.Option.Basic

/-! Slots that are filled, emptied and filled again.
A slot shows only its present value. Numbering the values that were put into it tells a value
from a later one in its place: as long as the number has not moved, the slot holds the value
that was seen or nothing. -/
namespace VermayAgent.Library

universe u

variable {α : Type u}

/-- The number of the slot's last value: a value that was not there before gets the next one. -/
def renumber [DecidableEq α] (before after : Option α) (n : Nat) : Nat :=
  if after.isSome ∧ after ≠ before then n+1 else n

theorem renumber_cases [DecidableEq α] (before after : Option α) (n : Nat) :
    renumber before after n = n+1 ∨
      renumber before after n = n ∧ (after = none ∨ after = before) := by
  unfold renumber
  split
  · exact .inl rfl
  · rename_i hkeep
    rw [not_and_or,Option.not_isSome_iff_eq_none,not_not] at hkeep
    exact .inr ⟨rfl,hkeep⟩

@[simp] theorem renumber_none [DecidableEq α] (before : Option α) (n : Nat) :
    renumber before none n = n := by simp [renumber]

/-- A slot numbered `n` that shows `now`, some time after it was numbered `m` and showed `seen`. -/
structure Slot.Since (m : Nat) (seen : Option α) (n : Nat) (now : Option α) : Prop where
  le : m ≤ n
  same : n = m → now = none ∨ now = seen

namespace Slot.Since

variable {m n : Nat} {seen now : Option α}

theorem refl (n : Nat) (now : Option α) : Since n now n now := ⟨Nat.le_refl n,fun _ => .inr rfl⟩

theorem next [DecidableEq α] (h : Since m seen n now) (after : Option α) :
    Since m seen (renumber now after n) after := by
  have hle := h.le
  rcases renumber_cases now after n with hnew | ⟨hsame,hafter⟩
  · exact ⟨by omega,fun heq => by omega⟩
  · refine ⟨by omega,fun heq => ?_⟩
    rcases hafter with hnone | hkeep
    · exact .inl hnone
    · rw [hkeep]
      exact h.same (by omega)

/-- A slot that was empty shows a value only under a later number. -/
theorem lt_of_some {v : α} (h : Since m none n (some v)) : m < n := by
  refine Nat.lt_of_le_of_ne h.le fun heq => ?_
  rcases h.same heq.symm with hn | hn <;> cases hn

/-- Under the same number, a value is the one that was seen. -/
theorem eq_of_some {v : α} (h : Since m seen m (some v)) : seen = some v := by
  rcases h.same rfl with hn | hn
  · cases hn
  · exact hn.symm

end Slot.Since
end VermayAgent.Library
