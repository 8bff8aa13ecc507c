import Mathlib.Order.Defs.Unbundled
import Mathlib.Data.List.Basic
import Mathlib.Data.Int.Basic

/-! Sorting by a comparison that returns a number, as a program passes it to a sort.
What a sort returns is determined only where the comparison is consistent on the list, so that a
sorting algorithm is any function that permutes, and sorts in that case. -/
namespace VermayAgent.Library

variable {α : Type}

/-- The comparison is a strict weak order on the members of the list. -/
structure Consistent (compare : α → α → ℤ) (l : List α) : Prop where
  antisymm : ∀ a b, compare b a = -compare a b
  order : IsStrictWeakOrder {a // a ∈ l} fun a b => compare a b < 0

/-- No member compares before one that stands to its left. -/
def SortedBy (compare : α → α → ℤ) (l : List α) : Prop := l.Pairwise fun a b => ¬ compare b a < 0

namespace Consistent

variable {compare : α → α → ℤ} {l : List α} {a b c : α}

theorem trans (h : Consistent compare l) (ha : a ∈ l) (hb : b ∈ l) (hc : c ∈ l)
    (hab : compare a b < 0) (hbc : compare b c < 0) : compare a c < 0 :=
  h.order.trans ⟨a,ha⟩ ⟨b,hb⟩ ⟨c,hc⟩ hab hbc

theorem not_lt_trans (h : Consistent compare l) (ha : a ∈ l) (hb : b ∈ l) (hc : c ∈ l)
    (hab : ¬ compare b a < 0) (hbc : ¬ compare c b < 0) : ¬ compare c a < 0 := by
  intro hca
  have hantisymm := h.antisymm
  by_cases hac : compare a b < 0
  · exact hbc (h.trans hc ha hb hca hac)
  · by_cases hcb : compare b c < 0
    · exact hab (h.trans hb hc ha hcb hca)
    · exact (h.order.incomp_trans ⟨a,ha⟩ ⟨b,hb⟩ ⟨c,hc⟩ ⟨hac,hab⟩ ⟨hcb,hbc⟩).2 hca

theorem perm {l' : List α} (h : Consistent compare l) (hl : ∀ a ∈ l', a ∈ l) :
    Consistent compare l' where
  antisymm := h.antisymm
  order :=
    { irrefl := fun a => h.order.irrefl ⟨a.1,hl _ a.2⟩
      trans := fun a b c => h.order.trans ⟨a.1,hl _ a.2⟩ ⟨b.1,hl _ b.2⟩ ⟨c.1,hl _ c.2⟩
      incomp_trans := fun a b c =>
        h.order.incomp_trans ⟨a.1,hl _ a.2⟩ ⟨b.1,hl _ b.2⟩ ⟨c.1,hl _ c.2⟩ }

/-- A comparison that is transitive and ties no two different members is consistent. -/
theorem of_strict (hantisymm : ∀ a b, compare b a = -compare a b)
    (htie : ∀ a ∈ l, ∀ b ∈ l, compare a b = 0 → a = b)
    (htrans : ∀ a ∈ l, ∀ b ∈ l, ∀ c ∈ l, compare a b < 0 → compare b c < 0 → compare a c < 0) :
    Consistent compare l where
  antisymm := hantisymm
  order :=
    { irrefl := fun a h => by
        have := hantisymm a.1 a.1
        omega
      trans := fun a b c => htrans _ a.2 _ b.2 _ c.2
      incomp_trans := by
        rintro ⟨a,ha⟩ ⟨b,hb⟩ ⟨c,hc⟩ hab hbc
        have hab : ¬ compare a b < 0 ∧ ¬ compare b a < 0 := hab
        have hbc : ¬ compare b c < 0 ∧ ¬ compare c b < 0 := hbc
        have h₁ := hantisymm a b
        have h₂ := hantisymm b c
        have hab : a = b := htie a ha b hb (by omega)
        have hbc : b = c := htie b hb c hc (by omega)
        subst hab hbc
        exact hab }

end Consistent

/-- Two sorted permutations of one list agree where no two different members tie. -/
theorem sortedBy_unique {compare : α → α → ℤ} {l l₁ l₂ : List α}
    (hantisymm : ∀ a b, compare b a = -compare a b)
    (htie : ∀ a ∈ l, ∀ b ∈ l, compare a b = 0 → a = b) (h₁ : SortedBy compare l₁)
    (h₂ : SortedBy compare l₂) (hp₁ : l₁.Perm l) (hp₂ : l₂.Perm l) : l₁ = l₂ := by
  refine List.Perm.eq_of_pairwise ?_ h₁ h₂ (hp₁.trans hp₂.symm)
  intro a b ha hb hab hba
  have := hantisymm a b
  exact htie a (hp₁.subset ha) b (hp₂.subset hb) (by omega)

/-- What every sort of a list does, whichever way it works. -/
structure SortAlgorithm (α : Type) where
  sort : (α → α → ℤ) → List α → List α
  perm : ∀ compare l, (sort compare l).Perm l
  sorted : ∀ compare l, Consistent compare l → SortedBy compare (sort compare l)

section Insertion

variable (compare : α → α → ℤ)

def insertBy (a : α) : List α → List α
  | [] => [a]
  | b::l => if compare b a < 0 then b::insertBy a l else a::b::l

def insertionSort : List α → List α
  | [] => []
  | a::l => insertBy compare a (insertionSort l)

variable {compare}

theorem insertBy_perm (a : α) (l : List α) : (insertBy compare a l).Perm (a::l) := by
  induction l with
  | nil => exact List.Perm.refl _
  | cons b l ih =>
    simp only [insertBy]
    split
    · exact (ih.cons b).trans (List.Perm.swap a b l)
    · exact List.Perm.refl _

theorem insertionSort_perm (l : List α) : (insertionSort compare l).Perm l := by
  induction l with
  | nil => exact List.Perm.refl _
  | cons a l ih => exact (insertBy_perm a _).trans (ih.cons a)

theorem sortedBy_insertBy {a : α} {l : List α} (h : Consistent compare (a::l))
    (hl : SortedBy compare l) : SortedBy compare (insertBy compare a l) := by
  induction l with
  | nil => simp [insertBy,SortedBy]
  | cons b l ih =>
    have hb := List.pairwise_cons.mp hl
    simp only [insertBy]
    split
    · rename_i hba
      have hantisymm := h.antisymm b a
      have hsub : ∀ c ∈ a::l, c ∈ a::b::l := by
        intro c hc
        rcases List.mem_cons.mp hc with rfl | hc
        · exact List.mem_cons_self
        · exact List.mem_cons_of_mem _ (List.mem_cons_of_mem _ hc)
      refine List.pairwise_cons.mpr ⟨?_,ih (h.perm hsub) hb.2⟩
      intro c hc
      rcases List.mem_cons.mp ((insertBy_perm a l).subset hc) with rfl | hc
      · omega
      · exact hb.1 c hc
    · rename_i hba
      refine List.pairwise_cons.mpr ⟨?_,hl⟩
      intro c hc
      rcases List.mem_cons.mp hc with rfl | hc'
      · exact hba
      · exact h.not_lt_trans List.mem_cons_self (by simp) (by simp [hc']) hba (hb.1 c hc')

theorem sortedBy_insertionSort {l : List α} (h : Consistent compare l) :
    SortedBy compare (insertionSort compare l) := by
  induction l with
  | nil => exact .nil
  | cons a l ih =>
    have hsub : ∀ b ∈ a::insertionSort compare l, b ∈ a::l := by
      intro b hb
      exact ((insertionSort_perm l).cons a).subset hb
    exact sortedBy_insertBy (h.perm hsub) (ih (h.perm fun b hb => List.mem_cons_of_mem _ hb))

end Insertion

def SortAlgorithm.insertion (α : Type) : SortAlgorithm α where
  sort := insertionSort
  perm _ := insertionSort_perm
  sorted _ _ := sortedBy_insertionSort

end VermayAgent.Library
