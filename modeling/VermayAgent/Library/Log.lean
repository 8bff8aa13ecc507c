import Mathlib.Data.List.Chain

/-! Append-only logs, and the parts of them that a cursor passes. -/
namespace VermayAgent.Library

universe u

variable {α : Type u} {R : α → α → Prop} {l new : List α} {a : α}

theorem pairwise_snoc (hl : l.Pairwise R) (ha : ∀ x ∈ l, R x a) : (l++[a]).Pairwise R := by
  rw [List.pairwise_append]
  refine ⟨hl,List.pairwise_singleton _ _,fun x hx y hy => ?_⟩
  rw [List.mem_singleton.mp hy]
  exact ha x hx

theorem isChain_snoc (hl : l.IsChain R) (ha : ∀ x ∈ l.getLast?, R x a) : (l++[a]).IsChain R := by
  rw [List.isChain_append]
  refine ⟨hl,.singleton _,fun x hx y hy => ?_⟩
  rw [List.head?_cons,Option.mem_some_iff] at hy
  subst hy
  exact ha x hx

/-- The entries with a number after `i`, up to `j`. -/
def window (number : α → ℕ) (i j : ℕ) (l : List α) : List α :=
  l.filter fun x => i < number x ∧ number x ≤ j

section Window

variable {number : α → ℕ} {i j k : ℕ}

theorem mem_window {x : α} : x ∈ window number i j l ↔ x ∈ l ∧ i < number x ∧ number x ≤ j := by
  simp [window]

@[simp] theorem window_self (l : List α) : window number i i l = [] := by
  refine List.filter_eq_nil_iff.mpr fun x _ h => ?_
  have h := of_decide_eq_true h
  omega

/-- Two adjacent parts of a log in the order of its numbers are one part. -/
theorem window_append (hl : l.Pairwise fun x y => number x < number y) (hij : i ≤ j) (hjk : j ≤ k) :
    window number i j l ++ window number j k l = window number i k l := by
  induction l with
  | nil => rfl
  | cons x l ih =>
    obtain ⟨hx,hl⟩ := List.pairwise_cons.mp hl
    have hih := ih hl
    rcases Nat.lt_or_ge j (number x) with hj | hj
    · -- every later entry is beyond the first part too
      have hnone : window number i j l = [] := by
        refine List.filter_eq_nil_iff.mpr fun y hy h => ?_
        have h := of_decide_eq_true h
        have hlater := hx y hy
        omega
      have hfirst : window number i j (x::l) = window number i j l := by
        have hdrop : ¬ (i < number x ∧ number x ≤ j) := by omega
        simp [window,hdrop]
      have hsame : (j < number x ∧ number x ≤ k) ↔ (i < number x ∧ number x ≤ k) := by omega
      rw [hnone,List.nil_append] at hih
      rw [hfirst,hnone,List.nil_append]
      simp only [window,List.filter_cons,hsame] at hih ⊢
      rw [hih]
    · have hdrop : window number j k (x::l) = window number j k l := by
        have hbelow : ¬ (j < number x ∧ number x ≤ k) := by omega
        simp [window,hbelow]
      have hsame : (i < number x ∧ number x ≤ j) ↔ (i < number x ∧ number x ≤ k) := by omega
      rw [hdrop,← List.singleton_append,← List.singleton_append]
      simp only [window,List.filter_append] at hih ⊢
      rw [List.append_assoc,hih]
      simp [List.filter_cons,hsame]

/-- What is appended later lies beyond a part that has been passed. -/
theorem window_grow (hnew : ∀ x ∈ new, i < j → j < number x) :
    window number i j (l++new) = window number i j l := by
  have hnone : window number i j new = [] := by
    refine List.filter_eq_nil_iff.mpr fun x hx h => ?_
    have h := of_decide_eq_true h
    have hlater := hnew x hx (by omega)
    omega
  rw [window,List.filter_append]
  change _ ++ window number i j new = _
  rw [hnone,List.append_nil]
  rfl

theorem window_pairwise (hl : l.Pairwise R) : (window number i j l).Pairwise R := hl.filter _

/-- A read of everything after the cursor is the part up to its greatest number. -/
theorem filter_eq_window (hj : ∀ x ∈ l, number x ≤ j) :
    (l.filter fun x => i < number x) = window number i j l := by
  refine List.filter_congr fun x hx => ?_
  simp [hj x hx]

end Window
end VermayAgent.Library
