import Mathlib
import VermayAgent.Library.Transition

/-! What the steps of a run cost, and bounds on it from a potential that every step lowers by its
cost. -/
namespace VermayAgent.Library

universe u v

variable {σ : Type u} {l : Type v} {step : l → σ → Option σ}

/-- The costs of the steps of a run. -/
def spent (step : l → σ → Option σ) (cost : l → σ → ℕ) : List l → σ → ℕ
  | [], _ => 0
  | a::as, s => cost a s+((step a s).map (spent step cost as)).getD 0

variable {cost : l → σ → ℕ}

theorem spent_cons {a : l} {as : List l} {s s' : σ} (h : step a s = some s') :
    spent step cost (a::as) s = cost a s+spent step cost as s' := by
  rw [spent,h]
  rfl

/-- The number of steps is what they cost at the price of one. -/
theorem spent_one {as : List l} {s s' : σ} (h : exec step as s = some s') :
    spent step (fun _ _ => 1) as s = as.length := by
  induction as generalizing s with
  | nil => rfl
  | cons a as ih =>
    obtain ⟨s₁,h₁,h₂⟩ := exec_cons_eq_some.mp h
    rw [spent_cons h₁,ih h₂,List.length_cons,Nat.add_comm]

/-- Where every step with an admitted label lowers the potential by its cost, a run of such steps
costs no more than the potential falls. -/
theorem spent_le_of {I : σ → Prop} {P : l → Prop} (cost : l → σ → ℕ) (potential : σ → ℤ)
    (hkeeps : ∀ a s s', P a → I s → step a s = some s' → I s')
    (hlowers : ∀ a s s', P a → I s → step a s = some s' →
      cost a s+potential s' ≤ potential s)
    {as : List l} {s s' : σ} (has : ∀ a ∈ as, P a) (hs : I s) (h : exec step as s = some s') :
    spent step cost as s+potential s' ≤ potential s := by
  induction as generalizing s with
  | nil =>
    cases h
    simp [spent]
  | cons a as ih =>
    obtain ⟨s₁,h₁,h₂⟩ := exec_cons_eq_some.mp h
    rw [List.forall_mem_cons] at has
    have hhead := hlowers a s s₁ has.1 hs h₁
    have htail := ih has.2 (hkeeps a s s₁ has.1 hs h₁) h₂
    rw [spent_cons h₁]
    push_cast
    omega

/-- Where every step lowers the potential by its cost, a run costs no more than the potential
falls. -/
theorem spent_le {I : σ → Prop} (cost : l → σ → ℕ) (potential : σ → ℤ)
    (hkeeps : ∀ a s s', I s → step a s = some s' → I s')
    (hlowers : ∀ a s s', I s → step a s = some s' → cost a s+potential s' ≤ potential s)
    {as : List l} {s s' : σ} (hs : I s) (h : exec step as s = some s') :
    spent step cost as s+potential s' ≤ potential s :=
  spent_le_of (P := fun _ => True) cost potential (fun a s s' _ => hkeeps a s s')
    (fun a s s' _ => hlowers a s s') (fun _ _ => trivial) hs h

/-- What the labels of a run and the state it leads to have in common, step after step. -/
theorem exec_traced {J : List l → σ → Prop} {s₀ s : σ} (hstart : J [] s₀)
    (hstep : ∀ as a s s', J as s → step a s = some s' → J (as++[a]) s')
    {as : List l} (h : exec step as s₀ = some s) : J as s := by
  induction as using List.reverseRecOn generalizing s with
  | nil =>
    cases h
    exact hstart
  | append_singleton as a ih =>
    rw [exec_append] at h
    obtain ⟨s₁,h₁,h₂⟩ := Option.bind_eq_some_iff.mp h
    obtain ⟨s₂,h₂,hend⟩ := exec_cons_eq_some.mp h₂
    cases hend
    exact hstep as a s₁ s (ih h₁) h₂

end VermayAgent.Library
