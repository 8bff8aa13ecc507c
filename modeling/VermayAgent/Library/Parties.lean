import Mathlib

/-! Parties that move through phases, one at a time.
`HeldBy` says of a lock bit that at most one party is in the phases of the holder; `CountOf` says
of a counter how many parties are in the phases that it counts. Both are kept by what one party
does, and a condition over all parties is checked at the party that moves. -/
namespace VermayAgent.Library

universe u v

variable {ι : Type u} {π : Type v} {phase phase' : ι → π} {f : π → Prop} {i : ι} {p : π}

/-- The lock is taken exactly when a party holds it, and no two parties do. -/
structure HeldBy (locked : Bool) (f : π → Prop) (phase : ι → π) : Prop where
  taken : locked = true ↔ ∃ i, f (phase i)
  single : ∀ i j, f (phase i) → f (phase j) → i = j

/-- The counter counts the parties in the phases of `f`. -/
def CountOf (n : ℕ) (f : π → Prop) (phase : ι → π) : Prop := {i | f (phase i)}.encard = n

namespace HeldBy

variable {locked : Bool}

theorem free (h : HeldBy false f phase) (i : ι) : ¬ f (phase i) :=
  fun hi => Bool.false_ne_true (h.taken.mpr ⟨i,hi⟩)

theorem congr (h : HeldBy locked f phase) (hiff : ∀ j, f (phase' j) ↔ f (phase j)) :
    HeldBy locked f phase' := by
  constructor
  · rw [h.taken]
    exact exists_congr fun j => (hiff j).symm
  · intro j k hj hk
    exact h.single j k ((hiff j).mp hj) ((hiff k).mp hk)

variable [DecidableEq ι]

theorem keep (h : HeldBy locked f phase) (hp : f p ↔ f (phase i)) :
    HeldBy locked f (Function.update phase i p) := by
  apply h.congr
  intro j
  by_cases hj : j = i
  · rw [hj,Function.update_self,hp]
  · rw [Function.update_of_ne hj]

/-- A party takes the free lock. -/
theorem take (h : HeldBy false f phase) (hp : f p) :
    HeldBy true f (Function.update phase i p) := by
  have honly : ∀ j, f (Function.update phase i p j) → j = i := by
    intro j hj
    by_contra hne
    rw [Function.update_of_ne hne] at hj
    exact h.free j hj
  constructor
  · simp only [true_iff]
    exact ⟨i,by rwa [Function.update_self]⟩
  · intro j k hj hk
    rw [honly j hj,honly k hk]

/-- The holder gives the lock back. -/
theorem drop (h : HeldBy locked f phase) (hi : f (phase i)) (hp : ¬ f p) :
    HeldBy false f (Function.update phase i p) := by
  have hnone : ∀ j, ¬ f (Function.update phase i p j) := by
    intro j hj
    by_cases hji : j = i
    · rw [hji,Function.update_self] at hj
      exact hp hj
    · rw [Function.update_of_ne hji] at hj
      exact hji (h.single j i hj hi)
  constructor
  · simp [hnone]
  · intro j k hj
    exact absurd hj (hnone j)

end HeldBy

namespace CountOf

variable {n : ℕ}

theorem congr (h : CountOf n f phase) (hiff : ∀ j, f (phase' j) ↔ f (phase j)) :
    CountOf n f phase' := by
  unfold CountOf at h ⊢
  simpa only [hiff] using h

theorem pos_iff (h : CountOf n f phase) : 0 < n ↔ ∃ i, f (phase i) := by
  unfold CountOf at h
  constructor
  · intro hn
    by_contra hnone
    have hempty : {i | f (phase i)} = ∅ := by
      ext j
      simpa using fun hj => hnone ⟨j,hj⟩
    rw [hempty,Set.encard_empty] at h
    exact hn.ne (by exact_mod_cast h)
  · rintro ⟨i,hi⟩
    by_contra hn
    rw [Nat.eq_zero_of_not_pos hn,Nat.cast_zero,Set.encard_eq_zero] at h
    exact (h ▸ hi : i ∈ (∅ : Set ι))

theorem none_in (h : ∀ i, ¬ f (phase i)) : CountOf 0 f phase := by
  unfold CountOf
  simp [h]

variable [DecidableEq ι]

theorem keep (h : CountOf n f phase) (hp : f p ↔ f (phase i)) :
    CountOf n f (Function.update phase i p) := by
  apply h.congr
  intro j
  by_cases hj : j = i
  · rw [hj,Function.update_self,hp]
  · rw [Function.update_of_ne hj]

/-- A party comes in. -/
theorem join (h : CountOf n f phase) (hi : ¬ f (phase i)) (hp : f p) :
    CountOf (n+1) f (Function.update phase i p) := by
  have hset : {j | f (Function.update phase i p j)} = insert i {j | f (phase j)} := by
    ext j
    by_cases hj : j = i
    · simp [hj,hp]
    · simp [hj]
  have hout : i ∉ {j | f (phase j)} := hi
  unfold CountOf at h ⊢
  rw [hset,Set.encard_insert_of_notMem hout,h]
  rfl

/-- A party goes. -/
theorem leave (h : CountOf n f phase) (hi : f (phase i)) (hp : ¬ f p) :
    CountOf (n-1) f (Function.update phase i p) := by
  have hset : {j | f (Function.update phase i p j)} = {j | f (phase j)} \ {i} := by
    ext j
    by_cases hj : j = i
    · simp [hj,hp]
    · simp [hj]
  have hin : i ∈ {j | f (phase j)} := hi
  unfold CountOf at h ⊢
  rw [hset,Set.encard_sdiff_singleton_of_mem hin,h]
  rfl

end CountOf

end VermayAgent.Library
