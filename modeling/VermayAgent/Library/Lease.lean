import Mathlib.Data.Finset.Basic
import Mathlib.Logic.Function.Basic

/-! Sets of keys that owners hold one at a time.
A process-local guard set has no notion of who put a key into it; `Exclusive` says that the
keys of the set are those of its owners and that no two owners have the same key. -/
namespace VermayAgent.Library

universe u v

variable {κ : Type u} {ω : Type v}

/-- `held` is the set of the keys that owners have, each from one owner. -/
structure Exclusive (held : Finset κ) (own : ω → Option κ) : Prop where
  mem_iff : ∀ k, k ∈ held ↔ ∃ o, own o = some k
  unique : ∀ o o' k, own o = some k → own o' = some k → o = o'

namespace Exclusive

variable {held : Finset κ} {own : ω → Option κ} {o o' : ω} {k : κ}

theorem empty (h : ∀ o, own o = none) : Exclusive (∅ : Finset κ) own :=
  ⟨fun k => by simp [h],fun o _ k ho => by simp [h] at ho⟩

theorem mem (h : Exclusive held own) (ho : own o = some k) : k ∈ held := (h.mem_iff k).mpr ⟨o,ho⟩

variable [DecidableEq ω]

theorem keep (h : Exclusive held own) {v : Option κ} (ho : own o = v) :
    Exclusive held (Function.update own o v) := by
  rwa [← ho,Function.update_eq_self]

variable [DecidableEq κ]

/-- A free key is taken by an owner that has none. -/
theorem acquire (h : Exclusive held own) (hk : k ∉ held) (ho : own o = none) :
    Exclusive (insert k held) (Function.update own o (some k)) where
  mem_iff j := by
    rw [Finset.mem_insert,h.mem_iff]
    constructor
    · rintro (rfl | ⟨p,hp⟩)
      · exact ⟨o,Function.update_self ..⟩
      · have hne : p ≠ o := by
          rintro rfl
          rw [ho] at hp
          cases hp
        exact ⟨p,by rw [Function.update_of_ne hne,hp]⟩
    · rintro ⟨p,hp⟩
      by_cases hpo : p = o
      · rw [hpo,Function.update_self] at hp
        exact .inl (Option.some.inj hp).symm
      · exact .inr ⟨p,by rwa [Function.update_of_ne hpo] at hp⟩
  unique p q j hp hq := by
    have hold : ∀ p, p ≠ o → Function.update own o (some k) p = some j → j ∈ held := by
      intro p hpo hp
      rw [Function.update_of_ne hpo] at hp
      exact h.mem hp
    by_cases hpo : p = o <;> by_cases hqo : q = o
    · rw [hpo,hqo]
    · rw [hpo,Function.update_self] at hp
      exact absurd (Option.some.inj hp ▸ hold q hqo hq) hk
    · rw [hqo,Function.update_self] at hq
      exact absurd (Option.some.inj hq ▸ hold p hpo hp) hk
    · rw [Function.update_of_ne hpo] at hp
      rw [Function.update_of_ne hqo] at hq
      exact h.unique p q j hp hq

/-- An owner gives its key back. -/
theorem release (h : Exclusive held own) (ho : own o = some k) :
    Exclusive (held.erase k) (Function.update own o none) where
  mem_iff j := by
    rw [Finset.mem_erase,h.mem_iff]
    constructor
    · rintro ⟨hj,p,hp⟩
      have hne : p ≠ o := by
        rintro rfl
        rw [ho] at hp
        exact hj (Option.some.inj hp).symm
      exact ⟨p,by rw [Function.update_of_ne hne,hp]⟩
    · rintro ⟨p,hp⟩
      by_cases hpo : p = o
      · rw [hpo,Function.update_self] at hp
        cases hp
      · rw [Function.update_of_ne hpo] at hp
        refine ⟨?_,p,hp⟩
        rintro rfl
        exact hpo (h.unique p o j hp ho)
  unique p q j hp hq := by
    have hold : ∀ p, Function.update own o none p = some j → own p = some j := by
      intro p hp
      by_cases hpo : p = o
      · rw [hpo,Function.update_self] at hp
        cases hp
      · rwa [Function.update_of_ne hpo] at hp
    exact h.unique p q j (hold p hp) (hold q hq)

/-- An owner hands its key to one that has none. -/
theorem transfer (h : Exclusive held own) (ho : own o = some k) (ho' : own o' = none) :
    Exclusive held (Function.update (Function.update own o none) o' (some k)) := by
  have hne : o' ≠ o := by
    rintro rfl
    rw [ho] at ho'
    cases ho'
  have hrel := h.release ho
  have hacq := hrel.acquire (Finset.notMem_erase k held)
    (show Function.update own o none o' = none by rw [Function.update_of_ne hne,ho'])
  rwa [Finset.insert_erase (h.mem ho)] at hacq

end Exclusive
end VermayAgent.Library
