import Mathlib.Data.List.Basic
import Mathlib.Order.Nat

/-! Values over revisions, and copies that follow them.
A log holds entries with a revision, some of them with a value; the value at a revision is the last
one that is no later. A copy keeps the newest revision that it was told of. -/
namespace VermayAgent.Library

universe u v w

section Log

variable {β : Type u} {α : Type v} (revision : β → Nat) (value : β → Option α)

/-- The value of the last entry that has one and is not later than the revision. -/
def valueAt (log : List β) (r : Nat) : Option α :=
  ((log.filter fun e => revision e ≤ r).filterMap value).getLast?

/-- Revisions do not decrease along the log, and a new value has a new revision. -/
structure Ordered (log : List β) : Prop where
  revisions : log.Pairwise fun e f => revision e ≤ revision f
  advances : log.Pairwise fun e f => (value f).isSome = true → revision e < revision f

variable {revision value}

theorem valueAt_map {γ : Type w} (g : α → γ) (log : List β) (r : Nat) :
    valueAt revision (fun e => (value e).map g) log r = (valueAt revision value log r).map g := by
  simp only [valueAt,← List.getLast?_map,List.map_filterMap]

/-- Between two revisions without a new value nothing changes. -/
theorem valueAt_congr {log : List β} {r r' : Nat} (hle : r ≤ r')
    (h : ∀ e ∈ log, (value e).isSome = true → revision e ≤ r' → revision e ≤ r) :
    valueAt revision value log r = valueAt revision value log r' := by
  unfold valueAt
  congr 1
  induction log with
  | nil => rfl
  | cons e log ih =>
    have htail := ih fun x hx => h x (List.mem_cons_of_mem _ hx)
    have hhead := h e (by simp)
    by_cases hr : revision e ≤ r
    · have hr' : revision e ≤ r' := hr.trans hle
      simp only [List.filter_cons,hr,hr',decide_true,if_true,List.filterMap_cons,htail]
    · by_cases hr' : revision e ≤ r'
      · have hnone : value e = none := by
          by_contra hne
          exact hr (hhead (Option.isSome_iff_ne_none.mpr hne) hr')
        simp [hr,hr',hnone,htail]
      · simp [hr,hr',htail]

/-- Entries after the revision do not count. -/
theorem valueAt_append {early late : List β} {r : Nat}
    (h : ∀ e ∈ late, (value e).isSome = true → r < revision e) :
    valueAt revision value (early++late) r = valueAt revision value early r := by
  have hlate : (late.filter fun e => revision e ≤ r).filterMap value = [] := by
    rw [List.filterMap_eq_nil_iff]
    intro e he
    obtain ⟨hmem,hle⟩ := List.mem_filter.mp he
    have hle : revision e ≤ r := by simpa using hle
    by_contra hne
    have hlt := h e hmem (Option.isSome_iff_ne_none.mpr hne)
    omega
  simp only [valueAt,List.filter_append,List.filterMap_append,hlate,List.append_nil]

/-- From the last value on, the value is the last one. -/
theorem valueAt_last {log : List β} {r : Nat}
    (h : ∀ e ∈ log, (value e).isSome = true → revision e ≤ r) :
    valueAt revision value log r = (log.filterMap value).getLast? := by
  unfold valueAt
  congr 1
  induction log with
  | nil => rfl
  | cons e log ih =>
    have htail := ih fun x hx => h x (List.mem_cons_of_mem _ hx)
    by_cases hr : revision e ≤ r
    · simp only [List.filter_cons,hr,decide_true,if_true,List.filterMap_cons,htail]
    · have hnone : value e = none := by
        by_contra hne
        exact hr (h e (by simp) (Option.isSome_iff_ne_none.mpr hne))
      simp [hr,hnone,htail]

/-- Entries that have no value may be left out. -/
theorem valueAt_filter {log : List β} {p : β → Bool} {r : Nat}
    (h : ∀ e ∈ log, (value e).isSome = true → p e = true) :
    valueAt revision value (log.filter p) r = valueAt revision value log r := by
  unfold valueAt
  congr 1
  rw [List.filter_filter]
  induction log with
  | nil => rfl
  | cons e log ih =>
    have htail := ih fun x hx => h x (List.mem_cons_of_mem _ hx)
    by_cases hp : p e = true
    · by_cases hr : revision e ≤ r <;>
        simp only [List.filter_cons,hp,hr,decide_true,decide_false,Bool.and_true,Bool.false_eq_true,
          if_true,if_false,List.filterMap_cons,htail]
    · have hnone : value e = none := by
        by_contra hne
        exact hp (h e (by simp) (Option.isSome_iff_ne_none.mpr hne))
      by_cases hr : revision e ≤ r <;> simp [hp,hr,hnone,htail]

/-- At the revision of an entry with a value, that value. -/
theorem valueAt_entry {early late : List β} {e : β} {a : α}
    (ho : Ordered revision value (early++e::late)) (ha : value e = some a) :
    valueAt revision value (early++e::late) (revision e) = some a := by
  have hcons := (List.pairwise_append.mp ho.advances).2.1
  have hlate : ∀ x ∈ late, (value x).isSome = true → revision e < revision x :=
    (List.pairwise_cons.mp hcons).1
  rw [show early++e::late = (early++[e])++late by simp,valueAt_append hlate]
  simp [valueAt,ha]

end Log

/-- A copy: the newest revision that it was told of and the value there. -/
structure Versioned (α : Type v) where
  revision : Nat
  value : α
deriving DecidableEq

namespace Versioned

variable {α : Type v}

/-- A newer revision is taken over, with its value where it brings one. -/
def accept (c : Versioned α) (r : Nat) (a : Option α) : Versioned α :=
  if c.revision < r then ⟨r,a.getD c.value⟩ else c

theorem revision_accept (c : Versioned α) (r : Nat) (a : Option α) :
    (c.accept r a).revision = max c.revision r := by
  unfold accept
  split
  · rename_i h
    exact (Nat.max_eq_right (Nat.le_of_lt h)).symm
  · rename_i h
    exact (Nat.max_eq_left (Nat.le_of_not_lt h)).symm

variable {β : Type u} (revision : β → Nat) (value : β → Option α)

/-- The copy holds the value of the log at its revision. -/
def Agrees (log : List β) (c : Versioned α) : Prop :=
  valueAt revision value log c.revision = some c.value

variable {revision value} {log : List β} {c : Versioned α}

/-- A fact of any age that the log bears out. -/
theorem Agrees.accept_fact {r : Nat} {a : α} (h : c.Agrees revision value log)
    (ha : valueAt revision value log r = some a) : (c.accept r (some a)).Agrees revision value log := by
  unfold accept
  split
  · exact ha
  · exact h

/-- An entry of the log, once every value before it is known. -/
theorem Agrees.accept_entry {early late : List β} {e : β} (h : c.Agrees revision value (early++e::late))
    (ho : Ordered revision value (early++e::late))
    (hseen : ∀ x ∈ early, (value x).isSome = true → revision x ≤ c.revision) :
    (c.accept (revision e) (value e)).Agrees revision value (early++e::late) := by
  unfold accept
  split
  · rename_i hnew
    cases ha : value e with
    | some a => exact valueAt_entry ho ha
    | none =>
      have hcons := (List.pairwise_append.mp ho.advances).2.1
      refine Eq.trans (valueAt_congr (Nat.le_of_lt hnew) fun x hx hsome hle => ?_).symm h
      rcases List.mem_append.mp hx with hx | hx
      · exact hseen x hx hsome
      · rcases List.mem_cons.mp hx with rfl | hx
        · rw [ha] at hsome
          cases hsome
        · have hlt := (List.pairwise_cons.mp hcons).1 x hx hsome
          omega
  · exact h

/-- A copy that knows every value holds the last one. -/
theorem Agrees.last (h : c.Agrees revision value log)
    (hall : ∀ e ∈ log, (value e).isSome = true → revision e ≤ c.revision) :
    (log.filterMap value).getLast? = some c.value := by
  rw [← valueAt_last hall]
  exact h

end Versioned
end VermayAgent.Library
