import Mathlib.Data.List.Nodup
import Mathlib.Data.List.Basic

/-! Relational tables with a primary key.
A table is its list of rows in insertion order; the absence of two rows with one
key is a field, so no operation below can build a table that violates it. -/
namespace VermayAgent.Library

universe u v

/-- Rows of type `ν` whose keys are pairwise different. -/
structure Table {κ : Type u} {ν : Type v} (key : ν → κ) where
  rows : List ν
  nodup : (rows.map key).Nodup

namespace Table

variable {κ : Type u} {ν : Type v} {key : ν → κ}

@[ext] theorem ext {t s : Table key} (h : t.rows = s.rows) : t = s := by
  cases t; cases s; cases h; rfl

def empty : Table key := ⟨[],List.nodup_nil⟩

instance : Inhabited (Table key) := ⟨empty⟩

/-- `UPDATE … WHERE p`: rewrite in place every row that satisfies `p`. -/
def update (t : Table key) (p : ν → Bool) (f : ν → ν)
    (hf : ∀ r, key (f r) = key r := by intro r; rfl) : Table key where
  rows := t.rows.map fun r => if p r then f r else r
  nodup := by
    have h : (t.rows.map fun r => if p r then f r else r).map key = t.rows.map key := by
      rw [List.map_map]
      apply List.map_congr_left
      intro r _
      simp only [Function.comp_apply]
      split <;> simp [hf]
    exact h ▸ t.nodup

/-- `DELETE … WHERE p`. -/
def delete (t : Table key) (p : ν → Bool) : Table key where
  rows := t.rows.filter fun r => !p r
  nodup := t.nodup.sublist ((List.filter_sublist).map key)

variable [DecidableEq κ]

/-- `SELECT … WHERE key = k`. -/
def get (t : Table key) (k : κ) : Option ν := t.rows.find? fun r => decide (key r = k)

/-- `INSERT`: refused when the key is taken. -/
def insert? (t : Table key) (r : ν) : Option (Table key) :=
  if h : key r ∈ t.rows.map key then none
  else some ⟨t.rows ++ [r],by
    rw [List.map_append,List.map_singleton,← List.concat_eq_append]
    exact List.Nodup.concat h t.nodup⟩

@[simp] theorem get_empty (k : κ) : (empty : Table key).get k = none := rfl

theorem key_of_get {t : Table key} {k : κ} {r : ν} (h : t.get k = some r) : key r = k := by
  simpa using List.find?_some h

theorem mem_of_get {t : Table key} {k : κ} {r : ν} (h : t.get k = some r) : r ∈ t.rows :=
  List.mem_of_find?_eq_some h

/-- The key finds each stored row: this is where uniqueness is used. -/
theorem get_of_mem {t : Table key} {r : ν} (h : r ∈ t.rows) : t.get (key r) = some r := by
  rcases t with ⟨rows,hn⟩
  simp only [get] at h ⊢
  induction rows with
  | nil => simp at h
  | cons a rows ih =>
    obtain ⟨ha,hn⟩ := List.nodup_cons.mp hn
    rcases List.mem_cons.mp h with rfl | h
    · simp
    · have hne : key a ≠ key r := fun he => ha (he ▸ List.mem_map_of_mem h)
      simpa [hne] using ih hn h

theorem get_eq_some_iff {t : Table key} {k : κ} {r : ν} :
    t.get k = some r ↔ r ∈ t.rows ∧ key r = k := by
  constructor
  · exact fun h => ⟨mem_of_get h,key_of_get h⟩
  · rintro ⟨h,rfl⟩
    exact get_of_mem h

theorem get_eq_none_iff {t : Table key} {k : κ} : t.get k = none ↔ k ∉ t.rows.map key := by
  simp [get,List.find?_eq_none,List.mem_map]

/-- A key that is found is the key of exactly one row. -/
theorem length_filter_of_get {t : Table key} {k : κ} {r : ν} (h : t.get k = some r) :
    (t.rows.filter fun r => decide (key r = k)).length = 1 := by
  have hmem := mem_of_get h
  have hkey := key_of_get h
  have hcount : (t.rows.map key).count k = 1 :=
    List.count_eq_one_of_mem t.nodup (hkey ▸ List.mem_map_of_mem hmem)
  rw [List.count_eq_countP,List.countP_map,List.countP_eq_length_filter] at hcount
  rw [← hcount]
  congr 2

theorem length_filter_eq_one_iff {t : Table key} {k : κ} :
    (t.rows.filter fun r => decide (key r = k)).length = 1 ↔ (t.get k).isSome := by
  constructor
  · intro h
    obtain ⟨r,hr⟩ := List.exists_mem_of_length_pos (h ▸ Nat.one_pos)
    obtain ⟨hmem,hkey⟩ := List.mem_filter.mp hr
    rw [get_eq_some_iff.mpr ⟨hmem,of_decide_eq_true hkey⟩]
    rfl
  · intro h
    obtain ⟨r,hr⟩ := Option.isSome_iff_exists.mp h
    exact length_filter_of_get hr

theorem get_update (t : Table key) (p : ν → Bool) (f : ν → ν) (hf : ∀ r, key (f r) = key r)
    (k : κ) : (t.update p f hf).get k = (t.get k).map fun r => if p r then f r else r := by
  rcases t with ⟨rows,hn⟩
  simp only [get,update]
  induction rows with
  | nil => rfl
  | cons a rows ih =>
    have hk : key (if p a then f a else a) = key a := by split <;> simp [hf]
    by_cases ha : key a = k
    · simp [hk,ha]
    · simpa [hk,ha] using ih (List.nodup_cons.mp hn).2

theorem get_delete (t : Table key) (p : ν → Bool) (k : κ) :
    (t.delete p).get k = (t.get k).filter fun r => !p r := by
  apply Option.ext
  intro r
  simp only [Option.filter_eq_some_iff,get_eq_some_iff,delete,List.mem_filter]
  tauto

theorem get_insert? {t s : Table key} {r : ν} (h : t.insert? r = some s) (k : κ) :
    s.get k = if key r = k then some r else t.get k := by
  simp only [insert?] at h
  split at h
  · cases h
  · rename_i hr
    cases h
    simp only [get,List.find?_append]
    by_cases hk : key r = k
    · subst hk
      have hg : t.rows.find? (fun a => decide (key a = key r)) = none := get_eq_none_iff.mpr hr
      simp [hg]
    · simp [hk]

theorem insert?_fresh {t s : Table key} {r : ν} (h : t.insert? r = some s) :
    t.get (key r) = none := by
  simp only [insert?] at h
  split at h
  · cases h
  · rename_i hr
    exact get_eq_none_iff.mpr hr

theorem get_insert?_self {t s : Table key} {r : ν} (h : t.insert? r = some s) :
    s.get (key r) = some r := by
  rw [get_insert? h,if_pos rfl]

/-- An insertion replaces no row. -/
theorem get_of_insert? {t s : Table key} {r x : ν} {k : κ} (h : t.insert? r = some s)
    (hx : t.get k = some x) : s.get k = some x := by
  rw [get_insert? h]
  split_ifs with hk
  · have hfresh := insert?_fresh h
    rw [hk,hx] at hfresh
    cases hfresh
  · exact hx

theorem insert?_isSome_iff {t : Table key} {r : ν} :
    (t.insert? r).isSome ↔ t.get (key r) = none := by
  rw [get_eq_none_iff,insert?]
  split <;> simp_all

theorem rows_insert? {t s : Table key} {r : ν} (h : t.insert? r = some s) :
    s.rows = t.rows ++ [r] := by
  simp only [insert?] at h
  split at h
  · cases h
  · cases h
    rfl

theorem mem_insert? {t s : Table key} {r x : ν} (h : t.insert? r = some s) :
    x ∈ s.rows ↔ x ∈ t.rows ∨ x = r := by
  simp [rows_insert? h]

end Table
end VermayAgent.Library
