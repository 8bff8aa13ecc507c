import Mathlib.Data.List.Sort
import Mathlib.Data.List.Lex
import Mathlib.Order.RelClasses

/-! JSON values over any kind of numbers, with texts of code points.
A text may hold halves of surrogate pairs, as a JSON escape can name one. -/
namespace VermayAgent.Library

/-- A code point: a scalar value or half of a surrogate pair. -/
inductive CodePoint where
  | char (c : Char)
  | surrogate (n : Fin 0x800)
deriving DecidableEq

abbrev Text := List CodePoint

namespace CodePoint

def value : CodePoint → Nat
  | char c => c.toNat
  | surrogate n => 0xD800+n

def ofNat (n : Nat) : CodePoint :=
  if h : 0xD800 ≤ n ∧ n < 0xE000 then surrogate ⟨n-0xD800,by omega⟩ else char (Char.ofNat n)

theorem char_scalar (c : Char) : c.toNat < 0xD800 ∨ 0xE000 ≤ c.toNat := by
  rcases c.valid with hc | hc
  · exact .inl hc
  · exact .inr (Nat.succ_le_of_lt hc.1)

@[simp] theorem ofNat_value (c : CodePoint) : ofNat c.value = c := by
  unfold ofNat
  cases c with
  | char c =>
    have hc : ¬(0xD800 ≤ (char c).value ∧ (char c).value < 0xE000) := by
      have hscalar := char_scalar c
      simp only [value]
      omega
    rw [dif_neg hc]
    exact congrArg char (Char.ofNat_toNat c)
  | surrogate n =>
    have hn := n.isLt
    have hc : 0xD800 ≤ (surrogate n).value ∧ (surrogate n).value < 0xE000 := by
      simp only [value]
      omega
    rw [dif_pos hc]
    exact congrArg surrogate (Fin.ext (by simp [value]))

theorem value_injective : Function.Injective value :=
  Function.LeftInverse.injective ofNat_value

end CodePoint

/-- The text of a string of scalar values. -/
def Text.of (s : String) : Text := s.toList.map .char

theorem Text.of_injective : Function.Injective Text.of := by
  intro s s' h
  exact String.toList_inj.mp (List.map_injective_iff.mpr (fun _ _ => CodePoint.char.inj) h)

/-- Texts in the order of their code points. -/
def Text.le (a b : Text) : Prop := a.map CodePoint.value ≤ b.map CodePoint.value

instance : DecidableRel Text.le := fun _ _ => inferInstanceAs (Decidable (_ ≤ _))

instance : Std.Total Text.le := ⟨fun _ _ => LinearOrder.le_total _ _⟩

instance : IsTrans Text Text.le := ⟨fun _ _ _ => le_trans⟩

inductive JsonValue (ν : Type) where
  | null
  | bool (b : Bool)
  | number (n : ν)
  | string (s : Text)
  | array (items : List (JsonValue ν))
  | object (members : List (Text × JsonValue ν))

namespace JsonValue

variable {ν μ : Type}

/-- Set one member, in place where it exists and at the end where it does not. -/
def set (key : Text) (v : JsonValue ν) : List (Text × JsonValue ν) → List (Text × JsonValue ν)
  | [] => [(key,v)]
  | (key',v')::members => if key' = key then (key,v)::members else (key',v')::set key v members

theorem set_fresh {key : Text} {v : JsonValue ν} {members : List (Text × JsonValue ν)}
    (h : key ∉ members.map Prod.fst) : set key v members = members++[(key,v)] := by
  induction members with
  | nil => rfl
  | cons m members ih =>
    simp only [List.map_cons,List.mem_cons,not_or] at h
    rw [set,if_neg (Ne.symm h.1),ih h.2,List.cons_append]

mutual

/-- The value over other numbers. -/
def map (f : ν → μ) : JsonValue ν → JsonValue μ
  | null => null
  | bool b => bool b
  | number n => number (f n)
  | string s => string s
  | array items => array (mapItems f items)
  | object members => object (mapMembers f members)

def mapItems (f : ν → μ) : List (JsonValue ν) → List (JsonValue μ)
  | [] => []
  | v::items => map f v::mapItems f items

def mapMembers (f : ν → μ) : List (Text × JsonValue ν) → List (Text × JsonValue μ)
  | [] => []
  | (key,v)::members => (key,map f v)::mapMembers f members

end

def sortMembers (members : List (Text × JsonValue ν)) : List (Text × JsonValue ν) :=
  members.insertionSort fun a b => Text.le a.1 b.1

mutual

/-- The value with the members of every object in the order of their keys. -/
def sorted : JsonValue ν → JsonValue ν
  | array items => array (sortedItems items)
  | object members => object (sortMembers (sortedMembers members))
  | value => value

def sortedItems : List (JsonValue ν) → List (JsonValue ν)
  | [] => []
  | v::items => sorted v::sortedItems items

def sortedMembers : List (Text × JsonValue ν) → List (Text × JsonValue ν)
  | [] => []
  | (key,v)::members => (key,sorted v)::sortedMembers members

end

mutual

/-- No object has two members of one key. -/
def Distinct : JsonValue ν → Prop
  | array items => DistinctItems items
  | object members => (members.map Prod.fst).Nodup ∧ DistinctMembers members
  | _ => True

def DistinctItems : List (JsonValue ν) → Prop
  | [] => True
  | v::items => Distinct v ∧ DistinctItems items

def DistinctMembers : List (Text × JsonValue ν) → Prop
  | [] => True
  | (_,v)::members => Distinct v ∧ DistinctMembers members

end

mutual

/-- The number of containers that stand inside each other. -/
def depth : JsonValue ν → Nat
  | array items => depthItems items+1
  | object members => depthMembers members+1
  | _ => 0

def depthItems : List (JsonValue ν) → Nat
  | [] => 0
  | v::items => max (depth v) (depthItems items)

def depthMembers : List (Text × JsonValue ν) → Nat
  | [] => 0
  | (_,v)::members => max (depth v) (depthMembers members)

end

theorem mapItems_eq (f : ν → μ) (items : List (JsonValue ν)) :
    mapItems f items = items.map (map f) := by
  induction items with
  | nil => rfl
  | cons v items ih => rw [mapItems,ih,List.map_cons]

theorem mapMembers_eq (f : ν → μ) (members : List (Text × JsonValue ν)) :
    mapMembers f members = members.map fun m => (m.1,map f m.2) := by
  induction members with
  | nil => rfl
  | cons m members ih => rw [mapMembers,ih,List.map_cons]

mutual

@[simp] theorem map_id : ∀ v : JsonValue ν, v.map id = v
  | null | bool _ | number _ | string _ => rfl
  | array items => congrArg array (mapItems_id items)
  | object members => congrArg object (mapMembers_id members)

theorem mapItems_id : ∀ items : List (JsonValue ν), mapItems id items = items
  | [] => rfl
  | v::items => congrArg₂ List.cons (map_id v) (mapItems_id items)

theorem mapMembers_id : ∀ members : List (Text × JsonValue ν), mapMembers id members = members
  | [] => rfl
  | (_,v)::members => congrArg₂ List.cons (congrArg (Prod.mk _) (map_id v)) (mapMembers_id members)

end

theorem sortedItems_eq (items : List (JsonValue ν)) : sortedItems items = items.map sorted := by
  induction items with
  | nil => rfl
  | cons v items ih => rw [sortedItems,ih,List.map_cons]

theorem sortedMembers_eq (members : List (Text × JsonValue ν)) :
    sortedMembers members = members.map fun m => (m.1,sorted m.2) := by
  induction members with
  | nil => rfl
  | cons m members ih => rw [sortedMembers,ih,List.map_cons]

theorem distinctItems_iff {items : List (JsonValue ν)} :
    DistinctItems items ↔ ∀ v ∈ items, Distinct v := by
  induction items with
  | nil => simp [DistinctItems]
  | cons v items ih => simp [DistinctItems,ih]

theorem distinctMembers_iff {members : List (Text × JsonValue ν)} :
    DistinctMembers members ↔ ∀ m ∈ members, Distinct m.2 := by
  induction members with
  | nil => simp [DistinctMembers]
  | cons m members ih => simp [DistinctMembers,ih]

theorem mem_set {key : Text} {v : JsonValue ν} {members : List (Text × JsonValue ν)}
    {m : Text × JsonValue ν} (h : m ∈ set key v members) : m = (key,v) ∨ m ∈ members := by
  induction members with
  | nil => exact .inl (List.mem_singleton.mp h)
  | cons m' members ih =>
    rw [set] at h
    split at h
    · exact (List.mem_cons.mp h).imp_right (List.mem_cons_of_mem m')
    · rcases List.mem_cons.mp h with rfl | h
      · exact .inr List.mem_cons_self
      · exact (ih h).imp_right (List.mem_cons_of_mem m')

theorem nodup_set {key : Text} {v : JsonValue ν} {members : List (Text × JsonValue ν)}
    (h : (members.map Prod.fst).Nodup) : ((set key v members).map Prod.fst).Nodup := by
  induction members with
  | nil => simp [set]
  | cons m members ih =>
    rw [List.map_cons,List.nodup_cons] at h
    rw [set]
    split
    · rename_i hkey
      rw [List.map_cons,List.nodup_cons]
      exact ⟨hkey ▸ h.1,h.2⟩
    · rename_i hkey
      rw [List.map_cons,List.nodup_cons]
      refine ⟨fun hmem => ?_,ih h.2⟩
      obtain ⟨m',hm',heq⟩ := List.mem_map.mp hmem
      rcases mem_set hm' with rfl | hm'
      · exact hkey heq.symm
      · exact h.1 (heq ▸ List.mem_map_of_mem hm')

/-- Setting a member keeps the keys of an object distinct. -/
theorem Distinct.set {members : List (Text × JsonValue ν)} (h : (object members).Distinct)
    (key : Text) {v : JsonValue ν} (hv : v.Distinct) :
    (object (JsonValue.set key v members)).Distinct := by
  refine ⟨nodup_set h.1,distinctMembers_iff.mpr fun m hm => ?_⟩
  rcases mem_set hm with rfl | hm
  · exact hv
  · exact distinctMembers_iff.mp h.2 m hm

theorem sortMembers_perm (members : List (Text × JsonValue ν)) :
    (sortMembers members).Perm members := List.perm_insertionSort _ _

mutual

theorem Distinct.sorted : ∀ {v : JsonValue ν}, v.Distinct → v.sorted.Distinct
  | array items, h => by
    rw [JsonValue.sorted,Distinct]
    exact DistinctItems.sorted h
  | object members, h => by
    rw [JsonValue.sorted,Distinct]
    have hperm := sortMembers_perm (sortedMembers members)
    have hkeys : (sortedMembers members).map Prod.fst = members.map Prod.fst := by
      rw [sortedMembers_eq,List.map_map]
      rfl
    refine ⟨(hperm.map Prod.fst).nodup_iff.mpr (hkeys ▸ h.1),distinctMembers_iff.mpr fun m hm => ?_⟩
    exact distinctMembers_iff.mp (DistinctMembers.sorted h.2) m (hperm.mem_iff.mp hm)
  | null, h | bool _, h | number _, h | string _, h => h

theorem DistinctItems.sorted : ∀ {items : List (JsonValue ν)}, DistinctItems items →
    DistinctItems (sortedItems items)
  | [], _ => trivial
  | _::_, h => ⟨h.1.sorted,DistinctItems.sorted h.2⟩

theorem DistinctMembers.sorted : ∀ {members : List (Text × JsonValue ν)},
    DistinctMembers members → DistinctMembers (sortedMembers members)
  | [], _ => trivial
  | (_,_)::_, h => ⟨h.1.sorted,DistinctMembers.sorted h.2⟩

end

section Lookup

variable {α β : Type} {key : Text}

theorem lookup_eq_some {members : List (Text × α)} (h : (members.map Prod.fst).Nodup) {v : α} :
    members.lookup key = some v ↔ (key,v) ∈ members := by
  induction members with
  | nil => simp
  | cons m members ih =>
    rw [List.map_cons,List.nodup_cons] at h
    rw [List.lookup_cons]
    split
    · rename_i heq
      have hkey : key = m.1 := eq_of_beq heq
      subst hkey
      constructor
      · rintro ⟨⟩
        exact List.mem_cons_self
      · intro hmem
        rcases List.mem_cons.mp hmem with heq | hmem
        · exact congrArg (some ·.2) heq.symm
        · exact absurd (List.mem_map_of_mem hmem) h.1
    · rename_i hne
      rw [ih h.2,List.mem_cons]
      constructor
      · exact .inr
      · rintro (rfl | hmem)
        · simp at hne
        · exact hmem

/-- A member is found wherever it stands. -/
theorem lookup_perm {members members' : List (Text × α)} (h : (members.map Prod.fst).Nodup)
    (hperm : members.Perm members') : members.lookup key = members'.lookup key := by
  have h' : (members'.map Prod.fst).Nodup := (hperm.map Prod.fst).nodup_iff.mp h
  apply Option.ext
  intro v
  rw [lookup_eq_some h,lookup_eq_some h',hperm.mem_iff]

theorem lookup_map (f : α → β) (members : List (Text × α)) :
    (members.map fun m => (m.1,f m.2)).lookup key = (members.lookup key).map f := by
  induction members with
  | nil => rfl
  | cons m members ih =>
    rw [List.map_cons,List.lookup_cons,List.lookup_cons,ih]
    split <;> rfl

end Lookup

/-- The value of a member, `null` where there is none. -/
def get (members : List (Text × JsonValue ν)) (key : String) : JsonValue ν :=
  (members.lookup (Text.of key)).getD .null

theorem lookup_set {key key' : Text} {v : JsonValue ν} {members : List (Text × JsonValue ν)} :
    (set key v members).lookup key' = if key' = key then some v else members.lookup key' := by
  induction members with
  | nil =>
    rw [set,List.lookup_cons,List.lookup_nil]
    by_cases h : key' = key
    · simp [h]
    · rw [beq_false_of_ne h,if_neg h]
  | cons m members ih =>
    rw [set]
    split
    · rename_i hkey
      rw [List.lookup_cons,List.lookup_cons,hkey]
      by_cases h : key' = key
      · simp [h]
      · rw [beq_false_of_ne h,if_neg h]
    · rename_i hkey
      rw [List.lookup_cons,List.lookup_cons,ih]
      by_cases h : key' = m.1
      · subst h
        simp [hkey]
      · rw [beq_false_of_ne h]

@[simp] theorem get_set {key : Text} {key' : String} {v : JsonValue ν}
    {members : List (Text × JsonValue ν)} :
    get (set key v members) key' = if Text.of key' = key then v else get members key' := by
  unfold get
  rw [lookup_set]
  split <;> rfl

theorem lookup_sorted {key : Text} {members : List (Text × JsonValue ν)}
    (h : (members.map Prod.fst).Nodup) :
    (sortMembers (sortedMembers members)).lookup key = (members.lookup key).map sorted := by
  have hkeys : (sortedMembers members).map Prod.fst = members.map Prod.fst := by
    rw [sortedMembers_eq,List.map_map]
    rfl
  rw [← lookup_perm (hkeys ▸ h) (sortMembers_perm (sortedMembers members)).symm,sortedMembers_eq,
    lookup_map]

theorem depthItems_le {n : Nat} {items : List (JsonValue ν)} :
    depthItems items ≤ n ↔ ∀ v ∈ items, v.depth ≤ n := by
  induction items with
  | nil => simp [depthItems]
  | cons v items ih => simp [depthItems,ih]

theorem depthMembers_le {n : Nat} {members : List (Text × JsonValue ν)} :
    depthMembers members ≤ n ↔ ∀ m ∈ members, m.2.depth ≤ n := by
  induction members with
  | nil => simp [depthMembers]
  | cons m members ih => simp [depthMembers,ih]

theorem depthMembers_sortMembers (members : List (Text × JsonValue ν)) :
    depthMembers (sortMembers members) = depthMembers members := by
  have hmem := fun m => (sortMembers_perm members).mem_iff (a := m)
  apply Nat.le_antisymm
  · exact depthMembers_le.mpr fun m hm => depthMembers_le.mp le_rfl m ((hmem m).mp hm)
  · exact depthMembers_le.mpr fun m hm => depthMembers_le.mp le_rfl m ((hmem m).mpr hm)

mutual

@[simp] theorem depth_sorted : ∀ v : JsonValue ν, v.sorted.depth = v.depth
  | null | bool _ | number _ | string _ => rfl
  | array items => congrArg (· + 1) (depthItems_sorted items)
  | object members => by
    rw [sorted,depth,depth,depthMembers_sortMembers,depthMembers_sorted members]

theorem depthItems_sorted : ∀ items : List (JsonValue ν),
    depthItems (sortedItems items) = depthItems items
  | [] => rfl
  | v::items => congrArg₂ max (depth_sorted v) (depthItems_sorted items)

theorem depthMembers_sorted : ∀ members : List (Text × JsonValue ν),
    depthMembers (sortedMembers members) = depthMembers members
  | [] => rfl
  | (_,v)::members => congrArg₂ max (depth_sorted v) (depthMembers_sorted members)

end

end JsonValue
end VermayAgent.Library
