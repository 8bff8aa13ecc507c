import Mathlib.Data.Rat.Defs
import Mathlib.Data.List.Basic

/-! JSON values.
The members of an object stand in the order in which they were added; the equality
test descends through arrays and objects, so it is written out by mutual recursion. -/
namespace VermayAgent.Library

inductive Json where
  | null
  | bool (b : Bool)
  | num (n : ℚ)
  | str (s : String)
  | arr (items : List Json)
  | obj (fields : List (String × Json))

namespace Json

instance : Inhabited Json := ⟨null⟩

mutual

def decEq : (a b : Json) → Decidable (a = b)
  | null, null => isTrue rfl
  | bool a, bool b => decidable_of_iff (a = b) (by simp)
  | num a, num b => decidable_of_iff (a = b) (by simp)
  | str a, str b => decidable_of_iff (a = b) (by simp)
  | arr a, arr b =>
    match decEqItems a b with
    | isTrue h => isTrue (h ▸ rfl)
    | isFalse h => isFalse fun e => h (by cases e; rfl)
  | obj a, obj b =>
    match decEqFields a b with
    | isTrue h => isTrue (h ▸ rfl)
    | isFalse h => isFalse fun e => h (by cases e; rfl)
  | null, bool _ | null, num _ | null, str _ | null, arr _ | null, obj _ => isFalse nofun
  | bool _, null | bool _, num _ | bool _, str _ | bool _, arr _ | bool _, obj _ => isFalse nofun
  | num _, null | num _, bool _ | num _, str _ | num _, arr _ | num _, obj _ => isFalse nofun
  | str _, null | str _, bool _ | str _, num _ | str _, arr _ | str _, obj _ => isFalse nofun
  | arr _, null | arr _, bool _ | arr _, num _ | arr _, str _ | arr _, obj _ => isFalse nofun
  | obj _, null | obj _, bool _ | obj _, num _ | obj _, str _ | obj _, arr _ => isFalse nofun

def decEqItems : (a b : List Json) → Decidable (a = b)
  | [], [] => isTrue rfl
  | [], _::_ => isFalse nofun
  | _::_, [] => isFalse nofun
  | a::as, b::bs =>
    match decEq a b,decEqItems as bs with
    | isTrue h, isTrue hs => isTrue (by rw [h,hs])
    | isFalse h, _ => isFalse fun e => h (List.cons.inj e).1
    | _, isFalse hs => isFalse fun e => hs (List.cons.inj e).2

def decEqFields : (a b : List (String × Json)) → Decidable (a = b)
  | [], [] => isTrue rfl
  | [], _::_ => isFalse nofun
  | _::_, [] => isFalse nofun
  | (k,a)::as, (k',b)::bs =>
    match decEq a b,decEqFields as bs with
    | isTrue h, isTrue hs =>
      if hk : k = k' then isTrue (by rw [h,hs,hk])
      else isFalse fun e => hk (Prod.mk.inj (List.cons.inj e).1).1
    | isFalse h, _ => isFalse fun e => h (Prod.mk.inj (List.cons.inj e).1).2
    | _, isFalse hs => isFalse fun e => hs (List.cons.inj e).2

end

instance : DecidableEq Json := decEq

/-- The members of an object; none for any other value. -/
def fields : Json → List (String × Json)
  | obj fs => fs
  | _ => []

/-- Member access with `null` for a missing member. -/
def member (j : Json) (k : String) : Json := (j.fields.lookup k).getD null

/-- Set one member, in place where it exists and at the end where it does not. -/
def set (k : String) (v : Json) : List (String × Json) → List (String × Json)
  | [] => [(k,v)]
  | (k',v')::fs => if k' = k then (k,v)::fs else (k',v')::set k v fs

/-- The object `a` overwritten member by member with those of `b`. -/
def merge (a b : Json) : Json := obj (b.fields.foldl (fun fs m => set m.1 m.2 fs) a.fields)

def asString : Json → Option String
  | str s => some s
  | _ => none

def asInt : Json → Option ℤ
  | num n => if n.den = 1 then some n.num else none
  | _ => none

def asBool : Json → Option Bool
  | bool b => some b
  | _ => none

def isObject : Json → Bool
  | obj _ => true
  | _ => false

/-- The truth value that a condition gives the value. -/
def truthy : Json → Bool
  | null => false
  | bool b => b
  | num n => decide (n ≠ 0)
  | str s => decide (s ≠ "")
  | arr items => !items.isEmpty
  | obj fs => !fs.isEmpty

/-- The object whose members are those listed that have a value. -/
def ofOptions (fs : List (String × Option Json)) : Json :=
  obj (fs.filterMap fun f => f.2.map fun v => (f.1,v))

theorem lookup_cons (k k' : String) (v : Json) (fs : List (String × Json)) :
    ((k,v)::fs).lookup k' = if k' = k then some v else fs.lookup k' := by
  by_cases hk : k' = k
  · simp [hk]
  · have hbeq : (k' == k) = false := beq_eq_false_iff_ne.mpr hk
    simp [List.lookup_cons,hk,hbeq]

theorem lookup_set (k k' : String) (v : Json) (fs : List (String × Json)) :
    (set k v fs).lookup k' = if k' = k then some v else fs.lookup k' := by
  induction fs with
  | nil => rw [set,lookup_cons]
  | cons f fs ih =>
    obtain ⟨k₁,v₁⟩ := f
    simp only [set]
    by_cases hk₁ : k₁ = k
    · subst hk₁
      rw [if_pos rfl,lookup_cons,lookup_cons]
      by_cases hk : k' = k₁ <;> simp [hk]
    · rw [if_neg hk₁,lookup_cons,lookup_cons,ih]
      by_cases hk : k' = k
      · subst hk
        simp [Ne.symm hk₁]
      · simp [hk]

/-- A member that the overwriting object lacks is that of the overwritten one. -/
theorem member_merge_of_none {a b : Json} {k : String} (h : k ∉ b.fields.map Prod.fst) :
    (merge a b).member k = a.member k := by
  suffices hlookup : ∀ fs gs : List (String × Json), k ∉ gs.map Prod.fst →
      (gs.foldl (fun fs m => set m.1 m.2 fs) fs).lookup k = fs.lookup k from
    congrArg (·.getD null) (hlookup a.fields b.fields h)
  intro fs gs
  induction gs generalizing fs with
  | nil => exact fun _ => rfl
  | cons m gs ih =>
    intro hk
    rw [List.map_cons,List.mem_cons,not_or] at hk
    rw [List.foldl_cons,ih _ hk.2,lookup_set,if_neg hk.1]

@[simp] theorem asInt_natCast (n : ℕ) : asInt (num n) = some (n : ℤ) := by simp [asInt]

@[simp] theorem member_ofOptions_some_self (k : String) (v : Json)
    (fs : List (String × Option Json)) : (ofOptions ((k,some v)::fs)).member k = v := by
  simp [ofOptions,member,fields]

theorem member_ofOptions_of_ne {k k' : String} (hk : k ≠ k') (v : Option Json)
    (fs : List (String × Option Json)) :
    (ofOptions ((k',v)::fs)).member k = (ofOptions fs).member k := by
  have hb : (k == k') = false := beq_eq_false_iff_ne.mpr hk
  cases v with
  | none => rfl
  | some v => simp [ofOptions,member,fields,List.lookup_cons,hb]

end Json
end VermayAgent.Library
