import VermayAgent.Library.JsonValue
import VermayAgent.Library.Txn

/-! Objects that are shared by reference, and the JSON values that they stand for.
Lists and dicts may be changed by whoever holds them; tuples and proxies of dicts may not. -/
namespace VermayAgent.Library

/-- A value as a variable holds it: a scalar or the address of an object. -/
inductive Object (ν : Type) where
  | none
  | bool (b : Bool)
  | number (n : ν)
  | string (s : Text)
  | ref (address : Nat)

/-- A list or, frozen, a tuple; a dict or, frozen, the proxy of one that nothing else refers to;
an object of another class. -/
inductive Cell (ν : Type) where
  | sequence (frozen : Bool) (items : List (Object ν))
  | mapping (frozen : Bool) (members : List (Text × Object ν))
  | other (className : String)

abbrev Heap (ν : Type) := List (Cell ν)

variable {ν ε : Type}

/-- Nothing changes the contents of the object. -/
def Cell.frozen : Cell ν → Bool
  | sequence frozen _ | mapping frozen _ => frozen
  | other _ => true

def Object.isNone : Object ν → Bool
  | none => true
  | _ => false

/-- The object that a value refers to. -/
def Heap.cell (h : Heap ν) : Object ν → Option (Cell ν)
  | .ref a => h[a]?
  | _ => none

/-- A new object. -/
def alloc (c : Cell ν) : Txn (Heap ν) ε (Object ν) :=
  .isolated fun h => .ok (.ref h.length,h++[c])

@[simp] theorem run_alloc (c : Cell ν) (h : Heap ν) :
    (alloc c : Txn (Heap ν) ε (Object ν)).run h = .ok (.ref h.length,h++[c]) := rfl

/-- Whatever runs in between, frozen objects stay as they are. -/
def Heap.Later (h h' : Heap ν) : Prop :=
  ∀ (a : Nat) (c : Cell ν), h[a]? = some c → c.frozen = true → h'[a]? = some c

theorem Heap.Later.refl (h : Heap ν) : h.Later h := fun _ _ hc _ => hc

theorem Heap.cell_kept {h h' : Heap ν} (hh : h <+: h') {a : Nat} {c : Cell ν}
    (hc : h[a]? = some c) : h'[a]? = some c := by
  obtain ⟨tail,rfl⟩ := hh
  exact List.getElem?_append_left (List.getElem?_eq_some_iff.mp hc).1 ▸ hc

theorem Heap.later_of_prefix {h h' : Heap ν} (hh : h <+: h') : h.Later h' :=
  fun _ _ hc _ => cell_kept hh hc

theorem Heap.cell_last (h : Heap ν) (c : Cell ν) : (h++[c])[h.length]? = some c :=
  List.getElem?_concat_length

section Denotes

variable {h h' : Heap ν} {F F' : Bool → Prop}

mutual

/-- The object stands for the JSON value; `F` says which of the containers in it are frozen. -/
inductive Denotes (h : Heap ν) (F : Bool → Prop) : Object ν → JsonValue ν → Prop
  | null : Denotes h F .none .null
  | bool (b : Bool) : Denotes h F (.bool b) (.bool b)
  | number (n : ν) : Denotes h F (.number n) (.number n)
  | string (s : Text) : Denotes h F (.string s) (.string s)
  | array {a : Nat} {frozen : Bool} {items : List (Object ν)} {ts : List (JsonValue ν)}
      (hcell : h[a]? = some (.sequence frozen items)) (hF : F frozen)
      (hs : DenotesItems h F items ts) : Denotes h F (.ref a) (.array ts)
  | object {a : Nat} {frozen : Bool} {members : List (Text × Object ν)}
      {ts : List (Text × JsonValue ν)} (hcell : h[a]? = some (.mapping frozen members))
      (hF : F frozen) (hkeys : (ts.map Prod.fst).Nodup) (hs : DenotesMembers h F members ts) :
      Denotes h F (.ref a) (.object ts)

inductive DenotesItems (h : Heap ν) (F : Bool → Prop) :
    List (Object ν) → List (JsonValue ν) → Prop
  | nil : DenotesItems h F [] []
  | cons {v : Object ν} {t : JsonValue ν} {items : List (Object ν)} {ts : List (JsonValue ν)}
      (hv : Denotes h F v t) (hs : DenotesItems h F items ts) : DenotesItems h F (v::items) (t::ts)

inductive DenotesMembers (h : Heap ν) (F : Bool → Prop) :
    List (Text × Object ν) → List (Text × JsonValue ν) → Prop
  | nil : DenotesMembers h F [] []
  | cons {v : Object ν} {t : JsonValue ν} {members : List (Text × Object ν)}
      {ts : List (Text × JsonValue ν)} (key : Text) (hv : Denotes h F v t)
      (hs : DenotesMembers h F members ts) : DenotesMembers h F ((key,v)::members) ((key,t)::ts)

end

theorem Denotes.isNone_iff {v : Object ν} {t : JsonValue ν} (hv : Denotes h F v t) :
    v.isNone = true ↔ t = .null := by
  cases hv <;> simp [Object.isNone]

theorem DenotesItems.isEmpty {items : List (Object ν)} {ts : List (JsonValue ν)}
    (hs : DenotesItems h F items ts) : items.isEmpty = ts.isEmpty := by
  cases hs <;> rfl

theorem DenotesItems.forall_iff {p : Object ν → Prop} {q : JsonValue ν → Prop}
    (hpq : ∀ {v : Object ν} {t : JsonValue ν}, Denotes h F v t → (p v ↔ q t))
    {items : List (Object ν)} {ts : List (JsonValue ν)} :
    DenotesItems h F items ts → ((∀ v ∈ items, p v) ↔ ∀ t ∈ ts, q t)
  | .nil => by simp
  | .cons hv hs => by
    rw [List.forall_mem_cons,List.forall_mem_cons,hpq hv,hs.forall_iff hpq]

theorem DenotesMembers.keys {members : List (Text × Object ν)} {ts : List (Text × JsonValue ν)} :
    DenotesMembers h F members ts → members.map Prod.fst = ts.map Prod.fst
  | .nil => rfl
  | .cons key _ hs => congrArg (List.cons key) hs.keys

/-- The values that two objects of one meaning give to a key have one meaning. -/
theorem DenotesMembers.lookup {members : List (Text × Object ν)} {ts : List (Text × JsonValue ν)}
    (key : Text) : DenotesMembers h F members ts →
      Denotes h F ((members.lookup key).getD .none) ((ts.lookup key).getD .null)
  | .nil => .null
  | .cons key' hv hs => by
    rw [List.lookup_cons,List.lookup_cons]
    split
    · exact hv
    · exact hs.lookup key

/-- The containers that `F` allows are still there, and `F'` allows them too. -/
def Heap.Carries (h h' : Heap ν) (F F' : Bool → Prop) : Prop :=
  ∀ (a : Nat) (c : Cell ν), h[a]? = some c → F c.frozen → h'[a]? = some c ∧ F' c.frozen

mutual

/-- What an object stands for depends on the containers in it alone. -/
theorem Denotes.carry (hcells : h.Carries h' F F') {v : Object ν} {t : JsonValue ν} :
    Denotes h F v t → Denotes h' F' v t
  | .null => .null
  | .bool b => .bool b
  | .number n => .number n
  | .string s => .string s
  | .array hcell hF hs =>
    have hkept := hcells _ _ hcell hF
    .array hkept.1 hkept.2 (hs.carry hcells)
  | .object hcell hF hkeys hs =>
    have hkept := hcells _ _ hcell hF
    .object hkept.1 hkept.2 hkeys (hs.carry hcells)

theorem DenotesItems.carry (hcells : h.Carries h' F F') {items : List (Object ν)}
    {ts : List (JsonValue ν)} : DenotesItems h F items ts → DenotesItems h' F' items ts
  | .nil => .nil
  | .cons hv hs => .cons (hv.carry hcells) (hs.carry hcells)

theorem DenotesMembers.carry (hcells : h.Carries h' F F') {members : List (Text × Object ν)}
    {ts : List (Text × JsonValue ν)} :
    DenotesMembers h F members ts → DenotesMembers h' F' members ts
  | .nil => .nil
  | .cons key hv hs => .cons key (hv.carry hcells) (hs.carry hcells)

end

theorem Heap.carries_kept (hh : h <+: h') (F : Bool → Prop) : h.Carries h' F F :=
  fun _ _ hc hF => ⟨cell_kept hh hc,hF⟩

theorem Heap.Later.carries (hh : h.Later h') : h.Carries h' (· = true) (· = true) :=
  fun a c hc hF => ⟨hh a c hc hF,hF⟩

mutual

theorem Denotes.distinct {v : Object ν} {t : JsonValue ν} : Denotes h F v t → t.Distinct
  | .null | .bool _ | .number _ | .string _ => trivial
  | .array _ _ hs => hs.distinct
  | .object _ _ hkeys hs => ⟨hkeys,hs.distinct⟩

theorem DenotesItems.distinct {items : List (Object ν)} {ts : List (JsonValue ν)} :
    DenotesItems h F items ts → JsonValue.DistinctItems ts
  | .nil => trivial
  | .cons hv hs => ⟨hv.distinct,hs.distinct⟩

theorem DenotesMembers.distinct {members : List (Text × Object ν)}
    {ts : List (Text × JsonValue ν)} :
    DenotesMembers h F members ts → JsonValue.DistinctMembers ts
  | .nil => trivial
  | .cons _ hv hs => ⟨hv.distinct,hs.distinct⟩

end

end Denotes

section Copy

/-- How objects are copied: which sequences are entered, which classes are refused and whether
the copies are frozen. -/
structure Copying (ε : Type) where
  enters : Bool → Bool
  refuses : String → Option ε
  frozen : Bool
  tooDeep : ε

/-- A copy, made by as many calls inside each other as `stack` allows. -/
def copy (how : Copying ε) : Nat → Object ν → Txn (Heap ν) ε (Object ν)
  | 0, _ => .fail how.tooDeep
  | stack+1, v => do
    match ← Txn.select (Heap.cell · v) with
    | none => pure v
    | some (.mapping _ members) =>
      let copies ← members.mapM' fun m => Prod.mk m.1 <$> copy how stack m.2
      alloc (.mapping how.frozen copies)
    | some (.sequence frozen items) =>
      if how.enters frozen then
        let copies ← items.mapM' (copy how stack)
        alloc (.sequence how.frozen copies)
      else pure v
    | some (.other className) =>
      match how.refuses className with
      | none => pure v
      | some e => .fail e

variable {h₀ : Heap ν} {F : Bool → Prop} {how : Copying ε}

mutual

/-- A copy stands for what its original stands for. -/
theorem Denotes.copy (hF : ∀ b, F b → how.enters b = true) {v : Object ν} {t : JsonValue ν} :
    Denotes h₀ F v t → ∀ {h : Heap ν} {stack : Nat}, h₀ <+: h → t.depth < stack →
      ∃ v' h', (Library.copy how stack v).run h = .ok (v',h') ∧ h <+: h' ∧
        Denotes h' (· = how.frozen) v' t
  | .null, h, stack+1, hh, _ => ⟨.none,h,rfl,List.prefix_rfl,.null⟩
  | .bool b, h, stack+1, hh, _ => ⟨.bool b,h,rfl,List.prefix_rfl,.bool b⟩
  | .number n, h, stack+1, hh, _ => ⟨.number n,h,rfl,List.prefix_rfl,.number n⟩
  | .string s, h, stack+1, hh, _ => ⟨.string s,h,rfl,List.prefix_rfl,.string s⟩
  | .array hcell hFa hs, h, stack+1, hh, hstack => by
    rw [JsonValue.depth] at hstack
    obtain ⟨copies,h',hrun,hgrows,hs'⟩ := hs.copy hF hh (Nat.lt_of_succ_lt_succ hstack)
    refine ⟨.ref h'.length,_,?_,hgrows.trans (List.prefix_append h' _),
      .array (h'.cell_last _) rfl (hs'.carry (Heap.carries_kept (List.prefix_append h' _) _))⟩
    rw [Library.copy,Txn.run_bind_of (Txn.run_select _)]
    simp only [Heap.cell,Heap.cell_kept hh hcell,hF _ hFa,if_true]
    rw [Txn.run_bind_of hrun,run_alloc]
  | .object hcell hFa hkeys hs, h, stack+1, hh, hstack => by
    rw [JsonValue.depth] at hstack
    obtain ⟨copies,h',hrun,hgrows,hs'⟩ := hs.copy hF hh (Nat.lt_of_succ_lt_succ hstack)
    refine ⟨.ref h'.length,_,?_,hgrows.trans (List.prefix_append h' _),
      .object (h'.cell_last _) rfl hkeys
        (hs'.carry (Heap.carries_kept (List.prefix_append h' _) _))⟩
    rw [Library.copy,Txn.run_bind_of (Txn.run_select _)]
    simp only [Heap.cell,Heap.cell_kept hh hcell]
    rw [Txn.run_bind_of hrun,run_alloc]

theorem DenotesItems.copy (hF : ∀ b, F b → how.enters b = true) {items : List (Object ν)}
    {ts : List (JsonValue ν)} :
    DenotesItems h₀ F items ts → ∀ {h : Heap ν} {stack : Nat}, h₀ <+: h →
      JsonValue.depthItems ts < stack →
      ∃ items' h', (items.mapM' (Library.copy how stack)).run h = .ok (items',h') ∧ h <+: h' ∧
        DenotesItems h' (· = how.frozen) items' ts
  | .nil, h, _, _, _ => ⟨[],h,rfl,List.prefix_rfl,.nil⟩
  | .cons hv hs, h, stack, hh, hstack => by
    obtain ⟨hdepth,hrest⟩ := Nat.max_lt.mp hstack
    obtain ⟨v',h₁,hrun₁,hgrows₁,hv'⟩ := hv.copy hF hh hdepth
    obtain ⟨items',h₂,hrun₂,hgrows₂,hs'⟩ := hs.copy hF (hh.trans hgrows₁) hrest
    refine ⟨v'::items',h₂,?_,hgrows₁.trans hgrows₂,
      .cons (hv'.carry (Heap.carries_kept hgrows₂ _)) hs'⟩
    rw [List.mapM'_cons,Txn.run_bind_of hrun₁,Txn.run_bind_of hrun₂,Txn.run_pure]

theorem DenotesMembers.copy (hF : ∀ b, F b → how.enters b = true)
    {members : List (Text × Object ν)} {ts : List (Text × JsonValue ν)} :
    DenotesMembers h₀ F members ts → ∀ {h : Heap ν} {stack : Nat}, h₀ <+: h →
      JsonValue.depthMembers ts < stack →
      ∃ members' h', (members.mapM' fun m => Prod.mk m.1 <$> Library.copy how stack m.2).run h =
          .ok (members',h') ∧ h <+: h' ∧
        DenotesMembers h' (· = how.frozen) members' ts
  | .nil, h, _, _, _ => ⟨[],h,rfl,List.prefix_rfl,.nil⟩
  | .cons key hv hs, h, stack, hh, hstack => by
    obtain ⟨hdepth,hrest⟩ := Nat.max_lt.mp hstack
    obtain ⟨v',h₁,hrun₁,hgrows₁,hv'⟩ := hv.copy hF hh hdepth
    obtain ⟨members',h₂,hrun₂,hgrows₂,hs'⟩ := hs.copy hF (hh.trans hgrows₁) hrest
    have hmember := (Txn.map_ok (Prod.mk key) _).mpr ⟨v',hrun₁,rfl⟩
    refine ⟨(key,v')::members',h₂,?_,hgrows₁.trans hgrows₂,
      .cons key (hv'.carry (Heap.carries_kept hgrows₂ _)) hs'⟩
    rw [List.mapM'_cons,Txn.run_bind_of hmember,Txn.run_bind_of hrun₂,Txn.run_pure]

end

end Copy

section Json

/-- The JSON value of an object, unless a class in it has none. -/
def readObject (h : Heap ν) (unserializable : String → ε) (tooDeep : ε) :
    Nat → Object ν → Except ε (JsonValue ν)
  | 0, _ => .error tooDeep
  | _+1, .none => .ok .null
  | _+1, .bool b => .ok (.bool b)
  | _+1, .number n => .ok (.number n)
  | _+1, .string s => .ok (.string s)
  | stack+1, .ref a =>
    match h[a]? with
    | some (.sequence _ items) =>
      JsonValue.array <$> items.mapM' (readObject h unserializable tooDeep stack)
    | some (.mapping false members) =>
      JsonValue.object <$> members.mapM' fun m =>
        Prod.mk m.1 <$> readObject h unserializable tooDeep stack m.2
    | some (.mapping true _) => .error (unserializable "mappingproxy")
    | some (.other className) => .error (unserializable className)
    | none => .error (unserializable "object")

variable {h h₀ : Heap ν} {F : Bool → Prop} {unserializable : String → ε} {tooDeep : ε}

mutual

/-- An object that is no proxy and holds none is read as what it stands for. -/
theorem Denotes.read (hF : ∀ b, F b → b = false) {v : Object ν} {t : JsonValue ν} :
    Denotes h F v t → ∀ {stack : Nat}, t.depth < stack →
      readObject h unserializable tooDeep stack v = .ok t
  | .null, stack+1, _ | .bool _, stack+1, _ | .number _, stack+1, _ | .string _, stack+1, _ => rfl
  | .array hcell hFa hs, stack+1, hstack => by
    rw [readObject,hcell]
    simp only [hs.read hF (Nat.lt_of_succ_lt_succ hstack)]
    rfl
  | .object hcell hFa _ hs, stack+1, hstack => by
    cases hF _ hFa
    rw [readObject,hcell]
    simp only [hs.read hF (Nat.lt_of_succ_lt_succ hstack)]
    rfl

theorem DenotesItems.read (hF : ∀ b, F b → b = false) {items : List (Object ν)}
    {ts : List (JsonValue ν)} :
    DenotesItems h F items ts → ∀ {stack : Nat}, JsonValue.depthItems ts < stack →
      items.mapM' (readObject h unserializable tooDeep stack) = .ok ts
  | .nil, _, _ => rfl
  | .cons hv hs, stack, hstack => by
    obtain ⟨hdepth,hrest⟩ := Nat.max_lt.mp hstack
    rw [List.mapM'_cons,hv.read hF hdepth,hs.read hF hrest]
    rfl

theorem DenotesMembers.read (hF : ∀ b, F b → b = false) {members : List (Text × Object ν)}
    {ts : List (Text × JsonValue ν)} :
    DenotesMembers h F members ts → ∀ {stack : Nat}, JsonValue.depthMembers ts < stack →
      (members.mapM' fun m => Prod.mk m.1 <$> readObject h unserializable tooDeep stack m.2) =
        .ok ts
  | .nil, _, _ => rfl
  | .cons _ hv hs, stack, hstack => by
    obtain ⟨hdepth,hrest⟩ := Nat.max_lt.mp hstack
    rw [List.mapM'_cons,hv.read hF hdepth,hs.read hF hrest]
    rfl

end

mutual

/-- New objects for a JSON value. -/
def buildObject : JsonValue ν → Heap ν → Object ν × Heap ν
  | .null, h => (.none,h)
  | .bool b, h => (.bool b,h)
  | .number n, h => (.number n,h)
  | .string s, h => (.string s,h)
  | .array items, h =>
    let built := buildItems items h
    (.ref built.2.length,built.2++[.sequence false built.1])
  | .object members, h =>
    let built := buildMembers members h
    (.ref built.2.length,built.2++[.mapping false built.1])

def buildItems : List (JsonValue ν) → Heap ν → List (Object ν) × Heap ν
  | [], h => ([],h)
  | t::items, h =>
    let first := buildObject t h
    let rest := buildItems items first.2
    (first.1::rest.1,rest.2)

def buildMembers : List (Text × JsonValue ν) → Heap ν → List (Text × Object ν) × Heap ν
  | [], h => ([],h)
  | (key,t)::members, h =>
    let first := buildObject t h
    let rest := buildMembers members first.2
    ((key,first.1)::rest.1,rest.2)

end

mutual

/-- The objects that are built for a value stand for it, and nobody else holds them. -/
theorem buildObject_denotes : ∀ {t : JsonValue ν}, t.Distinct → ∀ h : Heap ν,
    h <+: (buildObject t h).2 ∧ Denotes (buildObject t h).2 (· = false) (buildObject t h).1 t
  | .null, _, h => ⟨List.prefix_rfl,.null⟩
  | .bool b, _, h => ⟨List.prefix_rfl,.bool b⟩
  | .number n, _, h => ⟨List.prefix_rfl,.number n⟩
  | .string s, _, h => ⟨List.prefix_rfl,.string s⟩
  | .array items, ht, h => by
    rw [JsonValue.Distinct] at ht
    obtain ⟨hgrows,hs⟩ := buildItems_denotes ht h
    have hadd := List.prefix_append (buildItems items h).2
      [.sequence false (buildItems items h).1]
    exact ⟨hgrows.trans hadd,.array (Heap.cell_last _ _) rfl
      (hs.carry (Heap.carries_kept hadd _))⟩
  | .object members, ht, h => by
    obtain ⟨hgrows,hs⟩ := buildMembers_denotes ht.2 h
    have hadd := List.prefix_append (buildMembers members h).2
      [.mapping false (buildMembers members h).1]
    exact ⟨hgrows.trans hadd,.object (Heap.cell_last _ _) rfl ht.1
      (hs.carry (Heap.carries_kept hadd _))⟩

theorem buildItems_denotes : ∀ {items : List (JsonValue ν)}, JsonValue.DistinctItems items →
    ∀ h : Heap ν, h <+: (buildItems items h).2 ∧
      DenotesItems (buildItems items h).2 (· = false) (buildItems items h).1 items
  | [], _, h => ⟨List.prefix_rfl,.nil⟩
  | t::items, ht, h => by
    obtain ⟨hgrows₁,hv⟩ := buildObject_denotes ht.1 h
    obtain ⟨hgrows₂,hs⟩ := buildItems_denotes ht.2 (buildObject t h).2
    exact ⟨hgrows₁.trans hgrows₂,.cons (hv.carry (Heap.carries_kept hgrows₂ _)) hs⟩

theorem buildMembers_denotes : ∀ {members : List (Text × JsonValue ν)},
    JsonValue.DistinctMembers members →
    ∀ h : Heap ν, h <+: (buildMembers members h).2 ∧
      DenotesMembers (buildMembers members h).2 (· = false) (buildMembers members h).1 members
  | [], _, h => ⟨List.prefix_rfl,.nil⟩
  | (key,t)::members, ht, h => by
    obtain ⟨hgrows₁,hv⟩ := buildObject_denotes ht.1 h
    obtain ⟨hgrows₂,hs⟩ := buildMembers_denotes ht.2 (buildObject t h).2
    exact ⟨hgrows₁.trans hgrows₂,.cons key (hv.carry (Heap.carries_kept hgrows₂ _)) hs⟩

end

end Json
end VermayAgent.Library
