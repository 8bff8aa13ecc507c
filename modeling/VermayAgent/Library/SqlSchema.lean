import Mathlib.Data.List.Forall2
import Mathlib.Tactic.Common
import VermayAgent.Library.Resumption

/-! The statements that make and change the schema of an SQL database, with the rows it holds.
Types and column constraints are left out; keys, unique indexes and the names of objects are not. -/
namespace VermayAgent.Library

inductive SqlValue where
  | null
  | integer (value : Int)
  | text (value : String)
deriving DecidableEq, Repr

structure SqlTable where
  name : String
  columns : List String
  primaryKey : Option String
  rows : List (List SqlValue)
deriving DecidableEq, Repr

structure SqlIndex where
  name : String
  table : String
  columns : List String
  unique : Bool
  whereNotNull : Option String
deriving DecidableEq, Repr

structure SqlTrigger where
  name : String
  table : String
deriving DecidableEq, Repr

structure SqlDb where
  tables : List SqlTable
  indexes : List SqlIndex
  views : List String
  triggers : List SqlTrigger
deriving DecidableEq, Repr

inductive SqlKind where
  | view | trigger | index | table
deriving DecidableEq, Repr

/-- A statement: `CREATE … IF NOT EXISTS`, `ALTER TABLE … ADD COLUMN`, `INSERT`, `INSERT OR REPLACE`
and `DROP … IF EXISTS`. -/
inductive SqlStatement where
  | createTable (name : String) (columns : List String) (primaryKey : Option String)
  | createIndex (index : SqlIndex)
  | addColumn (table column : String) (default : SqlValue)
  | insert (table : String) (fields : List (String × SqlValue))
  | insertOrReplace (table : String) (fields : List (String × SqlValue))
  | drop (kind : SqlKind) (name : String)
deriving DecidableEq, Repr

namespace SqlTable

def value (t : SqlTable) (column : String) (row : List SqlValue) : Option SqlValue :=
  (t.columns.zip row).lookup column

/-- The row that an insert of some fields makes. -/
def row (t : SqlTable) (fields : List (String × SqlValue)) : List SqlValue :=
  t.columns.map fun column => (fields.lookup column).getD .null

theorem value_row {t : SqlTable} (fields : List (String × SqlValue)) {column : String}
    (h : column ∈ t.columns) :
    t.value column (t.row fields) = some ((fields.lookup column).getD .null) := by
  rw [value,row]
  generalize t.columns = columns at h
  induction columns with
  | nil => cases h
  | cons c cs ih =>
    rw [List.map_cons,List.zip_cons_cons,List.lookup_cons]
    by_cases hc : column = c
    · subst hc
      simp
    · have hmem : column ∈ cs := (List.mem_cons.mp h).resolve_left hc
      rw [beq_false_of_ne hc]
      exact ih hmem

/-- The table with a row of some fields at its end. -/
def inserted (t : SqlTable) (fields : List (String × SqlValue)) : SqlTable :=
  {t with rows := t.rows ++ [t.row fields]}

@[simp] theorem inserted_name (t : SqlTable) (fields : List (String × SqlValue)) :
    (t.inserted fields).name = t.name := rfl

def sameKey (t : SqlTable) (row row' : List SqlValue) : Bool :=
  match t.primaryKey.bind fun column => t.value column row with
  | none | some .null => false
  | some v => (t.primaryKey.bind fun column => t.value column row') = some v

end SqlTable

/-- The key of a row in an index; a row with a null in it has none. -/
def SqlIndex.key (i : SqlIndex) (t : SqlTable) (row : List SqlValue) : Option (List SqlValue) :=
  let values := i.columns.map fun column => (t.value column row).getD .null
  if (∀ column ∈ i.whereNotNull, (t.value column row).getD .null ≠ .null) ∧ .null ∉ values
  then some values else none

def SqlIndex.holds (i : SqlIndex) (t : SqlTable) : Bool :=
  !i.unique || decide (t.rows.filterMap (i.key t)).Nodup

namespace SqlDb

def table? (db : SqlDb) (name : String) : Option SqlTable := db.tables.find? fun t => t.name = name

def hasTable (db : SqlDb) (name : String) : Bool := db.tables.any fun t => t.name = name

def hasView (db : SqlDb) (name : String) : Bool := db.views.any fun v => v = name

def hasIndex (db : SqlDb) (name : String) : Bool := db.indexes.any fun i => i.name = name

/-- Two rows that cannot stand beside each other. -/
def conflicts (db : SqlDb) (t : SqlTable) (row row' : List SqlValue) : Bool :=
  t.sameKey row row' || db.indexes.any fun i =>
    i.table = t.name && i.unique && (i.key t row).isSome && i.key t row = i.key t row'

/-- The database with another table in the place of the one of its name. -/
def withTable (db : SqlDb) (t : SqlTable) : SqlDb :=
  {db with tables := db.tables.map fun u => if u.name = t.name then t else u}

/-- The table after the replacement of a row. -/
def replaced (db : SqlDb) (t : SqlTable) (fields : List (String × SqlValue)) : SqlTable :=
  {t with rows := t.rows.filter (fun row => !db.conflicts t (t.row fields) row) ++ [t.row fields]}

end SqlDb

namespace SqlStatement

def run : SqlStatement → SqlDb → Option SqlDb
  | createTable name columns primaryKey, db =>
    if db.hasTable name || db.hasView name then some db
    else if db.hasIndex name then none
    else some {db with tables := db.tables ++ [⟨name,columns,primaryKey,[]⟩]}
  | createIndex i, db =>
    match db.table? i.table with
    | none => none
    | some t =>
      if db.hasTable i.name || db.hasView i.name then none
      else if db.hasIndex i.name then some db
      else if (∀ column ∈ i.columns ++ i.whereNotNull.toList, column ∈ t.columns) ∧ i.holds t then
        some {db with indexes := db.indexes ++ [i]}
      else none
  | addColumn table column default, db =>
    match db.table? table with
    | none => none
    | some t =>
      if column ∈ t.columns then none
      else some (db.withTable {t with
        columns := t.columns ++ [column]
        rows := t.rows.map fun row => row ++ [default]})
  | insert table fields, db =>
    match db.table? table with
    | none => none
    | some t =>
      if (∀ field ∈ fields, field.1 ∈ t.columns) ∧ ¬t.rows.any (db.conflicts t (t.row fields)) then
        some (db.withTable (t.inserted fields))
      else none
  | insertOrReplace table fields, db =>
    match db.table? table with
    | none => none
    | some t =>
      if ∀ field ∈ fields, field.1 ∈ t.columns then some (db.withTable (db.replaced t fields))
      else none
  | drop .view name, db =>
    if db.hasTable name then none
    else some {db with
      views := db.views.filter fun v => v ≠ name
      triggers := if db.hasView name then db.triggers.filter fun t => t.table ≠ name
        else db.triggers}
  | drop .trigger name, db =>
    some {db with triggers := db.triggers.filter fun t => t.name ≠ name}
  | drop .index name, db =>
    some {db with indexes := db.indexes.filter fun i => i.name ≠ name}
  | drop .table name, db =>
    if db.hasView name then none
    else if db.hasTable name then
      some {db with
        tables := db.tables.filter fun t => t.name ≠ name
        indexes := db.indexes.filter fun i => i.table ≠ name
        triggers := db.triggers.filter fun t => t.table ≠ name}
    else some db

end SqlStatement

namespace SqlDb

variable {db db' : SqlDb} {t : SqlTable} {name : String}

@[simp] theorem replaced_name (db : SqlDb) (t : SqlTable) (fields : List (String × SqlValue)) :
    (db.replaced t fields).name = t.name := rfl

theorem table?_name (h : db.table? name = some t) : t.name = name := by
  simpa using List.find?_some h

theorem hasTable_eq (db : SqlDb) (name : String) : db.hasTable name = (db.table? name).isSome := by
  rw [hasTable,table?,List.isSome_find?]

/-- A new last table is found under its name if no other one is. -/
theorem table?_append (db : SqlDb) (t : SqlTable) (name : String) :
    SqlDb.table? {db with tables := db.tables ++ [t]} name =
      (db.table? name).or (if t.name = name then some t else none) := by
  rw [table?,List.find?_append,List.find?_singleton]
  simp only [decide_eq_true_eq]
  rfl

theorem table?_withTable (db : SqlDb) (t : SqlTable) (name : String) :
    (db.withTable t).table? name =
      if t.name = name then (db.table? name).map fun _ => t else db.table? name := by
  rw [table?,withTable,table?]
  induction db.tables with
  | nil => simp
  | cons u us ih =>
    rw [List.map_cons,List.find?_cons,List.find?_cons,ih]
    by_cases hu : u.name = t.name
    · rw [if_pos hu,hu]
      by_cases ht : t.name = name
      · simp [ht]
      · simp [ht]
    · rw [if_neg hu]
      by_cases ht : t.name = name
      · have hne : u.name ≠ name := fun h => hu (h.trans ht.symm)
        simp [ht,hne]
      · simp [ht]

theorem hasTable_withTable (db : SqlDb) (t : SqlTable) (name : String) :
    (db.withTable t).hasTable name = db.hasTable name := by
  rw [hasTable_eq,hasTable_eq,table?_withTable]
  split_ifs <;> simp

theorem withTable_withTable (db : SqlDb) (t : SqlTable) :
    (db.withTable t).withTable t = db.withTable t := by
  simp only [withTable,List.map_map]
  congr 1
  refine List.map_congr_left fun u _ => ?_
  by_cases h : u.name = t.name <;> simp [h]

theorem withTable_comm (db : SqlDb) {t u : SqlTable} (h : t.name ≠ u.name) :
    (db.withTable t).withTable u = (db.withTable u).withTable t := by
  simp only [withTable,List.map_map]
  congr 1
  refine List.map_congr_left fun v _ => ?_
  by_cases ht : v.name = t.name
  · have hu : v.name ≠ u.name := fun hu => h (ht.symm.trans hu)
    simp [ht,h]
  · by_cases hu : v.name = u.name
    · simp [hu,h.symm]
    · simp [ht,hu]

end SqlDb

section Creating

/-- The statements that are written to be run again. -/
def SqlStatement.Creates : SqlStatement → Prop
  | createTable _ _ _ | createIndex _ | insertOrReplace _ _ => True
  | _ => False

/-- A row that is replaced is not replaced by another statement, and gets no new conflicts. -/
def SqlStatement.Independent : SqlStatement → SqlStatement → Prop
  | insertOrReplace table fields, insertOrReplace table' fields' =>
    table ≠ table' ∨ fields = fields'
  | insertOrReplace table _, createIndex i => i.table ≠ table
  | _, _ => True

/-- The row that is replaced has a key in the table that the other statement creates. -/
def SqlStatement.KeyedBy : SqlStatement → SqlStatement → Prop
  | insertOrReplace table fields, createTable name columns primaryKey =>
    let t : SqlTable := ⟨name,columns,primaryKey,[]⟩
    name = table → t.sameKey (t.row fields) (t.row fields) = true
  | _, _ => True

instance (a : SqlStatement) : Decidable a.Creates := by
  unfold SqlStatement.Creates
  split <;> infer_instance

instance (a b : SqlStatement) : Decidable (a.Independent b) := by
  unfold SqlStatement.Independent
  split <;> infer_instance

instance (a b : SqlStatement) : Decidable (a.KeyedBy b) := by
  unfold SqlStatement.KeyedBy
  split <;> infer_instance

open SqlStatement

variable {db db' : SqlDb}

/-- The statements that build a schema up; of the drops only that of an index. -/
def SqlStatement.Builds : SqlStatement → Prop
  | drop kind _ => kind = .index
  | _ => True

/-- What a building statement can do. -/
inductive Effect : SqlStatement → SqlDb → SqlDb → Prop
  | unchanged {a : SqlStatement} {db : SqlDb} : Effect a db db
  | table {name : String} {columns : List String} {primaryKey : Option String} {db : SqlDb}
      (htable : db.hasTable name = false) (hindex : db.hasIndex name = false) :
      Effect (createTable name columns primaryKey) db
        {db with tables := db.tables ++ [⟨name,columns,primaryKey,[]⟩]}
  | index {i : SqlIndex} {db : SqlDb} (htable : db.hasTable i.name = false)
      (hview : db.hasView i.name = false) :
      Effect (createIndex i) db {db with indexes := db.indexes ++ [i]}
  | column {column : String} {default : SqlValue} {db : SqlDb} (t : SqlTable)
      (ht : db.table? t.name = some t) (hcolumn : column ∉ t.columns) :
      Effect (addColumn t.name column default) db (db.withTable {t with
        columns := t.columns ++ [column]
        rows := t.rows.map fun row => row ++ [default]})
  | inserted {fields : List (String × SqlValue)} {db : SqlDb} (t : SqlTable)
      (ht : db.table? t.name = some t) :
      Effect (insert t.name fields) db (db.withTable (t.inserted fields))
  | replaced {fields : List (String × SqlValue)} {db : SqlDb} (t : SqlTable)
      (ht : db.table? t.name = some t) :
      Effect (insertOrReplace t.name fields) db (db.withTable (db.replaced t fields))
  | dropped {name : String} {db : SqlDb} :
      Effect (drop .index name) db
        {db with indexes := db.indexes.filter fun i => i.name ≠ name}

theorem run_effect {a : SqlStatement} (ha : a.Builds) (h : a.run db = some db') :
    Effect a db db' := by
  cases a with
  | createTable name columns primaryKey =>
    rw [run] at h
    split_ifs at h with hexists hindex
    · cases h
      exact .unchanged
    · cases h
      simp only [Bool.or_eq_true,not_or,Bool.not_eq_true] at hexists
      exact .table hexists.1 (by simpa using hindex)
  | createIndex i =>
    rw [run] at h
    split at h
    · cases h
    · split_ifs at h with hname hindex hholds
      · cases h
        exact .unchanged
      · cases h
        simp only [Bool.or_eq_true,not_or,Bool.not_eq_true] at hname
        exact .index hname.1 hname.2
  | addColumn table column default =>
    rw [run] at h
    split at h
    · cases h
    · rename_i t ht
      split_ifs at h with hcolumn
      cases h
      cases SqlDb.table?_name ht
      exact .column t ht hcolumn
  | insert table fields =>
    rw [run] at h
    split at h
    · cases h
    · rename_i t ht
      split_ifs at h
      cases h
      cases SqlDb.table?_name ht
      exact .inserted t ht
  | insertOrReplace table fields =>
    rw [run] at h
    split at h
    · cases h
    · rename_i t ht
      split_ifs at h
      cases h
      cases SqlDb.table?_name ht
      exact .replaced t ht
  | drop kind name =>
    cases ha
    cases h
    exact .dropped

theorem run_insert {table : String} {fields : List (String × SqlValue)} :
    run (insert table fields) db = some db' ↔ ∃ t, db.table? table = some t ∧
      (∀ field ∈ fields, field.1 ∈ t.columns) ∧ ¬t.rows.any (db.conflicts t (t.row fields)) ∧
      db' = db.withTable (t.inserted fields) := by
  rw [run]
  cases db.table? table with
  | none => simp
  | some t =>
    simp only [Option.some.injEq,exists_eq_left']
    split_ifs with h
    · rw [Option.some.injEq,eq_comm]
      exact ⟨fun heq => ⟨h.1,h.2,heq⟩,fun heq => heq.2.2⟩
    · constructor
      · intro hrun
        cases hrun
      · intro hall
        exact absurd ⟨hall.1,hall.2.1⟩ h

theorem SqlStatement.Creates.builds {a : SqlStatement} (ha : a.Creates) : a.Builds := by
  cases a with
  | drop => cases ha
  | _ => trivial

theorem Effect.hasTable {a : SqlStatement} {name : String} (h : Effect a db db')
    (ht : db.hasTable name = true) : db'.hasTable name = true := by
  cases h with
  | table htable hindex => simpa [SqlDb.hasTable] using .inl (by simpa [SqlDb.hasTable] using ht)
  | column => rw [SqlDb.hasTable_withTable,ht]
  | inserted => rw [SqlDb.hasTable_withTable,ht]
  | replaced => rw [SqlDb.hasTable_withTable,ht]
  | _ => exact ht

theorem Effect.views {a : SqlStatement} (h : Effect a db db') : db'.views = db.views := by
  cases h <;> rfl

theorem Effect.hasIndex {a : SqlStatement} {name : String} (h : Effect a db db') (ha : a.Creates)
    (hi : db.hasIndex name = true) : db'.hasIndex name = true := by
  cases h with
  | index htable hview => simpa [SqlDb.hasIndex] using .inl (by simpa [SqlDb.hasIndex] using hi)
  | dropped => cases ha
  | _ => exact hi

/-- No table is made under the name of an index. -/
theorem Effect.noTable {a : SqlStatement} {name : String} (h : Effect a db db')
    (hi : db.hasIndex name = true) (ht : db.hasTable name = false) : db'.hasTable name = false := by
  cases h with
  | @table name' columns primaryKey db htable hindex =>
    have hne : name' ≠ name := by
      rintro rfl
      cases hindex.symm.trans hi
    rw [SqlDb.hasTable,List.any_append]
    simp [hne]
    simpa [SqlDb.hasTable] using ht
  | column => rw [SqlDb.hasTable_withTable,ht]
  | inserted => rw [SqlDb.hasTable_withTable,ht]
  | replaced => rw [SqlDb.hasTable_withTable,ht]
  | _ => exact ht

theorem settled_createTable {name : String} {columns : List String} {primaryKey : Option String} :
    Settled run (createTable name columns primaryKey) db ↔
      db.hasTable name = true ∨ db.hasView name = true := by
  rw [Settled,run]
  split_ifs with hexists hindex
  · simpa using hexists
  · simpa using hexists
  · constructor
    · intro h
      have hlength := congrArg (fun db => db.tables.length) (Option.some.inj h)
      simp at hlength
    · intro h
      simp [h] at hexists

theorem settled_createIndex {i : SqlIndex} :
    Settled run (createIndex i) db ↔ (db.table? i.table).isSome ∧ db.hasTable i.name = false ∧
      db.hasView i.name = false ∧ db.hasIndex i.name = true := by
  rw [Settled,run]
  cases ht : db.table? i.table with
  | none => simp
  | some t =>
    simp only
    split_ifs with hname hindex hholds
    · simp only [Bool.or_eq_true] at hname
      constructor
      · intro h
        cases h
      · rintro ⟨_,h₁,h₂,_⟩
        rw [h₁,h₂] at hname
        simp at hname
    · simp only [Bool.or_eq_true,not_or,Bool.not_eq_true] at hname
      exact iff_of_true rfl ⟨rfl,hname.1,hname.2,hindex⟩
    · constructor
      · intro h
        have hlength := congrArg (fun db => db.indexes.length) (Option.some.inj h)
        simp at hlength
      · rintro ⟨_,_,_,h⟩
        exact absurd h hindex
    · constructor
      · intro h
        cases h
      · rintro ⟨_,_,_,h⟩
        exact absurd h hindex

theorem settled_insertOrReplace {table : String} {fields : List (String × SqlValue)} :
    Settled run (insertOrReplace table fields) db ↔ ∃ t, db.table? table = some t ∧
      (∀ field ∈ fields, field.1 ∈ t.columns) ∧ db.withTable (db.replaced t fields) = db := by
  rw [Settled,run]
  cases ht : db.table? table with
  | none => simp
  | some t =>
    simp only [Option.some.injEq,exists_eq_left']
    split_ifs with hfields
    · rw [Option.some_inj]
      exact ⟨fun h => ⟨hfields,h⟩,fun h => h.2⟩
    · constructor
      · intro h
        cases h
      · exact fun h => absurd h.1 hfields

/-- The rows that the script replaces have a key. -/
def Keyed (script : List SqlStatement) (db : SqlDb) : Prop :=
  ∀ table fields t, insertOrReplace table fields ∈ script → db.table? table = some t →
    t.sameKey (t.row fields) (t.row fields) = true

theorem replaced_replaced {t : SqlTable} {fields : List (String × SqlValue)}
    (hkey : t.sameKey (t.row fields) (t.row fields) = true) :
    (db.withTable (db.replaced t fields)).replaced (db.replaced t fields) fields =
      db.replaced t fields := by
  have hself : db.conflicts t (t.row fields) (t.row fields) = true := by
    rw [SqlDb.conflicts,hkey,Bool.true_or]
  have hsame : ∀ row, (db.withTable (db.replaced t fields)).conflicts (db.replaced t fields)
      ((db.replaced t fields).row fields) row = db.conflicts t (t.row fields) row := fun _ => rfl
  rw [SqlDb.replaced]
  simp only [hsame]
  simp only [SqlDb.replaced,List.filter_append,List.filter_filter,Bool.and_self,hself,Bool.not_true,
    Bool.false_eq_true,not_false_eq_true,List.filter_cons_of_neg,List.filter_nil,List.append_nil]
  rfl

/-- A statement of these settles itself. -/
theorem Effect.settles {script : List SqlStatement} {a : SqlStatement} (h : Effect a db db')
    (hcreates : a.Creates) (ha : a ∈ script) (hkeyed : Keyed script db)
    (hrun : a.run db = some db') : Settled run a db' := by
  cases h with
  | unchanged => exact hrun
  | @table name columns primaryKey db htable hindex =>
    refine settled_createTable.mpr (.inl ?_)
    simp [SqlDb.hasTable]
  | @index i db htable hview =>
    refine settled_createIndex.mpr ⟨?_,htable,hview,by simp [SqlDb.hasIndex]⟩
    rw [run] at hrun
    cases ht : db.table? i.table with
    | none =>
      rw [ht] at hrun
      cases hrun
    | some t =>
      change (db.table? i.table).isSome = true
      rw [ht]
      rfl
  | @replaced fields db t ht =>
    have hfields : ∀ field ∈ fields, field.1 ∈ t.columns := by
      rw [run,ht] at hrun
      simp only at hrun
      split_ifs at hrun with hfields
      exact hfields
    refine settled_insertOrReplace.mpr ⟨db.replaced t fields,?_,hfields,?_⟩
    · rw [SqlDb.table?_withTable,ht]
      exact if_pos rfl
    · rw [replaced_replaced (hkeyed t.name fields t ha ht),SqlDb.withTable_withTable]
  | column => cases hcreates
  | inserted => cases hcreates
  | dropped => cases hcreates

/-- A statement of these does not unsettle one that is independent of it. -/
theorem Effect.settled {a b : SqlStatement} (h : Effect b db db') (ha : a.Creates)
    (hb : b.Creates) (hindependent : a.Independent b) (hsettled : Settled run a db)
    (hrun : b.run db = some db') : Settled run a db' := by
  cases a with
  | createTable name columns primaryKey =>
    rw [settled_createTable] at hsettled ⊢
    rw [SqlDb.hasView,h.views]
    exact hsettled.imp_left h.hasTable
  | createIndex i =>
    rw [settled_createIndex] at hsettled ⊢
    obtain ⟨htable,hname,hview,hindex⟩ := hsettled
    rw [← SqlDb.hasTable_eq] at htable ⊢
    refine ⟨h.hasTable htable,h.noTable hindex hname,?_,h.hasIndex hb hindex⟩
    rw [SqlDb.hasView,h.views]
    exact hview
  | insertOrReplace table fields =>
    obtain ⟨t,ht,hfields,hsame⟩ := settled_insertOrReplace.mp hsettled
    cases SqlDb.table?_name ht
    cases h with
    | unchanged => exact hsettled
    | @table name columns primaryKey db hnone hindex =>
      refine settled_insertOrReplace.mpr ⟨t,?_,hfields,?_⟩
      · rw [SqlDb.table?_append,ht,Option.some_or]
      · have hne : name ≠ t.name := by
          rintro rfl
          rw [SqlDb.hasTable_eq,ht] at hnone
          cases hnone
        have htables := congrArg SqlDb.tables hsame
        have hrest : ∀ us, SqlDb.replaced {db with tables := us} t fields = db.replaced t fields :=
          fun _ => rfl
        simp only [SqlDb.withTable,hrest,List.map_append,List.map_cons,List.map_nil,
          SqlDb.replaced_name,if_neg hne] at htables ⊢
        exact congrArg (fun us =>
          {db with tables := us ++ [SqlTable.mk name columns primaryKey []]}) htables
    | @index i db hnone hview =>
      refine settled_insertOrReplace.mpr ⟨t,ht,hfields,?_⟩
      have hother : i.table ≠ t.name := hindependent
      have hconflicts : ∀ row, SqlDb.conflicts {db with indexes := db.indexes ++ [i]} t
          (t.row fields) row = db.conflicts t (t.row fields) row := by
        intro row
        simp [SqlDb.conflicts,hother]
      rw [SqlDb.replaced]
      simp only [hconflicts]
      have htables := congrArg SqlDb.tables hsame
      simp only [SqlDb.withTable] at htables ⊢
      congr 1
    | @replaced fields' db u hu =>
      by_cases hname : t.name = u.name
      · have hfields' : fields = fields' := hindependent.resolve_left fun h => h hname
        rw [hname,hfields'] at hsettled ⊢
        rw [Option.some.inj (hrun.symm.trans hsettled)]
        exact hsettled
      · refine settled_insertOrReplace.mpr ⟨t,?_,hfields,?_⟩
        · rw [SqlDb.table?_withTable,SqlDb.replaced_name,if_neg (fun h => hname h.symm),ht]
        · change (db.withTable (db.replaced u fields')).withTable (db.replaced t fields) = _
          rw [SqlDb.withTable_comm db (t := db.replaced u fields') (u := db.replaced t fields)
            fun h => hname h.symm,hsame]
    | column => cases hb
    | inserted => cases hb
    | dropped => cases hb
  | addColumn => cases ha
  | insert => cases ha
  | drop => cases ha

theorem Effect.keyed {script : List SqlStatement} {a : SqlStatement} (h : Effect a db db')
    (hcreates : a.Creates) (hkeys : ∀ b ∈ script, b.KeyedBy a) (hkeyed : Keyed script db) :
    Keyed script db' := by
  intro table fields t hmem ht
  cases h with
  | unchanged => exact hkeyed table fields t hmem ht
  | @table name columns primaryKey db htable hindex =>
    rw [SqlDb.table?_append,Option.or_eq_some_iff] at ht
    rcases ht with ht | ⟨_,ht⟩
    · exact hkeyed table fields t hmem ht
    · split_ifs at ht with hname
      cases ht
      exact hkeys _ hmem hname
  | index htable hview => exact hkeyed table fields t hmem ht
  | @replaced fields' db u hu =>
    rw [SqlDb.table?_withTable,SqlDb.replaced_name] at ht
    split_ifs at ht with hname
    · subst hname
      rw [hu] at ht
      cases ht
      exact hkeyed u.name fields u hmem hu
    · exact hkeyed table fields t hmem ht
  | column => cases hcreates
  | inserted => cases hcreates
  | dropped => cases hcreates

/-- A script that creates what is not there, and replaces rows under their keys, can be run
again. -/
theorem repeatable_creating {script : List SqlStatement} (hcreates : ∀ a ∈ script, a.Creates)
    (hindependent : ∀ a ∈ script, ∀ b ∈ script, a.Independent b)
    (hkeys : ∀ a ∈ script, ∀ b ∈ script, a.KeyedBy b) :
    Repeatable run (Keyed script) script where
  keeps a ha _ _ hkeyed h :=
    (run_effect (hcreates a ha).builds h).keyed (hcreates a ha) (fun b hb => hkeys b hb a ha) hkeyed
  settles a ha _ _ hkeyed h :=
    (run_effect (hcreates a ha).builds h).settles (hcreates a ha) ha hkeyed h
  settled a ha b hb _ _ _ hsettled h :=
    (run_effect (hcreates b hb).builds h).settled (hcreates a ha) (hcreates b hb)
      (hindependent a ha b hb) hsettled h

end Creating

section Building

open SqlStatement

variable {db db' : SqlDb} {name : String}

/-- The building statement leaves the table of this name alone. -/
def SqlStatement.Spares (name : String) : SqlStatement → Prop
  | createTable n _ _ | addColumn n _ _ | insert n _ | insertOrReplace n _ => n ≠ name
  | createIndex _ | drop _ _ => True

instance (name : String) (a : SqlStatement) : Decidable (a.Spares name) := by
  unfold SqlStatement.Spares
  split <;> infer_instance

instance (a : SqlStatement) : Decidable a.Builds := by
  unfold SqlStatement.Builds
  split <;> infer_instance

theorem Effect.spares {a : SqlStatement} (h : Effect a db db') (ha : a.Spares name) :
    db'.table? name = db.table? name := by
  cases h with
  | table htable hindex => rw [SqlDb.table?_append,if_neg ha,Option.or_none]
  | column t ht hcolumn => rw [SqlDb.table?_withTable,if_neg ha]
  | inserted t ht => rw [SqlDb.table?_withTable,SqlTable.inserted_name,if_neg ha]
  | replaced t ht => rw [SqlDb.table?_withTable,SqlDb.replaced_name,if_neg ha]
  | _ => rfl

/-- The database has the column. -/
def SqlDb.hasColumn (db : SqlDb) (table column : String) : Bool :=
  (db.table? table).any fun t => column ∈ t.columns

theorem SqlDb.hasColumn_iff {table column : String} :
    db.hasColumn table column = true ↔ ∃ t, db.table? table = some t ∧ column ∈ t.columns := by
  simp [hasColumn,Option.any_eq_true]

theorem Effect.hasColumn {a : SqlStatement} {table column : String} (h : Effect a db db')
    (hcolumn : db.hasColumn table column = true) : db'.hasColumn table column = true := by
  rw [SqlDb.hasColumn_iff] at hcolumn ⊢
  obtain ⟨u,hu,hmem⟩ := hcolumn
  cases h with
  | table htable hindex =>
    refine ⟨u,?_,hmem⟩
    rw [SqlDb.table?_append,hu,Option.some_or]
  | @column column' default db t ht hnew =>
    rw [SqlDb.table?_withTable,hu]
    by_cases hname : t.name = table
    · subst hname
      cases ht.symm.trans hu
      exact ⟨_,if_pos rfl,List.mem_append_left _ hmem⟩
    · exact ⟨u,if_neg hname,hmem⟩
  | inserted t ht =>
    rw [SqlDb.table?_withTable,hu]
    by_cases hname : t.name = table
    · subst hname
      cases ht.symm.trans hu
      exact ⟨_,if_pos rfl,hmem⟩
    · exact ⟨u,if_neg hname,hmem⟩
  | @replaced fields db t ht =>
    rw [SqlDb.table?_withTable,SqlDb.replaced_name,hu]
    by_cases hname : t.name = table
    · subst hname
      cases ht.symm.trans hu
      exact ⟨db.replaced u fields,if_pos rfl,hmem⟩
    · exact ⟨u,if_neg hname,hmem⟩
  | _ => exact ⟨u,hu,hmem⟩

theorem exec_hasColumn {script : List SqlStatement} {table column : String}
    (hbuilds : ∀ a ∈ script, a.Builds) (hexec : exec run script db = some db')
    (hcolumn : db.hasColumn table column = true) : db'.hasColumn table column = true := by
  have hstep : ∀ (a : SqlStatement) s s', s.hasColumn table column = true → a.Builds →
      a.run s = some s' → s'.hasColumn table column = true := fun a s s' hs ha hrun =>
    (run_effect ha hrun).hasColumn hs
  exact exec_invariant_guarded hstep hcolumn (guarded_of_forall (fun a ha _ => hbuilds a ha) db)
    hexec

/-- A column can be added once. -/
theorem addColumn_blocked {table column : String} {default : SqlValue}
    (h : db.hasColumn table column = true) : run (addColumn table column default) db = none := by
  obtain ⟨t,ht,hmem⟩ := SqlDb.hasColumn_iff.mp h
  rw [run,ht]
  exact if_pos hmem

/-- A script that begins with the addition of a column shows that it has begun. -/
theorem oneShot_addColumn {table column : String} {default : SqlValue} {script : List SqlStatement}
    (hbuilds : ∀ a ∈ addColumn table column default::script, a.Builds) :
    OneShot run (fun db => db.hasColumn table column = true)
      (addColumn table column default::script) db := by
  intro done db' hdone hempty hexec
  obtain ⟨a,done,rfl⟩ := List.exists_cons_of_ne_nil hempty
  obtain ⟨rfl,hrest⟩ := List.cons_prefix_cons.mp hdone
  obtain ⟨db₁,hrun,hexec⟩ := exec_cons_eq_some.mp hexec
  refine exec_hasColumn (fun b hb => hbuilds b (List.mem_cons_of_mem _ (hrest.subset hb))) hexec ?_
  rw [SqlDb.hasColumn_iff]
  rw [run] at hrun
  split at hrun
  · cases hrun
  · rename_i t ht
    split_ifs at hrun
    cases hrun
    rw [SqlDb.table?_withTable,ht]
    exact ⟨_,if_pos (SqlDb.table?_name ht),List.mem_append_right _ (List.mem_singleton.mpr rfl)⟩

/-- The statement replaces rows. -/
def SqlStatement.Replaces : SqlStatement → Bool
  | insertOrReplace _ _ => true
  | _ => false

/-- The table still has its rows, in their order, each with its values and what has been added. -/
def SqlTable.Keeps (t t' : SqlTable) : Prop :=
  t.columns <+: t'.columns ∧ List.SublistForall₂ (fun row row' => row <+: row') t.rows t'.rows

theorem SqlTable.keeps_self (t : SqlTable) : t.Keeps t :=
  ⟨List.prefix_rfl,List.sublistForall₂_iff.mpr
    ⟨t.rows,List.forall₂_same.mpr fun _ _ => List.prefix_rfl,List.Sublist.refl _⟩⟩

theorem SqlTable.Keeps.trans {t t' t'' : SqlTable} (h : t.Keeps t') (h' : t'.Keeps t'') :
    t.Keeps t'' := by
  have : IsTrans (List SqlValue) fun row row' => row <+: row' := ⟨fun _ _ _ => List.IsPrefix.trans⟩
  exact ⟨h.1.trans h'.1,Trans.trans h.2 h'.2⟩

/-- Every table is still there with its rows, and every view and trigger. -/
structure SqlDb.Keeps (db db' : SqlDb) : Prop where
  tables : ∀ name t, db.table? name = some t → ∃ t', db'.table? name = some t' ∧ t.Keeps t'
  views : db'.views = db.views
  triggers : db'.triggers = db.triggers

theorem SqlDb.keeps_self (db : SqlDb) : db.Keeps db :=
  ⟨fun _ t ht => ⟨t,ht,t.keeps_self⟩,rfl,rfl⟩

theorem SqlDb.Keeps.trans {db db' db'' : SqlDb} (h : db.Keeps db') (h' : db'.Keeps db'') :
    db.Keeps db'' := by
  refine ⟨fun name t ht => ?_,h'.views.trans h.views,h'.triggers.trans h.triggers⟩
  obtain ⟨t',ht',hkeeps⟩ := h.tables name t ht
  obtain ⟨t'',ht'',hkeeps'⟩ := h'.tables name t' ht'
  exact ⟨t'',ht'',hkeeps.trans hkeeps'⟩

theorem SqlDb.withTable_keeps {t t' : SqlTable} (ht : db.table? t.name = some t)
    (hname : t'.name = t.name) (h : t.Keeps t') : db.Keeps (db.withTable t') := by
  refine ⟨fun name u hu => ?_,rfl,rfl⟩
  rw [table?_withTable,hname,hu]
  by_cases hsame : t.name = name
  · subst hsame
    cases ht.symm.trans hu
    exact ⟨t',if_pos rfl,h⟩
  · exact ⟨u,if_neg hsame,u.keeps_self⟩

/-- A building statement that replaces no row loses none. -/
theorem Effect.keeps {a : SqlStatement} (h : Effect a db db')
    (ha : a.Replaces = false) : db.Keeps db' := by
  cases h with
  | unchanged => exact db.keeps_self
  | table htable hindex =>
    refine ⟨fun name t ht => ⟨t,?_,t.keeps_self⟩,rfl,rfl⟩
    rw [SqlDb.table?_append,ht,Option.some_or]
  | index htable hview => exact ⟨fun name t ht => ⟨t,ht,t.keeps_self⟩,rfl,rfl⟩
  | @column column default db t ht hcolumn =>
    refine SqlDb.withTable_keeps ht rfl ⟨List.prefix_append _ _,?_⟩
    refine List.sublistForall₂_map_right_iff.mpr (List.sublistForall₂_iff.mpr
      ⟨t.rows,List.forall₂_same.mpr fun _ _ => List.prefix_append _ _,List.Sublist.refl _⟩)
  | @inserted fields db t ht =>
    refine SqlDb.withTable_keeps ht rfl ⟨List.prefix_rfl,?_⟩
    exact List.sublistForall₂_iff.mpr
      ⟨t.rows,List.forall₂_same.mpr fun _ _ => List.prefix_rfl,List.sublist_append_left _ _⟩
  | replaced => cases ha
  | dropped => exact ⟨fun name t ht => ⟨t,ht,t.keeps_self⟩,rfl,rfl⟩

/-- A script of such statements loses no row. -/
theorem exec_keepsRows {script : List SqlStatement}
    (hscript : ∀ a ∈ script, a.Builds ∧ a.Replaces = false)
    (hexec : exec run script db = some db') : db.Keeps db' := by
  have hstep : ∀ (a : SqlStatement) s s', db.Keeps s → a.Builds ∧ a.Replaces = false →
      a.run s = some s' → db.Keeps s' := fun a s s' hs ha hrun =>
    hs.trans ((run_effect ha.1 hrun).keeps ha.2)
  exact exec_invariant_guarded hstep db.keeps_self
    (guarded_of_forall (fun a ha _ => hscript a ha) db) hexec

end Building

section Dropping

open SqlStatement

variable {db db' db'' : SqlDb} {kind : SqlKind} {name : String}

/-- The views, triggers, indexes and tables, in the order in which they can be dropped. -/
def SqlDb.objects (db : SqlDb) : List (SqlKind × String) :=
  db.views.map (Prod.mk SqlKind.view) ++ db.triggers.map (fun t => (SqlKind.trigger,t.name)) ++
    db.indexes.map (fun i => (SqlKind.index,i.name)) ++
    db.tables.map (fun t => (SqlKind.table,t.name))

@[simp] theorem SqlDb.view_mem_objects :
    (SqlKind.view,name) ∈ db.objects ↔ name ∈ db.views := by
  simp [objects]

@[simp] theorem SqlDb.trigger_mem_objects :
    (SqlKind.trigger,name) ∈ db.objects ↔ ∃ t ∈ db.triggers, t.name = name := by
  simp [objects]

@[simp] theorem SqlDb.index_mem_objects :
    (SqlKind.index,name) ∈ db.objects ↔ ∃ i ∈ db.indexes, i.name = name := by
  simp [objects]

@[simp] theorem SqlDb.table_mem_objects :
    (SqlKind.table,name) ∈ db.objects ↔ ∃ t ∈ db.tables, t.name = name := by
  simp [objects]

/-- The first database has objects of the second only. -/
structure SqlDb.Within (db' db : SqlDb) : Prop where
  tables : List.Sublist db'.tables db.tables
  indexes : List.Sublist db'.indexes db.indexes
  views : List.Sublist db'.views db.views
  triggers : List.Sublist db'.triggers db.triggers

theorem SqlDb.within_self (db : SqlDb) : db.Within db :=
  ⟨List.Sublist.refl _,List.Sublist.refl _,List.Sublist.refl _,List.Sublist.refl _⟩

theorem SqlDb.Within.trans (h' : db''.Within db') (h : db'.Within db) : db''.Within db :=
  ⟨h'.tables.trans h.tables,h'.indexes.trans h.indexes,h'.views.trans h.views,
    h'.triggers.trans h.triggers⟩

theorem SqlDb.Within.objects (h : db'.Within db) : db'.objects ⊆ db.objects :=
  (((h.views.map _).append (h.triggers.map _)).append (h.indexes.map _)).append
    (h.tables.map _) |>.subset

theorem SqlDb.Within.hasTable (h : db'.Within db) (hname : db.hasTable name = false) :
    db'.hasTable name = false := by
  rw [SqlDb.hasTable,List.any_eq_false] at hname ⊢
  exact fun t ht => hname t (h.tables.subset ht)

theorem SqlDb.Within.hasView (h : db'.Within db) (hname : db.hasView name = false) :
    db'.hasView name = false := by
  rw [SqlDb.hasView,List.any_eq_false] at hname ⊢
  exact fun v hv => hname v (h.views.subset hv)

/-- A database without objects is empty. -/
theorem SqlDb.objects_nil (h : db.objects = []) : db = ⟨[],[],[],[]⟩ := by
  cases db
  simp only [objects,List.append_eq_nil_iff,List.map_eq_nil_iff] at h
  simp [h]

/-- What is dropped is gone, and nothing comes in its place. -/
theorem run_drop (h : (drop kind name).run db = some db') :
    db'.Within db ∧ (kind,name) ∉ db'.objects := by
  cases kind with
  | view =>
    rw [run] at h
    split_ifs at h
    · cases h
      refine ⟨⟨List.Sublist.refl _,List.Sublist.refl _,List.filter_sublist,List.filter_sublist⟩,?_⟩
      simp [SqlDb.objects]
    · cases h
      refine ⟨⟨List.Sublist.refl _,List.Sublist.refl _,List.filter_sublist,List.Sublist.refl _⟩,?_⟩
      simp [SqlDb.objects]
  | trigger =>
    cases h
    refine ⟨⟨List.Sublist.refl _,List.Sublist.refl _,List.Sublist.refl _,List.filter_sublist⟩,?_⟩
    simp [SqlDb.objects]
  | index =>
    cases h
    refine ⟨⟨List.Sublist.refl _,List.filter_sublist,List.Sublist.refl _,List.Sublist.refl _⟩,?_⟩
    simp [SqlDb.objects]
  | table =>
    rw [run] at h
    split_ifs at h with hview htable
    · cases h
      refine ⟨⟨List.filter_sublist,List.filter_sublist,List.Sublist.refl _,List.filter_sublist⟩,?_⟩
      simp [SqlDb.objects]
    · cases h
      refine ⟨db.within_self,?_⟩
      simpa [SqlDb.objects,SqlDb.hasTable] using htable

/-- The tables of its indexes are there. -/
def SqlDb.Attached (db : SqlDb) : Prop := ∀ i ∈ db.indexes, db.hasTable i.table = true

theorem SqlDb.Attached.drop (hattached : db.Attached) (h : (drop kind name).run db = some db') :
    db'.Attached := by
  cases kind with
  | view =>
    rw [run] at h
    split_ifs at h
    · cases h
      exact hattached
    · cases h
      exact hattached
  | trigger =>
    cases h
    exact hattached
  | index =>
    cases h
    exact fun i hi => hattached i (List.mem_of_mem_filter hi)
  | table =>
    rw [run] at h
    split_ifs at h with hview htable
    · cases h
      intro i hi
      rw [List.mem_filter,decide_eq_true_eq] at hi
      have hother := hattached i hi.1
      rw [SqlDb.hasTable,List.any_eq_true] at hother ⊢
      obtain ⟨t,ht,hname⟩ := hother
      refine ⟨t,List.mem_filter.mpr ⟨ht,?_⟩,hname⟩
      rw [of_decide_eq_true hname]
      simpa using hi.2
    · cases h
      exact hattached

/-- A table that is still there is found under its name as before. -/
theorem SqlDb.Within.table? {t : SqlTable} (h : db'.Within db)
    (hnodup : (db.tables.map SqlTable.name).Nodup) (ht : db'.table? name = some t) :
    db.table? name = some t := by
  have hmem : t ∈ db.tables := h.tables.subset (List.mem_of_find?_eq_some ht)
  have hname := SqlDb.table?_name ht
  rw [SqlDb.table?]
  generalize db.tables = tables at hnodup hmem
  induction tables with
  | nil => cases hmem
  | cons u us ih =>
    rw [List.map_cons,List.nodup_cons] at hnodup
    rw [List.find?_cons]
    rcases List.mem_cons.mp hmem with rfl | hmem
    · simp [hname]
    · have hne : u.name ≠ name := by
        rintro rfl
        exact hnodup.1 (hname ▸ List.mem_map_of_mem hmem)
      simp [hne,ih hnodup.2 hmem]

/-- A view and a table are dropped as what they are. -/
def Droppable (db : SqlDb) : SqlKind × String → Prop
  | (.view,name) => db.hasTable name = false
  | (.table,name) => db.hasView name = false
  | _ => True

instance (db : SqlDb) (o : SqlKind × String) : Decidable (Droppable db o) := by
  unfold Droppable
  split <;> infer_instance

theorem SqlDb.Within.droppable (h : db'.Within db) {o : SqlKind × String} (ho : Droppable db o) :
    Droppable db' o := by
  obtain ⟨kind,name⟩ := o
  cases kind with
  | view => exact h.hasTable ho
  | table => exact h.hasView ho
  | trigger => trivial
  | index => trivial

theorem drop_runs {o : SqlKind × String} (ho : Droppable db o) :
    ∃ db', (drop o.1 o.2).run db = some db' := by
  obtain ⟨kind,name⟩ := o
  cases kind with
  | view =>
    have hname : db.hasTable name = false := ho
    rw [run,hname]
    exact ⟨_,rfl⟩
  | table =>
    have hname : db.hasView name = false := ho
    rw [run,hname]
    cases db.hasTable name <;> exact ⟨_,rfl⟩
  | trigger => exact ⟨_,rfl⟩
  | index => exact ⟨_,rfl⟩

/-- All of some objects can be dropped, one after the other. -/
theorem exec_drops {os : List (SqlKind × String)} (hos : ∀ o ∈ os, Droppable db o) :
    ∃ db', exec run (os.map fun o => drop o.1 o.2) db = some db' ∧ db'.Within db ∧
      ∀ o ∈ os, o ∉ db'.objects := by
  induction os generalizing db with
  | nil => exact ⟨db,rfl,db.within_self,by simp⟩
  | cons o os ih =>
    rw [List.forall_mem_cons] at hos
    obtain ⟨db₁,hdrop⟩ := drop_runs hos.1
    obtain ⟨hwithin,hgone⟩ := run_drop hdrop
    obtain ⟨db',hexec,hwithin',hgone'⟩ := ih fun o' ho' => hwithin.droppable (hos.2 o' ho')
    refine ⟨db',exec_cons_eq_some.mpr ⟨db₁,hdrop,hexec⟩,hwithin'.trans hwithin,?_⟩
    rw [List.forall_mem_cons]
    exact ⟨fun h => hgone (hwithin'.objects h),hgone'⟩

end Dropping

section Frame

open SqlStatement

/-- The objects of two databases in one. -/
def SqlDb.beside (h d : SqlDb) : SqlDb :=
  ⟨h.tables ++ d.tables,h.indexes ++ d.indexes,h.views ++ d.views,h.triggers ++ d.triggers⟩

/-- The names that objects of the database have or refer to. -/
def SqlDb.names (db : SqlDb) : List String :=
  db.tables.map SqlTable.name ++ db.indexes.flatMap (fun i => [i.name,i.table]) ++ db.views ++
    db.triggers.flatMap fun t => [t.name,t.table]

def SqlStatement.names : SqlStatement → List String
  | createTable name _ _ => [name]
  | createIndex i => [i.name,i.table]
  | addColumn table _ _ => [table]
  | insert table _ => [table]
  | insertOrReplace table _ => [table]
  | drop _ name => [name]

variable {h d : SqlDb} {name : String}

theorem tables_beside {t : SqlTable} (ht : t ∈ h.tables) (hname : name ∉ h.names) :
    t.name ≠ name := by
  rintro rfl
  refine hname ?_
  rw [SqlDb.names]
  simp only [List.mem_append,List.mem_map]
  exact .inl (.inl (.inl ⟨t,ht,rfl⟩))

theorem table?_beside (hname : name ∉ h.names) : (h.beside d).table? name = d.table? name := by
  have hnone : h.tables.find? (fun t => t.name = name) = none := by
    rw [List.find?_eq_none]
    exact fun t ht hn => tables_beside ht hname (of_decide_eq_true hn)
  rw [SqlDb.table?,SqlDb.beside,List.find?_append,hnone,Option.none_or]
  rfl

theorem hasView_beside (hname : name ∉ h.names) : (h.beside d).hasView name = d.hasView name := by
  have hnone : h.views.any (fun v => v = name) = false := by
    rw [List.any_eq_false]
    intro v hv hn
    cases of_decide_eq_true hn
    refine hname ?_
    rw [SqlDb.names]
    simp only [List.mem_append]
    exact .inl (.inr hv)
  rw [SqlDb.hasView,SqlDb.beside,List.any_append,hnone,Bool.false_or]
  rfl

theorem indexes_beside {i : SqlIndex} (hi : i ∈ h.indexes) (hname : name ∉ h.names) :
    i.name ≠ name ∧ i.table ≠ name := by
  have hmem : ∀ n ∈ [i.name,i.table], n ∈ h.names := by
    intro n hn
    rw [SqlDb.names]
    simp only [List.mem_append,List.mem_flatMap]
    exact .inl (.inl (.inr ⟨i,hi,hn⟩))
  constructor
  · rintro rfl
    exact hname (hmem _ (by simp))
  · rintro rfl
    exact hname (hmem _ (by simp))

theorem hasIndex_beside (hname : name ∉ h.names) :
    (h.beside d).hasIndex name = d.hasIndex name := by
  have hnone : h.indexes.any (fun i => i.name = name) = false := by
    rw [List.any_eq_false]
    intro i hi hn
    exact (indexes_beside hi hname).1 (by simpa using hn)
  rw [SqlDb.hasIndex,SqlDb.beside,List.any_append,hnone,Bool.false_or]
  rfl

theorem conflicts_beside {t : SqlTable} (hname : t.name ∉ h.names) (row row' : List SqlValue) :
    (h.beside d).conflicts t row row' = d.conflicts t row row' := by
  have hnone : h.indexes.any (fun i => i.table = t.name && i.unique && (i.key t row).isSome &&
      i.key t row = i.key t row') = false := by
    rw [List.any_eq_false]
    intro i hi
    simp [(indexes_beside hi hname).2]
  rw [SqlDb.conflicts,SqlDb.beside,List.any_append,hnone,Bool.false_or]
  rfl

theorem withTable_beside {t : SqlTable} (hname : t.name ∉ h.names) :
    (h.beside d).withTable t = h.beside (d.withTable t) := by
  have hsame : (h.tables.map fun u => if u.name = t.name then t else u) = h.tables := by
    exact (List.map_congr_left fun u hu => if_neg (tables_beside hu hname)).trans (List.map_id' _)
  rw [SqlDb.withTable,SqlDb.beside,List.map_append,hsame]
  rfl

/-- A building statement runs beside objects of other names as it runs alone. -/
theorem run_beside {a : SqlStatement} (ha : a.Builds) (hnames : ∀ n ∈ a.names, n ∉ h.names) :
    a.run (h.beside d) = (a.run d).map h.beside := by
  cases a with
  | createTable name columns primaryKey =>
    have hname := hnames name (by simp [SqlStatement.names])
    rw [run,run,SqlDb.hasTable_eq,SqlDb.hasTable_eq,table?_beside hname,hasView_beside hname,
      hasIndex_beside hname]
    split_ifs
    · rfl
    · rfl
    · simp [SqlDb.beside]
  | createIndex i =>
    have hname := hnames i.name (by simp [SqlStatement.names])
    have htable := hnames i.table (by simp [SqlStatement.names])
    rw [run,run,table?_beside htable]
    cases ht : d.table? i.table with
    | none => rfl
    | some t =>
      simp only
      rw [SqlDb.hasTable_eq,SqlDb.hasTable_eq,table?_beside hname,hasView_beside hname,
        hasIndex_beside hname]
      split_ifs
      · rfl
      · rfl
      · simp [SqlDb.beside]
      · rfl
  | addColumn table column default =>
    have hname := hnames table (by simp [SqlStatement.names])
    rw [run,run,table?_beside hname]
    cases ht : d.table? table with
    | none => rfl
    | some t =>
      simp only
      rw [withTable_beside (by rw [SqlDb.table?_name ht]; exact hname)]
      split_ifs <;> rfl
  | insert table fields =>
    have hname := hnames table (by simp [SqlStatement.names])
    rw [run,run,table?_beside hname]
    cases ht : d.table? table with
    | none => rfl
    | some t =>
      have htname : t.name ∉ h.names := by
        rw [SqlDb.table?_name ht]
        exact hname
      have hconflicts : (h.beside d).conflicts t (t.row fields) = d.conflicts t (t.row fields) :=
        funext (conflicts_beside htname _)
      simp only
      rw [hconflicts,withTable_beside (t := t.inserted fields) htname]
      split_ifs <;> rfl
  | insertOrReplace table fields =>
    have hname := hnames table (by simp [SqlStatement.names])
    rw [run,run,table?_beside hname]
    cases ht : d.table? table with
    | none => rfl
    | some t =>
      have htname : t.name ∉ h.names := by
        rw [SqlDb.table?_name ht]
        exact hname
      have hreplaced : (h.beside d).replaced t fields = d.replaced t fields := by
        rw [SqlDb.replaced,SqlDb.replaced]
        simp only [conflicts_beside htname]
      simp only
      rw [hreplaced,withTable_beside (t := d.replaced t fields) htname]
      split_ifs <;> rfl
  | drop kind name =>
    cases ha
    have hname := hnames name (by simp [SqlStatement.names])
    have hsame : h.indexes.filter (fun i => i.name ≠ name) = h.indexes := by
      rw [List.filter_eq_self]
      intro i hi
      simpa using (indexes_beside hi hname).1
    rw [run,run,SqlDb.beside,List.filter_append,hsame]
    rfl

theorem exec_beside {script : List SqlStatement} (hbuilds : ∀ a ∈ script, a.Builds)
    (hnames : ∀ a ∈ script, ∀ n ∈ a.names, n ∉ h.names) :
    exec run script (h.beside d) = (exec run script d).map h.beside := by
  induction script generalizing d with
  | nil => rfl
  | cons a as ih =>
    rw [List.forall_mem_cons] at hbuilds hnames
    rw [exec_cons,exec_cons,run_beside hbuilds.1 hnames.1]
    cases a.run d with
    | none => rfl
    | some d' => exact ih hbuilds.2 hnames.2

/-- A building statement brings no names but its own. -/
theorem Effect.names {db db' : SqlDb} {a : SqlStatement} (heffect : Effect a db db')
    (hname : name ∉ db.names) (ha : name ∉ a.names) : name ∉ db'.names := by
  have hwithTable : ∀ t : SqlTable, name ∉ (db.withTable t).names := by
    intro t
    have hsame : (db.withTable t).tables.map SqlTable.name = db.tables.map SqlTable.name := by
      rw [SqlDb.withTable,List.map_map]
      refine List.map_congr_left fun u _ => ?_
      by_cases hu : u.name = t.name
      · rw [Function.comp_apply,if_pos hu,hu]
      · rw [Function.comp_apply,if_neg hu]
    rw [SqlDb.names,hsame]
    exact hname
  cases heffect with
  | unchanged => exact hname
  | table htable hindex =>
    simp only [SqlDb.names,SqlStatement.names,List.mem_append,List.map_append,not_or] at *
    exact ⟨⟨⟨⟨hname.1.1.1,ha⟩,hname.1.1.2⟩,hname.1.2⟩,hname.2⟩
  | index htable hview =>
    simp only [SqlDb.names,SqlStatement.names,List.mem_append,List.flatMap_append,not_or] at *
    exact ⟨⟨⟨hname.1.1.1,hname.1.1.2,by simpa using ha⟩,hname.1.2⟩,hname.2⟩
  | column t ht hcolumn => exact hwithTable _
  | inserted t ht => exact hwithTable _
  | replaced t ht => exact hwithTable _
  | dropped =>
    simp only [SqlDb.names,List.mem_append,not_or] at *
    refine ⟨⟨⟨hname.1.1.1,fun hmem => hname.1.1.2 ?_⟩,hname.1.2⟩,hname.2⟩
    rw [List.mem_flatMap] at hmem ⊢
    obtain ⟨i,hi,hn⟩ := hmem
    exact ⟨i,List.mem_of_mem_filter hi,hn⟩

theorem exec_names {db db' : SqlDb} {script : List SqlStatement}
    (hscript : ∀ a ∈ script, a.Builds ∧ name ∉ a.names)
    (hexec : exec run script db = some db') (hname : name ∉ db.names) : name ∉ db'.names := by
  have hstep : ∀ (a : SqlStatement) s s', name ∉ s.names → a.Builds ∧ name ∉ a.names →
      a.run s = some s' → name ∉ s'.names := fun a s s' hs ha hrun =>
    (run_effect ha.1 hrun).names hs ha.2
  exact exec_invariant_guarded hstep hname (guarded_of_forall (fun a ha _ => hscript a ha) db) hexec

end Frame

end VermayAgent.Library
