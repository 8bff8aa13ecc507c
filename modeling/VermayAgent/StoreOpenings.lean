import Mathlib.Data.List.Nodup
import VermayAgent.StoreMigrations

/-! Openings of the agent store that are cut off, and what the next opening makes of them.
A store of the current family is on its way through the pending migrations, wherever it has been
cut off. -/
namespace VermayAgent
open Library

section Plans

variable {db db' : SqlDb} {versions : List Int} {now : SchemaMigration → String}

/-- The migrations that are not recorded. -/
def pendingMigrations (versions : List Int) : List SchemaMigration :=
  schemaMigrations.filter fun m => m.version ∉ versions

/-- The statements of some migrations and of their records. -/
def migrationScript (now : SchemaMigration → String) (ms : List SchemaMigration) :
    List SqlStatement :=
  migration SchemaMigration.apply recordMigration now ms

def ensureStatement : SqlStatement :=
  .createTable "schema_migrations" ["version","applied_at"] (some "version")

theorem attempts_executeAll (script : List SqlStatement) (db : SqlDb) :
    Attempts SqlStatement.run (executeAll SqlStatement.run script) db script () := by
  intro n
  cases (executeAll SqlStatement.run script).run n db <;> rfl

theorem applyMigrations_attempts (now : SchemaMigration → String) (versions : List Int)
    (ms : List SchemaMigration) (hnodup : (ms.map SchemaMigration.version).Nodup) (db : SqlDb) :
    Attempts SqlStatement.run (applyMigrations now versions ms) db
      (migrationScript now (ms.filter fun m => m.version ∉ versions)) () := by
  induction ms generalizing versions db with
  | nil => exact attempts_pure
  | cons m ms ih =>
    rw [List.map_cons,List.nodup_cons] at hnodup
    rw [applyMigrations]
    by_cases hm : m.version ∈ versions
    · rw [if_pos hm,List.filter_cons_of_neg (by simpa using hm)]
      exact ih versions hnodup.2 db
    · have hrest : (ms.filter fun x => x.version ∉ m.version::versions) =
          ms.filter fun x => x.version ∉ versions := by
        refine List.filter_congr fun x hx => ?_
        have hne : x.version ≠ m.version := fun h => hnodup.1 (h ▸ List.mem_map_of_mem hx)
        simp [hne]
      rw [if_neg hm,List.filter_cons_of_pos (by simpa using hm),migrationScript,migration_cons]
      refine (attempts_executeAll m.apply db).bind fun s₁ _ => ?_
      refine (attempts_execute (recordMigration (now m) m)).bind fun s₂ _ => ?_
      have hms := ih (m.version::versions) hnodup.2 s₂
      rwa [hrest] at hms

theorem schemaMigrations_nodup : (schemaMigrations.map SchemaMigration.version).Nodup := by
  decide

/-- A store of the current family, with its recorded versions. -/
structure CurrentStore (db : SqlDb) (versions : List Int) : Prop where
  family : storeSchemaFamily db = some (some storeSchemaFamilyName)
  versions : appliedSchemaVersions db = some versions

theorem CurrentStore.hasMigrations (h : CurrentStore db versions) :
    ∃ t, db.table? "schema_migrations" = some t := by
  have hversions := h.versions
  rw [appliedSchemaVersions] at hversions
  obtain ⟨t,ht,_⟩ := Option.bind_eq_some_iff.mp hversions
  exact ⟨t,ht⟩

theorem CurrentStore.ensured (h : CurrentStore db versions) : ensureStatement.run db = some db := by
  obtain ⟨t,ht⟩ := h.hasMigrations
  rw [ensureStatement,SqlStatement.run,SqlDb.hasTable_eq,ht]
  rfl

/-- An opening of a current store applies what is pending. -/
theorem CurrentStore.attempts (h : CurrentStore db versions) (now : SchemaMigration → String) :
    Attempts SqlStatement.run (AgentStore.setup now) db
      (ensureStatement::migrationScript now (pendingMigrations versions)) () := by
  have hensure : Attempts SqlStatement.run ensureSchemaMigrationsTable db [ensureStatement] () :=
    attempts_execute ensureStatement
  have hreset : Attempts SqlStatement.run resetRetiredSchemaIfRequired db [] () := by
    have hrequires : Attempts SqlStatement.run requiresCleanSlateReset db ([] ++ []) false :=
      (attempts_query h.family).bind fun _ _ => attempts_pure
    exact hrequires.bind fun _ _ => attempts_pure
  have hpending : Attempts SqlStatement.run (applyPendingMigrations now) db
      ([] ++ migrationScript now (pendingMigrations versions)) () :=
    (attempts_query h.versions).bind fun s _ =>
      applyMigrations_attempts now versions schemaMigrations schemaMigrations_nodup s
  refine hensure.bind fun s hs => ?_
  rw [exec_cons,h.ensured] at hs
  cases hs
  refine hreset.bind fun s hs => ?_
  cases hs
  exact hpending

/-- What an opening leaves behind, a first part of what is pending has led to. -/
theorem CurrentStore.afterOpening (h : CurrentStore db versions) (o : Opening) :
    ∃ next, next <+: migrationScript o.1 (pendingMigrations versions) ∧
      exec SqlStatement.run next db = some (VermayAgent.afterOpening db o) := by
  obtain ⟨done,hdone,hexec⟩ := executeAll_prefix SqlStatement.run
    (ensureStatement::migrationScript o.1 (pendingMigrations versions)) o.2 db
  rw [VermayAgent.afterOpening,(h.attempts o.1).ends o.2]
  cases done with
  | nil => exact ⟨[],List.nil_prefix,hexec⟩
  | cons a next =>
    obtain ⟨rfl,hnext⟩ := List.cons_prefix_cons.mp hdone
    rw [exec_cons,h.ensured] at hexec
    exact ⟨next,hnext,hexec⟩

theorem CurrentStore.uncut (h : CurrentStore db versions) (now : SchemaMigration → String) :
    (AgentStore.setup now).run none db =
      match exec SqlStatement.run (migrationScript now (pendingMigrations versions)) db with
      | some db' => .completed () none db'
      | none => .raised (VermayAgent.afterOpening db (now,none)) := by
  have hends := (h.attempts now).ends none
  have hstate := congrArg Ended.state hends
  rw [executeAll_none,exec_cons,h.ensured,Option.bind_some] at hends
  rw [VermayAgent.afterOpening,hstate]
  cases hexec : exec SqlStatement.run (migrationScript now (pendingMigrations versions)) db with
  | none =>
    rw [hexec] at hends
    exact hends
  | some db' =>
    rw [hexec] at hends
    exact hends

theorem CurrentStore.opens_iff (h : CurrentStore db versions) (now : SchemaMigration → String) :
    opensStore db now = true ↔
      exec SqlStatement.run (migrationScript now (pendingMigrations versions)) db ≠ none := by
  rw [opensStore,h.uncut now]
  cases exec SqlStatement.run (migrationScript now (pendingMigrations versions)) db with
  | none => simp [Ended.isCompleted]
  | some db' => simp [Ended.isCompleted]

theorem CurrentStore.opened (h : CurrentStore db versions)
    (hexec : exec SqlStatement.run (migrationScript now (pendingMigrations versions)) db =
      some db') : VermayAgent.afterOpening db (now,none) = db' := by
  have huncut := h.uncut now
  rw [hexec] at huncut
  rw [VermayAgent.afterOpening,huncut]
  rfl

end Plans

section Recording

variable {db db' : SqlDb} {versions : List Int}

/-- The tables in which a store keeps what it is. -/
def SparesRecords (a : SqlStatement) : Prop :=
  a.Spares "schema_migrations" ∧ a.Spares "store_metadata"

instance (a : SqlStatement) : Decidable (SparesRecords a) := by
  unfold SparesRecords
  infer_instance

theorem storeSchemaFamily_congr (h : db'.table? "store_metadata" = db.table? "store_metadata") :
    storeSchemaFamily db' = storeSchemaFamily db := by
  rw [storeSchemaFamily,storeSchemaFamily,h]

/-- After the baseline the scripts build, and leave the records alone. -/
theorem laterMigrations_build : ∀ m ∈ schemaMigrations, m.version ≠ 1 →
    ∀ a ∈ m.apply, a.Builds ∧ SparesRecords a ∧ a.Replaces = false := by
  decide +kernel

theorem CurrentStore.effect {a : SqlStatement} (h : CurrentStore db versions)
    (heffect : Effect a db db') (ha : SparesRecords a) :
    CurrentStore db' versions := by
  refine ⟨(storeSchemaFamily_congr (heffect.spares ha.2)).trans h.family,?_⟩
  rw [appliedSchemaVersions,heffect.spares ha.1]
  exact h.versions

theorem CurrentStore.script {as : List SqlStatement} (h : CurrentStore db versions)
    (has : ∀ a ∈ as, a.Builds ∧ SparesRecords a)
    (hexec : exec SqlStatement.run as db = some db') : CurrentStore db' versions := by
  have hstep : ∀ (a : SqlStatement) s s', CurrentStore s versions → a.Builds ∧ SparesRecords a →
      a.run s = some s' → CurrentStore s' versions := fun a s s' hs ha hrun =>
    hs.effect (run_effect ha.1 hrun) ha.2
  exact exec_invariant_guarded hstep h (guarded_of_forall (fun a ha _ => has a ha) db) hexec

/-- The record of a migration adds its version. -/
theorem CurrentStore.recorded {now : String} {m : SchemaMigration} (h : CurrentStore db versions)
    (hrun : (recordMigration now m).run db = some db') :
    CurrentStore db' (versions ++ [m.version]) := by
  obtain ⟨t,ht⟩ := h.hasMigrations
  have hname := SqlDb.table?_name ht
  have hversions := h.versions
  rw [appliedSchemaVersions,ht,Option.bind_some] at hversions
  obtain ⟨_,ht',hfields,_,rfl⟩ := run_insert.mp hrun
  cases ht.symm.trans ht'
  refine ⟨(storeSchemaFamily_congr ?_).trans h.family,?_⟩
  · rw [SqlDb.table?_withTable,SqlTable.inserted_name,hname]
    rfl
  · have hcolumn : "version" ∈ t.columns :=
      hfields ("version",.integer m.version) List.mem_cons_self
    have hrow := SqlTable.value_row [("version",.integer m.version),("applied_at",.text now)]
      hcolumn
    rw [appliedSchemaVersions,SqlDb.table?_withTable,ht,SqlTable.inserted_name,if_pos hname,
      Option.map_some,Option.bind_some]
    change (t.rows ++ [t.row _]).mapM (fun row => (t.value "version" row).bind sqlInt?) = _
    simp only [List.mapM_append,hversions,List.mapM_cons,List.mapM_nil,hrow]
    rfl

theorem CurrentStore.migrated {now : SchemaMigration → String} {ms : List SchemaMigration}
    (h : CurrentStore db versions) (hms : ∀ m ∈ ms, m ∈ schemaMigrations ∧ m.version ≠ 1)
    (hexec : exec SqlStatement.run (migrationScript now ms) db = some db') :
    CurrentStore db' (versions ++ ms.map SchemaMigration.version) := by
  induction ms generalizing db versions with
  | nil =>
    cases hexec
    rw [List.map_nil,List.append_nil]
    exact h
  | cons m ms ih =>
    rw [List.forall_mem_cons] at hms
    rw [migrationScript,migration_cons,exec_append] at hexec
    obtain ⟨db₁,happly,hrest⟩ := Option.bind_eq_some_iff.mp hexec
    obtain ⟨db₂,hrecord,hms'⟩ := exec_cons_eq_some.mp hrest
    have hbuilds := laterMigrations_build m hms.1.1 hms.1.2
    have h₁ := h.script (fun a ha => ⟨(hbuilds a ha).1,(hbuilds a ha).2.1⟩) happly
    have h₂ := ih (h₁.recorded hrecord) hms.2 hms'
    rwa [List.append_assoc] at h₂

theorem pendingMigrations_append (versions versions' : List Int) :
    pendingMigrations (versions ++ versions') =
      (pendingMigrations versions).filter fun m => m.version ∉ versions' := by
  rw [pendingMigrations,pendingMigrations,List.filter_filter]
  refine List.filter_congr fun m _ => ?_
  rw [Bool.eq_iff_iff]
  simp [and_comm]

theorem pendingMigrations_nodup (versions : List Int) :
    ((pendingMigrations versions).map SchemaMigration.version).Nodup :=
  schemaMigrations_nodup.sublist (List.filter_sublist.map _)

/-- What is pending once the first migrations are recorded. -/
theorem pendingMigrations_recorded {before rest : List SchemaMigration}
    (h : pendingMigrations versions = before ++ rest) :
    pendingMigrations (versions ++ before.map SchemaMigration.version) = rest := by
  have hnodup := pendingMigrations_nodup versions
  rw [h,List.map_append,List.nodup_append] at hnodup
  rw [pendingMigrations_append,h,List.filter_append,List.filter_eq_nil_iff.mpr,List.nil_append,
    List.filter_eq_self]
  · intro m hm
    simp only [decide_eq_true_eq]
    intro hbefore
    exact hnodup.2.2 _ hbefore _ (List.mem_map_of_mem hm) rfl
  · intro m hm
    simpa using List.mem_map_of_mem hm

/-- The store is current and nothing is pending. -/
def UpToDate (db : SqlDb) : Prop :=
  ∃ versions, CurrentStore db versions ∧ pendingMigrations versions = []

end Recording

section Logged

variable {d d' : SqlDb} {rows : List (List SqlValue)}

/-- The table of `_ensure_schema_migrations_table`. -/
def migrationsTable (rows : List (List SqlValue)) : SqlTable :=
  ⟨"schema_migrations",["version","applied_at"],some "version",rows⟩

/-- A database in which only migrations are recorded. -/
def logged (rows : List (List SqlValue)) : SqlDb := ⟨[migrationsTable rows],[],[],[]⟩

/-- The row that records a migration. -/
def recordRow (now : String) (m : SchemaMigration) : List SqlValue :=
  [.integer m.version,.text now]

theorem record_logged {now : String} {m : SchemaMigration} (hd : "schema_migrations" ∉ d.names)
    (hnew : ∀ row ∈ rows, (migrationsTable []).value "version" row ≠ some (.integer m.version)) :
    (recordMigration now m).run ((logged rows).beside d) =
      some ((logged (rows ++ [recordRow now m])).beside d) := by
  have htables : (d.tables.map fun t => if t.name = "schema_migrations" then
      migrationsTable (rows ++ [recordRow now m]) else t) = d.tables :=
    (List.map_congr_left fun t ht => if_neg (tables_beside ht hd)).trans (List.map_id' _)
  have hrow : (migrationsTable rows).row [("version",.integer m.version),("applied_at",.text now)] =
      recordRow now m := rfl
  have hinserted : (migrationsTable rows).inserted
      [("version",.integer m.version),("applied_at",.text now)] =
      migrationsTable (rows ++ [recordRow now m]) := rfl
  refine run_insert.mpr ⟨migrationsTable rows,rfl,?_,?_,?_⟩
  · simp [migrationsTable]
  · rw [hrow,Bool.not_eq_true,List.any_eq_false]
    intro row hmem hconflict
    rw [SqlDb.conflicts,Bool.or_eq_true] at hconflict
    rcases hconflict with hkey | hindex
    · exact hnew row hmem (of_decide_eq_true hkey)
    · rw [List.any_eq_true] at hindex
      obtain ⟨i,hi,hall⟩ := hindex
      simp only [Bool.and_eq_true,decide_eq_true_eq] at hall
      have hother : i ∈ d.indexes := hi
      exact (indexes_beside hother hd).2 hall.1.1.1
  · rw [hinserted]
    have hmap : (((logged rows).beside d).tables.map fun t => if t.name = "schema_migrations" then
        migrationsTable (rows ++ [recordRow now m]) else t) =
        migrationsTable (rows ++ [recordRow now m])::d.tables := by
      change (migrationsTable rows::d.tables).map _ = _
      rw [List.map_cons,htables]
      rfl
    exact congrArg (fun tables => SqlDb.mk tables d.indexes d.views d.triggers) hmap.symm

/-- The migrations run as their scripts alone do, and each is recorded. -/
theorem exec_logged {now : SchemaMigration → String} {ms : List SchemaMigration}
    (hnodup : (ms.map SchemaMigration.version).Nodup)
    (hrows : ∀ m ∈ ms, ∀ row ∈ rows,
      (migrationsTable []).value "version" row ≠ some (.integer m.version))
    (hscripts : ∀ m ∈ ms, ∀ a ∈ m.apply, a.Builds ∧ "schema_migrations" ∉ a.names)
    (hd : "schema_migrations" ∉ d.names)
    (hexec : exec SqlStatement.run (ms.flatMap SchemaMigration.apply) d = some d') :
    exec SqlStatement.run (migrationScript now ms) ((logged rows).beside d) =
      some ((logged (rows ++ ms.map fun m => recordRow (now m) m)).beside d') := by
  induction ms generalizing rows d with
  | nil =>
    cases hexec
    rw [List.map_nil,List.append_nil]
    rfl
  | cons m ms ih =>
    rw [List.map_cons,List.nodup_cons] at hnodup
    rw [List.forall_mem_cons] at hrows hscripts
    rw [List.flatMap_cons,exec_append] at hexec
    obtain ⟨d₁,happly,hrest⟩ := Option.bind_eq_some_iff.mp hexec
    have hd₁ : "schema_migrations" ∉ d₁.names := exec_names hscripts.1 happly hd
    have hscript : exec SqlStatement.run m.apply ((logged rows).beside d) =
        some ((logged rows).beside d₁) := by
      rw [exec_beside (fun a ha => (hscripts.1 a ha).1),happly]
      · rfl
      · intro a ha n hn hmem
        cases List.mem_singleton.mp hmem
        exact (hscripts.1 a ha).2 hn
    have hrows' : ∀ x ∈ ms, ∀ row ∈ rows ++ [recordRow (now m) m],
        (migrationsTable []).value "version" row ≠ some (.integer x.version) := by
      intro x hx row hrow hvalue
      rcases List.mem_append.mp hrow with hrow | hrow
      · exact hrows.2 x hx row hrow hvalue
      · cases List.mem_singleton.mp hrow
        have hversion : m.version = x.version :=
          SqlValue.integer.inj (Option.some.inj hvalue)
        exact hnodup.1 (hversion ▸ List.mem_map_of_mem hx)
    rw [migrationScript,migration_cons,exec_append,hscript,Option.bind_some,exec_cons,
      record_logged hd₁ hrows.1,Option.bind_some]
    have htail := ih hnodup.2 hrows' hscripts.2 hd₁ hrest
    rw [List.append_assoc] at htail
    exact htail

end Logged

section Halves

variable {db db' base : SqlDb} {versions : List Int}

/-- The column that the migration begins with is already there. -/
def hasBegun (m : SchemaMigration) (db : SqlDb) : Bool :=
  match m.apply.head? with
  | some (.addColumn table column _) => db.hasColumn table column
  | _ => false

/-- A store whose next migration has begun with a column. -/
def halfMigrated (db : SqlDb) : Bool :=
  storeSchemaFamily db = some (some storeSchemaFamilyName) &&
    match appliedSchemaVersions db with
    | some versions => (pendingMigrations versions).head?.any fun m => hasBegun m db
    | none => false

theorem CurrentStore.halfMigrated_iff (h : CurrentStore db versions) :
    halfMigrated db = true ↔
      ∃ m ∈ (pendingMigrations versions).head?, hasBegun m db = true := by
  rw [halfMigrated,h.family,h.versions]
  simp [Option.any_eq_true]

theorem migrations_block :
    Blocks SqlStatement.run SchemaMigration.apply (fun m db => hasBegun m db = true) := by
  intro m db h
  unfold hasBegun at h
  split at h
  · rename_i table column default hhead
    exact ⟨_,hhead,addColumn_blocked h⟩
  · cases h

/-- A script without replacements that creates what is not there can be taken up again. -/
theorem resumable_creating {script : List SqlStatement}
    (hcreates : ∀ a ∈ script, a.Creates ∧ a.Replaces = false) (db : SqlDb) :
    Resumable SqlStatement.run script db := by
  have hreplaces : ∀ table fields, .insertOrReplace table fields ∉ script := by
    intro table fields hmem
    cases (hcreates _ hmem).2
  refine (repeatable_creating (fun a ha => (hcreates a ha).1) ?_ ?_).resumable ?_
  · intro a ha b hb
    cases a with
    | insertOrReplace table fields => exact absurd ha (hreplaces table fields)
    | _ => trivial
  · intro a ha b hb
    cases a with
    | insertOrReplace table fields => exact absurd ha (hreplaces table fields)
    | _ => trivial
  · intro table fields t hmem
    exact absurd hmem (hreplaces table fields)

/-- After the baseline a script can be taken up again, or shows by its first column that it has
begun. -/
theorem laterMigrations_modes : ∀ m ∈ schemaMigrations, m.version ≠ 1 →
    Resumable SqlStatement.run m.apply db ∨
      OneShot SqlStatement.run (fun db => hasBegun m db = true) m.apply db := by
  intro m hm hlater
  have hbuilds := fun a ha => (laterMigrations_build m hm hlater a ha).1
  simp only [schemaMigrations,List.mem_cons,List.not_mem_nil,or_false] at hm
  rcases hm with rfl | rfl | rfl | rfl | rfl
  · exact absurd rfl hlater
  · exact .inl (resumable_creating (by decide) db)
  · exact .inr (oneShot_addColumn hbuilds)
  · exact .inr (oneShot_addColumn hbuilds)
  · exact .inr (oneShot_addColumn hbuilds)

/-- A store on its way through the migrations that were pending at `base`. -/
abbrev OnTheWay (base : SqlDb) (ms rest : List SchemaMigration) (db : SqlDb) : Prop :=
  Partway SqlStatement.run SchemaMigration.apply recordMigration base ms rest db

theorem pendingMigrations_later (hbaseline : 1 ∈ versions) :
    ∀ m ∈ pendingMigrations versions, m ∈ schemaMigrations ∧ m.version ≠ 1 := by
  intro m hm
  rw [pendingMigrations,List.mem_filter,decide_eq_true_eq] at hm
  refine ⟨hm.1,fun h => hm.2 ?_⟩
  rw [h]
  exact hbaseline

theorem CurrentStore.takesUp (hbaseline : 1 ∈ versions) (base : SqlDb) :
    TakesUp SqlStatement.run SchemaMigration.apply recordMigration
      (fun m db => hasBegun m db = true) base (pendingMigrations versions) := by
  intro _ before m rest _ hms _
  have hm : m ∈ pendingMigrations versions := by simp [hms]
  exact laterMigrations_modes m (pendingMigrations_later hbaseline m hm).1
    (pendingMigrations_later hbaseline m hm).2

/-- Wherever it has been cut off, the store is current, and what is left is what is pending. -/
theorem CurrentStore.onTheWay {rest : List SchemaMigration} (h : CurrentStore base versions)
    (hbaseline : 1 ∈ versions) (hway : OnTheWay base (pendingMigrations versions) rest db) :
    ∃ versions', CurrentStore db versions' ∧ pendingMigrations versions' = rest ∧
      versions ⊆ versions' := by
  cases hway with
  | finished clock hexec =>
    refine ⟨_,h.migrated (pendingMigrations_later hbaseline) hexec,?_,
      List.subset_append_left _ _⟩
    exact pendingMigrations_recorded (List.append_nil _).symm
  | within clock before m rest done hms hbefore hdone hexec =>
    have hlater : ∀ m' ∈ before ++ m::rest, m' ∈ schemaMigrations ∧ m'.version ≠ 1 := by
      rw [← hms]
      exact pendingMigrations_later hbaseline
    have hm := hlater m (by simp)
    refine ⟨_,(h.migrated (fun m' hm' => hlater m' (List.mem_append_left _ hm')) hbefore).script
      (fun a ha => ?_) hexec,pendingMigrations_recorded hms,List.subset_append_left _ _⟩
    have hbuilds := laterMigrations_build m hm.1 hm.2 a (hdone.subset ha)
    exact ⟨hbuilds.1,hbuilds.2.1⟩

/-- What the later openings of a store do, as long as it is cut off: they complete it, or leave it
as it is, and which of the two the store shows. -/
structure Reopens (base db : SqlDb) : Prop where
  opens : ∀ now, opensStore db now = true ↔ halfMigrated db = false
  same : halfMigrated db = false → ∀ now, ∃ clock,
    afterOpening db (now,none) = afterOpening base (clock,none)
  complete : halfMigrated db = false → ∀ now, UpToDate (afterOpening db (now,none))
  stuck : halfMigrated db = true → ∀ o, afterOpening db o = db

theorem pendingMigrations_list_nodup (versions : List Int) : (pendingMigrations versions).Nodup :=
  List.Nodup.of_map _ (pendingMigrations_nodup versions)

/-- One more opening leads on along the way. -/
theorem CurrentStore.goesOn {rest : List SchemaMigration} (h : CurrentStore base versions)
    (hbaseline : 1 ∈ versions) (hway : OnTheWay base (pendingMigrations versions) rest db)
    (o : Opening) :
    ∃ rest', OnTheWay base (pendingMigrations versions) rest' (VermayAgent.afterOpening db o) := by
  obtain ⟨versions',hcurrent,rfl,_⟩ := h.onTheWay hbaseline hway
  obtain ⟨next,hnext,hexec⟩ := hcurrent.afterOpening o
  obtain ⟨rest',_,hway'⟩ := hway.goes_on migrations_block (takesUp hbaseline base)
    (pendingMigrations_list_nodup versions) hnext hexec
  exact ⟨rest',hway'⟩

theorem CurrentStore.openings (h : CurrentStore base versions) (hbaseline : 1 ∈ versions)
    (os : List Opening) : ∃ rest, OnTheWay base (pendingMigrations versions) rest
      (os.foldl VermayAgent.afterOpening base) := by
  induction os using List.reverseRecOn with
  | nil =>
    have hstart : exec SqlStatement.run (migrationScript (fun _ => "") []) base = some base := rfl
    have hnext : [] <+: migrationScript (fun _ => "") (pendingMigrations versions) :=
      List.nil_prefix
    obtain ⟨rest,_,hway⟩ := partway_between (pendingMigrations_list_nodup versions)
      (List.nil_append _).symm hstart hnext rfl
    exact ⟨rest,hway⟩
  | append_singleton os o ih =>
    obtain ⟨rest,hway⟩ := ih
    rw [List.foldl_append]
    exact h.goesOn hbaseline hway o

/-- On its way a store is completed by the next opening, or has been left half migrated for good. -/
theorem CurrentStore.reopens {origin : SqlDb} {ms : List SchemaMigration}
    (h : CurrentStore db versions) (hway : OnTheWay base ms (pendingMigrations versions) db)
    (hmodes : TakesUp SqlStatement.run SchemaMigration.apply recordMigration
      (fun m db => hasBegun m db = true) base ms) (hnodup : ms.Nodup)
    (hruns : ∀ now, ∃ db', exec SqlStatement.run (migrationScript now ms) base = some db' ∧
      VermayAgent.afterOpening origin (now,none) = db' ∧ UpToDate db') : Reopens origin db := by
  have hblocked : ∀ now, exec SqlStatement.run (migrationScript now (pendingMigrations versions))
      db = none ↔ halfMigrated db = true := by
    intro now
    rw [h.halfMigrated_iff]
    refine hway.blocked_iff migrations_block hmodes hnodup fun clock => ?_
    obtain ⟨db',hdb',_⟩ := hruns clock
    rw [migrationScript] at hdb'
    rw [hdb']
    simp
  have hends : halfMigrated db = false → ∀ now, ∃ db' clock,
      VermayAgent.afterOpening db (now,none) = db' ∧
      VermayAgent.afterOpening origin (clock,none) = db' ∧ UpToDate db' := by
    intro hhalf now
    have hsome : exec SqlStatement.run (migrationScript now (pendingMigrations versions)) db ≠
        none := by
      rw [ne_eq,hblocked,hhalf]
      simp
    obtain ⟨db',hdb'⟩ := Option.ne_none_iff_exists'.mp hsome
    obtain ⟨clock,hclock⟩ := hway.arrives migrations_block hmodes hnodup hdb'
    obtain ⟨db₁,hdb₁,horigin,hcomplete⟩ := hruns clock
    cases hdb₁.symm.trans hclock
    exact ⟨_,clock,h.opened hdb',horigin,hcomplete⟩
  refine ⟨fun now => ?_,fun hhalf now => ?_,fun hhalf now => ?_,fun hhalf o => ?_⟩
  · rw [h.opens_iff,ne_eq,hblocked,Bool.not_eq_true]
  · obtain ⟨db',clock,hdb',horigin,_⟩ := hends hhalf now
    exact ⟨clock,hdb'.trans horigin.symm⟩
  · obtain ⟨db',_,hdb',_,hcomplete⟩ := hends hhalf now
    rwa [hdb']
  · obtain ⟨next,hnext,hexec⟩ := h.afterOpening o
    obtain ⟨m,hm,hbegun⟩ := h.halfMigrated_iff.mp hhalf
    obtain ⟨ms',hms'⟩ := List.head?_eq_some_iff.mp hm
    rw [hms'] at hnext
    rw [blocked_exec migrations_block hbegun hnext hexec] at hexec
    exact (Option.some.inj hexec).symm

/-- However often the openings of a store have been cut off, the next one completes what one opening
would have done, unless a migration has begun with its column and has not been recorded. -/
theorem openings_resume (h : CurrentStore base versions) (hbaseline : 1 ∈ versions)
    (hopens : ∀ now, opensStore base now = true) (os : List Opening) :
    Reopens base (os.foldl afterOpening base) := by
  obtain ⟨rest,hway⟩ := h.openings hbaseline os
  obtain ⟨versions',hcurrent,rfl,_⟩ := h.onTheWay hbaseline hway
  refine hcurrent.reopens hway (CurrentStore.takesUp hbaseline base)
    (pendingMigrations_list_nodup versions) fun now => ?_
  obtain ⟨db',hdb'⟩ := Option.ne_none_iff_exists'.mp ((h.opens_iff now).mp (hopens now))
  obtain ⟨versions₁,hcurrent₁,hpending,_⟩ := h.onTheWay hbaseline (.finished now hdb')
  exact ⟨db',hdb',h.opened hdb',versions₁,hcurrent₁,hpending⟩

/-- The tables of the second migration, with a task in them. -/
def ledgerSchema : SqlDb :=
  (exec SqlStatement.run (applySchemaV1 ++ applySchemaV2 ++
    [.insert "main_agent_tasks" [("task_id",.text "t1"),("status",.text "running")]])
    ⟨[],[],[],[]⟩).getD ⟨[],[],[],[]⟩

def ledgerStore : SqlDb :=
  (logged [[.integer 1,.text "a"],[.integer 2,.text "b"]]).beside ledgerSchema

theorem ledgerStore_current : CurrentStore ledgerStore [1,2] :=
  ⟨by decide +kernel,by decide +kernel⟩

theorem ledgerStore_opens (now : SchemaMigration → String) : opensStore ledgerStore now = true := by
  rw [ledgerStore_current.opens_iff]
  have hsome : (exec SqlStatement.run ((pendingMigrations [1,2]).flatMap SchemaMigration.apply)
      ledgerSchema).isSome = true := by decide +kernel
  obtain ⟨d,hd⟩ := Option.isSome_iff_exists.mp hsome
  have hrows : ∀ m ∈ pendingMigrations [1,2],
      ∀ row ∈ [[.integer 1,.text "a"],[SqlValue.integer 2,.text "b"]],
      (migrationsTable []).value "version" row ≠ some (.integer m.version) := by decide +kernel
  have hscripts : ∀ m ∈ pendingMigrations [1,2], ∀ a ∈ m.apply,
      a.Builds ∧ "schema_migrations" ∉ a.names := by decide +kernel
  have hnames : "schema_migrations" ∉ ledgerSchema.names := by decide +kernel
  rw [ledgerStore,exec_logged (pendingMigrations_nodup _) hrows hscripts hnames hd]
  simp

/-- Cut off after the first column of the third migration, the store is never opened again. -/
theorem openings_resume_ledgerStore :
    Reopens ledgerStore ([(fun _ => "c",some 2)].foldl afterOpening ledgerStore) ∧
      halfMigrated ([(fun _ => "c",some 2)].foldl afterOpening ledgerStore) = true :=
  ⟨openings_resume ledgerStore_current (by decide) ledgerStore_opens _,by decide +kernel⟩

end Halves

end VermayAgent
