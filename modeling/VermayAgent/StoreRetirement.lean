import VermayAgent.StoreOpenings

/-! Stores of a retired schema. An opening drops all that they hold and goes on as with an empty
file, wherever the openings before it have been cut off. -/
namespace VermayAgent
open Library

def emptyDb : SqlDb := ⟨[],[],[],[]⟩

/-- A database without a schema family: an empty one, one of a retired schema, or one whose retired
schema has been dropped in part. -/
structure Retired (db : SqlDb) : Prop where
  family : storeSchemaFamily db = some none
  visible : ∀ o ∈ db.objects, likeSqlite o.2 = false
  droppable : ∀ o ∈ db.objects, Droppable db o
  attached : db.Attached
  nodup : (db.tables.map SqlTable.name).Nodup
  named : ∀ o ∈ db.objects, o.2 = "schema_migrations" → o.1 = .table
  unindexed : ∀ i ∈ db.indexes, i.table ≠ "schema_migrations"
  own : ∀ t, db.table? "schema_migrations" = some t →
    t.columns = ["version","applied_at"] ∧ t.primaryKey = some "version" ∧
      appliedSchemaVersions db ≠ none

section Reset

variable {db db' : SqlDb}

theorem appliedSchemaVersions_congr
    (h : db'.table? "schema_migrations" = db.table? "schema_migrations") :
    appliedSchemaVersions db' = appliedSchemaVersions db := by
  rw [appliedSchemaVersions,appliedSchemaVersions,h]

theorem Retired.drop {kind : SqlKind} {name : String} (h : Retired db)
    (hrun : (SqlStatement.drop kind name).run db = some db') : Retired db' := by
  obtain ⟨hwithin,_⟩ := run_drop hrun
  refine ⟨?_,fun o ho => h.visible o (hwithin.objects ho),
    fun o ho => hwithin.droppable (h.droppable o (hwithin.objects ho)),h.attached.drop hrun,
    h.nodup.sublist (hwithin.tables.map _),fun o ho => h.named o (hwithin.objects ho),
    fun i hi => h.unindexed i (hwithin.indexes.subset hi),fun t ht => ?_⟩
  · cases ht : db'.table? "store_metadata" with
    | none => rw [storeSchemaFamily,ht]
    | some t =>
      rw [storeSchemaFamily_congr (ht.trans (hwithin.table? h.nodup ht).symm)]
      exact h.family
  · have hsame := hwithin.table? h.nodup ht
    rw [appliedSchemaVersions_congr (ht.trans hsame.symm)]
    exact h.own t hsame

theorem Retired.withLog (h : Retired db) (ht : db.table? "schema_migrations" = none)
    (hview : db.hasView "schema_migrations" = false) :
    Retired {db with tables := db.tables ++ [migrationsTable []]} := by
  have hlog := db.table?_append (migrationsTable []) "schema_migrations"
  rw [ht] at hlog
  have hobjects : ∀ o ∈ SqlDb.objects {db with tables := db.tables ++ [migrationsTable []]},
      o ∈ db.objects ∨ o = (.table,"schema_migrations") := by
    intro o ho
    simpa [SqlDb.objects,or_assoc,migrationsTable] using ho
  refine ⟨?_,fun o ho => ?_,fun o ho => ?_,fun i hi => ?_,?_,fun o ho hname => ?_,h.unindexed,
    fun t htable => ?_⟩
  · have hfamily := db.table?_append (migrationsTable []) "store_metadata"
    rw [if_neg (by decide),Option.or_none] at hfamily
    exact (storeSchemaFamily_congr hfamily).trans h.family
  · rcases hobjects o ho with ho | rfl
    · exact h.visible o ho
    · decide
  · rcases hobjects o ho with ho | rfl
    · obtain ⟨kind,name⟩ := o
      cases kind with
      | view =>
        have hapart : db.hasTable name = false := h.droppable _ ho
        have hne : name ≠ "schema_migrations" := by
          rintro rfl
          cases h.named _ ho rfl
        change SqlDb.hasTable _ name = false
        rw [SqlDb.hasTable,List.any_append]
        simp [migrationsTable,hne.symm]
        simpa [SqlDb.hasTable] using hapart
      | table => exact h.droppable _ ho
      | trigger => trivial
      | index => trivial
    · exact hview
  · have hthere := h.attached i hi
    rw [SqlDb.hasTable] at hthere ⊢
    rw [List.any_append,hthere,Bool.true_or]
  · rw [List.map_append,List.nodup_append]
    refine ⟨h.nodup,by simp,?_⟩
    intro n hn n' hn' heq
    rw [List.mem_map] at hn
    obtain ⟨t,htmem,rfl⟩ := hn
    rw [SqlDb.table?,List.find?_eq_none] at ht
    refine ht t htmem ?_
    rw [heq,List.mem_singleton.mp hn']
    rfl
  · rcases hobjects o ho with ho | rfl
    · exact h.named o ho hname
    · rfl
  · cases hlog.symm.trans htable
    refine ⟨rfl,rfl,?_⟩
    rw [appliedSchemaVersions,hlog]
    simp [migrationsTable]

/-- The migrations table is there after it has been ensured, and nothing else has changed. -/
theorem Retired.ensured (h : Retired db) : ∃ db', ensureStatement.run db = some db' ∧
    Retired db' ∧ ∃ t, db'.table? "schema_migrations" = some t := by
  have hview : db.hasView "schema_migrations" = false := by
    rw [SqlDb.hasView,List.any_eq_false]
    intro v hv hn
    have hkind := h.named (.view,v) (SqlDb.view_mem_objects.mpr hv) (of_decide_eq_true hn)
    cases hkind
  have hindex : db.hasIndex "schema_migrations" = false := by
    rw [SqlDb.hasIndex,List.any_eq_false]
    intro i hi hn
    have hkind := h.named (.index,i.name) (SqlDb.index_mem_objects.mpr ⟨i,hi,rfl⟩)
      (of_decide_eq_true hn)
    cases hkind
  rw [ensureStatement,SqlStatement.run,SqlDb.hasTable_eq,hview,hindex]
  cases ht : db.table? "schema_migrations" with
  | some t => exact ⟨db,rfl,h,t,ht⟩
  | none =>
    have hlog := db.table?_append (migrationsTable []) "schema_migrations"
    rw [ht] at hlog
    exact ⟨_,rfl,h.withLog ht hview,migrationsTable [],hlog⟩

theorem Retired.ran {as : List SqlStatement}
    (has : ∀ a ∈ as, a = ensureStatement ∨ ∃ kind name, a = .drop kind name) (h : Retired db)
    (hexec : exec SqlStatement.run as db = some db') : Retired db' := by
  have hstep : ∀ (a : SqlStatement) s s', Retired s →
      (a = ensureStatement ∨ ∃ kind name, a = .drop kind name) → a.run s = some s' →
      Retired s' := by
    rintro a s s' hs (rfl | ⟨kind,name,rfl⟩) hrun
    · obtain ⟨s₁,hensure,hretired,_⟩ := hs.ensured
      cases hensure.symm.trans hrun
      exact hretired
    · exact hs.drop hrun
  exact exec_invariant_guarded hstep h (guarded_of_forall (fun a ha _ => has a ha) db) hexec

/-- Every object of a retired store is one of those that are dropped. -/
theorem Retired.userSchemaObjects (h : Retired db) :
    VermayAgent.userSchemaObjects db = db.objects := by
  rw [VermayAgent.userSchemaObjects,List.filter_eq_self]
  intro o ho
  rw [h.visible o ho]
  rfl

/-- When all has been dropped the database is empty. -/
theorem Retired.dropped (h : Retired db) :
    exec SqlStatement.run ((VermayAgent.userSchemaObjects db).map fun o => .drop o.1 o.2) db =
      some emptyDb := by
  rw [h.userSchemaObjects]
  obtain ⟨db',hexec,hwithin,hgone⟩ := exec_drops h.droppable
  have hnil : db'.objects = [] := by
    rw [List.eq_nil_iff_forall_not_mem]
    exact fun o ho => hgone o (hwithin.objects ho) ho
  rw [hexec,SqlDb.objects_nil hnil]
  rfl

/-- What is not reset holds the migrations table only. -/
theorem Retired.eq_logged (h : Retired db) {t : SqlTable}
    (ht : db.table? "schema_migrations" = some t) (hversions : appliedSchemaVersions db = some [])
    (hobjects : hasUserSchemaObjects db = false) : db = logged [] := by
  have hkinds : ∀ o ∈ db.objects, o.1 = .index ∨ o.1 = .table ∧ o.2 = "schema_migrations" := by
    intro o ho
    rw [hasUserSchemaObjects,h.userSchemaObjects,List.any_eq_false] at hobjects
    by_cases hkind : o.1 = .index
    · exact .inl hkind
    · have hname : o.2 = "schema_migrations" := by simpa [hkind] using hobjects o ho
      exact .inr ⟨h.named o ho hname,hname⟩
  have htables : ∀ u ∈ db.tables, u.name = "schema_migrations" := by
    intro u hu
    simpa using hkinds (.table,u.name) (SqlDb.table_mem_objects.mpr ⟨u,hu,rfl⟩)
  have hviews : db.views = [] := by
    rw [List.eq_nil_iff_forall_not_mem]
    intro v hv
    simpa using hkinds (.view,v) (SqlDb.view_mem_objects.mpr hv)
  have htriggers : db.triggers = [] := by
    rw [List.eq_nil_iff_forall_not_mem]
    intro u hu
    simpa using hkinds (.trigger,u.name) (SqlDb.trigger_mem_objects.mpr ⟨u,hu,rfl⟩)
  have hindexes : db.indexes = [] := by
    rw [List.eq_nil_iff_forall_not_mem]
    intro i hi
    have hthere := h.attached i hi
    rw [SqlDb.hasTable,List.any_eq_true] at hthere
    obtain ⟨u,hu,hname⟩ := hthere
    exact h.unindexed i hi ((of_decide_eq_true hname).symm.trans (htables u hu))
  have hlist : db.tables = [t] := by
    have hnodup := h.nodup
    rw [List.map_congr_left htables,List.map_const',List.nodup_replicate] at hnodup
    have hmem : t ∈ db.tables := List.mem_of_find?_eq_some ht
    obtain ⟨u,hu⟩ := List.length_eq_one_iff.mp
      (le_antisymm hnodup (List.length_pos_of_mem hmem))
    rw [hu,List.mem_singleton] at hmem
    rw [hu,hmem]
  obtain ⟨hcolumns,hkey,_⟩ := h.own t ht
  have hrows : t.rows = [] := by
    rw [appliedSchemaVersions,ht,Option.bind_some] at hversions
    cases hrows : t.rows with
    | nil => rfl
    | cons row rows =>
      rw [hrows,List.mapM_cons] at hversions
      simp [Option.bind_eq_some_iff] at hversions
  obtain ⟨name,columns,key,rows⟩ := t
  obtain ⟨tables,indexes,views,triggers⟩ := db
  cases hlist
  cases hindexes
  cases hviews
  cases htriggers
  cases hcolumns
  cases hkey
  cases hrows
  cases htables _ List.mem_cons_self
  rfl

/-- Whether a retired store is reset depends on what is recorded and on its objects. -/
theorem Retired.requires (h : Retired db) {versions : List Int}
    (hversions : appliedSchemaVersions db = some versions) :
    Attempts SqlStatement.run requiresCleanSlateReset db []
      (versions ≠ [] || hasUserSchemaObjects db) := by
  have hobjects : Attempts SqlStatement.run
      (query fun db => some (hasUserSchemaObjects db)) db [] (hasUserSchemaObjects db) :=
    attempts_query rfl
  have hread : Attempts SqlStatement.run (query appliedSchemaVersions) db [] versions :=
    attempts_query hversions
  have hall : Attempts SqlStatement.run requiresCleanSlateReset db ([] ++ ([] ++ ([] ++ [])))
      (versions ≠ [] || hasUserSchemaObjects db) := by
    refine (attempts_query h.family).bind fun s hs => ?_
    cases hs
    refine hread.bind fun s hs => ?_
    cases hs
    exact hobjects.bind fun s _ => attempts_pure
  exact hall

/-- An opening of a retired store comes to the migrations of an empty one. -/
theorem Retired.attempts (h : Retired db) (now : SchemaMigration → String) :
    ∃ before, Attempts SqlStatement.run (AgentStore.setup now) db
        (before ++ migrationScript now schemaMigrations) () ∧
      exec SqlStatement.run before db = some (logged []) ∧
      ∀ a ∈ before, a = ensureStatement ∨ ∃ kind name, a = .drop kind name := by
  obtain ⟨db₁,hensure,hretired,t,ht⟩ := h.ensured
  obtain ⟨versions,hversions⟩ := Option.ne_none_iff_exists'.mp (hretired.own t ht).2.2
  have hread : Attempts SqlStatement.run (query appliedSchemaVersions) (logged []) [] [] :=
    attempts_query rfl
  have hpending : Attempts SqlStatement.run (applyPendingMigrations now) (logged [])
      ([] ++ migrationScript now schemaMigrations) () := hread.bind fun s _ =>
    applyMigrations_attempts now [] schemaMigrations schemaMigrations_nodup s
  have hfirst : exec SqlStatement.run [ensureStatement] db = some db₁ :=
    exec_cons_eq_some.mpr ⟨db₁,hensure,rfl⟩
  have hrequires := hretired.requires hversions
  cases hreset : (decide (versions ≠ []) || hasUserSchemaObjects db₁) with
  | false =>
    rw [hreset] at hrequires
    obtain ⟨hnone,hobjects⟩ := Bool.or_eq_false_iff.mp hreset
    have hempty : versions = [] := by simpa using hnone
    rw [hempty] at hversions
    have hlogged := hretired.eq_logged ht hversions hobjects
    subst hlogged
    refine ⟨[ensureStatement],?_,hfirst,by simp⟩
    refine (attempts_execute ensureStatement).bind fun s hs => ?_
    cases hfirst.symm.trans hs
    have hdone : Attempts SqlStatement.run resetRetiredSchemaIfRequired (logged []) ([] ++ []) () :=
      hrequires.bind fun _ _ => attempts_pure
    refine hdone.bind fun s hs => ?_
    cases hs
    exact hpending
  | true =>
    rw [hreset] at hrequires
    have hdropped := hretired.dropped
    set drops : List SqlStatement :=
      (VermayAgent.userSchemaObjects db₁).map fun o => .drop o.1 o.2 with hdrops
    have hagain : exec SqlStatement.run (drops ++ [ensureStatement]) db₁ = some (logged []) := by
      rw [exec_append,hdropped]
      rfl
    have hdone : Attempts SqlStatement.run resetRetiredSchemaIfRequired db₁
        ([] ++ (drops ++ [ensureStatement])) () := by
      refine hrequires.bind fun s hs => ?_
      cases hs
      have hdrop : Attempts SqlStatement.run resetSqliteSchema db₁ ([] ++ drops) () :=
        (attempts_query rfl).bind fun s _ => attempts_executeAll drops s
      exact hdrop.bind fun s _ => attempts_execute ensureStatement
    refine ⟨ensureStatement::(drops ++ [ensureStatement]),?_,?_,?_⟩
    · refine (attempts_execute ensureStatement).bind fun s hs => ?_
      cases hfirst.symm.trans hs
      refine hdone.bind fun s hs => ?_
      cases hagain.symm.trans hs
      exact hpending
    · exact exec_cons_eq_some.mpr ⟨db₁,hensure,hagain⟩
    · intro a ha
      simp only [hdrops,List.mem_cons,List.mem_append,List.mem_map,List.not_mem_nil,or_false] at ha
      rcases ha with rfl | ⟨o,_,rfl⟩ | rfl
      · exact .inl rfl
      · exact .inr ⟨o.1,o.2,rfl⟩
      · exact .inl rfl

end Reset

section Fresh

variable {db d d' : SqlDb} {rows : List (List SqlValue)}

/-- The schema of a store, without the record of its migrations. -/
@[irreducible] def currentSchema : SqlDb :=
  (exec SqlStatement.run (schemaMigrations.flatMap SchemaMigration.apply) emptyDb).getD emptyDb

theorem schema_runs : exec SqlStatement.run (schemaMigrations.flatMap SchemaMigration.apply)
    emptyDb = some currentSchema := by
  have hsome : (exec SqlStatement.run (schemaMigrations.flatMap SchemaMigration.apply)
      emptyDb).isSome = true := by decide +kernel
  obtain ⟨db,hdb⟩ := Option.isSome_iff_exists.mp hsome
  rw [currentSchema,hdb]
  rfl

/-- The store that the migrations make of an empty file. -/
def freshStore (now : SchemaMigration → String) : SqlDb :=
  (logged (schemaMigrations.map fun m => recordRow (now m) m)).beside currentSchema

theorem fresh_runs (now : SchemaMigration → String) :
    exec SqlStatement.run (migrationScript now schemaMigrations) (logged []) =
      some (freshStore now) := by
  have hscripts : ∀ m ∈ schemaMigrations, ∀ a ∈ m.apply,
      a.Builds ∧ "schema_migrations" ∉ a.names := by decide +kernel
  have hrows : ∀ m ∈ schemaMigrations, ∀ row ∈ ([] : List (List SqlValue)),
      (migrationsTable []).value "version" row ≠ some (.integer m.version) :=
    fun _ _ row hrow => absurd hrow List.not_mem_nil
  have hnames : "schema_migrations" ∉ emptyDb.names := by decide
  have hrun : exec SqlStatement.run (migrationScript now schemaMigrations)
      ((logged []).beside emptyDb) = some ((logged ([] ++ schemaMigrations.map fun m =>
        recordRow (now m) m)).beside currentSchema) :=
    exec_logged schemaMigrations_nodup hrows hscripts hnames schema_runs
  have hbase : (logged []).beside emptyDb = logged [] := rfl
  rw [hbase,List.nil_append] at hrun
  rw [freshStore]
  exact hrun

/-- What an opening of a retired store leaves behind. -/
theorem Retired.afterOpening (h : Retired db) (o : Opening) :
    Retired (VermayAgent.afterOpening db o) ∨
      ∃ next, next <+: migrationScript o.1 schemaMigrations ∧
        exec SqlStatement.run next (logged []) = some (VermayAgent.afterOpening db o) := by
  obtain ⟨before,hattempts,hbefore,hkinds⟩ := h.attempts o.1
  obtain ⟨done,hdone,hexec⟩ := executeAll_prefix SqlStatement.run
    (before ++ migrationScript o.1 schemaMigrations) o.2 db
  rw [VermayAgent.afterOpening,hattempts.ends o.2]
  rcases List.prefix_or_prefix_of_prefix hdone (List.prefix_append _ _) with hle | hle
  · exact .inl (h.ran (fun a ha => hkinds a (hle.subset ha)) hexec)
  · obtain ⟨next,rfl⟩ := hle
    rw [exec_append,hbefore,Option.bind_some] at hexec
    exact .inr ⟨next,(List.prefix_append_right_inj _).mp hdone,hexec⟩

/-- An opening of a retired store that nothing cuts off. -/
theorem Retired.opens (h : Retired db) (now : SchemaMigration → String) :
    (AgentStore.setup now).run none db = .completed () none (freshStore now) := by
  obtain ⟨before,hattempts,hbefore,_⟩ := h.attempts now
  have hexec : exec SqlStatement.run (before ++ migrationScript now schemaMigrations) db =
      some (freshStore now) := by
    rw [exec_append,hbefore,Option.bind_some,fresh_runs now]
  rw [hattempts.ends none,executeAll_none,hexec]

theorem Retired.opened (h : Retired db) (now : SchemaMigration → String) :
    VermayAgent.afterOpening db (now,none) = freshStore now := by
  rw [VermayAgent.afterOpening,h.opens now]
  rfl

theorem Retired.empty : Retired emptyDb := by
  refine ⟨by decide,by decide,by decide,?_,by decide,by decide,by decide,?_⟩
  · exact fun i hi => absurd hi List.not_mem_nil
  · intro t ht
    cases ht

/-- An empty store in which the schema family has been written down. -/
def familyWritten : SqlDb :=
  ⟨[migrationsTable [],⟨"store_metadata",["key","value"],some "key",
    [[.text "schema_family",.text storeSchemaFamilyName]]⟩],[],[],[]⟩

theorem familyWritten_current : CurrentStore familyWritten [] := ⟨by decide,by decide⟩

theorem Retired.logged : Retired (logged []) := by
  have hensured := Retired.empty.ensured
  obtain ⟨db,hrun,hretired,_⟩ := hensured
  cases hrun
  exact hretired

/-- An empty store with the table of the schema family. -/
def familyTable : SqlDb :=
  ⟨[migrationsTable [],⟨"store_metadata",["key","value"],some "key",[]⟩],[],[],[]⟩

theorem Retired.familyTable : Retired familyTable := by
  refine ⟨by decide,by decide,by decide,?_,by decide,by decide,by decide,?_⟩
  · exact fun i hi => absurd hi List.not_mem_nil
  · intro t ht
    cases ht
    decide

theorem baseline_begins : ∃ a b, applySchemaV1 = a::b::applySchemaV1.drop 2 ∧
    a.run (VermayAgent.logged []) = some VermayAgent.familyTable ∧
    b.run VermayAgent.familyTable = some familyWritten :=
  ⟨_,_,rfl,by decide,by decide⟩

/-- Once the family is written down a store is current throughout the baseline. -/
theorem baseline_current {done : List SqlStatement} (hdone : done <+: applySchemaV1.drop 2)
    (hexec : exec SqlStatement.run done familyWritten = some db) : CurrentStore db [] := by
  have hrest : ∀ a ∈ applySchemaV1.drop 2, a.Builds ∧ SparesRecords a := by decide +kernel
  exact familyWritten_current.script (fun a ha => hrest a (hdone.subset ha)) hexec

/-- Cut off within the baseline a store is still to be reset, or its family is written down. -/
theorem baseline_cases {done : List SqlStatement} (hdone : done <+: applySchemaV1)
    (hexec : exec SqlStatement.run done (VermayAgent.logged []) = some db) :
    Retired db ∨ CurrentStore db [] := by
  obtain ⟨a,b,hbegins,ha,hb⟩ := baseline_begins
  rw [hbegins] at hdone
  cases done with
  | nil =>
    cases hexec
    exact .inl Retired.logged
  | cons c done =>
    rw [List.cons_prefix_cons] at hdone
    rw [hdone.1,exec_cons,ha,Option.bind_some] at hexec
    cases done with
    | nil =>
      cases hexec
      exact .inl Retired.familyTable
    | cons c done =>
      rw [List.cons_prefix_cons] at hdone
      rw [hdone.2.1,exec_cons,hb,Option.bind_some] at hexec
      exact .inr (baseline_current hdone.2.2 hexec)

theorem baseline_first {m : SchemaMigration} {ms : List SchemaMigration}
    (hms : schemaMigrations = m::ms) : m.apply = applySchemaV1 := by
  cases hms
  rfl

theorem baseline_later {m : SchemaMigration} {ms : List SchemaMigration}
    (hms : schemaMigrations = m::ms) : ∀ x ∈ ms, x ∈ schemaMigrations ∧ x.version ≠ 1 := by
  have htail : ∀ x ∈ schemaMigrations.tail, x ∈ schemaMigrations ∧ x.version ≠ 1 := by decide
  rwa [hms,List.tail_cons,← hms] at htail

/-- After the baseline has been recorded the store is current. -/
theorem baseline_migrated {clock : SchemaMigration → String} {m : SchemaMigration}
    {ms rest : List SchemaMigration} (hms : schemaMigrations = m::(ms ++ rest))
    (hexec : exec SqlStatement.run (migrationScript clock (m::ms)) (VermayAgent.logged []) =
      some db) : CurrentStore db ((m::ms).map SchemaMigration.version) := by
  rw [migrationScript,migration_cons,exec_append,baseline_first hms] at hexec
  obtain ⟨db₁,happly,hrest⟩ := Option.bind_eq_some_iff.mp hexec
  obtain ⟨db₂,hrecord,hms'⟩ := exec_cons_eq_some.mp hrest
  have hcurrent : CurrentStore db₁ [] := by
    obtain ⟨a,b,hbegins,ha,hb⟩ := baseline_begins
    rw [hbegins,exec_cons,ha,Option.bind_some,exec_cons,hb,Option.bind_some] at happly
    exact baseline_current List.prefix_rfl happly
  exact (hcurrent.recorded hrecord).migrated
    (fun x hx => baseline_later hms x (List.mem_append_left _ hx)) hms'

theorem freshStore_upToDate (now : SchemaMigration → String) : UpToDate (freshStore now) := by
  have hcurrent := baseline_migrated (List.append_nil _).symm (fresh_runs now)
  exact ⟨_,hcurrent,by decide⟩

theorem Retired.reopens (h : Retired db) : Reopens emptyDb db := by
  have hhalf : halfMigrated db = false := by
    rw [halfMigrated,h.family]
    rfl
  refine ⟨fun now => ?_,fun _ now => ⟨now,?_⟩,fun _ now => ?_,fun hstuck => ?_⟩
  · rw [opensStore,h.opens now,hhalf]
    simp [Ended.isCompleted]
  · rw [h.opened now,Retired.empty.opened now]
  · rw [h.opened now]
    exact freshStore_upToDate now
  · rw [hhalf] at hstuck
    cases hstuck

/-- On its way from an empty file a store is still to be reset, or current. -/
theorem fresh_cases {rest : List SchemaMigration}
    (hway : OnTheWay (VermayAgent.logged []) schemaMigrations rest db) :
    Retired db ∨ ∃ versions, CurrentStore db versions ∧ pendingMigrations versions = rest := by
  cases hway with
  | finished clock hexec =>
    have hcurrent := baseline_migrated (List.append_nil _).symm hexec
    exact .inr ⟨_,hcurrent,by decide⟩
  | within clock before m rest done hms hbefore hdone hexec =>
    have hpending : pendingMigrations ([] ++ before.map SchemaMigration.version) = m::rest :=
      pendingMigrations_recorded hms
    cases before with
    | nil =>
      cases hbefore
      rw [baseline_first hms] at hdone
      exact (baseline_cases hdone hexec).imp_right fun hcurrent => ⟨_,hcurrent,hpending⟩
    | cons x before =>
      have hcurrent := baseline_migrated hms hbefore
      have hlater := baseline_later hms m (by simp)
      have hbuilds := laterMigrations_build m hlater.1 hlater.2
      have hspares : ∀ a ∈ done, a.Builds ∧ SparesRecords a := fun a ha =>
        ⟨(hbuilds a (hdone.subset ha)).1,(hbuilds a (hdone.subset ha)).2.1⟩
      exact .inr ⟨_,hcurrent.script hspares hexec,hpending⟩

theorem fresh_takesUp : TakesUp SqlStatement.run SchemaMigration.apply recordMigration
    (fun m db => hasBegun m db = true) (VermayAgent.logged []) schemaMigrations := by
  intro _ before m rest s hms hbefore
  cases before with
  | nil =>
    cases hbefore
    have hkeyed : Keyed applySchemaV1 (VermayAgent.logged []) := by
      have htables : ∀ a ∈ applySchemaV1, a.Replaces = true → "store_metadata" ∈ a.names := by
        decide +kernel
      intro table fields t hmem ht
      cases List.mem_singleton.mp (htables _ hmem rfl)
      cases ht
    rw [baseline_first hms]
    exact .inl ((repeatable_creating (by decide +kernel) (by decide +kernel)
      (by decide +kernel)).resumable hkeyed)
  | cons x before =>
    have hlater := baseline_later hms m (by simp)
    exact laterMigrations_modes m hlater.1 hlater.2

/-- From an empty migrations table any first part of the migrations leads on along the way. -/
theorem fresh_begins {clock : SchemaMigration → String} {next : List SqlStatement}
    (hnext : next <+: migrationScript clock schemaMigrations)
    (hexec : exec SqlStatement.run next (VermayAgent.logged []) = some db) :
    ∃ rest, OnTheWay (VermayAgent.logged []) schemaMigrations rest db := by
  have hstart : exec SqlStatement.run (migrationScript clock []) (VermayAgent.logged []) =
      some (VermayAgent.logged []) := rfl
  have hnodup : schemaMigrations.Nodup := List.Nodup.of_map _ schemaMigrations_nodup
  obtain ⟨rest,_,hway⟩ := partway_between hnodup (List.nil_append _).symm hstart hnext hexec
  exact ⟨rest,hway⟩

/-- Each opening finds a retired store, or one on its way from an empty file. -/
theorem Retired.openings (h : Retired db) (os : List Opening) :
    Retired (os.foldl VermayAgent.afterOpening db) ∨ ∃ rest,
      OnTheWay (VermayAgent.logged []) schemaMigrations rest
        (os.foldl VermayAgent.afterOpening db) := by
  induction os using List.reverseRecOn with
  | nil => exact .inl h
  | append_singleton os o ih =>
    rw [List.foldl_append]
    have hretired : Retired (os.foldl VermayAgent.afterOpening db) →
        Retired (VermayAgent.afterOpening (os.foldl VermayAgent.afterOpening db) o) ∨
        ∃ rest, OnTheWay (VermayAgent.logged []) schemaMigrations rest
          (VermayAgent.afterOpening (os.foldl VermayAgent.afterOpening db) o) := by
      intro hretired
      refine (hretired.afterOpening o).imp_right ?_
      rintro ⟨next,hnext,hexec⟩
      exact fresh_begins hnext hexec
    rcases ih with ih | ⟨rest,hway⟩
    · exact hretired ih
    · rcases fresh_cases hway with ih | ⟨versions,hcurrent,rfl⟩
      · exact hretired ih
      · obtain ⟨next,hnext,hexec⟩ := hcurrent.afterOpening o
        have hnodup : schemaMigrations.Nodup := List.Nodup.of_map _ schemaMigrations_nodup
        obtain ⟨rest,_,hway'⟩ := hway.goes_on migrations_block fresh_takesUp hnodup hnext hexec
        exact .inr ⟨rest,hway'⟩

def retiredStore : SqlDb :=
  ⟨[migrationsTable [[.integer 1,.text "a"]],⟨"sessions",["id"],some "id",[[.text "s1"]]⟩],
    [⟨"idx_sessions","sessions",["id"],false,none⟩],["recent_sessions"],[]⟩

theorem retiredStore_retired : Retired retiredStore := by
  refine ⟨by decide,by decide,by decide,?_,by decide,by decide,by decide,?_⟩
  · intro i hi
    cases List.mem_singleton.mp hi
    decide
  · intro t ht
    cases ht
    decide

end Fresh

end VermayAgent
