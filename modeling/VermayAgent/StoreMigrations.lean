import VermayAgent.Library.SqlSchema

/-! The schema of the agent store: its migrations, and what an opening of the store does with them.
Every statement that changes the schema, or records a migration, is durable on its own; an opening
may be cut off after any number of them. -/
namespace VermayAgent
open Library

/-- `STORE_SCHEMA_FAMILY`. -/
def storeSchemaFamilyName : String := "main_agent_clean_slate_v1"

def createMainAgentCoreTables : List SqlStatement :=
  [.createTable "contexts"
      ["context_id","title","metadata","next_message_sequence","created_at",
       "updated_at"] (some "context_id"),
    .createIndex ⟨"idx_contexts_updated_at","contexts",["updated_at"],false,none⟩,
    .createTable "messages"
      ["message_id","context_id","context_sequence","role","parts","task_id","metadata",
       "created_at"] (some "message_id"),
    .createIndex ⟨"idx_messages_context_created","messages",["context_id","created_at"],false,none⟩,
    .createIndex ⟨"idx_messages_task_id","messages",["task_id"],false,none⟩,
    .createIndex ⟨"idx_messages_context_sequence","messages",
      ["context_id","context_sequence"],true,none⟩,
    .createTable "route_decisions"
      ["decision_id","context_id","message_id","kind","target_agent_id","reason","confidence",
       "metadata","created_at"] (some "decision_id"),
    .createIndex ⟨"idx_route_decisions_context_created","route_decisions",
      ["context_id","created_at"],false,none⟩,
    .createIndex ⟨"idx_route_decisions_message_id","route_decisions",["message_id"],false,none⟩,
    .createTable "main_agent_tasks"
      ["task_id","context_id","status","input_message_id","input_context_sequence",
       "output_message_id","runtime_thread_id","assigned_agent_id","retry_of_task_id","attempt",
       "model","max_loops","mcp","error_code","error_message","created_at",
       "updated_at"] (some "task_id"),
    .createIndex ⟨"idx_main_agent_tasks_context_updated","main_agent_tasks",
      ["context_id","updated_at"],false,none⟩,
    .createIndex ⟨"idx_main_agent_tasks_input_message_id","main_agent_tasks",
      ["input_message_id"],false,none⟩,
    .createIndex ⟨"idx_main_agent_tasks_one_direct_retry","main_agent_tasks",
      ["retry_of_task_id"],true,some "retry_of_task_id"⟩,
    .createTable "main_agent_task_events"
      ["event_id","task_id","type","status","payload","created_at"] (some "event_id"),
    .createIndex ⟨"idx_main_agent_task_events_task_event","main_agent_task_events",
      ["task_id","event_id"],false,none⟩,
    .createTable "artifacts"
      ["artifact_id","task_id","context_id","parts","metadata","created_at",
       "updated_at"] (some "artifact_id"),
    .createIndex ⟨"idx_artifacts_task_id","artifacts",["task_id"],false,none⟩,
    .createIndex ⟨"idx_artifacts_context_id","artifacts",["context_id"],false,none⟩]

def createRegisteredAgentTables : List SqlStatement :=
  [.createTable "registered_agents"
      ["agent_id","name","card_url","card_json","enabled","metadata","created_at",
       "updated_at"] (some "agent_id"),
    .createIndex ⟨"idx_registered_agents_enabled","registered_agents",
      ["enabled","updated_at"],false,none⟩,
    .createTable "delegated_tasks"
      ["delegation_id","context_id","input_message_id","route_decision_id","remote_agent_id",
       "local_task_id","remote_task_id","remote_context_id","remote_message_id","result_kind",
       "status","metadata","created_at","updated_at"] (some "delegation_id"),
    .createIndex ⟨"idx_delegated_tasks_context_updated","delegated_tasks",
      ["context_id","updated_at"],false,none⟩,
    .createIndex ⟨"idx_delegated_tasks_local_task_id","delegated_tasks",
      ["local_task_id"],false,none⟩,
    .createIndex ⟨"idx_delegated_tasks_remote_agent_id","delegated_tasks",
      ["remote_agent_id"],false,none⟩]

def createPendingContinuationTables : List SqlStatement :=
  [.createTable "main_agent_pending_continuations"
      ["task_id","kind","input_request","created_at"] (some "task_id"),
    .createIndex ⟨"idx_main_agent_pending_continuations_kind","main_agent_pending_continuations",
      ["kind"],false,none⟩]

def createMessageIngressTables : List SqlStatement :=
  [.createTable "main_agent_message_ingress"
      ["message_id","context_id","request_fingerprint","state","route_decision_id","outcome_kind",
       "outcome_id","error_code","error_message","error_http_status","error_retryable",
       "created_at","updated_at"] (some "message_id"),
    .createIndex ⟨"idx_main_agent_message_ingress_context_updated","main_agent_message_ingress",
      ["context_id","updated_at"],false,none⟩,
    .createIndex ⟨"idx_main_agent_message_ingress_state_updated","main_agent_message_ingress",
      ["state","updated_at"],false,none⟩]

def createQueuedExecutionTables : List SqlStatement :=
  [.createTable "main_agent_queued_executions"
      ["task_id","kind","runtime_thread_id","payload","created_at"] (some "task_id"),
    .createIndex ⟨"idx_main_agent_queued_executions_created","main_agent_queued_executions",
      ["created_at"],false,none⟩]

def applySchemaV1 : List SqlStatement :=
  [.createTable "store_metadata" ["key","value"] (some "key"),
    .insertOrReplace "store_metadata"
      [("key",.text "schema_family"),("value",.text storeSchemaFamilyName)],
    .createTable "memory_items"
      ["id","content","tags","enabled","source","created_at","updated_at"] (some "id"),
    .createTable "skill_index"
      ["name","path","description","triggers","version","updated_at"] (some "name"),
    .createTable "eval_runs"
      ["id","source_type","source_path","status","input","report_path","summary",
       "created_at"] (some "id"),
    .createTable "eval_results" ["id","run_id","name","passed","details"] (some "id"),
    .createTable "model_profiles" ["name","provider","options","updated_at"] (some "name")] ++
    createMainAgentCoreTables ++ createRegisteredAgentTables ++
    createPendingContinuationTables ++ createMessageIngressTables ++ createQueuedExecutionTables

def applySchemaV2 : List SqlStatement :=
  [.createTable "main_agent_tool_invocations"
      ["invocation_id","task_id","context_id","runtime_thread_id","loop_index","tool_call_id",
       "tool_name","normalized_arguments","arguments_digest","capability","side_effect_level",
       "idempotency_key","approval_required","approval_status","approval_reason","status",
       "result_artifact_id","error_code","error_message","error_retryable","created_at",
       "started_at","completed_at","updated_at"] (some "invocation_id"),
    .createIndex ⟨"idx_tool_invocations_execution_identity","main_agent_tool_invocations",
      ["task_id","runtime_thread_id","loop_index","tool_call_id","arguments_digest"],true,none⟩,
    .createIndex ⟨"idx_tool_invocations_task_created","main_agent_tool_invocations",
      ["task_id","created_at"],false,none⟩,
    .createIndex ⟨"idx_tool_invocations_status","main_agent_tool_invocations",
      ["status","updated_at"],false,none⟩]

def applySchemaV3 : List SqlStatement :=
  [.addColumn "main_agent_tasks" "error_retryable" (.integer 0),
    .drop .index "idx_main_agent_tasks_retry_of_task_id",
    .createIndex ⟨"idx_main_agent_tasks_one_direct_retry","main_agent_tasks",
      ["retry_of_task_id"],true,some "retry_of_task_id"⟩]

def applySchemaV4 : List SqlStatement :=
  [.addColumn "main_agent_tasks" "lifecycle_revision" (.integer 1),
    .addColumn "main_agent_task_events" "lifecycle_revision" (.integer 1)]

def applySchemaV5 : List SqlStatement :=
  [.addColumn "main_agent_queued_executions" "command_version" (.integer 1)]

structure SchemaMigration where
  version : Int
  name : String
  apply : List SqlStatement
deriving DecidableEq

/-- `MIGRATIONS`. -/
def schemaMigrations : List SchemaMigration :=
  [⟨1,"main_agent_clean_slate_baseline",applySchemaV1⟩,⟨2,"tool_invocation_ledger",applySchemaV2⟩,
    ⟨3,"task_failure_retryability",applySchemaV3⟩,⟨4,"task_lifecycle_revision",applySchemaV4⟩,
    ⟨5,"local_execution_command_version",applySchemaV5⟩]

section Reading

/-- `int(value)`; a text is not read. -/
def sqlInt? : SqlValue → Option Int
  | .integer value => some value
  | _ => none

/-- `str(value)`. -/
def sqlStr : SqlValue → String
  | .null => "None"
  | .integer value => toString value
  | .text value => value

variable (db : SqlDb)

/-- `_applied_schema_versions`. -/
def appliedSchemaVersions : Option (List Int) :=
  (db.table? "schema_migrations").bind fun t =>
    t.rows.mapM fun row => (t.value "version" row).bind sqlInt?

/-- `_store_schema_family`: whether there is a family, unless the read raises. -/
def storeSchemaFamily : Option (Option String) :=
  match db.table? "store_metadata" with
  | none => some none
  | some t =>
    if "key" ∈ t.columns ∧ "value" ∈ t.columns then
      some ((t.rows.find? fun row => t.value "key" row = some (.text "schema_family")).map
        fun row => sqlStr ((t.value "value" row).getD .null))
    else none

/-- `name LIKE 'sqlite_%'`. -/
def likeSqlite (name : String) : Bool :=
  (name.toList.take 6).map Char.toLower = ['s','q','l','i','t','e'] && decide (6 < name.length)

/-- The objects of `sqlite_master` that are the user's, in the order in which they are dropped. -/
def userSchemaObjects : List (SqlKind × String) :=
  db.objects.filter fun o => !likeSqlite o.2

/-- `_has_user_schema_objects`. -/
def hasUserSchemaObjects : Bool :=
  (userSchemaObjects db).any fun o => o.1 ≠ .index && o.2 ≠ "schema_migrations"

end Reading

section Opening

/-- `_ensure_schema_migrations_table`. -/
def ensureSchemaMigrationsTable : Durable SqlDb Unit :=
  execute SqlStatement.run
    (.createTable "schema_migrations" ["version","applied_at"] (some "version"))

/-- `_requires_clean_slate_reset`. -/
def requiresCleanSlateReset : Durable SqlDb Bool := do
  match ← query storeSchemaFamily with
  | some family => if family = storeSchemaFamilyName then pure false else raising
  | none =>
    let versions ← query appliedSchemaVersions
    let hasObjects ← query fun db => some (hasUserSchemaObjects db)
    pure (versions ≠ [] || hasObjects)

/-- `_reset_sqlite_schema`. -/
def resetSqliteSchema : Durable SqlDb Unit := do
  let rows ← query fun db => some (userSchemaObjects db)
  executeAll SqlStatement.run (rows.map fun row => .drop row.1 row.2)

/-- `_reset_retired_schema_if_required`. -/
def resetRetiredSchemaIfRequired : Durable SqlDb Unit := do
  if ← requiresCleanSlateReset then
    resetSqliteSchema
    ensureSchemaMigrationsTable
  else pure ()

/-- The statement that records a migration. -/
def recordMigration (now : String) (m : SchemaMigration) : SqlStatement :=
  .insert "schema_migrations" [("version",.integer m.version),("applied_at",.text now)]

/-- The loop of `_apply_pending_migrations`, with the time at which each migration is recorded. -/
def applyMigrations (now : SchemaMigration → String) (appliedVersions : List Int) :
    List SchemaMigration → Durable SqlDb Unit
  | [] => pure ()
  | m::ms =>
    if m.version ∈ appliedVersions then applyMigrations now appliedVersions ms
    else do
      executeAll SqlStatement.run m.apply
      execute SqlStatement.run (recordMigration (now m) m)
      applyMigrations now (m.version::appliedVersions) ms

def applyPendingMigrations (now : SchemaMigration → String) : Durable SqlDb Unit := do
  let appliedVersions ← query appliedSchemaVersions
  applyMigrations now appliedVersions schemaMigrations

/-- `AgentStore.setup`. -/
def AgentStore.setup (now : SchemaMigration → String) : Durable SqlDb Unit := do
  ensureSchemaMigrationsTable
  resetRetiredSchemaIfRequired
  applyPendingMigrations now

/-- The openings of a store, each with its times and the number of statements after which it is
cut off, if it is. -/
abbrev Opening := (SchemaMigration → String) × Option ℕ

/-- The database that an opening leaves behind. -/
def afterOpening (db : SqlDb) (o : Opening) : SqlDb := ((AgentStore.setup o.1).run o.2 db).state

/-- Whether an opening that is not cut off gives a store. -/
def opensStore (db : SqlDb) (now : SchemaMigration → String) : Bool :=
  ((AgentStore.setup now).run none db).isCompleted

end Opening

end VermayAgent
