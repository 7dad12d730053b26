import SchemaReconcile.Settings.Environment

/-!
# Default settings

The settings of the reconciliation, of the generation of artifacts and of the database, as the
environment gives them.
-/

namespace SchemaReconcile.Settings

/-- The settings of a reconciliation, before they are held against its rules. -/
structure SyncDefaults where
  schema : String := "public"
  timestamps : Bool := true
  indexLimit : Int := 10
  deriving DecidableEq, Repr, Inhabited

/-- The settings of a reconciliation in an environment. -/
def SyncDefaults.ofEnvironment (env : Environment) : Except Text.IntegerFault SyncDefaults := do
  let indexLimit ← env.integer "SYNC_INDEX_COUNT_LIMIT" 10
  return { schema := env.text "SYNC_SCHEMA" "public"
           timestamps := env.flag "SYNC_TIMESTAMP_COLUMNS" true, indexLimit }

/-- The settings of the generation of artifacts. -/
structure ArtifactDefaults where
  outputDirectory : String := "generated"
  /-- Whether the directory of the models is emptied first. -/
  fresh : Bool := true
  deriving DecidableEq, Repr, Inhabited

/-- The settings of the generation of artifacts in an environment. -/
def ArtifactDefaults.ofEnvironment (env : Environment) : ArtifactDefaults where
  outputDirectory := env.text "CODEGEN_OUTPUT_DIR" "generated"
  fresh := env.flag "CODEGEN_RECREATE_MODELS_DIR" true

/-- The settings of the database. -/
structure DatabaseDefaults where
  url : Option String := none
  host : Option String := none
  port : Int := 5432
  database : Option String := none
  user : String := "postgres"
  password : String := ""
  sslmode : String := "prefer"
  deriving DecidableEq, Repr, Inhabited

namespace DatabaseDefaults

/-- The settings of the database in an environment. -/
def ofEnvironment (env : Environment) : Except Text.IntegerFault DatabaseDefaults := do
  let port ← env.integer "POSTGRES_PORT" 5432
  return { url := env.filled? "DATABASE_URL", host := env.filled? "POSTGRES_HOST", port
           database := env.filled? "POSTGRES_DB", user := env.text "POSTGRES_USER" "postgres"
           password := env.text "POSTGRES_PASSWORD" ""
           sslmode := env.text "POSTGRES_SSLMODE" "prefer" }

/-- Whether an optional text is there and not empty. -/
def isFilled (text : Option String) : Bool := (text.getD "") != ""

/-- Whether the settings say how to connect. -/
def configured (d : DatabaseDefaults) : Bool :=
  isFilled d.url || (isFilled d.host && isFilled d.database)

end DatabaseDefaults

/-- All default settings. -/
structure Defaults where
  sync : SyncDefaults := {}
  artifacts : ArtifactDefaults := {}
  database : DatabaseDefaults := {}
  deriving DecidableEq, Repr, Inhabited

/-- All default settings in an environment. -/
def Defaults.ofEnvironment (env : Environment) : Except Text.IntegerFault Defaults := do
  let sync ← SyncDefaults.ofEnvironment env
  let database ← DatabaseDefaults.ofEnvironment env
  return { sync, artifacts := .ofEnvironment env, database }

/-! ## Connection strings -/

/-- The wording of settings that do not say how to connect. -/
def notConfiguredMessage : String :=
  "Database connection not configured. " ++
    "Set DATABASE_URL, or POSTGRES_HOST and POSTGRES_DB environment variables."

/-- A value of a connection string: a backslash goes before backslashes and quotes, and a value that is
empty or has a blank stands between quotes. -/
def connectionValue (value : String) : String :=
  let escaped := value.toList.flatMap fun c => if c == '\\' || c == '\'' then ['\\', c] else [c]
  if escaped.isEmpty || escaped.any Text.isBlank then "'" ++ String.ofList escaped ++ "'"
  else String.ofList escaped

/-- The connection string of settings, none if they do not say how to connect. -/
def connectionString? (d : DatabaseDefaults) : Option String :=
  if DatabaseDefaults.isFilled d.url then d.url
  else if d.configured then
    let parts :=
      [ ("host", some (d.host.getD "")), ("port", some (toString d.port)),
        ("dbname", some (d.database.getD "")), ("user", some d.user),
        ("password", if d.password.isEmpty then none else some d.password),
        ("sslmode", some d.sslmode) ]
    some (" ".intercalate (parts.filterMap fun (key, value) =>
      value.map fun v => key ++ "=" ++ connectionValue v))
  else none

end SchemaReconcile.Settings
