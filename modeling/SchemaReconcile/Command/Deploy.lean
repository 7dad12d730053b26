import SchemaReconcile.Command.Fault

/-!
# The deploy command

The deploy command brings a database schema into line with a schema file, or prints the statements that
would do so.
-/

namespace SchemaReconcile.Command

open Catalog (Event Operation Server Session.Outcome)
open Settings (Environment)

/-- The options of the deploy command. -/
def deployOptions : List Option_ :=
  [ { names := ["--schema"], takes := .text, required := true },
    { names := ["--db-schema"], takes := .text },
    { names := ["--dry-run"], takes := .nothing },
    { names := ["--connection"], takes := .text },
    { names := ["--index-limit"], takes := .integer },
    { names := ["--no-timestamps"], takes := .nothing },
    { names := ["--json-logs"], takes := .nothing },
    { names := ["--verbose", "-v"], takes := .nothing } ]

/-- The options of the reconciliation that the arguments set. -/
def overrides (given : Given) : List (Value × Value) :=
  [ (.text "schema_name", .optionalText (given.text? "--db-schema")),
    (.text "index_count_limit", match given.integer? "--index-limit" with
      | some n => .int n
      | none => .null),
    (.text "timestamp_columns", if given.has "--no-timestamps" then .bool false else .null) ]

/-- The options of a reconciliation from the environment and the arguments. -/
def optionsOf (env : Environment) (given : Given) : Except Fault Settings.Options :=
  match Settings.Defaults.ofEnvironment env with
  | .error fault => .error (.settings fault)
  | .ok d =>
    match Settings.optionsOf d.sync (overrides given) with
    | .ok options => .ok options
    | .faults faults => .error (.options faults)

/-- The model of a schema file. -/
def modelOfFile (tree : File.Tree) (path : String) : Except Fault Model := do
  let d ← (Document.ofFile tree (.ofText path)).mapError .document
  (extract d).mapError .extract

/-- A line that divides the output. -/
def divider : String := String.ofList (List.replicate 70 '=')

/-- The lines before a session. -/
def introduction (path : String) (options : Settings.Options) (m : Model) (dry : Bool) : List String :=
  [ divider, "MODELSYNC - Schema Deployment", divider, "Schema file: " ++ path,
    "Target schema: " ++ options.schema,
    "Entities: " ++ toString m.entities.length ++ "  Enums: " ++ toString m.enums.length ++
      "  Relations: " ++ toString m.relations.length,
    "Mode: " ++ (if dry then "DRY RUN" else "EXECUTE"), divider ]

/-- The lines about an operation of a plan, up to a statement that cannot be written. -/
def plannedLines (op : Operation) : Progress String Catalog.StatementFault :=
  let head : Progress String Catalog.StatementFault := ⟨["-- " ++ op.describe], none⟩
  match op.statements with
  | .error fault => ⟨head.done, some fault⟩
  | .ok statements =>
    .join [head, .of (fun s => (Operation.renderStatement s).map (· ++ ";")) statements]

/-- A session that prints the plan for a model: what was told, the lines, and a fault. -/
def dryRun (server : Server) (options : Settings.Options) (m : Model) :
    Session.Outcome Unit × List String :=
  let events := Catalog.Session.fetchEvents server options.schema
  match Catalog.Session.planOn server options m with
  | .error fault => ({ events, result := .error fault }, [])
  | .ok ops =>
    let shown := Progress.join (ops.map plannedLines)
    let head := ["", "[PLAN] " ++ toString ops.length ++ " operations", ""]
    ({ events, result := match shown.fault with
        | none => .ok ()
        | some fault => .error (.statement fault) }, head ++ shown.done)

/-- A session that carries the plan for a model out, and the lines about it. -/
def execution (server : Server) (options : Settings.Options) (m : Model) :
    Session.Outcome Unit × List String :=
  let run := Catalog.Session.reconcile server options m
  match run.result with
  | .error fault => ({ events := run.events, result := .error fault }, [])
  | .ok ops =>
    ({ events := run.events, result := .ok () },
      ["", "[RESULTS] " ++ toString ops.length ++ " operations executed", ""] ++
        ops.map fun op => "✅ " ++ op.describe)

/-- The last lines of a deployment. -/
def conclusion (dry : Bool) : List String :=
  ["", divider, if dry then "Dry run complete, nothing executed"
    else "✅ Deployment completed successfully!", divider]

/-- The last lines of a deployment that failed. -/
def failureLines (fault : Fault) : List String :=
  ["", divider, failureMark ++ "Deployment failed!", "   - " ++ fault.message, divider]

/-- The outcome of a session between what was printed before it and what comes after it. -/
def concluded (before : List String) (events : List Event) (lines : List String) (fault : Option Fault)
    (dry : Bool) (tree : File.Tree) : Outcome :=
  match fault with
  | none => { exit := .code 0, lines := before ++ lines ++ conclusion dry, events, tree }
  | some fault =>
    if [Family.pipeline, .value].contains fault.family then
      { exit := .code 1, lines := before ++ lines ++ failureLines fault, events, tree }
    else { exit := .escaped fault, lines := before ++ lines, events, tree }

/-- The connection string of the arguments or the environment. -/
def connectionOf (env : Environment) (given : Given) : Except Fault String :=
  match given.text? "--connection" with
  | some s => .ok s
  | none =>
    match Settings.DatabaseDefaults.ofEnvironment env with
    | .error fault => .error (.settings fault)
    | .ok d =>
      match Settings.connectionString? d with
      | some s => .ok s
      | none => .error .notConfigured

/-- The deploy command: a server may refuse the connection, and what ends the connection may fail. -/
def deploy (env : Environment) (tree : File.Tree) (server : Server) (refusal : Option Catalog.Failure)
    (arguments : List String) (ending : Catalog.Session.Ending := {}) : Outcome :=
  match readArguments deployOptions arguments with
  | .error r => unread r tree
  | .ok given =>
    let path := (given.text? "--schema").getD ""
    let input := do
      let options ← optionsOf env given
      let m ← modelOfFile tree path
      return (options, m)
    match input with
    | .error fault => refused [.pipeline, .system, .value] fault tree
    | .ok (options, m) =>
      let dry := given.has "--dry-run"
      let before := introduction path options m dry
      match connectionOf env given with
      | .error fault => concluded before [] [] (some fault) dry tree
      | .ok connection =>
        let (body, lines) := if dry then dryRun server options m else execution server options m
        let session := Catalog.Session.connected connection refusal body ending
        let lines := if refusal.isSome then [] else lines
        match session.result with
        | .error fault => concluded before session.events lines (some (.session fault)) dry tree
        | .ok () => concluded before session.events lines none dry tree

end SchemaReconcile.Command
