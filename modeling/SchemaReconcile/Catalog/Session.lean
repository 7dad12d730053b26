import SchemaReconcile.Catalog.Memory
import SchemaReconcile.Catalog.Rows

/-!
# Sessions

A session with a database server is the list of what is told to the server.  The server answers catalog
queries with rows and may refuse a statement by its number, or the commit after it.  Each operation is a
transaction of its own: its statements are committed together, or rolled back together with the first that
fails, and nothing of the operations after it is told.  An interrupt is not handled by the operation; what it
leaves open ends with the connection.

A rollback can fail as well, and so can closing the connection (`Ending`).  Each of these failures takes the
place of the fault that there was before (`SessionFault.replacedBy`), as on a connection that was lost.
-/

namespace SchemaReconcile.Catalog

/-- What is told to a server. -/
inductive Event where
  | connect (connection : String)
  /-- Work of the caller between connecting and closing. -/
  | work
  | query (query : Query) (schema : String)
  | execute (sql : String)
  /-- A statement that the server refuses. -/
  | fail (sql : String)
  /-- A commit that the server carries out; one that it refuses leaves nothing behind. -/
  | commit
  /-- A demand to roll back, whether the server follows it or not. -/
  | rollback
  | close
  deriving DecidableEq, Repr, Inhabited

/-- The kinds of failures that come from outside. -/
inductive FailureKind where
  /-- A failure of the database or the connection to it. -/
  | database
  | value
  | pipeline
  /-- A demand to stop at once, which no operation handles. -/
  | interrupt
  deriving DecidableEq, Repr, Inhabited

/-- A failure that comes from outside. -/
structure Failure where
  kind : FailureKind
  message : String
  deriving DecidableEq, Repr, Inhabited

/-- Why a session ends early. -/
inductive SessionFault where
  | plan (fault : Plan.Fault)
  | statement (fault : StatementFault)
  | failure (failure : Failure)
  deriving DecidableEq, Repr

/-- The wording of a fault. -/
def SessionFault.message : SessionFault → String
  | plan fault => fault.message
  | statement fault => fault.message
  | failure f => f.message

/-- Whether a fault comes from the database, or from text that it cannot hold. -/
def SessionFault.isDatabase : SessionFault → Bool
  | statement .nulCharacter => true
  | failure f => f.kind == .database
  | _ => false

/-- Whether an operation that ends with a fault rolls back and gives notice of it. -/
def SessionFault.isHandled : SessionFault → Bool
  | failure f => f.kind != .interrupt
  | _ => true

/-- The fault that is left after a step that may have failed on account of it. -/
def SessionFault.replacedBy (fault : SessionFault) : Option Failure → SessionFault
  | none => fault
  | some f => failure f

/-- A server: its rows, and what it refuses. -/
structure Server where
  rows : Rows := {}
  /-- The statement that it refuses, counted from one. -/
  refuses : Option (Nat × Failure) := none
  /-- It carries this statement out, and refuses the commit after it. -/
  atCommit : Bool := false
  /-- Why it does not roll an operation back. -/
  refusesRollback : Option Failure := none
  deriving Repr, Inhabited

/-- The failure that is due after a number of statements. -/
def Server.due? (server : Server) (number : Nat) : Option Failure :=
  server.refuses.bind fun (n, failure) => if n == number then some failure else none

/-- The failure of a statement by its number. -/
def Server.refusal? (server : Server) (number : Nat) : Option Failure :=
  if server.atCommit then none else server.due? number

/-- The failure of a commit by the number of statements before it. -/
def Server.commitRefusal? (server : Server) (ran : Nat) : Option Failure :=
  if server.atCommit then server.due? ran else none

/-- What has been told so far, how many statements were run, and why the session ended early. -/
structure Told where
  events : List Event
  ran : Nat
  fault : Option SessionFault
  deriving Repr

namespace Session

/-- The catalog queries about a schema. -/
def fetchEvents (server : Server) (schema : String) : List Event :=
  server.rows.asked.map fun q => .query q schema

/-- One statement, after a number of others. -/
def runStatement (server : Server) (ran : Nat) (s : Sql.Statement) : Told :=
  match Operation.renderStatement s with
  | .error fault => ⟨[], ran + 1, some (.statement fault)⟩
  | .ok sql =>
    match server.refusal? (ran + 1) with
    | some failure => ⟨[.fail sql], ran + 1, some (.failure failure)⟩
    | none => ⟨[.execute sql], ran + 1, none⟩

/-- Statements in order, up to the first that fails. -/
def runStatements (server : Server) : Nat → List Sql.Statement → Told
  | ran, [] => ⟨[], ran, none⟩
  | ran, s :: rest =>
    let first := runStatement server ran s
    match first.fault with
    | some _ => first
    | none =>
      let later := runStatements server first.ran rest
      { later with events := first.events ++ later.events }

/-- Why an operation fails: on account of one of its statements, or of their commit. -/
def faultOf (server : Server) (told : Told) : Option SessionFault :=
  match told.fault with
  | some fault => some fault
  | none => (server.commitRefusal? told.ran).map .failure

/-- What ends an operation: a commit, or a rollback if it failed in a way that it handles. -/
def ending : Option SessionFault → List Event
  | none => [.commit]
  | some fault => if fault.isHandled then [.rollback] else []

/-- One operation: its statements and a commit, or a rollback if one of them fails. -/
def runOperation (server : Server) (ran : Nat) (op : Operation) : Told :=
  match op.statements with
  | .error fault => ⟨[.rollback], ran, some (.statement fault)⟩
  | .ok statements =>
    let told := runStatements server ran statements
    let fault := faultOf server told
    { told with events := told.events ++ ending fault, fault }

/-- Operations in order, up to the first that fails; an operation that handled its failure comes along. -/
def runOperations (server : Server) : Nat → List Operation → Told × Option Operation
  | ran, [] => (⟨[], ran, none⟩, none)
  | ran, op :: rest =>
    let first := runOperation server ran op
    match first.fault with
    | some fault => (first, if fault.isHandled then some op else none)
    | none =>
      let (later, failed) := runOperations server first.ran rest
      ({ later with events := first.events ++ later.events }, failed)

/-- The notice about an operation that failed. -/
def failedMessage (op : Operation) : String := "Operation failed: " ++ op.describe

/-- A session: what was told, and the outcome with the notices about failed operations. -/
structure Outcome (α : Type) where
  events : List Event
  result : Except SessionFault α
  notices : List String := []

/-- A session that reads the state of a schema. -/
def fetch (server : Server) (schema : String) : Outcome Snapshot :=
  { events := fetchEvents server schema, result := .ok (server.rows.toSnapshot schema) }

/-- The fault that an operation leaves: its own, unless the rollback that it asks for fails. -/
def afterRollback (server : Server) (fault : SessionFault) : SessionFault :=
  if fault.isHandled then fault.replacedBy server.refusesRollback else fault

/-- A session that carries operations out. -/
def executeAll (server : Server) (ops : List Operation) : Outcome (List Operation) :=
  let (told, failed) := runOperations server 0 ops
  { events := told.events
    result := match told.fault with
      | none => .ok ops
      | some fault => .error (afterRollback server fault)
    notices := failed.toList.map failedMessage }

/-- The plan for a model against the state of a schema on a server. -/
def planOn (server : Server) (options : Settings.Options) (m : Model) :
    Except SessionFault (List Operation) :=
  (Plan.plan options m (server.rows.toSnapshot options.schema)).mapError .plan

/-- A session that brings a schema into line with a model. -/
def reconcile (server : Server) (options : Settings.Options) (m : Model) : Outcome (List Operation) :=
  let asked := fetchEvents server options.schema
  match planOn server options m with
  | .error fault => { events := asked, result := .error fault }
  | .ok ops =>
    let run := executeAll server ops
    { run with events := asked ++ run.events }

/-- How a connection ends: why the rollback before fails, and why closing it does. -/
structure Ending where
  rollback : Option Failure := none
  close : Option Failure := none
  deriving Repr, Inhabited

/-- A connection around a session: it is closed at the end, and what a fault of the database left is rolled
back before. -/
def connected {α : Type} (connection : String) (refused : Option Failure) (body : Outcome α)
    (ending : Ending := {}) : Outcome α :=
  match refused with
  | some failure => { events := [.connect connection], result := .error (.failure failure) }
  | none =>
    let rollback := match body.result with
      | .error fault => if fault.isDatabase then [Event.rollback] else []
      | .ok _ => []
    let result := match body.result with
      | .error fault => .error (if fault.isDatabase then fault.replacedBy ending.rollback else fault)
      | .ok a => .ok a
    { body with
      events := .connect connection :: body.events ++ rollback ++ [.close]
      result := match ending.close with
        | some failure => .error (.failure failure)
        | none => result }

end Session

end SchemaReconcile.Catalog
