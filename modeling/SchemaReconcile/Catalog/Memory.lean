import SchemaReconcile.Plan.Basic

/-!
# Catalogs in memory

A catalog in memory holds a snapshot, applies operations to it, and keeps the operations and statements
that it was given.  A dry run needs no more.
-/

namespace SchemaReconcile.Catalog

/-- A snapshot with the operations and statements given so far. -/
structure Memory where
  snapshot : Snapshot
  operations : List Operation := []
  statements : List Sql.Statement := []
  deriving DecidableEq, Repr, Inhabited

/-- Why a reconciliation ends early. -/
inductive ReconcileFault where
  | plan (fault : Plan.Fault)
  | statement (fault : StatementFault)
  deriving DecidableEq, Repr

namespace Memory

/-- The state of a schema: a catalog knows of no schema but its own. -/
def fetch (c : Memory) (schema : String) : Snapshot :=
  if schema = c.snapshot.schema then c.snapshot else .empty schema

/-- A catalog after an operation, and why the operation failed.  An operation that fails is kept among the
operations given. -/
def execute (c : Memory) (op : Operation) : Memory × Option StatementFault :=
  let given := { c with operations := c.operations ++ [op] }
  match op.statements with
  | .error fault => (given, some fault)
  | .ok statements =>
    ({ given with statements := c.statements ++ statements, snapshot := op.apply c.snapshot }, none)

/-- A catalog after operations in order, up to the first that fails. -/
def executeAll (c : Memory) : List Operation → Memory × Option StatementFault
  | [] => (c, none)
  | op :: rest =>
    match c.execute op with
    | (c, some fault) => (c, some fault)
    | (c, none) => c.executeAll rest

/-- A catalog brought into line with a model, and the operations of the plan. -/
def reconcile (c : Memory) (options : Settings.Options) (m : Model) :
    Memory × Except ReconcileFault (List Operation) :=
  match Plan.plan options m (c.fetch options.schema) with
  | .error fault => (c, .error (.plan fault))
  | .ok ops =>
    match c.executeAll ops with
    | (c, some fault) => (c, .error (.statement fault))
    | (c, none) => (c, .ok ops)

/-- A catalog that has forgotten what it was given, and keeps its snapshot. -/
def forget (c : Memory) : Memory := { snapshot := c.snapshot }

end Memory

end SchemaReconcile.Catalog
