import SchemaReconcile.Catalog.Entries
import SchemaReconcile.Value.Basic

/-!
# Catalog snapshots

What the database knows about one schema: whether it exists, its enum types with their labels and
comments, its tables with their columns, its indexes, and the constraints and triggers of its tables.
-/

namespace SchemaReconcile.Catalog

/-- The state of one schema in the database. -/
structure Snapshot where
  schema : String
  schemaExists : Bool := false
  enums : List (String × List String) := []
  typeComments : List (String × Option String) := []
  tables : List (String × List String) := []
  indexes : List String := []
  /-- The constraints by table and name, with their comments. -/
  constraints : List ((String × String) × Option String) := []
  /-- The triggers by table and name. -/
  triggers : List (String × String) := []
  deriving DecidableEq, Repr, Inhabited

namespace Snapshot

/-- The state of a schema that does not exist. -/
def empty (schema : String) : Snapshot := { schema }

/-- The labels of an enum type. -/
def labels? (s : Snapshot) (type : String) : Option (List String) := s.enums.lookup type

/-- The comment on an enum type. -/
def typeComment? (s : Snapshot) (type : String) : Option String :=
  (s.typeComments.lookup type).join

/-- The columns of a table. -/
def columns? (s : Snapshot) (table : String) : Option (List String) := s.tables.lookup table

/-- Whether a table is there. -/
def hasTable (s : Snapshot) (table : String) : Bool := (s.columns? table).isSome

/-- Whether a column of a table is there. -/
def hasColumn (s : Snapshot) (table column : String) : Bool :=
  ((s.columns? table).getD []).contains column

/-- Whether an index is there. -/
def hasIndex (s : Snapshot) (name : String) : Bool := s.indexes.contains name

/-- Whether a constraint of a table is there. -/
def hasConstraint (s : Snapshot) (table constraint : String) : Bool :=
  (s.constraints.lookup (table, constraint)).isSome

/-- The comment on a constraint of a table. -/
def constraintComment? (s : Snapshot) (table constraint : String) : Option String :=
  (s.constraints.lookup (table, constraint)).join

/-- Whether a trigger of a table is there. -/
def hasTrigger (s : Snapshot) (table trigger : String) : Bool :=
  s.triggers.contains (table, trigger)

/-- Texts in code point order. -/
def sorted (texts : List String) : List String := texts.mergeSort fun a b => a ≤ b

/-- Pairs of texts in code point order. -/
def sortedPairs (pairs : List (String × String)) : List (String × String) :=
  pairs.mergeSort fun a b => a.1 < b.1 || (a.1 == b.1 && a.2 ≤ b.2)

/-- The summary of a snapshot. -/
def summary (s : Snapshot) : Value :=
  .object
    [ ("schema", .text s.schema),
      ("schema_exists", .bool s.schemaExists),
      ("enum_types", .texts (sorted (s.enums.map (·.1)))),
      ("tables", .object ((sorted (s.tables.map (·.1))).map fun t =>
        (t, .count ((s.columns? t).getD []).length))),
      ("indexes", .count s.indexes.length),
      ("constraints", .count s.constraints.length),
      ("triggers", .count s.triggers.length) ]

end Snapshot

end SchemaReconcile.Catalog
