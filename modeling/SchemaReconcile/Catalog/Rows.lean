import SchemaReconcile.Catalog.Snapshot

/-!
# Catalog rows

A snapshot is read from the rows of seven queries.  The first one says whether the schema exists; if it
does not, the others are not asked.
-/

namespace SchemaReconcile.Catalog

/-- The queries in the order in which they are asked. -/
inductive Query where
  | schemaExists
  | enumLabels
  | typeComments
  | tableColumns
  | indexes
  | constraints
  | triggers
  deriving DecidableEq, Repr, Inhabited

namespace Query

/-- All queries in order. -/
def all : List Query :=
  [schemaExists, enumLabels, typeComments, tableColumns, indexes, constraints, triggers]

/-- The word of a query. -/
def name : Query → String
  | schemaExists => "schema_exists"
  | enumLabels => "enum_labels"
  | typeComments => "type_comments"
  | tableColumns => "table_columns"
  | indexes => "indexes"
  | constraints => "constraints"
  | triggers => "triggers"

end Query

/-- The rows of the seven queries about one schema. -/
structure Rows where
  /-- How many schemas of the name there are. -/
  schemas : Nat := 0
  /-- Enum types with one label each, in the order of the labels. -/
  enumLabels : List (String × String) := []
  typeComments : List (String × Option String) := []
  /-- Tables with one column each; a table without columns has one row. -/
  tableColumns : List (String × Option String) := []
  indexes : List String := []
  /-- Constraints by table and name, with their comments. -/
  constraints : List ((String × String) × Option String) := []
  triggers : List (String × String) := []
  deriving DecidableEq, Repr, Inhabited

namespace Rows

/-- Whether the schema exists. -/
def schemaExists (r : Rows) : Bool := r.schemas != 0

/-- The queries that are asked. -/
def asked (r : Rows) : List Query := if r.schemaExists then Query.all else [.schemaExists]

/-- The labels of the enum types. -/
def enums (r : Rows) : List (String × List String) :=
  r.enumLabels.foldl (fun types (type, label) => alter type [] (· ++ [label]) types) []

/-- The columns of the tables. -/
def tables (r : Rows) : List (String × List String) :=
  r.tableColumns.foldl (fun tables (table, column) => alter table [] (· ++ column.toList) tables) []

/-- The snapshot of a schema that rows tell. -/
def toSnapshot (r : Rows) (schema : String) : Snapshot :=
  if r.schemaExists then
    { schema, schemaExists := true, enums := r.enums, typeComments := ofPairs r.typeComments,
      tables := r.tables, indexes := ofMembers r.indexes, constraints := ofPairs r.constraints,
      triggers := ofMembers r.triggers }
  else .empty schema

end Rows

end SchemaReconcile.Catalog
