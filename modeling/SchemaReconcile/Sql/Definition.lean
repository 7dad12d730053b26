import SchemaReconcile.Naming.Identifier
import SchemaReconcile.Sql.Statement

/-!
# Definition statements

The statements that create and comment on schemas, enum types, tables, columns, indexes, foreign keys
and triggers.
-/

namespace SchemaReconcile.Sql

/-- Creates a schema if it is missing. -/
def createSchema (schema : String) : Statement :=
  [.fixed "CREATE SCHEMA IF NOT EXISTS ", .identifier schema]

/-! ## Enum types -/

/-- Creates an enum type with its labels in order. -/
def createEnum (schema type : String) (labels : List String) : Statement :=
  .fixed "CREATE TYPE " :: qualified schema type ++ .fixed " AS ENUM (" ::
    separatedBy ", " (labels.map fun l => [.literal l]) ++ [.fixed ")"]

/-- The type of a column of an enum type or of a list of it. -/
def enumColumn (schema type : String) (isArray : Bool) : Statement :=
  qualified schema type ++ if isArray then [.fixed "[]"] else []

/-! ## Comments -/

/-- Comments on a table. -/
def commentOnTable (schema table comment : String) : Statement :=
  .fixed "COMMENT ON TABLE " :: qualified schema table ++ [.fixed " IS ", .literal comment]

/-- Comments on a column. -/
def commentOnColumn (schema table column comment : String) : Statement :=
  .fixed "COMMENT ON COLUMN " :: qualified schema table ++
    [.fixed ".", .identifier column, .fixed " IS ", .literal comment]

/-- Comments on a type. -/
def commentOnType (schema type comment : String) : Statement :=
  .fixed "COMMENT ON TYPE " :: qualified schema type ++ [.fixed " IS ", .literal comment]

/-- Comments on a constraint of a table. -/
def commentOnConstraint (schema table constraint comment : String) : Statement :=
  [.fixed "COMMENT ON CONSTRAINT ", .identifier constraint, .fixed " ON "] ++
    qualified schema table ++ [.fixed " IS ", .literal comment]

/-! ## Tables -/

/-- A column of a table: its type and default are SQL text. -/
structure Column where
  name : String
  type : Statement
  nullable : Bool := true
  primaryKey : Bool := false
  default : Option Statement := none
  comment : Option String := none
  deriving DecidableEq, Repr, Inhabited

/-- Whether the definition of a column says that it holds no null.  Primary keys get this from their
constraint; a column added to a table keeps it only with a default. -/
def Column.saysNotNull (c : Column) (allowNotNull : Bool) : Bool :=
  !c.primaryKey && !c.nullable && (allowNotNull || c.default.isSome)

/-- The definition of a column. -/
def Column.definition (c : Column) (allowNotNull : Bool := true) : Statement :=
  .identifier c.name :: .fixed " " :: c.type ++
    (if c.saysNotNull allowNotNull then [.fixed " NOT NULL"] else []) ++
    match c.default with
    | some d => .fixed " DEFAULT " :: d
    | none => []

/-- The names of the primary key columns. -/
def keyColumns (columns : List Column) : List String :=
  (columns.filter (·.primaryKey)).map (·.name)

/-- The primary key constraint of a table, if it has key columns. -/
def keyClause (columns : List Column) : List Statement :=
  match keyColumns columns with
  | [] => []
  | names => [.fixed "PRIMARY KEY (" :: identifiers ", " names ++ [.fixed ")"]]

/-- Creates a table if it is missing. -/
def createTable (schema table : String) (columns : List Column) : Statement :=
  .fixed "CREATE TABLE IF NOT EXISTS " :: qualified schema table ++ .fixed " (" ::
    separatedBy ", " (columns.map (·.definition) ++ keyClause columns) ++ [.fixed ")"]

/-- Adds a column to a table if it is missing. -/
def addColumn (schema table : String) (column : Column) : Statement :=
  .fixed "ALTER TABLE " :: qualified schema table ++ .fixed " ADD COLUMN IF NOT EXISTS " ::
    column.definition false

/-! ## Indexes, foreign keys and triggers -/

/-- Creates an index if it is missing; no access method, or an empty one, leaves the choice open. -/
def createIndex (schema table : String) (columns : List String) (name : String) (unique : Bool)
    (method : Option String) : Except Naming.UnsafeName Statement := do
  let using_ ← match method with
    | none => pure []
    | some m =>
      if m.isEmpty then pure []
      else do
        let m ← Naming.safe "index method" m
        pure [Piece.fixed " USING ", .fixed m]
  return .fixed ("CREATE " ++ (if unique then "UNIQUE " else "") ++ "INDEX IF NOT EXISTS ") ::
    .identifier name :: .fixed " ON " :: qualified schema table ++ using_ ++
    .fixed " (" :: identifiers ", " columns ++ [.fixed ")"]

/-- What happens to a reference when the row it refers to is deleted. -/
def deleteActions : List String := ["CASCADE", "SET NULL", "RESTRICT", "NO ACTION"]

/-- Adds a foreign key constraint; `none` if the action on deletion is not one. -/
def addForeignKey? (schema table constraint column refTable refColumn onDelete : String) :
    Option Statement :=
  if deleteActions.contains onDelete then
    some (.fixed "ALTER TABLE " :: qualified schema table ++ .fixed " ADD CONSTRAINT " ::
      .identifier constraint :: .fixed " FOREIGN KEY (" :: .identifier column ::
      .fixed ") REFERENCES " :: qualified schema refTable ++ .fixed " (" :: .identifier refColumn ::
      .fixed ") ON DELETE " :: .fixed onDelete :: [.fixed " ON UPDATE CASCADE"])
  else none

/-- The wording of an action on deletion that is not one. -/
def actionMessage (onDelete : String) : String := "unsupported ON DELETE action: " ++ onDelete

/-- Creates the function that sets the time of the last update. -/
def updatedAtFunction (schema : String) : Statement :=
  [.fixed "\n            CREATE OR REPLACE FUNCTION ", .identifier schema,
    .fixed (".update_updated_at_column()\n            RETURNS TRIGGER\n" ++
      "            LANGUAGE plpgsql\n            AS $$\n            BEGIN\n" ++
      "                NEW.updated_at = NOW();\n                RETURN NEW;\n" ++
      "            END;\n            $$\n        ")]

/-- Creates the trigger that calls this function before a row is updated. -/
def updatedAtTrigger (schema table name : String) : Statement :=
  [.fixed "\n            CREATE TRIGGER ", .identifier name,
    .fixed "\n            BEFORE UPDATE ON "] ++ qualified schema table ++
    [.fixed "\n            FOR EACH ROW\n            EXECUTE FUNCTION ", .identifier schema,
      .fixed ".update_updated_at_column()\n        "]

/-- Creates the function and the trigger for a table. -/
def updatedAt (schema table : String) : List Statement :=
  [updatedAtFunction schema, updatedAtTrigger schema table (Naming.triggerName table)]

end SchemaReconcile.Sql
