import SchemaReconcile.Model.Entity
import SchemaReconcile.Naming.Identifier

/-!
# Column names

The column of a field is its name in snake case, and that of a reference is its foreign key attribute.
-/

namespace SchemaReconcile

/-- The attribute that a field is stored under. -/
def EntityField.storedName (f : EntityField) : String :=
  f.foreignKey?.getD f.name

/-- The column of a field. -/
def EntityField.column (f : EntityField) : Except Naming.UnsafeName String :=
  Naming.safe "column name" (Naming.snakeCase f.storedName)

end SchemaReconcile
