import SchemaReconcile.Model.Kind
import SchemaReconcile.Value.Shown

/-!
# Storage of scalar kinds

Each scalar kind has one type in the database and one on the host.  Lists of scalars are stored as one
JSON document.
-/

namespace SchemaReconcile

namespace FieldKind

/-- The database type of a scalar kind. -/
def storage : FieldKind → String
  | bigInt => "NUMERIC"
  | bigDecimal => "NUMERIC"
  | boolean => "BOOLEAN"
  | bytes => "BYTEA"
  | date => "TIMESTAMPTZ"
  | float => "DOUBLE PRECISION"
  | id => "TEXT"
  | int => "INTEGER"
  | json => "JSONB"
  | string => "TEXT"

/-- The host type of a scalar kind. -/
def host : FieldKind → String
  | bigInt => "int"
  | bigDecimal => "Decimal"
  | boolean => "bool"
  | bytes => "str"
  | date => "datetime"
  | float => "float"
  | id => "str"
  | int => "int"
  | json => "Dict[str, Any]"
  | string => "str"

/-- The scalar kind that a value names. -/
def ofValue? : Value → Option FieldKind
  | .text s => ofName? s
  | _ => none

/-- The wording of a value that names no scalar kind. -/
def undefinedMessage (v : Value) : String :=
  "Schema: undefined scalar type \"" ++ v.display ++ "\""

end FieldKind

/-- The database type of a list of scalars or structured values. -/
def listStorage : String := FieldKind.json.storage

end SchemaReconcile
