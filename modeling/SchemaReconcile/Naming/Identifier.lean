import SchemaReconcile.Naming.SnakeCase
import SchemaReconcile.Text.Sha256
import SchemaReconcile.Value.Shown

/-!
# Database identifiers

A safe identifier is an ASCII letter or underscore followed by letters, digits and underscores; one line
feed at the end is let through.  Generated names longer than the 63 bytes that the database keeps are
cut and closed with a short hash of the whole name.
-/

namespace SchemaReconcile.Naming

/-- The number of bytes of an identifier that the database keeps. -/
def maxIdentifierBytes : Nat := 63

/-- Whether a safe identifier may start with a character. -/
def isSafeStart (c : Char) : Bool := c.isAlpha || c == '_'

/-- Whether a safe identifier may go on with a character. -/
def isSafeContinue (c : Char) : Bool := c.isAlphanum || c == '_'

/-- Whether characters may follow the start of a safe identifier, up to one final line feed. -/
def isSafeRest : List Char → Bool
  | [] => true
  | ['\n'] => true
  | c :: rest => isSafeContinue c && isSafeRest rest

/-- Whether a text is a safe identifier. -/
def isSafe (name : String) : Bool :=
  match name.toList with
  | [] => false
  | c :: rest => isSafeStart c && isSafeRest rest

/-- A value that is no safe identifier, with what it was to name. -/
structure UnsafeName where
  role : String
  shown : String
  deriving DecidableEq, Repr, Inhabited

/-- The wording of an unsafe name. -/
def UnsafeName.message (u : UnsafeName) : String :=
  "unsafe " ++ u.role ++ ": " ++ u.shown

/-- A name if it is a safe identifier. -/
def safe (role name : String) : Except UnsafeName String :=
  if isSafe name then .ok name else .error ⟨role, Text.quoted name⟩

/-- A dynamic value if it is a text and a safe identifier. -/
def safeValue (role : String) : Value → Except UnsafeName String
  | .text name => safe role name
  | v => .error ⟨role, v.shown⟩

/-- A name within the limit: a longer one is its first 54 characters and a short hash of it. -/
def bounded (name : String) : String :=
  if name.utf8ByteSize ≤ maxIdentifierBytes then name
  else String.ofList (name.toList.take (maxIdentifierBytes - 9)) ++ "_" ++ Text.shortHash name

/-- The name of the database type of an enumeration in a schema whose name is safe.  The name of the
enumeration goes in by its hash only. -/
def enumTypeOf (schema enumeration : String) : String :=
  schema ++ "_enum_" ++ Text.shortHash enumeration

/-- The name of the database type of an enumeration. -/
def enumType (schema enumeration : String) : Except UnsafeName String :=
  (safe "schema name" schema).map fun schema => enumTypeOf schema enumeration

/-- Introspection tags, one on a line. -/
def smartTags (tags : List (String × String)) : String :=
  "\n".intercalate (tags.map fun (key, value) => "@" ++ key ++ " " ++ value)

/-- The name of a foreign key constraint. -/
def foreignKeyConstraint (table column : String) : String :=
  bounded (table ++ "_" ++ column ++ "_fkey")

/-- The name of the index that keeps a foreign key unique. -/
def uniqueIndex (table column : String) : String :=
  bounded (table ++ "_" ++ column ++ "_uindex")

/-- The name of an index: a lead, the table, the columns and possibly a tail. -/
def indexName (table : String) (columns : List String) (lead : String := "idx")
    (tail : String := "") : String :=
  let name := lead ++ "_" ++ table ++ "_" ++ "_".intercalate columns
  bounded (if tail.isEmpty then name else name ++ "_" ++ tail)

/-- The lead of the name of an index. -/
def indexLead (unique : Bool) : String := if unique then "idx_unique" else "idx"

/-- The name of the trigger that keeps the time of the last update. -/
def triggerName (table : String) : String :=
  bounded ("trg_" ++ table ++ "_updated_at")

/-- The name of the primary key constraint and its index. -/
def primaryKeyName (table : String) : String := table ++ "_pkey"

/-- The table of an entity. -/
def tableName (entity : String) : Except UnsafeName String :=
  safe "table name" (snakeCase entity)

end SchemaReconcile.Naming
