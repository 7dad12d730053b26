import SchemaReconcile.Naming.Identifier
import SchemaReconcile.Settings.Defaults
import SchemaReconcile.Shape.Basic

/-!
# Options of a reconciliation

The options of a reconciliation are a schema whose name is safe and within the limit, whether tables get
timestamp columns, and how many indexes an entity may declare.
-/

namespace SchemaReconcile.Settings

open Shape
open Shape.Checked (andThen fault)

/-- The options of a reconciliation. -/
structure Options where
  schema : String := "public"
  timestamps : Bool := true
  indexLimit : Nat := 10
  deriving DecidableEq, Repr, Inhabited

/-- Whether a text is an identifier of ASCII letters, digits and underscores. -/
def isPlainIdentifier (name : String) : Bool :=
  match name.toList with
  | [] => false
  | c :: rest => Naming.isSafeStart c && rest.all Naming.isSafeContinue

/-- The name of a schema. -/
def readSchemaName (v : Value) : Checked String :=
  andThen (readText v) fun name =>
    if name.length > Naming.maxIdentifierBytes then fault .stringTooLong
    else if isPlainIdentifier name then .ok name
    else fault .stringPatternMismatch

/-- A limit. -/
def readLimit (v : Value) : Checked Nat :=
  andThen (readInt v) fun n => if n < 0 then fault .greaterThanEqual else .ok n.toNat

/-- The options of a record. -/
def readOptions : List (Value × Value) → Checked Options := fun r =>
  Options.mk <$> withDefault "schema_name" "public" readSchemaName r
    <*> withDefault "timestamp_columns" true readBool r
    <*> withDefault "index_count_limit" 10 readLimit r

/-- The record of default settings with other values in the place of some. -/
def overridden (d : SyncDefaults) (overrides : List (Value × Value)) : List (Value × Value) :=
  let base : List (Value × Value) :=
    [ (.text "schema_name", .text d.schema), (.text "timestamp_columns", .bool d.timestamps),
      (.text "index_count_limit", .int d.indexLimit) ]
  overrides.foldl (fun r (key, value) =>
    match value with
    | .null => r
    | v => Value.putEntry key v r) base

/-- The options of default settings with other values in the place of some; null leaves a default. -/
def optionsOf (d : SyncDefaults) (overrides : List (Value × Value)) : Checked Options :=
  readOptions (overridden d overrides)

end SchemaReconcile.Settings
