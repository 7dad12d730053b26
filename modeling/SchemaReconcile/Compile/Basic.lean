import SchemaReconcile.Codec.Row
import SchemaReconcile.Compile.Catalogue
import SchemaReconcile.Compile.Columns
import SchemaReconcile.Model.Basic
import SchemaReconcile.Progress
import SchemaReconcile.Sql.Definition

/-!
# Compiled entities

A compiled field says how a declared field is stored: its column, the type of that column, the host type,
what the indexes say about it, and the codec of its values.  Scalars have the type of their kind, lists of
scalars and structured values are JSON, enumerations have a type of their own in the target schema, and
references hold the key of the other entity as text.

`Entity.compile` compiles the fields in declaration order; it fails only on a name that is not safe or an
enumeration that the model does not have.
-/

namespace SchemaReconcile

/-- The type of a column. -/
inductive ColumnType where
  | builtin (name : String)
  | enumType (schema name : String)
  deriving DecidableEq, Repr, Inhabited

/-- How a declared field is stored. -/
structure CompiledField where
  declared : EntityField
  column : String
  type : ColumnType
  /-- The host type of the values. -/
  host : String
  flags : IndexFlags
  codec : Option Codec := none
  deriving DecidableEq, Repr, Inhabited

namespace CompiledField

/-- The name of the database type, without its schema. -/
def storage (f : CompiledField) : String :=
  match f.type with
  | .builtin name => name
  | .enumType _ name => if f.declared.isArray then name ++ "[]" else name

/-- The schema and name of the enum type of a field. -/
def enumType? (f : CompiledField) : Option (String × String) :=
  match f.type with
  | .builtin _ => none
  | .enumType schema name => some (schema, name)

/-- Whether a field is of an enumeration. -/
def isEnum (f : CompiledField) : Bool := f.enumType?.isSome

/-- Whether a field holds JSON values. -/
def isJson (f : CompiledField) : Bool := f.declared.type.kind? == some .json

/-- Whether a field holds the key of another entity. -/
def isForeignKey (f : CompiledField) : Bool := f.declared.isReference

/-- Whether a field is the primary key. -/
def isPrimaryKey (f : CompiledField) : Bool := f.declared.isPrimaryKey

/-- A field as part of a row. -/
def toRowField (f : CompiledField) : RowField := ⟨f.declared.name, f.codec⟩

/-- The column of a field; a primary key holds no null. -/
def toColumn (f : CompiledField) : Sql.Column where
  name := f.column
  type := match f.type with
    | .builtin name => [.fixed name]
    | .enumType schema name => Sql.enumColumn schema name f.declared.isArray
  nullable := f.declared.nullable && !f.isPrimaryKey
  primaryKey := f.isPrimaryKey
  comment := f.declared.description

end CompiledField

/-- An entity with its table and its compiled fields. -/
structure CompiledEntity where
  name : String
  table : String
  fields : List CompiledField
  description : Option String := none
  deriving DecidableEq, Repr, Inhabited

namespace CompiledEntity

/-- The primary key of an entity. -/
def primaryKey? (e : CompiledEntity) : Option CompiledField :=
  e.fields.find? CompiledField.isPrimaryKey

/-- The column of the primary key of an entity. -/
def keyColumn (e : CompiledEntity) : String :=
  match e.primaryKey? with
  | some f => f.column
  | none => ""

/-- The column of a field by its name. -/
def column? (e : CompiledEntity) (field : String) : Option String :=
  (e.fields.find? fun f => f.declared.name == field).map (·.column)

/-- The names of the columns that the fields of an entity have. -/
def fieldColumns (e : CompiledEntity) : List String := e.fields.map (·.column)

end CompiledEntity

/-! ## Compiling -/

/-- Why an entity is not compiled. -/
inductive CompileFault where
  | unsafeName (name : Naming.UnsafeName)
  | undefinedEnum (entity field enumeration : String)
  deriving DecidableEq, Repr

/-- The wording of a fault. -/
def CompileFault.message : CompileFault → String
  | unsafeName name => name.message
  | undefinedEnum entity field enumeration =>
    "Schema: undefined enum \"" ++ enumeration ++ "\" on field \"" ++ field ++ "\" in \"type " ++
      entity ++ " @entity\""

/-- A schema whose name is safe, with the enumerations that have a type in it. -/
structure CompileTarget where
  schema : String
  enums : List String
  deriving Repr, Inhabited

/-- A name that must be safe. -/
def safely {α : Type} (x : Except Naming.UnsafeName α) : Except CompileFault α :=
  x.mapError CompileFault.unsafeName

/-- The target for a schema and enumerations. -/
def CompileTarget.of (schema : String) (enums : List Enumeration) :
    Except CompileFault CompileTarget := do
  let schema ← safely (Naming.safe "schema name" schema)
  return ⟨schema, enums.map (·.name)⟩

/-- A host type, or the type of lists of it. -/
def hostOf (base : String) (isArray : Bool) : String :=
  if isArray then "List[" ++ base ++ "]" else base

/-- The column type, the host type and the codec of a field that holds one scalar kind; a host type may
be given by name. -/
def scalarStorage (kind : FieldKind) (host : String) (isArray : Bool) :
    ColumnType × String × Option Codec :=
  if isArray then (.builtin listStorage, hostOf host true, none)
  else (.builtin kind.storage, host, Codec.ofKind? kind)

/-- The host type of a structured value: its shape, or that of any JSON value if its shape has no name. -/
def shapeHost (shape : String) : String :=
  if shape.isEmpty then FieldKind.json.host else shape

/-- The column type, the host type and the codec of a field. -/
def EntityField.storage (f : EntityField) (owner : String) (target : CompileTarget) :
    Except CompileFault (ColumnType × String × Option Codec) :=
  match f.type with
  | .enumeration e =>
    if target.enums.contains e then
      .ok (.enumType target.schema (Naming.enumTypeOf target.schema e), hostOf e f.isArray, none)
    else .error (.undefinedEnum owner f.name e)
  | .reference _ => .ok (.builtin FieldKind.id.storage, FieldKind.id.host, none)
  | .shape s => .ok (scalarStorage .json (shapeHost s) f.isArray)
  | .scalar kind => .ok (scalarStorage kind kind.host f.isArray)

/-- A field of an entity compiled. -/
def Entity.compileField (e : Entity) (target : CompileTarget) (f : EntityField) :
    Except CompileFault CompiledField := do
  let column ← safely f.column
  let (type, host, codec) ← f.storage e.name target
  return { declared := f, column, type, host, flags := e.indexFlags f.name, codec }

/-- The fields of an entity compiled, in declaration order. -/
def Entity.compileFields (e : Entity) (target : CompileTarget) :
    Except CompileFault (List CompiledField) :=
  e.fields.mapM (e.compileField target)

/-- An entity compiled. -/
def Entity.compile (e : Entity) (target : CompileTarget) : Except CompileFault CompiledEntity := do
  let table ← safely (Naming.tableName e.name)
  let fields ← e.compileFields target
  return { name := e.name, table, fields, description := e.description }

/-- The entities of a model compiled, up to a fault. -/
def Model.compileEntities (m : Model) (target : CompileTarget) : Progress CompiledEntity CompileFault :=
  .of (fun e => e.compile target) m.entities

/-- The compiled entities of a model. -/
def Model.compile (m : Model) (schema : String) : Except CompileFault (List CompiledEntity) := do
  let target ← CompileTarget.of schema m.enums
  (m.compileEntities target).all

/-! ## Columns -/

/-- The column of the time of creation. -/
def createdColumn : String := "created_at"

/-- The column of the time of the last update. -/
def updatedColumn : String := "updated_at"

/-- A column for a time that the database fills in. -/
def timestampColumn (name : String) : Sql.Column :=
  { name, type := [.fixed "TIMESTAMPTZ"], nullable := false, default := some [.fixed "NOW()"] }

/-- The timestamp columns that no field of an entity takes. -/
def CompiledEntity.timestampColumns (e : CompiledEntity) : List Sql.Column :=
  ([createdColumn, updatedColumn].filter fun c => !e.fieldColumns.contains c).map timestampColumn

/-- The columns of the table of an entity: those of its fields in declaration order, then the timestamp
columns if they are wanted. -/
def CompiledEntity.columns (e : CompiledEntity) (timestamps : Bool) : List Sql.Column :=
  e.fields.map CompiledField.toColumn ++ if timestamps then e.timestampColumns else []

/-- The comment on the type of an enumeration: tags for introspection, then its description. -/
def Enumeration.comment (e : Enumeration) : String :=
  let tags := "@enum\n" ++ Naming.smartTags [("enumName", e.name)]
  match e.description with
  | none => tags
  | some d => if d.isEmpty then tags else tags ++ "\n" ++ d

end SchemaReconcile
