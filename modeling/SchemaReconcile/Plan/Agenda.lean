import SchemaReconcile.Catalog.Operation
import SchemaReconcile.Compile.Basic
import SchemaReconcile.Settings.Options

/-!
# The agenda of a reconciliation

The agenda lists every operation that a model calls for in a schema, whatever the database holds: the
schema itself, the types of the enumerations with their comments, then for each entity its table, columns,
indexes and trigger, and for each relation its foreign key, the comment on it and the index that keeps it
unique.  It depends on the model and the options only; what is pending in a snapshot is decided when the
agenda is settled.
-/

namespace SchemaReconcile.Plan

open Catalog (Operation Snapshot)
open Settings (Options)

/-- What a step of an agenda is about. -/
inductive Site where
  | whole
  | enumeration (name : String)
  | entity (name : String)
  | relation (shown : String)
  deriving DecidableEq, Repr, Inhabited

/-- A step of an agenda. -/
inductive Step where
  /-- The effect of an operation is wanted. -/
  | ensure (site : Site) (op : Operation)
  /-- An entity has been compiled. -/
  | compiled (entity : CompiledEntity)
  /-- The columns of the table of an entity are known. -/
  | columns (entity : String) (table : String) (names : List String)
  deriving DecidableEq, Repr, Inhabited

/-- The operation whose effect a step wants. -/
def Step.operation? : Step → Option Operation
  | .ensure _ op => some op
  | _ => none

/-- Why a model cannot be reconciled. -/
inductive Fault where
  | tooManyIndexes (entity : String) (count limit : Nat)
  | enumDrift (enumeration : String) (before after : List String)
  | compile (fault : CompileFault)
  | unknownField (entity field : String)
  | unknownEntity (name : String)
  | noForeignKey (owner column relation : String)
  deriving DecidableEq, Repr

/-- The wording of a fault. -/
def Fault.message : Fault → String
  | tooManyIndexes entity count limit =>
    "too many indexes on entity " ++ entity ++ ": " ++ toString count ++ " declared, limit is " ++
      toString limit
  | enumDrift enumeration before after =>
    "Can't modify enum " ++ Text.quoted enumeration ++ " between runs: before [" ++
      ",".intercalate before ++ "], after [" ++ ",".intercalate after ++
      "]. Rebuild the schema to make this change"
  | compile fault => fault.message
  | unknownField entity field => entity ++ " has no field " ++ field
  | unknownEntity name => name
  | noForeignKey owner column relation =>
    owner ++ " has no foreign key column " ++ column ++ " for " ++ relation

/-! ## Parts of an agenda -/

/-- The steps for an enumeration: its type with its labels, and the comment on the type. -/
def enumSteps (schema : String) (e : Enumeration) : List Step :=
  let type := Naming.enumTypeOf schema e.name
  [ .ensure (.enumeration e.name) (.createEnumType schema type e.values e.name),
    .ensure (.enumeration e.name) (.commentOnType schema type e.comment) ]

/-- The steps for the table of an entity: the table, and each column in case the table is there already. -/
def tableSteps (schema : String) (e : CompiledEntity) (columns : List Sql.Column) : List Step :=
  .ensure (.entity e.name) (.createTable schema e.table columns e.description) ::
    columns.map fun c => .ensure (.entity e.name) (.addColumn schema e.table c)

/-- The columns of an index. -/
def indexColumns (e : CompiledEntity) (spec : IndexSpec) : Except Fault (List String) :=
  spec.fields.mapM fun f =>
    match e.column? f with
    | some column => .ok column
    | none => .error (.unknownField e.name f)

/-- Whether an index is declared unique. -/
def isUnique (spec : IndexSpec) : Bool := spec.unique == some true

/-- The step for a declared index. -/
def indexStep (schema : String) (e : CompiledEntity) (spec : IndexSpec) : Except Fault Step := do
  let columns ← indexColumns e spec
  let name := Naming.indexName e.table columns (Naming.indexLead (isUnique spec))
  return .ensure (.entity e.name)
    (.createIndex schema e.table name columns (isUnique spec) (spec.method.map IndexMethod.name) false)

/-- Whether the time of the last update is a column that the database keeps. -/
def keepsUpdated (e : CompiledEntity) (timestamps : Bool) : Bool :=
  timestamps && !e.fieldColumns.contains updatedColumn

/-- The steps for an entity, up to a fault; its indexes are those of the declared entity. -/
def entitySteps (options : Options) (declared : Entity) (e : CompiledEntity) : Progress Step Fault :=
  let columns := e.columns options.timestamps
  let table := .columns e.name e.table (columns.map (·.name)) :: tableSteps options.schema e columns
  let indexes := Progress.of (indexStep options.schema e) declared.indexes
  let trigger := if keepsUpdated e options.timestamps then
      [Step.ensure (.entity e.name) (.createUpdatedTrigger options.schema e.table)]
    else []
  match indexes.fault with
  | some fault => ⟨table ++ indexes.done, some fault⟩
  | none => ⟨table ++ indexes.done ++ trigger, none⟩

/-- The compiled entity of a name; the last one of a name that stands more than once. -/
def compiledOf (entities : List CompiledEntity) (name : String) : Except Fault CompiledEntity :=
  match entities.reverse.find? fun e => e.name == name with
  | some e => .ok e
  | none => .error (.unknownEntity name)

/-- The foreign key field of an entity with a certain column. -/
def keyField? (e : CompiledEntity) (column : String) : Option CompiledField :=
  e.fields.find? fun f => f.column == column && f.isForeignKey

/-- What happens to a foreign key when the row that it refers to is deleted. -/
def deleteAction (f : CompiledField) : String :=
  if f.declared.nullable then "SET NULL" else "CASCADE"

/-- The tags of a foreign key that a relation reads backwards. -/
def relationTags (r : Relation) : String :=
  Naming.smartTags [(if r.kind = .hasOne then "singleForeignFieldName" else "foreignFieldName",
    r.fieldName)]

/-- The operations that a relation adds to its foreign key: none if it holds the key itself. -/
def inverseOperations (schema table column : String) (r : Relation) : List Operation :=
  let constraint := Naming.foreignKeyConstraint table column
  let comment := Operation.commentOnConstraint schema table constraint (relationTags r)
  match r.kind with
  | .belongsTo => []
  | .hasMany => [comment]
  | .hasOne =>
    [comment,
      .createIndex schema table (Naming.uniqueIndex table column) [column] true none true]

/-- The steps for a relation. -/
def relationSteps (schema : String) (entities : List CompiledEntity) (r : Relation) :
    Except Fault (List Step) := do
  let owner ← compiledOf entities r.keyOwner
  let target ← compiledOf entities r.keyTarget
  let column := Naming.snakeCase r.foreignKey
  match keyField? owner column with
  | none => throw (.noForeignKey owner.name column r.describe)
  | some f =>
    let key := Operation.addForeignKey schema owner.table
      (Naming.foreignKeyConstraint owner.table column) column target.table target.keyColumn
      (deleteAction f)
    return (key :: inverseOperations schema owner.table column r).map
      (Step.ensure (.relation r.describe))

/-! ## The whole agenda -/

/-- The part of the entities and relations, over all compiled entities. -/
def structureParts (options : Options) (m : Model) (entities : List CompiledEntity) :
    List (Progress Step Fault) :=
  (m.entities.map fun declared =>
    match compiledOf entities declared.name with
    | .ok e => entitySteps options declared e
    | .error fault => ⟨[], some fault⟩) ++
  m.relations.map fun r => .whole (relationSteps options.schema entities r)

/-- The target of the options: their schema is safe. -/
def targetOf (options : Options) (m : Model) : CompileTarget :=
  ⟨options.schema, m.enums.map (·.name)⟩

/-- The agenda of a model, up to a fault. -/
def agenda (options : Options) (m : Model) : Progress Step Fault :=
  let compiled := m.compileEntities (targetOf options m)
  .join
    (⟨[.ensure .whole (.createSchema options.schema)], none⟩ ::
      ⟨m.enums.flatMap (enumSteps options.schema), none⟩ ::
      ⟨compiled.done.map Step.compiled, compiled.fault.map Fault.compile⟩ ::
      structureParts options m compiled.done)

/-- The first entity that declares more indexes than the options allow. -/
def indexLimitFault? (options : Options) (m : Model) : Option Fault :=
  (m.entities.find? fun e => options.indexLimit < e.indexes.length).map fun e =>
    .tooManyIndexes e.name e.indexes.length options.indexLimit

end SchemaReconcile.Plan
