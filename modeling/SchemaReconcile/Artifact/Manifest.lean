import SchemaReconcile.Artifact.Order
import SchemaReconcile.Artifact.Source
import SchemaReconcile.File.Tree
import SchemaReconcile.Plan.Agenda

/-!
# The manifest of a generation

The manifest lists the files that a model calls for with their texts, whatever the file tree holds: one file
for each entity with an index of them, one for the shapes, one for the enumerations, and an index of all.
-/

namespace SchemaReconcile.Artifact

open File (Path)

/-- Where and how files are generated. -/
structure Target where
  output : Path
  schema : String
  /-- Whether the directory of the models is emptied first. -/
  fresh : Bool := true
  deriving DecidableEq, Repr, Inhabited

/-- The directory of the models. -/
def Target.models (t : Target) : Path := t.output.child "models"

/-- A generated file: what it is of, its path and its text. -/
structure Output where
  artifact : String
  path : Path
  text : String
  deriving DecidableEq, Repr, Inhabited

/-- A step of a manifest. -/
inductive Step where
  /-- An entity has been compiled. -/
  | compiled (entity : CompiledEntity)
  /-- A file is to be written; some files are of an entity. -/
  | write (entity : Option String) (output : Output)
  /-- The file of an entity is written. -/
  | modelDone (entity : String)
  /-- The index is written. -/
  | indexDone
  deriving DecidableEq, Repr, Inhabited

/-- The file that a step writes. -/
def Step.output? : Step → Option Output
  | .write _ output => some output
  | _ => none

/-- Why a model has no manifest. -/
inductive ManifestFault where
  | compile (fault : CompileFault)
  | unknownField (entity field : String)
  /-- A field refers to an entity that the model does not have. -/
  | unknownTarget (entity field : String)
  deriving DecidableEq, Repr

/-- The wording of a fault. -/
def ManifestFault.message : ManifestFault → String
  | compile fault => fault.message
  | unknownField entity field => entity ++ " has no field " ++ field
  | unknownTarget _ _ => ""

/-! ## Entities -/

/-- The table and key column that a foreign key field refers to. -/
def keyReference (schema : String) (m : Model) (tables : List (String × String))
    (owner : CompiledEntity) (f : CompiledField) (target : String) : Except ManifestFault String :=
  match m.entity? target with
  | none => .error (.unknownTarget owner.name f.declared.name)
  | some e =>
    let key := match e.primaryKey? with
      | some k => Naming.snakeCase k.name
      | none => ""
    .ok (schema ++ "." ++ (tables.lookup target).getD "" ++ "(" ++ key ++ ")")

/-- The columns of the foreign keys of an entity with what they refer to. -/
def foreignKeys (schema : String) (m : Model) (tables : List (String × String)) (e : CompiledEntity) :
    Except ManifestFault (List (String × String)) := do
  let keys ← (e.fields.filterMap fun f => f.declared.type.reference?.map fun t => (f, t)).mapM
    fun (f, target) => do
      let reference ← keyReference schema m tables e f target
      return (f.column, reference)
  return Catalog.ofPairs keys

/-- What is written about an index. -/
def sourceIndex (e : CompiledEntity) (spec : IndexSpec) : Except ManifestFault SourceIndex := do
  let columns ← spec.fields.mapM fun f =>
    match e.column? f with
    | some column => .ok column
    | none => .error (ManifestFault.unknownField e.name f)
  let unique := Plan.isUnique spec
  return { name := Naming.indexName e.table columns (Naming.indexLead unique), columns, unique,
           method := spec.method }

/-- The tables of the entities of a model; the last one of a name counts. -/
def tablesOf (m : Model) : Except ManifestFault (List (String × String)) := do
  let tables ← m.entities.mapM fun e => do
    let table ← (safely (Naming.tableName e.name)).mapError ManifestFault.compile
    return (e.name, table)
  return Catalog.ofPairs tables

/-- Everything that the file of an entity says. -/
def sourceOf (schema : String) (m : Model) (e : CompiledEntity) : Except ManifestFault EntitySource := do
  let tables ← tablesOf m
  let foreignKeys ← foreignKeys schema m tables e
  let indexes ← ((m.entity? e.name).map (·.indexes)).getD [] |>.mapM (sourceIndex e)
  return { entity := e, schema, foreignKeys, indexes, relations := m.relationsFrom e.name }

/-- The module of an entity. -/
def moduleName (entity : String) : String := Naming.snakeCase entity

/-- The file of a module. -/
def moduleFile (module : String) : String := module ++ ".py"

/-- The steps for an entity, up to a fault. -/
def entitySteps (t : Target) (m : Model) (target : CompileTarget) (declared : Entity) :
    Progress Step ManifestFault :=
  match declared.compile target with
  | .error fault => ⟨[], some (.compile fault)⟩
  | .ok e =>
    match sourceOf t.schema m e with
    | .error fault => ⟨[.compiled e], some fault⟩
    | .ok source =>
      let path := t.models.child (moduleFile (moduleName e.name))
      ⟨[.compiled e, .write (some e.name) ⟨e.name, path, source.text⟩, .modelDone e.name], none⟩

/-- A part that writes one file. -/
def writing (artifact : String) (path : Path) (text : String) : Progress Step ManifestFault :=
  ⟨[.write none ⟨artifact, path, text⟩], none⟩

/-- A part that is left out unless there is something to write. -/
def unlessEmpty {α : Type} (items : List α) (part : Progress Step ManifestFault) :
    List (Progress Step ManifestFault) :=
  if items.isEmpty then [] else [part]

/-- Whether a model has anything to write. -/
def hasOutput (m : Model) : Bool :=
  !m.entities.isEmpty || !m.jsonShapes.isEmpty || !m.enums.isEmpty

/-- The manifest of a model, up to a fault. -/
def manifest (t : Target) (m : Model) : Progress Step ManifestFault :=
  match CompileTarget.of t.schema m.enums with
  | .error fault => ⟨[], some (.compile fault)⟩
  | .ok target =>
    let modules := m.entities.map fun e => (moduleName e.name, e.name)
    .join (m.entities.map (entitySteps t m target) ++
      unlessEmpty m.entities
        (writing "models index" (t.models.child (moduleFile "__init__")) (entityIndexText modules)) ++
      unlessEmpty m.jsonShapes
        (writing "json interfaces" (t.output.child (moduleFile "interfaces"))
          (shapesText (inOrder m.jsonShapes))) ++
      unlessEmpty m.enums
        (writing "enums" (t.output.child (moduleFile "enums")) (enumsText m.enums)) ++
      if hasOutput m then
        [ writing "index" (t.output.child (moduleFile "__init__"))
            (indexText (!m.entities.isEmpty) (!m.jsonShapes.isEmpty) (!m.enums.isEmpty)),
          ⟨[.indexDone], none⟩ ]
      else [])

/-- The generated files of steps. -/
def outputs (steps : List Step) : List Output := steps.filterMap Step.output?

end SchemaReconcile.Artifact
