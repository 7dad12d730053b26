import SchemaReconcile.Artifact.Generate
import SchemaReconcile.Catalog.Memory
import SchemaReconcile.Document.Schema
import SchemaReconcile.Extract.Basic
import SchemaReconcile.Journal.Record

/-!
# The journal of a run

The records that reading, extracting, reconciling and generating leave in the journal.  They are computed
from the same steps as the results, and a fault leaves the records of the steps before it.
-/

namespace SchemaReconcile.Journal

open Catalog (Memory Operation Phase)

/-! ## Loggers -/

/-- The logger of reading. -/
def loaderLog : Logger := ⟨"services.document_loader", some "loader"⟩

/-- The logger of the extraction. -/
def extractorLog : Logger := ⟨"services.extractor", some "extractor"⟩

/-- The logger of the compilation of fields. -/
def compilerLog : Logger := ⟨"services.field_compiler", some "compiler"⟩

/-- The logger of the reconciliation. -/
def synchronizerLog : Logger := ⟨"services.synchronizer", some "synchronizer"⟩

/-- The logger of table definitions. -/
def tableLog : Logger := ⟨"core.schema.sql_generator", some "synchronizer"⟩

/-- The logger of the generation of artifacts. -/
def artifactLog : Logger := ⟨"services.codegen", some "codegen"⟩

/-- A context inside another one in which one name is set. -/
def Context.with (c : Context) (name value : String) : Context := c.inside [(name, .text value)]

/-- Counted things as the data of a checkpoint. -/
def counts (items : List (String × Nat)) : Entries :=
  items.map fun (name, n) => (.text name, .count n)

/-! ## Reading -/

/-- The records of reading a schema text. -/
def ofSchemaText (text : String) : List Record :=
  (schemaTextNotices text).map (loaderLog.record {} .warning)

/-! ## Extraction -/

/-- The context of an extraction. -/
def extractContext : Context := Context.with {} "operation" "extract"

/-- The record of an entity that was built. -/
def entityRecord (e : Entity) : Record :=
  extractorLog.record (extractContext.with "entity" e.name) .debug
    ("Entity " ++ e.name ++ ": " ++ toString e.fields.length ++ " fields, " ++
      toString e.indexes.length ++ " indexes")

/-- The records of a document whose relations were inferred. -/
def relationRecords (relations : List Relation) : List Record :=
  relations.map fun r => extractorLog.record extractContext .debug ("Relation " ++ r.describe)

/-- The record of a complete extraction. -/
def extractedRecord (m : Model) : Record :=
  checkpoint extractContext "extraction_complete" (counts
    [("entities", m.entities.length), ("enums", m.enums.length), ("json_shapes", m.jsonShapes.length),
      ("relations", m.relations.length)])

/-- The records of the entities of a document, up to a fault. -/
def builtRecords (d : Document) : List Record :=
  match Parts.ofDocument d with
  | .error _ => []
  | .ok parts => parts.entities.done.map entityRecord

/-- The records of an extraction. -/
def ofExtraction (d : Document) : List Record :=
  builtRecords d ++ (extractNotices d).map (extractorLog.record extractContext .warning) ++
    match extract d with
    | .error _ => []
    | .ok m => relationRecords m.relations ++ [extractedRecord m]

/-! ## Reconciliation -/

/-- The context of a reconciliation of a schema. -/
def reconcileContext (schema : String) : Context :=
  Context.inside {} [("schema", .text schema), ("operation", .text "reconcile")]

/-- The context of a plan. -/
def planContext (schema : String) : Context := (reconcileContext schema).with "operation" "plan"

/-- The context of a step of an agenda. -/
def siteContext (c : Context) : Plan.Site → Context
  | .whole => c
  | .enumeration name => c.with "enum_name" name
  | .entity name => c.with "entity" name
  | .relation shown => c.with "relation" shown

/-- The record of a compiled entity. -/
def compiledRecord (c : Context) (schema : String) (e : CompiledEntity) : Record :=
  compilerLog.record c .debug ("Compiled " ++ e.name ++ " -> " ++ schema ++ "." ++ e.table)

/-- The record of a step of an agenda that was taken. -/
def stepRecord (c : Context) (schema : String) : Plan.Step → Record
  | .ensure site op => synchronizerLog.record (siteContext c site) .debug ("Planned: " ++ op.describe)
  | .compiled e => compiledRecord c schema e
  | .columns entity table names =>
    tableLog.record (c.with "entity" entity) .debug
      ("Columns for " ++ table ++ ": " ++ (Value.texts names).shown)

/-- The steps of an agenda that are taken: operations that are pending when their turn comes, and every
other step, up to a conflict. -/
def takenSteps : List Plan.Step → Catalog.Snapshot → List Plan.Step
  | [], _ => []
  | step :: rest, s =>
    match step.operation? with
    | none => step :: takenSteps rest s
    | some op =>
      match op.conflict? s with
      | some _ => []
      | none =>
        if op.pending s then step :: takenSteps rest (op.apply s) else takenSteps rest s

/-- The record of a complete plan. -/
def plannedRecord (c : Context) (ops : List Operation) : Record :=
  checkpoint c "plan_ready"
    (counts [("operations", ops.length)] ++ [(.text "by_phase", .dict (counts (Plan.phaseCounts ops)))])

/-- The records of a plan. -/
def ofPlan (options : Settings.Options) (m : Model) (s : Catalog.Snapshot) : List Record :=
  let c := planContext options.schema
  match Plan.indexLimitFault? options m with
  | some _ => []
  | none =>
    (takenSteps (Plan.agenda options m).done s).map (stepRecord c options.schema) ++
      match Plan.plan options m s with
      | .error _ => []
      | .ok ops => [plannedRecord c ops]

/-- The records of a plan that was carried out. -/
def executedRecords (c : Context) (schema : String) (m : Model) (ops : List Operation) : List Record :=
  let enums := (ops.filter fun op => op.phase == .types).length
  [ synchronizerLog.record c .info
      ("Reconciling schema " ++ schema ++ ": " ++ toString ops.length ++ " operations"),
    checkpoint c "enums_reconciled" (counts [("operations", enums)]),
    checkpoint c "sync_complete" (counts
      [("operations", ops.length), ("entities", m.entities.length), ("enums", m.enums.length)]) ]

/-- The records of a reconciliation in memory. -/
def ofReconciliation (options : Settings.Options) (m : Model) (catalog : Memory) : List Record :=
  let s := catalog.fetch options.schema
  ofPlan options m s ++
    match Plan.plan options m s with
    | .error _ => []
    | .ok ops => executedRecords (reconcileContext options.schema) options.schema m ops

/-! ## Generation -/

/-- The context of a generation. -/
def generateContext : Context := Context.with {} "operation" "codegen"

/-- The context of a file of an entity, or of another file. -/
def fileContext (entity : Option String) : Context :=
  match entity with
  | some name => generateContext.with "entity" name
  | none => generateContext

/-- The record of a step of a manifest that was taken. -/
def writtenRecord (schema : String) : Artifact.Step → Record
  | .compiled e => compiledRecord (generateContext.with "entity" e.name) schema e
  | .write entity output =>
    artifactLog.record (fileContext entity) .debug ("Wrote " ++ output.path.text)
  | .modelDone entity =>
    artifactLog.record (generateContext.with "entity" entity) .info ("Model " ++ entity ++ " generated")
  | .indexDone => artifactLog.record generateContext .info "Types index generated"

/-- The records of a generation. -/
def ofGeneration (t : Artifact.Target) (m : Model) (tree : File.Tree) : List Record :=
  let r := Artifact.run t m tree
  r.steps.map (writtenRecord t.schema) ++
    match r.fault with
    | some _ => []
    | none =>
      match (Artifact.resultOf t m r.steps).toValue with
      | .dict entries => [checkpoint generateContext "artifacts_written" entries]
      | _ => []

end SchemaReconcile.Journal
