import SchemaReconcile.Extract.Relations
import SchemaReconcile.Progress

/-!
# Extraction

The model of a document: its declarations are classified and checked, then enumerations, shapes and
entities are built, names in the database are held apart, and relations are inferred.  The first fault
in this order refuses the document.
-/

namespace SchemaReconcile

/-- The entities of a document before their names are held apart, with the enumerations and shapes. -/
structure Parts where
  declarations : Declarations
  enums : List Enumeration
  shapes : List JsonShape
  deriving Repr, Inhabited

/-- The declarations, enumerations and shapes of a document. -/
def Parts.ofDocument (d : Document) : Except ExtractFault Parts := do
  let ds ← Declarations.ofDocument d
  let enums ← (ds.ofRole .enumeration).mapM buildEnum
  let shapes ← (ds.ofRole .shape).mapM ds.buildShape
  return ⟨ds, enums, shapes⟩

/-- The entities of a document up to a fault. -/
def Parts.entities (p : Parts) : Progress Entity ExtractFault :=
  .of p.declarations.buildEntity (p.declarations.ofRole .entity)

/-- The model of a document. -/
def extract (d : Document) : Except ExtractFault Model := do
  let parts ← Parts.ofDocument d
  let entities ← parts.entities.all
  checkStorageNames [] entities
  match inferRelations parts.declarations entities with
  | (_, some fault) => throw fault
  | (inferred, none) =>
    return { entities, enums := parts.enums, jsonShapes := parts.shapes,
             relations := inferred.map (·.relation) }

/-- The inferred relations of a document up to a fault, none if it is refused before. -/
def inferredRelations (d : Document) : List Inferred :=
  match Parts.ofDocument d with
  | .error _ => []
  | .ok parts =>
    match parts.entities.all with
    | .error _ => []
    | .ok entities =>
      match checkStorageNames [] entities with
      | .error _ => []
      | .ok () => (inferRelations parts.declarations entities).1

/-- The notices about the relations of a document. -/
def extractNotices (d : Document) : List String :=
  (inferredRelations d).filterMap (·.notice)

end SchemaReconcile
