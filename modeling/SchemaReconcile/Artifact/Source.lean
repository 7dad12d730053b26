import SchemaReconcile.Artifact.Names
import SchemaReconcile.Catalog.Entries
import SchemaReconcile.Compile.Basic
import SchemaReconcile.Catalog.Snapshot

/-!
# Generated sources

The texts of the generated files: a class for each entity with its table as metadata, a class for each
shape, an enumeration class for each enumeration, and index files that gather them.
-/

namespace SchemaReconcile.Artifact

/-- Lines of a file, each with its end. -/
def linesText (lines : List String) : String := String.join (lines.map fun l => l ++ "\n")

/-- The first line of a generated file. -/
def generatedLine : String := "# Generated by modelsync. Do not edit by hand."

/-- A text in which three double quotes in a row are three single quotes. -/
def docCharacters : List Char → List Char
  | '"' :: '"' :: '"' :: rest => '\'' :: '\'' :: '\'' :: docCharacters rest
  | c :: rest => c :: docCharacters rest
  | [] => []

/-- A description inside triple quotes. -/
def docText (description : String) : String := String.ofList (docCharacters description.toList)

/-- A text that is there and not empty. -/
def filled? (text : Option String) : Option String := text.filter fun s => !s.isEmpty

/-- The description of a class below its head. -/
def classDoc (description : Option String) : List String :=
  match filled? description with
  | none => []
  | some d => ["    \"\"\"" ++ docText d ++ "\"\"\"", ""]

/-- The list of exported names. -/
def exportLines (names : List String) : List String :=
  ["__all__ = ["] ++ names.map (fun n => "    " ++ Text.quoted n ++ ",") ++ ["]"]

/-! ## Fields -/

/-- A field of a generated class. -/
structure SourceField where
  name : String
  annotation : String
  arguments : List String
  codec : Option Codec := none
  deriving DecidableEq, Repr, Inhabited

/-- The annotation of a field. -/
def annotation (base : String) (isArray nullable : Bool) : String :=
  let whole := hostOf base isArray
  if nullable then "Optional[" ++ whole ++ "]" else whole

/-- The arguments of a field: a default if it may be missing, its declared name if that differs, and its
description. -/
def fieldArguments (nullable : Bool) (alias_ description : Option String) : List String :=
  (if nullable then ["default=None"] else []) ++
    (match filled? alias_ with | some a => ["alias=" ++ Text.quoted a] | none => []) ++
    (match filled? description with | some d => ["description=" ++ Text.quoted d] | none => [])

/-- The lines of a field. -/
def SourceField.lines (f : SourceField) : List String :=
  (match f.codec with
    | some c => ["    # stored via the " ++ c.name ++ " codec"]
    | none => []) ++
  let head := "    " ++ f.name ++ ": " ++ f.annotation
  if f.arguments.isEmpty then [head]
  else [head ++ " = Field(" ++ ", ".intercalate f.arguments ++ ")"]

/-- The host type of an entity field in a generated class. -/
def fieldBase (type : FieldType) : String :=
  match type with
  | .enumeration e => className e
  | .shape s => if s.isEmpty then FieldKind.json.host else className s
  | .scalar kind => kind.host
  | .reference _ => FieldKind.id.host

/-- A field of the class of an entity.  A reference holds the key and is named after its column. -/
def entityField (f : CompiledField) : SourceField :=
  let declared := f.declared
  let name := unreserved (if f.isForeignKey then f.column else declared.name)
  let alias_ := if f.isForeignKey || name == declared.name then none else some declared.name
  { name, annotation := annotation (fieldBase declared.type) declared.isArray declared.nullable
    arguments := fieldArguments declared.nullable alias_ declared.description, codec := f.codec }

/-- The host type of a member in a generated class. -/
def memberBaseType (type : MemberType) : String :=
  match type with
  | .shape s => className s
  | .scalar kind => kind.host

/-- A field of the class of a shape. -/
def shapeField (m : ShapeMember) : SourceField :=
  let name := unreserved m.name
  { name, annotation := annotation (memberBaseType m.type) m.isArray m.nullable
    arguments := fieldArguments m.nullable (if name == m.name then none else some m.name) none }

/-! ## Entities -/

/-- What is written about an index of an entity. -/
structure SourceIndex where
  name : String
  columns : List String
  unique : Bool
  method : Option IndexMethod
  deriving DecidableEq, Repr, Inhabited

/-- An index as a record. -/
def SourceIndex.toValue (i : SourceIndex) : Value :=
  .object [("name", .text i.name), ("columns", .texts i.columns), ("unique", .bool i.unique),
    ("using", .optionalText (i.method.map IndexMethod.name))]

/-- A relation as a record. -/
def relationValue (r : Relation) : Value :=
  .object [("kind", .text r.kind.name), ("to", .text r.target), ("foreign_key", .text r.foreignKey),
    ("field", .text r.fieldName)]

/-- Everything that the file of an entity says. -/
structure EntitySource where
  entity : CompiledEntity
  schema : String
  /-- The columns of foreign keys with the tables and columns that they refer to. -/
  foreignKeys : List (String × String)
  indexes : List SourceIndex
  relations : List Relation
  deriving DecidableEq, Repr, Inhabited

/-- The class names of texts, sorted, each once. -/
def importedNames (names : List String) : List String :=
  Catalog.Snapshot.sorted (Catalog.ofMembers (names.map className))

/-- The import of names, if there are any. -/
def importLines (module : String) (names : List String) : List String :=
  if names.isEmpty then [] else ["from .." ++ module ++ " import " ++ ", ".intercalate names]

/-- The names of the enumerations of an entity. -/
def enumNames (e : CompiledEntity) : List String :=
  e.fields.filterMap fun f => f.declared.type.enumeration?

/-- The names of the shapes of an entity. -/
def shapeNames (e : CompiledEntity) : List String :=
  e.fields.filterMap fun f => filled? f.declared.type.shape?

/-- The description of an entity, or a sentence in its place. -/
def entityDescription (e : CompiledEntity) : String :=
  (filled? e.description).getD (className e.name ++ " entity.")

/-- A ruler of the head of a file. -/
def ruler : String := "# " ++ String.ofList (List.replicate 76 '=')

/-- A ruler inside a class. -/
def innerRuler : String := "    # " ++ String.ofList (List.replicate 73 '=')

/-- The shared imports of a file with classes. -/
def classImports (typing : String) : List String :=
  ["from datetime import datetime", "from decimal import Decimal", "from typing import " ++ typing, "",
    "from pydantic import BaseModel, ConfigDict, Field"]

/-- A list of records inside a class. -/
def recordLines (head : String) (records : List Value) : List String :=
  [head ++ " = ["] ++ records.map (fun r => "        " ++ r.shown ++ ",") ++ ["    ]"]

/-- The head of the file of an entity. -/
def EntitySource.headLines (s : EntitySource) : List String :=
  [ruler, "# GENERATED MODEL - " ++ className s.entity.name, ruler,
    "# Generated by modelsync from the schema. Do not edit by hand.", ruler,
    "\"\"\"", docText (entityDescription s.entity), "\"\"\"", ""] ++
  classImports "Any, ClassVar, Dict, List, Optional" ++
  (if (enumNames s.entity).isEmpty then [] else [""]) ++
  importLines "enums" (importedNames (enumNames s.entity)) ++
  importLines "interfaces" (importedNames (shapeNames s.entity))

/-- The metadata of an entity in its class. -/
def EntitySource.metadataLines (s : EntitySource) : List String :=
  let e := s.entity
  [innerRuler, "    # SQL DDL METADATA", innerRuler,
    "    __sql_table__: ClassVar[str] = " ++ Text.quoted e.table,
    "    __sql_schema__: ClassVar[str] = " ++ Text.quoted s.schema,
    "    __sql_primary_key__: ClassVar[List[str]] = " ++ (Value.texts [e.keyColumn]).shown,
    "    __sql_foreign_keys__: ClassVar[Dict[str, str]] = " ++
      (Value.object (s.foreignKeys.map fun (k, v) => (k, .text v))).shown] ++
  recordLines "    __sql_indexes__: ClassVar[List[Dict[str, Any]]]" (s.indexes.map SourceIndex.toValue) ++
  recordLines "    __relations__: ClassVar[List[Dict[str, str]]]" (s.relations.map relationValue)

/-- The line that lets fields be set by their names. -/
def configLines : List String := ["    model_config = ConfigDict(populate_by_name=True)", ""]

/-- The text of the file of an entity. -/
def EntitySource.text (s : EntitySource) : String :=
  let e := s.entity
  linesText (s.headLines ++
    ["", "", "class " ++ className e.name ++ "(BaseModel):",
      "    \"\"\"" ++ e.name ++ " (" ++ s.schema ++ "." ++ e.table ++ ")\"\"\"", ""] ++
    configLines ++ s.metadataLines ++ [""] ++ (e.fields.map entityField).flatMap SourceField.lines)

/-- The text of the index of the files of entities, by module and entity name. -/
def entityIndexText (modules : List (String × String)) : String :=
  linesText ([generatedLine] ++
    modules.map (fun (module, entity) => "from ." ++ module ++ " import " ++ className entity) ++
    [""] ++ exportLines (modules.map fun (_, entity) => className entity))

/-! ## Shapes and enumerations -/

/-- The class of a shape. -/
def shapeLines (s : JsonShape) : List String :=
  ["", "", "class " ++ className s.name ++ "(BaseModel):"] ++ classDoc s.description ++ configLines ++
    (s.fields.map shapeField).flatMap SourceField.lines

/-- The text of the file of shapes. -/
def shapesText (shapes : List JsonShape) : String :=
  linesText ([generatedLine, "from __future__ import annotations", ""] ++
    classImports "Any, Dict, List, Optional" ++ [""] ++
    exportLines (shapes.map fun s => className s.name) ++ shapes.flatMap shapeLines ++ [""] ++
    shapes.map fun s => className s.name ++ ".model_rebuild()")

/-- The class of an enumeration. -/
def enumLines (e : Enumeration) : List String :=
  ["", "", "class " ++ className e.name ++ "(str, Enum):"] ++ classDoc e.description ++
    (members e.values).map fun m => "    " ++ m.name ++ " = " ++ Text.quoted m.value

/-- The text of the file of enumerations. -/
def enumsText (enums : List Enumeration) : String :=
  linesText ([generatedLine, "from enum import Enum", ""] ++
    exportLines (enums.map fun e => className e.name) ++ enums.flatMap enumLines)

/-- The text of the index of all files. -/
def indexText (models interfaces enums : Bool) : String :=
  let line (module : String) := "from ." ++ module ++ " import *  # noqa: F401,F403"
  linesText ([generatedLine] ++ (if models then [line "models"] else []) ++
    (if interfaces then [line "interfaces"] else []) ++ if enums then [line "enums"] else [])

end SchemaReconcile.Artifact
