import SchemaReconcile.Document.Schema
import SchemaReconcile.Document.Shape
import SchemaReconcile.Text.Quoted
import SchemaReconcile.Yaml.Load

/-!
# Documents from YAML text

A YAML text is the record of a document, where the type of a field may be written as a type expression
of the schema language.
-/

namespace SchemaReconcile

/-- Why a YAML text is refused. -/
inductive YamlFault where
  /-- The text has no value. -/
  | load (fault : Yaml.LoadFault)
  /-- The value is not a mapping. -/
  | notMapping
  /-- A type expression cannot be read from the place on. -/
  | typeExpr (text : String) (place : Sdl.Position)
  /-- The value is no document. -/
  | document (fault : DocumentFault)
  deriving DecidableEq, Repr

/-- The wording of a refusal, without the words for what is wrong in the text. -/
def YamlFault.message : YamlFault → String
  | notMapping => "Schema: YAML document must be a mapping"
  | typeExpr text _ => "Schema: invalid type reference " ++ Text.quoted text
  | _ => "Schema: invalid YAML document"

/-! ## Fields

The type of a field is expanded in the mapping of the field, and a mapping that stands in several places is
expanded in all of them.  No change decides which mappings are gone through afterwards, as the record of a type
has no fields.  So the places of the fields are collected first (`fieldPlaces`), and the types are expanded
at these places afterwards (`expandAt`).
-/

/-- What is gone through in a collection.  Of the items that are not listed here none is a mapping, and a value
that is no collection counts as none if it counts as false. -/
def itemsOf (o : Yaml.Object) : Except YamlFault (List Yaml.Object) :=
  match o with
  | .list items => .ok items
  | .tuple items => .ok items
  | .set _ => .ok []
  | .mapping _ _ => .ok []
  | .scalar s => if s.1.truthy && !s.1.isCollection then .error (.document .notIterable) else .ok []

/-- The place of a field whose type is written as a type expression, which must be readable. -/
def placeOfField (o : Yaml.Object) : Except YamlFault (List Nat) :=
  match o with
  | .mapping place entries =>
    match Value.entry? (.text "type") entries with
    | some (.scalar ⟨.text s, _⟩) =>
      match Sdl.readTypeExpr s with
      | .ok _ => .ok [place]
      | .error offset => .error (.typeExpr s (Sdl.position s offset))
    | _ => .ok []
  | _ => .ok []

/-- The places of the fields of a declaration. -/
def placesOfDeclaration (o : Yaml.Object) : Except YamlFault (List Nat) :=
  match o with
  | .mapping _ entries =>
    match Value.entry? (.text "fields") entries with
    | some fields => do return (← (← itemsOf fields).mapM placeOfField).flatten
    | none => .ok []
  | _ => .ok []

/-- The declarations of the types of a document, a list or a mapping. -/
def declarationsOf (types : Yaml.Object) : Except YamlFault (List Yaml.Object) :=
  match types with
  | .mapping _ entries => .ok (entries.map (·.2))
  | o => itemsOf o

/-- The places of the fields of a document. -/
def fieldPlaces (entries : List (Value × Yaml.Object)) : Except YamlFault (List Nat) :=
  match Value.entry? (.text "types") entries with
  | some types => do return (← (← declarationsOf types).mapM placesOfDeclaration).flatten
  | none => .ok []

/-- The record of the type that a type expression writes. -/
def typeRecord? (v : Value) : Option Value :=
  match v with
  | .text s => (Sdl.readTypeExpr s).toOption.map fun e => (TypeRef.ofExpr e).toValue
  | _ => none

/-- The entries of a mapping, with its type expanded if it stands at one of some places. -/
def expandAt (places : List Nat) (place : Nat) (entries : List (Value × Value)) : List (Value × Value) :=
  match (Value.entry? (.text "type") entries).bind typeRecord? with
  | some record => if places.contains place then Value.putEntry (.text "type") record entries else entries
  | none => entries

/-! ## Documents -/

/-- The place and the entries of the mapping that a text is; without a value it is a new one. -/
def rootOf (o : Yaml.Object) : Except YamlFault (Nat × List (Value × Yaml.Object)) :=
  match o with
  | .scalar ⟨.null, _⟩ => .ok (0, [])
  | .mapping place entries => .ok (place, entries)
  | _ => .error .notMapping

/-- The document of a mapping, in which the types of the fields are expanded. -/
def Document.ofMapping (place : Nat) (entries : List (Value × Yaml.Object)) : Except YamlFault Document := do
  let places ← fieldPlaces entries
  (Document.ofValue ((Yaml.Object.mapping place entries).valueWith (expandAt places))).mapError .document

/-- The document that a YAML text writes, as a library reads it. -/
def Document.ofYaml (library : Yaml.Library) (text : String) : Except YamlFault Document := do
  let object ← (library text).mapError .load
  let (place, entries) ← rootOf object
  Document.ofMapping place entries

/-- The document that a YAML text writes. -/
def Document.ofYamlText : String → Except YamlFault Document :=
  Document.ofYaml Yaml.loadObject

end SchemaReconcile
