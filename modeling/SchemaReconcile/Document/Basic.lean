import SchemaReconcile.Model.Kind
import SchemaReconcile.Value.Basic

/-!
# Schema documents

A document records declarations in their order and gives them no meaning: scalars, directives with
their arguments and places, and types with fields, enum values and directive uses.  Every document is
read together with the base declarations, which `Document.withBase` puts in front.
-/

namespace SchemaReconcile

/-- A reference to a named type.  Nested lists count as one list; `itemNullable` is about the items of
the outermost one. -/
structure TypeRef where
  name : String
  nullable : Bool := true
  isArray : Bool := false
  itemNullable : Bool := true
  deriving DecidableEq, Repr, Inhabited

/-- A directive applied to a type or field, with its arguments in order. -/
structure DirectiveUsage where
  name : String
  arguments : List (Value × Value) := []
  deriving Repr, Inhabited

/-- A field of a type declaration. -/
structure FieldDeclaration where
  name : String
  type : TypeRef
  description : Option String := none
  directives : List DirectiveUsage := []
  deriving Repr, Inhabited

/-- The kinds of type declarations. -/
inductive DeclarationKind where
  | object
  | enumeration
  | scalar
  deriving DecidableEq, Repr, Inhabited

/-- The word of a kind of type declaration. -/
def DeclarationKind.name : DeclarationKind → String
  | object => "object"
  | enumeration => "enum"
  | scalar => "scalar"

/-- The kind of type declaration of a word. -/
def DeclarationKind.ofName? (s : String) : Option DeclarationKind :=
  [object, enumeration, scalar].find? fun k => k.name == s

/-- A type declaration.  A document may give fields and values to a declaration of any kind; only the
fields of objects and the values of enums are used. -/
structure TypeDeclaration where
  kind : DeclarationKind
  name : String
  description : Option String := none
  directives : List DirectiveUsage := []
  fields : List FieldDeclaration := []
  values : List String := []
  deriving Repr, Inhabited

/-- The use of a directive among others; the first use counts. -/
def findUsage? (directives : List DirectiveUsage) (name : String) : Option DirectiveUsage :=
  directives.find? fun u => u.name == name

/-- The use of a directive on a type. -/
def TypeDeclaration.directive? (d : TypeDeclaration) (name : String) : Option DirectiveUsage :=
  findUsage? d.directives name

/-- The use of a directive on a field. -/
def FieldDeclaration.directive? (d : FieldDeclaration) (name : String) : Option DirectiveUsage :=
  findUsage? d.directives name

/-- The value of an argument of a directive use. -/
def DirectiveUsage.argument? (u : DirectiveUsage) (name : String) : Option Value :=
  Value.entry? (.text name) u.arguments

/-- An argument in a directive declaration. -/
structure ArgumentDeclaration where
  name : String
  type : TypeRef
  deriving DecidableEq, Repr, Inhabited

/-- A directive declaration; no places at all means every place. -/
structure DirectiveDeclaration where
  name : String
  arguments : List ArgumentDeclaration := []
  locations : List String := []
  deriving DecidableEq, Repr, Inhabited

/-- An argument of a directive declaration. -/
def DirectiveDeclaration.argument? (d : DirectiveDeclaration) (name : String) :
    Option ArgumentDeclaration :=
  d.arguments.find? fun a => a.name == name

/-- A schema document. -/
structure Document where
  scalars : List String := []
  directives : List DirectiveDeclaration := []
  types : List TypeDeclaration := []
  deriving Repr, Inhabited

/-! ## Base declarations -/

/-- The directives that the extraction gives a meaning. -/
inductive KnownDirective where
  | derivedFrom
  | entity
  | jsonField
  | index
  | compositeIndexes
  deriving DecidableEq, Repr

/-- The word of a known directive. -/
def KnownDirective.name : KnownDirective → String
  | derivedFrom => "derivedFrom"
  | entity => "entity"
  | jsonField => "jsonField"
  | index => "index"
  | compositeIndexes => "compositeIndexes"

/-- The scalars of every document. -/
def baseScalars : List String :=
  [FieldKind.id, .string, .int, .float, .boolean, .bigInt, .bigDecimal, .date, .bytes].map
    FieldKind.name

/-- The place of directives on object and enum types. -/
def objectPlace : String := "OBJECT"

/-- The place of directives on fields. -/
def fieldPlace : String := "FIELD_DEFINITION"

/-- The directives of every document. -/
def baseDirectives : List DirectiveDeclaration :=
  [ { name := KnownDirective.derivedFrom.name
      arguments := [⟨"field", { name := "String", nullable := false }⟩]
      locations := [fieldPlace] },
    { name := KnownDirective.entity.name, locations := [objectPlace] },
    { name := KnownDirective.jsonField.name, locations := [objectPlace] },
    { name := KnownDirective.index.name
      arguments := [⟨"unique", { name := "Boolean" }⟩, ⟨"using", { name := "String" }⟩]
      locations := [fieldPlace] },
    { name := KnownDirective.compositeIndexes.name
      arguments := [⟨"fields", { name := "String", nullable := false, isArray := true }⟩]
      locations := [objectPlace] } ]

/-- A list of names with further names at the end, without those that stand before already. -/
def appendNew (names : List String) : List String → List String
  | [] => names
  | s :: rest => appendNew (if names.contains s then names else names ++ [s]) rest

namespace Document

/-- A document behind the base declarations.  A scalar joins once, and a directive joins unless a base
directive has its name. -/
def withBase (d : Document) : Document where
  scalars := appendNew baseScalars d.scalars
  directives := baseDirectives ++ d.directives.filter fun x =>
    !baseDirectives.any fun b => b.name == x.name
  types := d.types

/-- The declaration of a directive. -/
def directive? (d : Document) (name : String) : Option DirectiveDeclaration :=
  d.directives.find? fun x => x.name == name

end Document

end SchemaReconcile
