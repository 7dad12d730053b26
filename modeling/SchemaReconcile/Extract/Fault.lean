import SchemaReconcile.Document.Basic
import SchemaReconcile.Naming.Identifier
import SchemaReconcile.Shape.Basic

/-!
# Refusals of the extraction

Every way in which a document yields no model, with the declaration and field it is about and its
wording.
-/

namespace SchemaReconcile

/-- Where a directive stands: on a type, or on a field of it. -/
structure DirectiveSite where
  owner : String
  field : Option String := none
  deriving DecidableEq, Repr, Inhabited

/-- A site in a message. -/
def DirectiveSite.shown (s : DirectiveSite) : String :=
  match s.field with
  | some f => if f.isEmpty then s.owner else s.owner ++ "." ++ f
  | none => s.owner

/-- What is wrong with the use of a directive. -/
inductive DirectiveFault where
  | unknown
  | misplaced
  | unknownArgument (name : String)
  | argumentType (name : String) (type : TypeRef) (shown : String)
  /-- The value of an argument does not fit and has no text. -/
  | unwritable (name : String) (fault : Text.IntegerFault)
  | missingArgument (name : String)
  deriving DecidableEq, Repr

/-- What is wrong with the field that a derived field points at. -/
inductive BackReferenceFault where
  | missing
  | notReferring
  | derived
  deriving DecidableEq, Repr

/-- Why a document yields no model. -/
inductive ExtractFault where
  | typeName (name : String)
  | fieldName (owner name : String)
  | repeatedType (name : String)
  | twoRoles (name : String)
  | noRole (name : String)
  | directive (name : String) (site : DirectiveSite) (fault : DirectiveFault)
  | enumeration (name : String) (kind : Shape.FaultKind)
  | unstoredScalar (name : String)
  | unknownMemberType (owner field type : String)
  | unknownFieldType (owner field type : String)
  | listOfIdentifiers (owner field : String)
  | listOfEntities (owner field : String)
  | indexMethod (owner field word : String)
  | indexOnDerived (owner field : String)
  | indexGroupForm (owner : String)
  | indexGroupRepeats (owner shown : String)
  | indexGroupField (owner : String) (field : Option String) (shown : String)
  /-- An index group holds a collection, which cannot be compared with field names. -/
  | indexGroupNested
  | derivedType (owner field type : String)
  | backReference (owner field target back : String) (fault : BackReferenceFault)
  | identifierCount (owner : String) (count : Nat)
  | sharedTable (first second table : String)
  | sharedColumn (owner first second column : String)
  | sharedSource (owner field target back : String)
  | unsafeName (name : Naming.UnsafeName)
  deriving DecidableEq, Repr

namespace ExtractFault

/-- The declared type that a fault is about. -/
def entity? : ExtractFault → Option String
  | typeName name => some name
  | fieldName owner _ => some owner
  | repeatedType name => some name
  | twoRoles name => some name
  | noRole name => some name
  | directive _ _ (.unwritable _ _) => none
  | directive _ site _ => some site.owner
  | enumeration name _ => some name
  | unstoredScalar _ => none
  | unknownMemberType owner _ _ => some owner
  | unknownFieldType owner _ _ => some owner
  | listOfIdentifiers owner _ => some owner
  | listOfEntities owner _ => some owner
  | indexMethod owner _ _ => some owner
  | indexOnDerived owner _ => some owner
  | indexGroupForm owner => some owner
  | indexGroupRepeats owner _ => some owner
  | indexGroupField owner _ _ => some owner
  | indexGroupNested => none
  | derivedType owner _ _ => some owner
  | backReference owner _ _ _ _ => some owner
  | identifierCount owner _ => some owner
  | sharedTable _ second _ => some second
  | sharedColumn owner _ _ _ => some owner
  | sharedSource owner _ _ _ => some owner
  | unsafeName _ => none

/-- The field that a fault is about. -/
def field? : ExtractFault → Option String
  | fieldName _ name => some name
  | directive _ _ (.unwritable _ _) => none
  | directive _ site _ => site.field
  | unknownMemberType _ field _ => some field
  | unknownFieldType _ field _ => some field
  | listOfIdentifiers _ field => some field
  | listOfEntities _ field => some field
  | indexMethod _ field _ => some field
  | indexOnDerived _ field => some field
  | indexGroupField _ field _ => field
  | derivedType _ field _ => some field
  | backReference _ field _ _ _ => some field
  | sharedColumn _ _ second _ => some second
  | sharedSource _ field _ _ => some field
  | _ => none

/-- The wording of an unsuitable name. -/
def nameMessage (role name : String) : String :=
  "Schema: invalid " ++ role ++ " " ++ Text.quoted name ++
    ": names must match [A-Za-z_][A-Za-z0-9_]*"

/-- The wording of the fault of a directive use. -/
def directiveMessage (name place : String) : DirectiveFault → String
  | .unknown => "Schema: unknown directive @" ++ name ++ " on " ++ place
  | .misplaced => "Schema: directive @" ++ name ++ " is not allowed on " ++ place
  | .unknownArgument argument =>
    "Schema: unknown argument " ++ Text.quoted argument ++ " for @" ++ name ++ " on " ++ place
  | .argumentType argument type shown =>
    "Schema: argument " ++ Text.quoted argument ++ " of @" ++ name ++ " on " ++ place ++
      " expects " ++ type.name ++ (if type.isArray then "[]" else "") ++ ", got " ++ shown
  | .unwritable _ fault => fault.message
  | .missingArgument argument =>
    "Schema: directive @" ++ name ++ " on " ++ place ++ " requires argument " ++
      Text.quoted argument

/-- The wording of the fault of the values of an enumeration. -/
def valuesMessage : Shape.FaultKind → String
  | .tooShort => "List should have at least 1 item after validation, not 0"
  | kind => kind.message?.getD ""

/-- The wording of a fault. -/
def message : ExtractFault → String
  | typeName name => nameMessage "type name" name
  | fieldName _ name => nameMessage "field name" name
  | repeatedType name => "Schema: type " ++ name ++ " is declared more than once"
  | twoRoles name => "Schema: type " ++ name ++ " cannot be both @entity and @jsonField"
  | noRole name => "Schema: type " ++ name ++ " must be annotated with @entity or @jsonField"
  | directive name site fault => directiveMessage name site.shown fault
  | enumeration name kind => "Schema: invalid enum " ++ name ++ ": " ++ valuesMessage kind
  | unstoredScalar name => "Schema: scalar \"" ++ name ++ "\" has no storage type"
  | unknownMemberType owner field type =>
    "Schema: undefined type \"" ++ type ++ "\" on field \"" ++ field ++ "\" in \"type " ++ owner ++
      " @jsonField\""
  | unknownFieldType owner field type =>
    "Schema: undefined type \"" ++ type ++ "\" on field \"" ++ field ++ "\" in \"type " ++ owner ++
      " @entity\""
  | listOfIdentifiers owner field => "Schema: ID field " ++ owner ++ "." ++ field ++ " cannot be a list"
  | listOfEntities owner field =>
    "Schema: list of entities on " ++ owner ++ "." ++ field ++ " requires @derivedFrom"
  | indexMethod owner _ word =>
    "Schema: unsupported index method " ++ Text.quoted word ++ " on " ++ owner ++
      " (expected one of " ++ ", ".intercalate (IndexMethod.all.map IndexMethod.name) ++ ")"
  | indexOnDerived owner field =>
    "Schema: derived field " ++ owner ++ "." ++ field ++ " cannot be indexed"
  | indexGroupForm owner =>
    "Schema: @compositeIndexes on " ++ owner ++ " expects non-empty lists of field names"
  | indexGroupRepeats owner shown =>
    "Schema: @compositeIndexes on " ++ owner ++ " repeats a field in " ++ shown
  | indexGroupField owner _ shown =>
    "Schema: @compositeIndexes on " ++ owner ++ " names unknown field " ++ shown
  | indexGroupNested => ""
  | derivedType owner field type =>
    "Schema: @derivedFrom field " ++ owner ++ "." ++ field ++ " must have an entity type, got " ++ type
  | backReference owner field target back fault =>
    let head := "Schema: @derivedFrom on " ++ owner ++ "." ++ field ++ " points at "
    match fault with
    | .missing => head ++ target ++ "." ++ back ++ ", which does not exist"
    | .notReferring => head ++ target ++ "." ++ back ++ ", which does not reference " ++ owner
    | .derived => head ++ "another derived field " ++ target ++ "." ++ back
  | identifierCount owner count =>
    "Schema: entity " ++ owner ++ " must have exactly one ID field, found " ++ toString count
  | sharedTable first second table =>
    "Schema: entities " ++ first ++ " and " ++ second ++ " both map to table " ++ table
  | sharedColumn owner first second column =>
    "Schema: fields " ++ owner ++ "." ++ first ++ " and " ++ owner ++ "." ++ second ++
      " both map to column " ++ column
  | sharedSource owner field target back =>
    "Schema: " ++ target ++ "." ++ back ++ " is the source of more than one @derivedFrom relation " ++
      "(again on " ++ owner ++ "." ++ field ++ ")"
  | unsafeName name => name.message

end ExtractFault

end SchemaReconcile
