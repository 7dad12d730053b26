import SchemaReconcile.Extract.Fault

/-!
# Classified declarations

Every type declaration but a scalar is an enumeration, an entity or a shape: an object says by exactly
one of two directives which of the last two it is.  Names are safe identifiers and stand once, and the
directives of all declarations fit what is declared for them.
-/

namespace SchemaReconcile

/-- What a type declaration stands for. -/
inductive Role where
  | enumeration
  | entity
  | shape
  deriving DecidableEq, Repr, Inhabited

/-- The role of an object, by its directives. -/
def objectRole (d : TypeDeclaration) : Except ExtractFault Role :=
  match d.directive? KnownDirective.entity.name, d.directive? KnownDirective.jsonField.name with
  | some _, some _ => .error (.twoRoles d.name)
  | some _, none => .ok .entity
  | none, some _ => .ok .shape
  | none, none => .error (.noRole d.name)

/-- A type declaration and the names of its fields are safe identifiers. -/
def checkNames (d : TypeDeclaration) : Except ExtractFault Unit := do
  if !Naming.isSafe d.name then throw (.typeName d.name)
  for f in d.fields do
    if !Naming.isSafe f.name then throw (.fieldName d.name f.name)

/-- The roles of declarations, given the names that are taken. -/
def classify (taken : List String) :
    List TypeDeclaration → Except ExtractFault (List (Role × TypeDeclaration))
  | [] => .ok []
  | d :: rest =>
    match d.kind with
    | .scalar => classify taken rest
    | kind => do
      checkNames d
      if taken.contains d.name then throw (.repeatedType d.name)
      let role ← if kind = .enumeration then pure Role.enumeration else objectRole d
      let later ← classify (d.name :: taken) rest
      return (role, d) :: later

/-- The declarations of a document by role, with its scalars and directives. -/
structure Declarations where
  document : Document
  classified : List (Role × TypeDeclaration)
  deriving Repr, Inhabited

namespace Declarations

/-- The declarations of a role, in order. -/
def ofRole (d : Declarations) (role : Role) : List TypeDeclaration :=
  d.classified.filterMap fun (r, t) => if r = role then some t else none

/-- Whether a declaration of a role has a name. -/
def has (d : Declarations) (role : Role) (name : String) : Bool :=
  (d.ofRole role).any fun t => t.name == name

/-- The entity declaration of a name. -/
def entity? (d : Declarations) (name : String) : Option TypeDeclaration :=
  (d.ofRole .entity).find? fun t => t.name == name

end Declarations

/-! ## Directives -/

/-- Whether a value fits a scalar type; types that are not known fit every value. -/
def fitsScalar (type : String) (v : Value) : Bool :=
  match type with
  | "Boolean" => match v with | .bool _ => true | _ => false
  | "String" => match v with | .text _ => true | _ => false
  | "ID" => match v with | .text _ => true | _ => false
  | "Int" => match v with | .int _ => true | _ => false
  | "Float" => match v with | .int _ => true | .float _ => true | _ => false
  | _ => true

mutual

/-- Whether a value fits as an item of a list type; lists may be nested. -/
def fitsItem (type : TypeRef) : Value → Bool
  | .null => type.itemNullable
  | .list items => fitItems type items
  | v => fitsScalar type.name v

/-- Whether values fit as items of a list type. -/
def fitItems (type : TypeRef) : List Value → Bool
  | [] => true
  | v :: rest => fitsItem type v && fitItems type rest

end

/-- Whether the value of an argument fits its declared type. -/
def fits (type : TypeRef) (v : Value) : Bool :=
  match v with
  | .null => type.nullable
  | v =>
    if type.isArray then match v with
      | .list items => fitItems type items
      | _ => false
    else fitsScalar type.name v

/-- The first fault of an argument given to a directive. -/
def argumentFault? (d : DirectiveDeclaration) (key value : Value) : Option DirectiveFault :=
  match d.argument? key.display with
  | none => some (.unknownArgument key.display)
  | some a =>
    if fits a.type value then none
    else match value.written with
      | .ok shown => some (.argumentType key.display a.type shown)
      | .error fault => some (.unwritable key.display fault)

/-- Whether a directive use lacks an argument that may not be null. -/
def lacksArgument (u : DirectiveUsage) (a : ArgumentDeclaration) : Bool :=
  !a.type.nullable && match u.argument? a.name with
    | none => true
    | some .null => true
    | some _ => false

/-- The first fault of a directive use at a place. -/
def usageFault? (doc : Document) (place : String) (u : DirectiveUsage) : Option DirectiveFault :=
  match doc.directive? u.name with
  | none => some .unknown
  | some d =>
    if !d.locations.isEmpty && !d.locations.contains place then some .misplaced
    else match u.arguments.findSome? fun (k, v) => argumentFault? d k v with
      | some fault => some fault
      | none => (d.arguments.find? (lacksArgument u)).map fun a => .missingArgument a.name

/-- Every directive use at a site fits its declaration. -/
def checkUsages (doc : Document) (place : String) (site : DirectiveSite)
    (usages : List DirectiveUsage) : Except ExtractFault Unit :=
  match usages.findSome? fun u => (usageFault? doc place u).map fun f => (u.name, f) with
  | some (name, fault) => .error (.directive name site fault)
  | none => .ok ()

/-- The directives of a declaration fit theirs, those of the type before those of its fields. -/
def checkDirectives (doc : Document) (d : TypeDeclaration) : Except ExtractFault Unit := do
  checkUsages doc objectPlace ⟨d.name, none⟩ d.directives
  for f in d.fields do
    checkUsages doc fieldPlace ⟨d.name, some f.name⟩ f.directives

/-- The classified declarations of a document behind the base declarations, once all names and
directives are sound. -/
def Declarations.ofDocument (d : Document) : Except ExtractFault Declarations := do
  let doc := d.withBase
  let classified ← classify doc.scalars doc.types
  for t in doc.types do
    checkDirectives doc t
  return ⟨doc, classified⟩

end SchemaReconcile
