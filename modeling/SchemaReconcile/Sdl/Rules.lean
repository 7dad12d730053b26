import SchemaReconcile.Sdl.Tree

/-!
# Rules of schema documents

A document is read against an environment of types and directives that exist before it.  The rules ask
for unique names, known types and directives, directives only at their declared places, given arguments
that are known, unique and complete, and extensions of types of the same kind.  Values of arguments are
not compared with types, except for the two built-in directives whose argument is evaluated.
-/

namespace SchemaReconcile.Sdl

/-- The kinds of types. -/
inductive TypeKind where
  | scalar
  | object
  | interface
  | union
  | enumeration
  | input
  deriving DecidableEq, Repr, Inhabited

/-- The types and directives that exist before a document. -/
structure Environment where
  types : List (String × TypeKind)
  directives : List DirectiveDefinition
  deriving Repr, Inhabited

/-- The kind of type that a body defines. -/
def TypeBody.kind : TypeBody → TypeKind
  | scalar => .scalar
  | object _ _ => .object
  | interface _ _ => .interface
  | union _ => .union
  | enumeration _ => .enumeration
  | input _ => .input

/-- Whether the names of a list are pairwise different. -/
def allDistinct {α : Type} [BEq α] : List α → Bool
  | [] => true
  | a :: rest => !rest.contains a && allDistinct rest

/-- The type definition or extension of a definition. -/
def Definition.typePart? : Definition → Option TypeDefinition
  | type t => some t
  | typeExtension t => some t
  | _ => none

/-- The type definition of a definition. -/
def Definition.definedType? : Definition → Option TypeDefinition
  | type t => some t
  | _ => none

/-- The directive definition of a definition. -/
def Definition.directive? : Definition → Option DirectiveDefinition
  | directive d => some d
  | _ => none

/-- The root operations that a definition names. -/
def Definition.operations : Definition → List (OperationKind × String)
  | schema _ ops => ops
  | schemaExtension _ ops => ops
  | _ => []

/-- Whether a definition describes types rather than a request. -/
def Definition.describesTypes : Definition → Bool
  | operation _ _ _ _ => false
  | fragment _ _ _ => false
  | _ => true

/-! ## Parts of definitions -/

/-- The fields of an object or interface body. -/
def TypeBody.outputFields : TypeBody → List FieldDefinition
  | object _ fields => fields
  | interface _ fields => fields
  | _ => []

/-- The input fields of a body. -/
def TypeBody.inputFields : TypeBody → List InputValue
  | input fields => fields
  | _ => []

/-- The names of the fields of a body. -/
def TypeBody.fieldNames (b : TypeBody) : List String :=
  b.outputFields.map (·.name) ++ b.inputFields.map (·.name)

/-- The enum values of a body. -/
def TypeBody.enumValues : TypeBody → List EnumValue
  | enumeration values => values
  | _ => []

/-- The types that a body names without wrapping: interfaces and union members. -/
def TypeBody.bareNames : TypeBody → List String
  | object names _ => names
  | interface names _ => names
  | union names => names
  | _ => []

/-- The place of the directives of a type. -/
def TypeKind.location : TypeKind → String
  | scalar => "SCALAR"
  | object => "OBJECT"
  | interface => "INTERFACE"
  | union => "UNION"
  | enumeration => "ENUM"
  | input => "INPUT_OBJECT"

/-- Directive uses with the place where they stand. -/
abbrev Site := String × List DirectiveUse

/-- The sites of input values. -/
def inputSites (location : String) (inputs : List InputValue) : List Site :=
  inputs.map fun i => (location, i.directives)

/-- The sites inside a type body. -/
def TypeBody.sites (b : TypeBody) : List Site :=
  (b.outputFields.flatMap fun f =>
      ("FIELD_DEFINITION", f.directives) :: inputSites "ARGUMENT_DEFINITION" f.arguments) ++
    inputSites "INPUT_FIELD_DEFINITION" b.inputFields ++
    b.enumValues.map fun v => ("ENUM_VALUE", v.directives)

mutual

/-- The sites of a selection. -/
def Selection.sites : Selection → List Site
  | .field _ directives inner => ("FIELD", directives) :: selectionSites inner
  | .spread directives => [("FRAGMENT_SPREAD", directives)]
  | .inline _ directives inner => ("INLINE_FRAGMENT", directives) :: selectionSites inner

/-- The sites of selections. -/
def selectionSites : List Selection → List Site
  | [] => []
  | s :: rest => s.sites ++ selectionSites rest

end

mutual

/-- The arguments given to the fields of a selection. -/
def Selection.fieldArguments : Selection → List (List (String × Literal))
  | .field given _ inner => given :: selectionArguments inner
  | .spread _ => []
  | .inline _ _ inner => selectionArguments inner

/-- The arguments given to the fields of selections. -/
def selectionArguments : List Selection → List (List (String × Literal))
  | [] => []
  | s :: rest => s.fieldArguments ++ selectionArguments rest

end

mutual

/-- The types that a selection names. -/
def Selection.typeNames : Selection → List String
  | .field _ _ inner => selectionTypeNames inner
  | .spread _ => []
  | .inline onType _ inner => onType.toList ++ selectionTypeNames inner

/-- The types that selections name. -/
def selectionTypeNames : List Selection → List String
  | [] => []
  | s :: rest => s.typeNames ++ selectionTypeNames rest

end

/-- The place of the directives of an operation. -/
def OperationKind.location : OperationKind → String
  | query => "QUERY"
  | mutation => "MUTATION"
  | subscription => "SUBSCRIPTION"

/-- All sites of a definition. -/
def Definition.sites : Definition → List Site
  | type t => (t.body.kind.location, t.directives) :: t.body.sites
  | typeExtension t => (t.body.kind.location, t.directives) :: t.body.sites
  | schema directives _ => [("SCHEMA", directives)]
  | schemaExtension directives _ => [("SCHEMA", directives)]
  | directive d => inputSites "ARGUMENT_DEFINITION" d.arguments
  | operation kind declared directives inner =>
    (kind.location, directives) :: inputSites "VARIABLE_DEFINITION" declared ++ selectionSites inner
  | fragment _ directives inner => ("FRAGMENT_DEFINITION", directives) :: selectionSites inner

/-- The input values that a definition declares. -/
def Definition.inputValues : Definition → List InputValue
  | type t => (t.body.outputFields.flatMap (·.arguments)) ++ t.body.inputFields
  | typeExtension t => (t.body.outputFields.flatMap (·.arguments)) ++ t.body.inputFields
  | directive d => d.arguments
  | operation _ declared _ _ => declared
  | _ => []

/-- The types that a definition names. -/
def Definition.typeNames (d : Definition) : List String :=
  (d.inputValues.map fun i => i.type.innermost) ++
    (d.operations.map (·.2)) ++
    (match d.typePart? with
      | some t => t.body.bareNames ++ t.body.outputFields.map fun f => f.type.innermost
      | none => []) ++
    match d with
      | .operation _ _ _ inner => selectionTypeNames inner
      | .fragment onType _ inner => onType :: selectionTypeNames inner
      | _ => []

/-- The arguments given to the fields selected by a definition. -/
def Definition.selectedArguments : Definition → List (List (String × Literal))
  | operation _ _ _ inner => selectionArguments inner
  | fragment _ _ inner => selectionArguments inner
  | _ => []

/-- All directive uses of a definition. -/
def Definition.uses (d : Definition) : List DirectiveUse :=
  d.sites.flatMap (·.2)

mutual

/-- Whether no object inside a literal repeats a field. -/
def Literal.distinctFields : Literal → Bool
  | .list items => distinctFieldsAll items
  | .object fields => allDistinct (fields.map (·.1)) && distinctFieldsIn fields
  | _ => true

/-- Whether no object inside literals repeats a field. -/
def distinctFieldsAll : List Literal → Bool
  | [] => true
  | l :: rest => l.distinctFields && distinctFieldsAll rest

/-- Whether no object inside the values of fields repeats a field. -/
def distinctFieldsIn : List (String × Literal) → Bool
  | [] => true
  | (_, l) :: rest => l.distinctFields && distinctFieldsIn rest

end

/-! ## The rules -/

/-- The types that every document may name without declaring them. -/
def standardTypes : List String :=
  ["Int", "Float", "String", "Boolean", "ID", "__Schema", "__Directive", "__DirectiveLocation",
    "__Type", "__Field", "__InputValue", "__EnumValue", "__TypeKind"]

/-- The directive definitions of a document. -/
def declaredDirectives (defs : List Definition) : List DirectiveDefinition :=
  defs.filterMap Definition.directive?

/-- The directive definition of a name. -/
def Environment.directive? (env : Environment) (defs : List Definition) (name : String) :
    Option DirectiveDefinition :=
  (declaredDirectives defs ++ env.directives).find? fun d => d.name == name

/-- There is at most one schema definition, and no root operation is named twice. -/
def uniqueRoots (defs : List Definition) : Bool :=
  (defs.filter fun d => match d with | .schema _ _ => true | _ => false).length ≤ 1 &&
    allDistinct ((defs.flatMap Definition.operations).map (·.1))

/-- Types, directives, fields, enum values and arguments have unique names. -/
def uniqueNames (env : Environment) (defs : List Definition) : Bool :=
  let typeNames := (defs.filterMap Definition.definedType?).map (·.name)
  let directiveNames := (declaredDirectives defs).map (·.name)
  let parts := defs.filterMap Definition.typePart?
  allDistinct typeNames && typeNames.all (fun n => (env.types.lookup n).isNone) &&
    allDistinct directiveNames &&
    directiveNames.all (fun n => !env.directives.any fun d => d.name == n) &&
    allDistinct (parts.flatMap fun t => t.body.enumValues.map fun v => (t.name, v.name)) &&
    allDistinct (parts.flatMap fun t => t.body.fieldNames.map fun f => (t.name, f)) &&
    (parts.flatMap fun t => t.body.outputFields).all
      (fun f => allDistinct (f.arguments.map (·.name))) &&
    (declaredDirectives defs).all fun d => allDistinct (d.arguments.map (·.name))

/-- Every named type exists, is declared, or is a standard type named where types are described. -/
def knownTypes (env : Environment) (defs : List Definition) : Bool :=
  let declared := (defs.filterMap Definition.definedType?).map (·.name)
  defs.all fun d => d.typeNames.all fun n =>
    (env.types.lookup n).isSome || declared.contains n ||
      (d.describesTypes && standardTypes.contains n)

/-- Every used directive is known and declared for its place. -/
def knownDirectives (env : Environment) (defs : List Definition) : Bool :=
  (defs.flatMap Definition.sites).all fun (location, uses) => uses.all fun u =>
    match env.directive? defs u.name with
    | some d => d.locations.contains location
    | none => false

/-- The names of the uses of directives that may stand only once at a place. -/
def onceOnly (env : Environment) (defs : List Definition) (uses : List DirectiveUse) : List String :=
  (uses.map (·.name)).filter fun n =>
    match env.directive? defs n with
    | some d => !d.repeatable
    | none => false

/-- No directive is repeated at a place; the definition and all extensions of a type are one place, and
so are those of the schema. -/
def uniqueDirectives (env : Environment) (defs : List Definition) : Bool :=
  let parts := defs.filterMap Definition.typePart?
  let schemaUses := defs.flatMap fun d => match d with
    | .schema uses _ => uses
    | .schemaExtension uses _ => uses
    | _ => []
  let inner (d : Definition) : List Site := match d with
    | .type t => t.body.sites
    | .typeExtension t => t.body.sites
    | .schema _ _ => []
    | .schemaExtension _ _ => []
    | other => other.sites
  (parts.all fun t => allDistinct (onceOnly env defs
      (parts.flatMap fun s => if s.name == t.name then s.directives else []))) &&
    allDistinct (onceOnly env defs schemaUses) &&
    (defs.flatMap inner).all fun (_, uses) => allDistinct (onceOnly env defs uses)

/-- Every extension extends a type of its kind, declared or existing. -/
def possibleExtensions (env : Environment) (defs : List Definition) : Bool :=
  defs.all fun d => match d with
    | .typeExtension t =>
      match (defs.filterMap Definition.definedType?).reverse.find? fun s => s.name == t.name with
      | some s => s.body.kind == t.body.kind
      | none => env.types.lookup t.name == some t.body.kind
    | _ => true

/-- Every use of a known directive gives known arguments only, and all required ones. -/
def completeArguments (env : Environment) (defs : List Definition) : Bool :=
  (defs.flatMap Definition.uses).all fun u =>
    match env.directive? defs u.name with
    | none => true
    | some d =>
      (u.arguments.all fun (n, _) => d.arguments.any fun a => a.name == n) &&
        d.arguments.all fun a => match a.type, a.default with
          | .nonNull _, none => u.arguments.any fun (n, _) => n == a.name
          | _, _ => true

/-- No argument is given twice, and no object repeats a field. -/
def uniqueArguments (defs : List Definition) : Bool :=
  defs.all fun d =>
    let given := d.selectedArguments ++ d.uses.map (·.arguments)
    given.all (fun args => allDistinct (args.map (·.1)) && args.all fun (_, l) => l.distinctFields) &&
      d.inputValues.all fun i => (i.default.map Literal.distinctFields).getD true

/-- Whether a literal may be given for a text argument. -/
def Literal.isText (nullable : Bool) : Literal → Bool
  | .string _ => true
  | .null => nullable
  | _ => false

/-- The arguments of the two evaluated built-in directives are texts. -/
def evaluatedArguments (defs : List Definition) : Bool :=
  (defs.filter Definition.describesTypes).all fun d => d.uses.all fun u =>
    if u.name == "deprecated" then ((u.arguments.lookup "reason").map (·.isText true)).getD true
    else if u.name == "specifiedBy" then ((u.arguments.lookup "url").map (·.isText false)).getD true
    else true

/-- Whether a document keeps all rules. -/
def valid (env : Environment) (defs : List Definition) : Bool :=
  uniqueRoots defs && uniqueNames env defs && knownTypes env defs && knownDirectives env defs &&
    uniqueDirectives env defs && possibleExtensions env defs && completeArguments env defs &&
    uniqueArguments defs && evaluatedArguments defs

end SchemaReconcile.Sdl
