/-!
# Trees of the schema language

What a schema text declares, as it is written: type expressions, literals, directive uses, and the
definitions of a document.
-/

namespace SchemaReconcile.Sdl

/-- A type expression: a name, a list of a type, or a type without null. -/
inductive TypeExpr where
  | named (name : String)
  | list (item : TypeExpr)
  | nonNull (inner : TypeExpr)
  deriving DecidableEq, Repr, Inhabited

/-- The name inside a type expression. -/
def TypeExpr.innermost : TypeExpr → String
  | named name => name
  | list item => item.innermost
  | nonNull inner => inner.innermost

/-- A value as it is written; numbers keep their text. -/
inductive Literal where
  | variable (name : String)
  | int (digits : String)
  | float (digits : String)
  | string (text : String)
  | boolean (b : Bool)
  | null
  | enumerator (name : String)
  | list (items : List Literal)
  | object (fields : List (String × Literal))
  deriving Repr, Inhabited

/-- A directive applied to something. -/
structure DirectiveUse where
  name : String
  arguments : List (String × Literal)
  deriving Repr, Inhabited

/-- An argument, an input field, or a variable of an operation. -/
structure InputValue where
  name : String
  type : TypeExpr
  default : Option Literal
  directives : List DirectiveUse
  deriving Repr, Inhabited

/-- A field of an object or interface type. -/
structure FieldDefinition where
  description : Option String
  name : String
  arguments : List InputValue
  type : TypeExpr
  directives : List DirectiveUse
  deriving Repr, Inhabited

/-- A value of an enum type. -/
structure EnumValue where
  name : String
  directives : List DirectiveUse
  deriving Repr, Inhabited

/-- What a type definition or extension holds. -/
inductive TypeBody where
  | scalar
  | object (interfaces : List String) (fields : List FieldDefinition)
  | interface (interfaces : List String) (fields : List FieldDefinition)
  | union (members : List String)
  | enumeration (values : List EnumValue)
  | input (fields : List InputValue)
  deriving Repr, Inhabited

/-- A type definition or extension. -/
structure TypeDefinition where
  description : Option String
  name : String
  directives : List DirectiveUse
  body : TypeBody
  deriving Repr, Inhabited

/-- A directive definition. -/
structure DirectiveDefinition where
  name : String
  arguments : List InputValue
  repeatable : Bool
  locations : List String
  deriving Repr, Inhabited

/-- A selection of an operation or fragment. -/
inductive Selection where
  | field (arguments : List (String × Literal)) (directives : List DirectiveUse)
      (selections : List Selection)
  | spread (directives : List DirectiveUse)
  | inline (onType : Option String) (directives : List DirectiveUse) (selections : List Selection)
  deriving Repr, Inhabited

/-- The root operations a schema definition may name. -/
inductive OperationKind where
  | query
  | mutation
  | subscription
  deriving DecidableEq, Repr, Inhabited

/-- The keyword of a root operation. -/
def OperationKind.keyword : OperationKind → String
  | query => "query"
  | mutation => "mutation"
  | subscription => "subscription"

/-- The root operation of a keyword. -/
def OperationKind.ofKeyword? (s : String) : Option OperationKind :=
  [query, mutation, subscription].find? fun k => k.keyword == s

/-- A definition of a document. -/
inductive Definition where
  | type (definition : TypeDefinition)
  | typeExtension (extension : TypeDefinition)
  | schema (directives : List DirectiveUse) (operations : List (OperationKind × String))
  | schemaExtension (directives : List DirectiveUse) (operations : List (OperationKind × String))
  | directive (definition : DirectiveDefinition)
  | operation (kind : OperationKind) (declared : List InputValue)
      (directives : List DirectiveUse) (selections : List Selection)
  | fragment (onType : String) (directives : List DirectiveUse) (selections : List Selection)
  deriving Repr, Inhabited

/-- The places where a directive may be declared to stand. -/
def directiveLocations : List String :=
  ["QUERY", "MUTATION", "SUBSCRIPTION", "FIELD", "FRAGMENT_DEFINITION", "FRAGMENT_SPREAD",
    "INLINE_FRAGMENT", "VARIABLE_DEFINITION", "SCHEMA", "SCALAR", "OBJECT", "FIELD_DEFINITION",
    "ARGUMENT_DEFINITION", "INTERFACE", "UNION", "ENUM", "ENUM_VALUE", "INPUT_OBJECT",
    "INPUT_FIELD_DEFINITION"]

end SchemaReconcile.Sdl
