import SchemaReconcile.Document.Basic
import SchemaReconcile.Sdl.Reader
import SchemaReconcile.Sdl.Rules
import SchemaReconcile.Text.Integer

/-!
# Documents from schema text

A schema text is read, held against the rules of schema documents over the base declarations, and
turned into a document declaration by declaration.  Type extensions are refused, and declarations that
a document has no place for are skipped with a notice.
-/

namespace SchemaReconcile

open Number (Binary64)

/-! ## Type references -/

/-- The reference that a type expression makes: whether the whole is without null, whether its
outermost constructor is a list, and whether the items of that list are without null. -/
def TypeRef.ofExpr (e : Sdl.TypeExpr) : TypeRef :=
  let (nullable, body) := match e with
    | .nonNull inner => (false, inner)
    | other => (true, other)
  match body with
  | .list (.nonNull item) =>
    { name := item.innermost, nullable, isArray := true, itemNullable := false }
  | .list item => { name := item.innermost, nullable, isArray := true }
  | other => { name := other.innermost, nullable }

/-! ## The base environment -/

/-- A directive definition whose arguments have no defaults. -/
def Sdl.DirectiveDefinition.simple (name : String) (arguments : List (String × Sdl.TypeExpr))
    (locations : List String) : Sdl.DirectiveDefinition :=
  ⟨name, arguments.map fun (n, t) => ⟨n, t, none, []⟩, false, locations⟩

/-- The types and directives that every schema text may use. -/
def baseEnvironment : Sdl.Environment where
  types :=
    ["BigInt", "BigDecimal", "Date", "Bytes", "String", "Boolean"].map (fun n => (n, .scalar)) ++
      ["__Schema", "__Type", "__Field", "__InputValue", "__EnumValue", "__Directive"].map
        (fun n => (n, .object)) ++
      ["__TypeKind", "__DirectiveLocation"].map fun n => (n, .enumeration)
  directives :=
    let text : Sdl.TypeExpr := .named "String"
    let condition : List (String × Sdl.TypeExpr) := [("if", .nonNull (.named "Boolean"))]
    let selections := ["FIELD", "FRAGMENT_SPREAD", "INLINE_FRAGMENT"]
    [ .simple "derivedFrom" [("field", .nonNull text)] [fieldPlace],
      .simple "entity" [] [objectPlace],
      .simple "jsonField" [] [objectPlace],
      .simple "index" [("unique", .named "Boolean"), ("using", text)] [fieldPlace],
      .simple "compositeIndexes" [("fields", .nonNull (.list (.list text)))] [objectPlace],
      .simple "skip" condition selections,
      .simple "include" condition selections,
      .simple "deprecated" [("reason", text)]
        [fieldPlace, "ARGUMENT_DEFINITION", "INPUT_FIELD_DEFINITION", "ENUM_VALUE"],
      .simple "specifiedBy" [("url", .nonNull text)] ["SCALAR"],
      .simple "oneOf" [] ["INPUT_OBJECT"] ]

/-! ## Literals -/

mutual

/-- The value of a literal; names of enum values become texts. -/
def literalValue : Sdl.Literal → Except Text.IntegerFault Value
  | .variable _ => .ok .null
  | .int digits => .int <$> Text.readInteger digits
  | .float digits => .ok (.float ((Binary64.ofText? digits).getD .nan))
  | .string text => .ok (.text text)
  | .boolean b => .ok (.bool b)
  | .null => .ok .null
  | .enumerator name => .ok (.text name)
  | .list items => .list <$> literalValues items
  | .object fields => .dict <$> literalEntries fields

/-- The values of literals. -/
def literalValues : List Sdl.Literal → Except Text.IntegerFault (List Value)
  | [] => .ok []
  | l :: rest => do
    let v ← literalValue l
    let vs ← literalValues rest
    return v :: vs

/-- The entries of named literals. -/
def literalEntries : List (String × Sdl.Literal) → Except Text.IntegerFault (List (Value × Value))
  | [] => .ok []
  | (name, l) :: rest => do
    let v ← literalValue l
    let vs ← literalEntries rest
    return (.text name, v) :: vs

end

/-! ## Declarations -/

/-- Why a schema text is refused. -/
inductive SchemaTextFault where
  /-- The text cannot be read; the place is that of the first token that does not fit. -/
  | unreadable (place : Sdl.Position)
  /-- The document breaks a rule of schema documents. -/
  | invalid
  /-- The document extends a type. -/
  | extension (name : String)
  /-- An integer in the text has too many digits. -/
  | integer (fault : Text.IntegerFault)
  deriving DecidableEq, Repr

/-- The wording of a refusal, without the words for what is wrong in the text. -/
def SchemaTextFault.message : SchemaTextFault → String
  | unreadable _ => "Schema: invalid schema document"
  | invalid => "Schema: invalid schema document"
  | extension name => "Schema: type extensions are not supported (" ++ name ++ ")"
  | integer fault => fault.message

/-- What a definition adds to a document. -/
inductive Contribution where
  | scalar (name : String)
  | directive (declaration : DirectiveDeclaration)
  | type (declaration : TypeDeclaration)
  | skipped (kind : String)
  deriving Repr

/-- The directive usages of directive uses. -/
def usages (uses : List Sdl.DirectiveUse) : Except SchemaTextFault (List DirectiveUsage) :=
  uses.mapM fun u =>
    match literalEntries u.arguments with
    | .ok arguments => .ok ⟨u.name, arguments⟩
    | .error fault => .error (.integer fault)

/-- The declaration of a field. -/
def fieldDeclaration (f : Sdl.FieldDefinition) : Except SchemaTextFault FieldDeclaration := do
  let directives ← usages f.directives
  return { name := f.name, type := .ofExpr f.type, description := f.description, directives }

/-- The contribution of a type definition. -/
def typeContribution (t : Sdl.TypeDefinition) : Except SchemaTextFault Contribution :=
  match t.body with
  | .scalar => .ok (.scalar t.name)
  | .enumeration values => do
    let directives ← usages t.directives
    return .type { kind := .enumeration, name := t.name, description := t.description, directives,
                   values := values.map (·.name) }
  | .object _ fields => do
    let directives ← usages t.directives
    let fields ← fields.mapM fieldDeclaration
    return .type { kind := .object, name := t.name, description := t.description, directives, fields }
  | .interface _ _ => .ok (.skipped "interface_type_definition")
  | .union _ => .ok (.skipped "union_type_definition")
  | .input _ => .ok (.skipped "input_object_type_definition")

/-- The contribution of a definition. -/
def contribution : Sdl.Definition → Except SchemaTextFault Contribution
  | .type t => typeContribution t
  | .typeExtension t => .error (.extension t.name)
  | .directive d => .ok (.directive
      ⟨d.name, d.arguments.map fun a => ⟨a.name, .ofExpr a.type⟩, d.locations⟩)
  | .schema _ _ => .ok (.skipped "schema_definition")
  | .schemaExtension _ _ => .ok (.skipped "schema_extension")
  | .operation _ _ _ _ => .ok (.skipped "operation_definition")
  | .fragment _ _ _ => .ok (.skipped "fragment_definition")

/-- The contributions of definitions up to the first fault, and that fault. -/
def contributions : List Sdl.Definition → List Contribution × Option SchemaTextFault
  | [] => ([], none)
  | d :: rest =>
    match contribution d with
    | .error fault => ([], some fault)
    | .ok c =>
      let (cs, fault) := contributions rest
      (c :: cs, fault)

/-- The document of contributions. -/
def Document.ofContributions (cs : List Contribution) : Document where
  scalars := cs.filterMap fun c => match c with | .scalar name => some name | _ => none
  directives := cs.filterMap fun c => match c with | .directive d => some d | _ => none
  types := cs.filterMap fun c => match c with | .type t => some t | _ => none

/-- The definitions of a schema text that keeps all rules. -/
def readDefinitions (text : String) : Except SchemaTextFault (List Sdl.Definition) :=
  match Sdl.readDocument text with
  | .error offset => .error (.unreadable (Sdl.position text offset))
  | .ok defs => if Sdl.valid baseEnvironment defs then .ok defs else .error .invalid

/-- The document that a schema text declares. -/
def Document.ofSchemaText (text : String) : Except SchemaTextFault Document := do
  let defs ← readDefinitions text
  match contributions defs with
  | (cs, none) => return .ofContributions cs
  | (_, some fault) => throw fault

/-- The notices about skipped declarations of a schema text, up to a fault. -/
def schemaTextNotices (text : String) : List String :=
  match readDefinitions text with
  | .error _ => []
  | .ok defs => (contributions defs).1.filterMap fun c => match c with
    | .skipped kind => some ("Ignoring unsupported declaration: " ++ kind)
    | _ => none

end SchemaReconcile
