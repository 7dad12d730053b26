import SchemaReconcile.Sdl.Token
import SchemaReconcile.Sdl.Tree

/-!
# Reading schema text

A recursive descent reader of schema documents and type expressions.  A fault is the offset of the
first token that cannot go on; the token after a consumed one is always looked at, so a fault of the
text itself is found as soon as the token before it has been consumed.  Every loop is bounded by the
number of tokens.
-/

namespace SchemaReconcile.Sdl

/-- A reader: it consumes tokens or stops at an offset. -/
abbrev Reading := StateT (List Token) (Except Nat)

namespace Reading

variable {α : Type}

/-- The current token. -/
def current : Reading Token := do
  match ← get with
  | t :: _ => return t
  | [] => throw 0

/-- Stops at a token. -/
def failAt (t : Token) : Reading α := throw t.start

/-- Stops at the current token. -/
def unexpected : Reading α := do failAt (← current)

/-- The token after the current one. -/
def following : Reading Token := do
  match ← get with
  | _ :: t :: _ => if t.kind == .invalid then failAt t else return t
  | [t] => return t
  | [] => throw 0

/-- Goes on to the next token. -/
def advance : Reading Unit := do
  match ← get with
  | _ :: t :: rest => if t.kind == .invalid then failAt t else set (t :: rest)
  | _ => return ()

/-- Whether the current token is of a kind. -/
def at? (kind : TokenKind) : Reading Bool := do
  return (← current).kind == kind

/-- Whether the current token is a punctuator. -/
def atMark? (c : Char) : Reading Bool := at? (.punctuator c)

/-- Consumes a token of a kind. -/
def expect (kind : TokenKind) : Reading Token := do
  let t ← current
  if t.kind == kind then advance; return t else failAt t

/-- Consumes a punctuator. -/
def expectMark (c : Char) : Reading Unit := do
  discard (expect (.punctuator c))

/-- Consumes a punctuator if it is there. -/
def skipMark (c : Char) : Reading Bool := do
  if ← atMark? c then advance; return true else return false

/-- Whether the current token is a certain name. -/
def atKeyword? (word : String) : Reading Bool := do
  let t ← current
  return t.kind == .name && t.text == word

/-- Consumes a certain name if it is there. -/
def skipKeyword (word : String) : Reading Bool := do
  if ← atKeyword? word then advance; return true else return false

/-- Consumes a certain name. -/
def expectKeyword (word : String) : Reading Unit := do
  if ← skipKeyword word then return () else unexpected

/-- Consumes a name. -/
def name : Reading String := do
  return (← expect .name).text

/-- Items up to a closing punctuator. -/
def itemsUntil (close : Char) (item : Reading α) : Nat → Reading (List α)
  | 0 => unexpected
  | fuel + 1 => do
    if ← skipMark close then return []
    let first ← item
    let rest ← itemsUntil close item fuel
    return first :: rest

/-- One or more items between punctuators. -/
def many (opening closing : Char) (item : Reading α) (fuel : Nat) : Reading (List α) := do
  expectMark opening
  let first ← item
  let rest ← itemsUntil closing item fuel
  return first :: rest

/-- Nothing, or one or more items between punctuators. -/
def optionalMany (opening closing : Char) (item : Reading α) (fuel : Nat) : Reading (List α) := do
  if ← atMark? opening then many opening closing item fuel else return []

/-- One or more items with a punctuator between them. -/
def separated (mark : Char) (item : Reading α) : Nat → Reading (List α)
  | 0 => unexpected
  | fuel + 1 => do
    let first ← item
    if ← skipMark mark then
      let rest ← separated mark item fuel
      return first :: rest
    else return [first]

/-- One or more items with a punctuator between them and possibly one in front. -/
def delimited (mark : Char) (item : Reading α) (fuel : Nat) : Reading (List α) := do
  discard (skipMark mark)
  separated mark item fuel

end Reading

open Reading

/-! ## Types, literals and directives -/

/-- A type expression. -/
def typeExpr : Nat → Reading TypeExpr
  | 0 => unexpected
  | fuel + 1 => do
    let inner ←
      if ← skipMark '[' then do
        let item ← typeExpr fuel
        expectMark ']'
        pure (TypeExpr.list item)
      else TypeExpr.named <$> name
    if ← skipMark '!' then return .nonNull inner else return inner

/-- A literal; a constant holds no variables. -/
def literal (constant : Bool) : Nat → Reading Literal
  | 0 => unexpected
  | fuel + 1 => do
    let t ← current
    match t.kind with
    | .punctuator '[' =>
      advance
      return .list (← itemsUntil ']' (literal constant fuel) fuel)
    | .punctuator '\x7b' =>
      advance
      let field : Reading (String × Literal) := do
        let key ← name
        expectMark ':'
        let value ← literal constant fuel
        return (key, value)
      return .object (← itemsUntil '\x7d' field fuel)
    | .int => advance; return .int t.text
    | .float => advance; return .float t.text
    | .string => advance; return .string t.text
    | .name =>
      advance
      if t.text == "true" then return .boolean true
      else if t.text == "false" then return .boolean false
      else if t.text == "null" then return .null
      else return .enumerator t.text
    | .punctuator '$' =>
      advance
      if constant then
        if ← at? .name then failAt t else unexpected
      else return .variable (← name)
    | _ => failAt t

/-- The arguments of a directive use or a selected field. -/
def arguments (constant : Bool) (fuel : Nat) : Reading (List (String × Literal)) :=
  optionalMany '(' ')' (do
    let key ← name
    expectMark ':'
    let value ← literal constant fuel
    return (key, value)) fuel

/-- The directive uses at the current place. -/
def directiveUses (constant : Bool) (fuel : Nat) : Nat → Reading (List DirectiveUse)
  | 0 => unexpected
  | steps + 1 => do
    if ← skipMark '@' then
      let directive ← name
      let given ← arguments constant fuel
      let rest ← directiveUses constant fuel steps
      return ⟨directive, given⟩ :: rest
    else return []

/-- A description in front of a definition. -/
def description : Reading (Option String) := do
  let t ← current
  if t.kind == .string then advance; return some t.text else return none

/-! ## Parts of type definitions -/

/-- An argument or input field. -/
def inputValue (fuel : Nat) : Reading InputValue := do
  discard description
  let key ← name
  expectMark ':'
  let type ← typeExpr fuel
  let default ← if ← skipMark '=' then some <$> literal true fuel else pure none
  let directives ← directiveUses true fuel fuel
  return ⟨key, type, default, directives⟩

/-- A field of an object or interface type. -/
def fieldDefinition (fuel : Nat) : Reading FieldDefinition := do
  let text ← description
  let key ← name
  let arguments ← optionalMany '(' ')' (inputValue fuel) fuel
  expectMark ':'
  let type ← typeExpr fuel
  let directives ← directiveUses true fuel fuel
  return ⟨text, key, arguments, type, directives⟩

/-- A value of an enum type; the three literal words name none. -/
def enumValue (fuel : Nat) : Reading EnumValue := do
  discard description
  let t ← current
  if ["true", "false", "null"].contains t.text then failAt t
  let key ← name
  let directives ← directiveUses true fuel fuel
  return ⟨key, directives⟩

/-- The interfaces of an object or interface type. -/
def interfaces (fuel : Nat) : Reading (List String) := do
  if ← skipKeyword "implements" then delimited '&' name fuel else return []

/-- The keyword of a root operation. -/
def operationKind : Reading OperationKind := do
  let t ← expect .name
  match OperationKind.ofKeyword? t.text with
  | some kind => return kind
  | none => failAt t

/-- A root operation and its type. -/
def operationType : Reading (OperationKind × String) := do
  let kind ← operationKind
  expectMark ':'
  let type ← name
  return (kind, type)

/-- The keywords of type definitions. -/
def typeKeywords : List String := ["scalar", "type", "interface", "union", "enum", "input"]

/-- A type definition or extension from its keyword on. -/
def typeDefinition (fuel : Nat) (text : Option String) : Reading TypeDefinition := do
  let keyword ← name
  let key ← name
  match keyword with
  | "type" => do
    let implemented ← interfaces fuel
    let directives ← directiveUses true fuel fuel
    let fields ← optionalMany '\x7b' '\x7d' (fieldDefinition fuel) fuel
    return ⟨text, key, directives, .object implemented fields⟩
  | "interface" => do
    let implemented ← interfaces fuel
    let directives ← directiveUses true fuel fuel
    let fields ← optionalMany '\x7b' '\x7d' (fieldDefinition fuel) fuel
    return ⟨text, key, directives, .interface implemented fields⟩
  | "union" => do
    let directives ← directiveUses true fuel fuel
    let members ← if ← skipMark '=' then delimited '|' name fuel else pure []
    return ⟨text, key, directives, .union members⟩
  | "enum" => do
    let directives ← directiveUses true fuel fuel
    let values ← optionalMany '\x7b' '\x7d' (enumValue fuel) fuel
    return ⟨text, key, directives, .enumeration values⟩
  | "input" => do
    let directives ← directiveUses true fuel fuel
    let fields ← optionalMany '\x7b' '\x7d' (inputValue fuel) fuel
    return ⟨text, key, directives, .input fields⟩
  | _ => do
    let directives ← directiveUses true fuel fuel
    return ⟨text, key, directives, .scalar⟩

/-- Whether an extension adds something. -/
def TypeDefinition.addsSomething (t : TypeDefinition) : Bool :=
  !t.directives.isEmpty || match t.body with
    | .scalar => false
    | .object implemented fields => !implemented.isEmpty || !fields.isEmpty
    | .interface implemented fields => !implemented.isEmpty || !fields.isEmpty
    | .union members => !members.isEmpty
    | .enumeration values => !values.isEmpty
    | .input fields => !fields.isEmpty

/-- A place in a directive definition. -/
def directiveLocation : Reading String := do
  let t ← current
  let word ← name
  if directiveLocations.contains word then return word else failAt t

/-- A directive definition from its keyword on. -/
def directiveDefinition (fuel : Nat) : Reading DirectiveDefinition := do
  expectKeyword "directive"
  expectMark '@'
  let key ← name
  let arguments ← optionalMany '(' ')' (inputValue fuel) fuel
  let repeatable ← skipKeyword "repeatable"
  expectKeyword "on"
  let locations ← delimited '|' directiveLocation fuel
  return ⟨key, arguments, repeatable, locations⟩

/-! ## Operations -/

/-- The name of a fragment: any name but `on`. -/
def fragmentName : Reading String := do
  let t ← current
  if t.text == "on" then failAt t
  name

/-- A selection set, possibly empty. -/
def selections : Nat → Reading (List Selection)
  | 0 => unexpected
  | fuel + 1 =>
    let selection : Reading Selection := do
      if ← at? .spread then
        advance
        let typed ← skipKeyword "on"
        let named ← at? .name
        if !typed && named then
          discard fragmentName
          return .spread (← directiveUses false fuel fuel)
        else
          let onType ← if typed then some <$> name else pure none
          let directives ← directiveUses false fuel fuel
          let inner ← selections fuel
          return .inline onType directives inner
      else
        discard name
        if ← skipMark ':' then discard name
        let given ← arguments false fuel
        let directives ← directiveUses false fuel fuel
        let inner ← if ← atMark? '\x7b' then selections fuel else pure []
        return .field given directives inner
    do
      expectMark '\x7b'
      itemsUntil '\x7d' selection fuel

/-- A variable of an operation. -/
def variableDefinition (fuel : Nat) : Reading InputValue := do
  discard description
  expectMark '$'
  let key ← name
  expectMark ':'
  let type ← typeExpr fuel
  let default ← if ← skipMark '=' then some <$> literal true fuel else pure none
  let directives ← directiveUses true fuel fuel
  return ⟨key, type, default, directives⟩

/-- An operation from its keyword on. -/
def operationDefinition (fuel : Nat) : Reading Definition := do
  let kind ← operationKind
  if ← at? .name then discard name
  let declared ← optionalMany '(' ')' (variableDefinition fuel) fuel
  let directives ← directiveUses false fuel fuel
  let selected ← selections fuel
  return .operation kind declared directives selected

/-- A fragment from its keyword on. -/
def fragmentDefinition (fuel : Nat) : Reading Definition := do
  expectKeyword "fragment"
  discard fragmentName
  expectKeyword "on"
  let onType ← name
  let directives ← directiveUses false fuel fuel
  let selected ← selections fuel
  return .fragment onType directives selected

/-! ## Documents -/

/-- An extension. -/
def extension (fuel : Nat) : Reading Definition := do
  let keyword ← following
  if keyword.kind == .name && keyword.text == "schema" then
    expectKeyword "extend"
    expectKeyword "schema"
    let directives ← directiveUses true fuel fuel
    let operations ← optionalMany '\x7b' '\x7d' operationType fuel
    if directives.isEmpty && operations.isEmpty then unexpected
    return .schemaExtension directives operations
  else if keyword.kind == .name && typeKeywords.contains keyword.text then
    expectKeyword "extend"
    let extended ← typeDefinition fuel none
    if !extended.addsSomething then unexpected
    return .typeExtension extended
  else failAt keyword

/-- A definition. -/
def definition (fuel : Nat) : Reading Definition := do
  let first ← current
  if first.kind == .punctuator '\x7b' then
    return .operation .query [] [] (← selections fuel)
  let described := first.kind == .string
  let keyword ← if described then following else pure first
  if described && keyword.kind == .punctuator '\x7b' then failAt first
  if keyword.kind != .name then failAt keyword
  if keyword.text == "schema" then
    discard description
    expectKeyword "schema"
    let directives ← directiveUses true fuel fuel
    let operations ← many '\x7b' '\x7d' operationType fuel
    return .schema directives operations
  else if typeKeywords.contains keyword.text then
    return .type (← typeDefinition fuel (← description))
  else if keyword.text == "directive" then
    discard description
    return .directive (← directiveDefinition fuel)
  else if (OperationKind.ofKeyword? keyword.text).isSome then
    discard description
    operationDefinition fuel
  else if keyword.text == "fragment" then
    discard description
    fragmentDefinition fuel
  else if described then failAt first
  else if keyword.text == "extend" then extension fuel
  else failAt keyword

/-- Definitions up to the end of the text. -/
def definitions (fuel : Nat) : Nat → Reading (List Definition)
  | 0 => unexpected
  | steps + 1 => do
    let first ← definition fuel
    if ← at? .finish then return [first]
    let rest ← definitions fuel steps
    return first :: rest

/-- Runs a reader over a text; the first token is looked at before the reader starts. -/
def run {α : Type} (text : String) (reader : Nat → Reading α) : Except Nat α :=
  let stream := tokens text
  match stream with
  | ⟨.invalid, _, start⟩ :: _ => .error start
  | _ => (reader (stream.length + 1)).run' stream

/-- The definitions of a schema text, or the offset of the fault. -/
def readDocument (text : String) : Except Nat (List Definition) :=
  run text fun fuel => definitions fuel fuel

/-- The type expression that is the whole of a text, or the offset of the fault. -/
def readTypeExpr (text : String) : Except Nat TypeExpr :=
  run text fun fuel => do
    let type ← typeExpr fuel
    discard (expect .finish)
    return type

end SchemaReconcile.Sdl
