import SchemaReconcile.Yaml.Resolve
import SchemaReconcile.Yaml.Token

/-!
# YAML nodes

A document is one node: a scalar, a sequence or a mapping, each with its full tag.  Aliases are replaced
by what they name, so the same mapping can stand in several places; it keeps the place at which it was written.
An alias of a collection inside that same collection is unfolded a few times.  A text holds at most one
document.

Tokens are taken one by one, and a token is looked at only when it decides how to go on.  So a text that is
malformed in two ways is refused for the one that is met first.
-/

namespace SchemaReconcile.Yaml

/-- A node of a document. -/
inductive Node where
  | scalar (tag text : String)
  | sequence (tag : String) (items : List Node)
  /-- A mapping, with the number of tokens behind the place at which it was written. -/
  | mapping (place : Nat) (tag : String) (entries : List (Node × Node))
  /-- A place inside the collection with this anchor where that collection itself stands. -/
  | enclosing (anchor : String)
  deriving Repr, Inhabited

/-- The tag of a node. -/
def Node.tag : Node → String
  | scalar tag _ => tag
  | sequence tag _ => tag
  | mapping _ tag _ => tag
  | enclosing _ => ""

mutual

/-- A node with another in every place for an enclosing collection. -/
def Node.fill (anchor : String) (filler : Node) : Node → Node
  | .enclosing a => if a == anchor then filler else .enclosing a
  | .sequence tag items => .sequence tag (fillItems anchor filler items)
  | .mapping place tag entries => .mapping place tag (fillEntries anchor filler entries)
  | node => node

/-- Nodes with another in every place for an enclosing collection. -/
def fillItems (anchor : String) (filler : Node) : List Node → List Node
  | [] => []
  | n :: rest => Node.fill anchor filler n :: fillItems anchor filler rest

/-- Entries with another node in every place for an enclosing collection. -/
def fillEntries (anchor : String) (filler : Node) : List (Node × Node) → List (Node × Node)
  | [] => []
  | (k, v) :: rest =>
    (Node.fill anchor filler k, Node.fill anchor filler v) :: fillEntries anchor filler rest

end

/-- The node of an absent value. -/
def Node.absent : Node := .scalar (coreTag "null") ""

/-- A collection with its own places unfolded three times. -/
def Node.unfold (anchor : String) (node : Node) : Node :=
  let inside (filler : Node) : Node := Node.fill anchor filler node
  inside (inside (inside .absent))

/-- The state while nodes are built. -/
structure Composing where
  tokens : List Token
  /-- The tag handles in force. -/
  handles : List (String × String) := []
  /-- The anchored nodes, `none` while a collection is open, and whether an alias named it then. -/
  anchors : List (String × Option Node) := []
  deriving Repr, Inhabited

/-- A step over the state. -/
abbrev Compose := StateT Composing (Except SourceFault)

namespace Compose

/-- The current token. -/
def current : Compose Token := do
  match (← get).tokens with
  | .fault reason :: _ => throw reason
  | t :: _ => return t
  | [] => throw .malformed

/-- Goes on to the next token. -/
def advance : Compose Unit :=
  modify fun s => { s with tokens := s.tokens.drop 1 }

/-- The current place, as the number of tokens that are left. -/
def here : Compose Nat :=
  return (← get).tokens.length

/-- Consumes a token if it is the current one. -/
def skip (t : Token) : Compose Bool := do
  if (← current) == t then advance; return true else return false

/-- Whether the current token is one of some tokens. -/
def at? (ts : List Token) : Compose Bool := do
  return ts.contains (← current)

/-- The anchor and the tag in front of a node. -/
def properties : Compose (Option String × Option (Option String × String)) := do
  match ← current with
  | .anchor name =>
    advance
    match ← current with
    | .tag handle suffix => advance; return (some name, some (handle, suffix))
    | _ => return (some name, none)
  | .tag handle suffix =>
    advance
    match ← current with
    | .anchor name => advance; return (some name, some (handle, suffix))
    | _ => return (none, some (handle, suffix))
  | _ => return (none, none)

/-- The full tag of a handle and a suffix. -/
def fullTag (handle : Option String) (suffix : String) : Compose String := do
  match handle with
  | none => return suffix
  | some h =>
    match (← get).handles.lookup h with
    | some lead => return lead ++ suffix
    | none => throw .malformed

/-- Notes an anchor before its node is built. -/
def openAnchor (anchor : Option String) : Compose Unit := do
  match anchor with
  | none => return ()
  | some a =>
    if ((← get).anchors.lookup a).isSome then throw .malformed
    modify fun s => { s with anchors := (a, none) :: s.anchors }

/-- Notes the node of an anchor. -/
def closeAnchor (anchor : Option String) (node : Node) : Compose Node := do
  match anchor with
  | none => return node
  | some a =>
    let node := node.unfold a
    modify fun s => { s with anchors := (a, some node) :: s.anchors }
    return node

/-- The node that an alias names. -/
def aliased (name : String) : Compose Node := do
  match (← get).anchors.lookup name with
  | some (some node) => return node
  | some none => return .enclosing name
  | none => throw .malformed

end Compose

open Compose

/-- The tag of a collection. -/
def collectionTag (given : Option String) (name : String) : String :=
  match given with
  | none => coreTag name
  | some "!" => coreTag name
  | some t => t

/-- The tag of a scalar. -/
def scalarTag (given : Option String) (plain : Bool) (text : String) : String :=
  match given with
  | none => if plain then plainTag text else coreTag "str"
  | some "!" => plainTag text
  | some t => t

mutual

/-- A node; `block` allows block collections, and `indentless` a sequence without an indentation of its
own. -/
def node (block indentless : Bool) : Nat → Compose Node
  | 0 => throw .malformed
  | fuel + 1 => do
    if let .alias name := ← current then
      advance
      return ← aliased name
    let (anchor, property) ← properties
    let given ← match property with
      | some (handle, suffix) => some <$> fullTag handle suffix
      | none => pure none
    let next ← current
    openAnchor anchor
    let built ← match next with
      | .blockEntry =>
        if indentless then
          .sequence (collectionTag given "seq") <$> indentlessItems fuel
        else if anchor.isSome || given.isSome then
          pure (.scalar (scalarTag given true "") "")
        else throw .malformed
      | .scalar plain text => do
        advance
        pure (.scalar (scalarTag given plain text) text)
      | .flowSequenceStart => do
        advance
        .sequence (collectionTag given "seq") <$> flowItems true fuel
      | .flowMappingStart => do
        let place ← here
        advance
        .mapping place (collectionTag given "map") <$> flowEntries true fuel
      | .blockSequenceStart =>
        if block then do
          advance
          .sequence (collectionTag given "seq") <$> blockItems fuel
        else if anchor.isSome || given.isSome then
          pure (.scalar (scalarTag given true "") "")
        else throw .malformed
      | .blockMappingStart =>
        if block then do
          let place ← here
          advance
          .mapping place (collectionTag given "map") <$> blockEntries fuel
        else if anchor.isSome || given.isSome then
          pure (.scalar (scalarTag given true "") "")
        else throw .malformed
      | _ =>
        if anchor.isSome || given.isSome then pure (.scalar (scalarTag given true "") "")
        else throw .malformed
    closeAnchor anchor built

/-- The items of a block sequence. -/
def blockItems : Nat → Compose (List Node)
  | 0 => throw .malformed
  | fuel + 1 => do
    if ← skip .blockEntry then
      let first ← if ← at? [.blockEntry, .blockEnd] then pure Node.absent else node true false fuel
      let rest ← blockItems fuel
      return first :: rest
    else if ← skip .blockEnd then return []
    else throw .malformed

/-- The items of a sequence without an indentation of its own. -/
def indentlessItems : Nat → Compose (List Node)
  | 0 => throw .malformed
  | fuel + 1 => do
    if ← skip .blockEntry then
      let first ← if ← at? [.blockEntry, .key, .value, .blockEnd] then pure Node.absent
        else node true false fuel
      let rest ← indentlessItems fuel
      return first :: rest
    else return []

/-- The entries of a block mapping. -/
def blockEntries : Nat → Compose (List (Node × Node))
  | 0 => throw .malformed
  | fuel + 1 => do
    if ← skip .blockEnd then return []
    -- a value without a key in front of it is allowed only after another entry's key
    if !(← skip .key) then throw .malformed
    let key ← if ← at? [.key, .value, .blockEnd] then pure Node.absent else node true true fuel
    let value ←
      if ← skip .value then
        if ← at? [.key, .value, .blockEnd] then pure Node.absent else node true true fuel
      else pure Node.absent
    let rest ← blockEntries fuel
    return (key, value) :: rest

/-- The items of a flow sequence; a single entry of a mapping may stand among them. -/
def flowItems (first : Bool) : Nat → Compose (List Node)
  | 0 => throw .malformed
  | fuel + 1 => do
    if ← skip .flowSequenceEnd then return []
    let separated ← if first then pure true else skip .flowEntry
    if !separated then throw .malformed
    let place ← here
    if ← skip .key then
      let key ← if ← at? [.value, .flowEntry, .flowSequenceEnd] then pure Node.absent
        else node false false fuel
      let value ←
        if ← skip .value then
          if ← at? [.flowEntry, .flowSequenceEnd] then pure Node.absent else node false false fuel
        else pure Node.absent
      let rest ← flowItems false fuel
      return .mapping place (coreTag "map") [(key, value)] :: rest
    else if ← skip .flowSequenceEnd then return []
    else
      let item ← node false false fuel
      let rest ← flowItems false fuel
      return item :: rest

/-- The entries of a flow mapping. -/
def flowEntries (first : Bool) : Nat → Compose (List (Node × Node))
  | 0 => throw .malformed
  | fuel + 1 => do
    if ← skip .flowMappingEnd then return []
    let separated ← if first then pure true else skip .flowEntry
    if !separated then throw .malformed
    if ← skip .key then
      let key ← if ← at? [.value, .flowEntry, .flowMappingEnd] then pure Node.absent
        else node false false fuel
      let value ←
        if ← skip .value then
          if ← at? [.flowEntry, .flowMappingEnd] then pure Node.absent else node false false fuel
        else pure Node.absent
      let rest ← flowEntries false fuel
      return (key, value) :: rest
    else if ← skip .flowMappingEnd then return []
    else
      let key ← node false false fuel
      let rest ← flowEntries false fuel
      return (key, .absent) :: rest

end

/-- The tag handles that hold without a directive. -/
def defaultHandles : List (String × String) := [("!", "!"), ("!!", coreTag "")]

/-- Directives in front of a document: at most one version, whose major number is one, and no handle
twice. -/
def directives (versioned : Bool) (handles : List (String × String)) :
    Nat → Compose (List (String × String))
  | 0 => throw .malformed
  | fuel + 1 => do
    match ← current with
    | .yamlDirective major =>
      if versioned || major != 1 then throw .malformed
      advance
      directives true handles fuel
    | .tagDirective handle lead =>
      if (handles.lookup handle).isSome then throw .malformed
      advance
      directives versioned (handles ++ [(handle, lead)]) fuel
    | .otherDirective =>
      advance
      directives versioned handles fuel
    | _ => return handles

/-- The places after ends of documents. -/
def skipDocumentEnds : Nat → Compose Unit
  | 0 => return ()
  | fuel + 1 => do
    if ← skip .documentEnd then skipDocumentEnds fuel

/-- Whether the current token is a directive. -/
def atDirective : Compose Bool := do
  match ← current with
  | .yamlDirective _ => return true
  | .tagDirective _ _ => return true
  | .otherDirective => return true
  | _ => return false

/-- The end of the only document of a stream; what else may follow is looked at before it is refused. -/
def endOfStream (fuel : Nat) : Compose Unit := do
  skipDocumentEnds fuel
  if !(← at? [.streamEnd]) then
    discard (directives false [] fuel)
    throw .malformed

/-- The only document of a stream, `none` for an empty stream. -/
def document (fuel : Nat) : Compose (Option Node) := do
  let explicit ← atDirective
  let marked ← at? [.documentStart, .streamEnd]
  if !explicit && !marked then
    modify fun s => { s with handles := defaultHandles }
    let root ← node true false fuel
    endOfStream fuel
    return some root
  else
    skipDocumentEnds fuel
    if ← at? [.streamEnd] then return none
    let handles ← directives false [] fuel
    modify fun s => { s with handles := handles ++ defaultHandles }
    if !(← skip .documentStart) then throw .malformed
    let directiveNext ← atDirective
    let ended ← at? [.documentStart, .documentEnd, .streamEnd]
    let root ← if directiveNext || ended then pure Node.absent else node true false fuel
    endOfStream fuel
    return some root

/-- The document of a text. -/
def readNode (text : String) : Except SourceFault (Option Node) :=
  let stream := tokens text
  (document (stream.length + 2)).run' { tokens := stream }

end SchemaReconcile.Yaml
