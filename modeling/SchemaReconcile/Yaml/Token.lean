import SchemaReconcile.Text.Utf8
import SchemaReconcile.Yaml.Scalar

/-!
# Tokens of a YAML text

Tokens mark the starts and ends of collections, keys, values, entries, anchors, tags and scalars.  Block
collections follow the indentation, and a key without a mark of its own is recognised by the colon that
follows it on the same line.  The list ends in `streamEnd`, or in `fault` where the text is refused.
-/

namespace SchemaReconcile.Yaml

/-- A token. -/
inductive Token where
  | yamlDirective (major : Nat)
  | tagDirective (handle lead : String)
  | otherDirective
  | documentStart
  | documentEnd
  | blockSequenceStart
  | blockMappingStart
  | blockEnd
  | flowSequenceStart
  | flowSequenceEnd
  | flowMappingStart
  | flowMappingEnd
  | flowEntry
  | blockEntry
  | key
  | value
  | alias (name : String)
  | anchor (name : String)
  | tag (handle : Option String) (suffix : String)
  | scalar (plain : Bool) (text : String)
  | streamEnd
  | fault (reason : SourceFault)
  deriving DecidableEq, Repr, Inhabited

/-- A place where a key without a mark may have started. -/
structure PossibleKey where
  /-- The number of tokens before the key. -/
  tokenNumber : Nat
  /-- Whether the block ends without a colon here. -/
  required : Bool
  index : Nat
  line : Nat
  column : Nat
  deriving DecidableEq, Repr, Inhabited

/-- The state between two tokens. -/
structure Scan where
  cursor : Cursor
  /-- The number of open flow collections. -/
  flow : Nat := 0
  /-- The column of the current block, `-1` outside every block. -/
  indent : Int := -1
  /-- The columns of the enclosing blocks, innermost first. -/
  indents : List Int := []
  /-- Whether a key may start at the current place. -/
  allowKey : Bool := true
  /-- The possible key of each flow level. -/
  keys : List (Nat × PossibleKey) := []
  /-- The tokens so far. -/
  tokens : Array Token := #[]
  deriving Repr, Inhabited

/-- A step over the state. -/
abbrev Scanning := StateT Scan (Except SourceFault)

namespace Scanning

/-- Adds a token at the end. -/
def emit (t : Token) : Scanning Unit :=
  modify fun s => { s with tokens := s.tokens.push t }

/-- Adds a token before others. -/
def insertAt (n : Nat) (t : Token) : Scanning Unit :=
  modify fun s => { s with
    tokens := (s.tokens.extract 0 n).push t ++ s.tokens.extract n s.tokens.size }

/-- Moves to a place. -/
def moveTo (c : Cursor) : Scanning Unit :=
  modify fun s => { s with cursor := c }

/-- Goes on by characters. -/
def forward (n : Nat) : Scanning Unit :=
  modify fun s => { s with cursor := s.cursor.forward n }

/-- Sets whether a key may start. -/
def allow (b : Bool) : Scanning Unit :=
  modify fun s => { s with allowKey := b }

/-- The possible key of the current level. -/
def currentKey? : Scanning (Option PossibleKey) := do
  let s ← get
  return s.keys.lookup s.flow

/-- Forgets the possible key of the current level. -/
def forgetKey : Scanning Unit :=
  modify fun s => { s with keys := s.keys.filter fun (level, _) => level != s.flow }

/-- Gives up the possible key of the current level, which must not be a required one. -/
def dropKey : Scanning Unit := do
  match ← currentKey? with
  | some k => if k.required then throw .malformed else forgetKey
  | none => return ()

/-- Gives up the possible keys that are too far away. -/
def dropStaleKeys : Scanning Unit := do
  let s ← get
  let stale (k : PossibleKey) : Bool := k.line != s.cursor.line || s.cursor.index - k.index > 1024
  if s.keys.any fun (_, k) => stale k && k.required then throw .malformed
  set { s with keys := s.keys.filter fun (_, k) => !stale k }

/-- Notes that a key may start at the current place. -/
def noteKey : Scanning Unit := do
  let s ← get
  if s.allowKey then
    dropKey
    let required := s.flow == 0 && s.indent == Int.ofNat s.cursor.column
    let key : PossibleKey :=
      ⟨s.tokens.size, required, s.cursor.index, s.cursor.line, s.cursor.column⟩
    modify fun s => { s with keys := (s.flow, key) :: s.keys.filter fun (level, _) => level != s.flow }

/-- Closes the blocks that are indented more than a column. -/
def unwind (column : Int) : Scanning Unit := do
  let s ← get
  if s.flow == 0 then
    let open_ := (s.indent :: s.indents).takeWhile (column < ·)
    let left := (s.indent :: s.indents).dropWhile (column < ·)
    set { s with
      indent := left.headD (-1)
      indents := left.drop 1
      tokens := s.tokens ++ (open_.map fun _ => Token.blockEnd).toArray }

/-- Opens a block at a column if the current block is indented less. -/
def openBlock (column : Nat) : Scanning Bool := do
  let s ← get
  if s.indent < Int.ofNat column then
    set { s with indent := Int.ofNat column, indents := s.indent :: s.indents }
    return true
  else return false

/-- The place of the next token, after spaces, comments and line breaks. -/
def skipBlanks (flow : Bool) : Nat → Cursor → Bool → Cursor × Bool
  | 0, c, broken => (c, broken)
  | fuel + 1, c, broken =>
    let c := c.skipComment
    if isBreak c.head then skipBlanks flow fuel c.lineBreak.2 (broken || !flow) else (c, broken)

/-- Goes to the next token; outside flow collections a key may start on a new line. -/
def toNextToken : Scanning Unit := do
  let s ← get
  let c := if s.cursor.index == 0 && s.cursor.head.toNat == 0xFEFF then s.cursor.next else s.cursor
  let (c, broken) := skipBlanks (s.flow != 0) (c.rest.length + 1) c false
  set { s with cursor := c, allowKey := s.allowKey || broken }

end Scanning

open Scanning

/-! ## Directives, anchors and tags -/

/-- A number of a version directive. -/
def versionNumber (c : Cursor) : Scanned (Nat × Cursor) :=
  let (digits, c) := c.span Char.isDigit
  if digits.isEmpty then .error .malformed
  else if digits.length > Text.maxDigits then .error (.integer (.longText digits.length))
  else .ok (digits.foldl (fun n d => 10 * n + (d.toNat - 48)) 0, c)

/-- The handle of a tag: an exclamation mark, or a word between two. -/
def tagHandle (c : Cursor) : Scanned (String × Cursor) :=
  if c.head != '!' then .error .malformed
  else if c.peek 1 == ' ' then .ok ("!", c.next)
  else
    let (word, after) := c.next.span isWordChar
    if after.head == '!' then .ok (String.ofList ('!' :: word ++ ['!']), after.next)
    else .error .malformed

/-- Whether a character may stand in the rest of a tag. -/
def isUriChar (c : Char) : Bool :=
  c.isAlphanum || "-;/?:@&=+$,_.!~*'()[]".toList.contains c

/-- Percent escapes at a place, as bytes. -/
def uriEscapes : Nat → Cursor → Scanned (List UInt8 × Cursor)
  | 0, c => .ok ([], c)
  | fuel + 1, c =>
    if c.head == '%' then
      match Text.hexValue? (c.peek 1), Text.hexValue? (c.peek 2) with
      | some a, some b => do
        let (bytes, c) ← uriEscapes fuel (c.forward 3)
        return (UInt8.ofNat (16 * a + b) :: bytes, c)
      | _, _ => .error .malformed
    else .ok ([], c)

/-- The characters of a tag from a place on. -/
def uriChars : Nat → Cursor → Scanned (List Char × Cursor)
  | 0, c => .ok ([], c)
  | fuel + 1, c =>
    if c.head == '%' then do
      let (bytes, c) ← uriEscapes (c.rest.length + 1) c
      match Text.decodeUtf8? bytes with
      | none => throw .malformed
      | some cs =>
        let (more, c) ← uriChars fuel c
        return (cs ++ more, c)
    else if isUriChar c.head then do
      let (cs, c) := c.span isUriChar
      let (more, c) ← uriChars fuel c
      return (cs ++ more, c)
    else .ok ([], c)

/-- The rest of a tag, at least one character. -/
def tagUri (c : Cursor) : Scanned (String × Cursor) := do
  let (cs, c) ← uriChars (c.rest.length + 1) c
  if cs.isEmpty then throw .malformed
  return (String.ofList cs, c)

/-- The directive at a place. -/
def directive (c : Cursor) : Scanned (Token × Cursor) := do
  let (word, c) := c.next.span isWordChar
  if word.isEmpty || !isSpaceOrEnd c.head then throw .malformed
  let (token, c) ←
    match String.ofList word with
    | "YAML" => do
      let (major, c) ← versionNumber (c.skip (· == ' '))
      if c.head != '.' then throw .malformed
      let (_, c) ← versionNumber c.next
      if !isSpaceOrEnd c.head then throw .malformed
      pure (Token.yamlDirective major, c)
    | "TAG" => do
      let (handle, c) ← tagHandle (c.skip (· == ' '))
      if c.head != ' ' then throw .malformed
      let (lead, c) ← tagUri (c.skip (· == ' '))
      if !isSpaceOrEnd c.head then throw .malformed
      pure (Token.tagDirective handle lead, c)
    | _ => pure (Token.otherDirective, c.skip fun ch => !isBreakOrEnd ch)
  let c := c.skipComment
  if !isBreakOrEnd c.head then throw .malformed
  return (token, c.lineBreak.2)

/-- The name of an anchor or alias after its mark. -/
def anchorName (c : Cursor) : Scanned (String × Cursor) :=
  let (word, c) := c.next.span isWordChar
  let follower := c.head
  if word.isEmpty || !(isBlankOrEnd follower || "?:,]\x7d%@`".toList.contains follower) then
    .error .malformed
  else .ok (String.ofList word, c)

/-- Whether the text of a short tag holds a second exclamation mark. -/
def hasHandle (c : Cursor) : Bool :=
  ((c.rest.drop 1).takeWhile fun ch => !isSpaceOrEnd ch).contains '!'

/-- The tag at a place. -/
def tag (c : Cursor) : Scanned (Token × Cursor) := do
  let (token, c) ←
    if c.peek 1 == '<' then do
      let (suffix, c) ← tagUri (c.forward 2)
      if c.head != '>' then throw .malformed
      pure (Token.tag none suffix, c.next)
    else if isBlankOrEnd (c.peek 1) then pure (Token.tag none "!", c.next)
    else if hasHandle c then do
      let (handle, c) ← tagHandle c
      let (suffix, c) ← tagUri c
      pure (Token.tag (some handle) suffix, c)
    else do
      let (suffix, c) ← tagUri c.next
      pure (Token.tag (some "!") suffix, c)
  if isSpaceOrEnd c.head then return (token, c) else throw .malformed

/-! ## Tokens -/

/-- A document marker. -/
def documentMark (t : Token) : Scanning Unit := do
  unwind (-1)
  dropKey
  allow false
  forward 3
  emit t

/-- The start of a flow collection. -/
def flowStart (t : Token) : Scanning Unit := do
  noteKey
  modify fun s => { s with flow := s.flow + 1 }
  allow true
  forward 1
  emit t

/-- The end of a flow collection. -/
def flowEnd (t : Token) : Scanning Unit := do
  dropKey
  modify fun s => { s with flow := s.flow - 1 }
  allow false
  forward 1
  emit t

/-- Opens a block of a kind at the current place, where a key must be allowed. -/
def startBlock (t : Token) : Scanning Unit := do
  let s ← get
  if s.flow == 0 then
    if !s.allowKey then throw .malformed
    if ← openBlock s.cursor.column then emit t

/-- The mark of an entry of a block sequence. -/
def entryMark : Scanning Unit := do
  startBlock .blockSequenceStart
  allow true
  dropKey
  forward 1
  emit .blockEntry

/-- The mark of a key. -/
def keyMark : Scanning Unit := do
  startBlock .blockMappingStart
  allow ((← get).flow == 0)
  dropKey
  forward 1
  emit .key

/-- The mark of a value: the possible key before it becomes one. -/
def valueMark : Scanning Unit := do
  match ← currentKey? with
  | some k =>
    forgetKey
    insertAt k.tokenNumber .key
    if (← get).flow == 0 then
      if ← openBlock k.column then insertAt k.tokenNumber .blockMappingStart
    allow false
  | none =>
    startBlock .blockMappingStart
    allow ((← get).flow == 0)
    dropKey
  forward 1
  emit .value

/-- A scalar, alias, anchor or tag that may start a key. -/
def keyPart (read : Scan → Scanned (Token × Bool × Cursor)) : Scanning Unit := do
  noteKey
  allow false
  let (t, broken, c) ← read (← get)
  moveTo c
  if broken then allow true
  emit t

/-- Whether a plain scalar may start at a place. -/
def startsPlain (flow : Bool) (c : Cursor) : Bool :=
  let ch := c.head
  !(isBlankOrEnd ch || "-?:,[]\x7b\x7d#&*!|>'\"%@`".toList.contains ch) ||
    (!isBlankOrEnd (c.peek 1) && (ch == '-' || (!flow && (ch == '?' || ch == ':'))))

/-- The next token, if there is one; `false` at the end of the text. -/
def fetch : Scanning Bool := do
  toNextToken
  dropStaleKeys
  unwind (Int.ofNat (← get).cursor.column)
  let s ← get
  let c := s.cursor
  let ch := c.head
  let flow := s.flow != 0
  let spaced := isBlankOrEnd (c.peek 1)
  if c.rest.isEmpty then
    unwind (-1)
    dropKey
    emit .streamEnd
    return false
  if ch == '%' && c.column == 0 then
    unwind (-1)
    dropKey
    allow false
    let (t, c) ← directive c
    moveTo c
    emit t
  else if c.column == 0 && c.atDocumentMark then
    documentMark (if ch == '-' then .documentStart else .documentEnd)
  else if ch == '[' then flowStart .flowSequenceStart
  else if ch == '\x7b' then flowStart .flowMappingStart
  else if ch == ']' then flowEnd .flowSequenceEnd
  else if ch == '\x7d' then flowEnd .flowMappingEnd
  else if ch == ',' then
    allow true
    dropKey
    forward 1
    emit .flowEntry
  else if ch == '-' && spaced then entryMark
  else if ch == '?' && (flow || spaced) then keyMark
  else if ch == ':' && (flow || spaced) then valueMark
  else if ch == '*' then
    keyPart fun s => (anchorName s.cursor).map fun (name, c) => (.alias name, false, c)
  else if ch == '&' then
    keyPart fun s => (anchorName s.cursor).map fun (name, c) => (.anchor name, false, c)
  else if ch == '!' then
    keyPart fun s => (tag s.cursor).map fun (t, c) => (t, false, c)
  else if (ch == '|' || ch == '>') && !flow then
    allow true
    dropKey
    let (text, c) ← blockScalar s.indent c
    moveTo c
    emit (.scalar false (String.ofList text))
  else if ch == '\'' || ch == '"' then
    keyPart fun s => (quotedScalar s.cursor).map fun (text, c) =>
      (.scalar false (String.ofList text), false, c)
  else if startsPlain flow c then
    keyPart fun s =>
      let (text, broken, c) := plainScalar (s.flow != 0) s.indent s.cursor
      .ok (.scalar true (String.ofList text), broken, c)
  else throw .malformed
  return true

/-- The tokens that are given out before a fault.  A token where a key may start is held back until it is known
whether one does, and so are those behind it. -/
def givenOut (s : Scan) : Array Token :=
  let open_ := s.keys.filter fun (_, k) => k.line == s.cursor.line && s.cursor.index - k.index ≤ 1024
  match (open_.map fun (_, k) => k.tokenNumber).min? with
  | some n => s.tokens.extract 0 n
  | none => s.tokens

/-- The tokens from a state on. -/
def fetchAll : Nat → Scan → Array Token
  | 0, s => s.tokens.push (.fault .malformed)
  | fuel + 1, s =>
    match fetch.run s with
    | .error reason => (givenOut s).push (.fault reason)
    | .ok (true, s) => fetchAll fuel s
    | .ok (false, s) => s.tokens

/-- The tokens of a text, none if it holds a character that no YAML text may hold. -/
def tokens (text : String) : List Token :=
  let chars := text.toList
  if chars.all isAllowed then
    (fetchAll (2 * chars.length + 2) { cursor := { rest := chars } }).toList
  else [.fault .malformed]

end SchemaReconcile.Yaml
