import SchemaReconcile.Text.Integer
import SchemaReconcile.Yaml.Cursor

/-!
# Text of YAML scalars

Quoted, plain and block scalars at a cursor.  Line breaks inside a scalar fold into a space unless
blank lines follow, and a block scalar keeps or drops its final breaks by its indicator.
-/

namespace SchemaReconcile.Yaml

/-- Why a YAML text is refused before its values are built. -/
inductive SourceFault where
  /-- The text is not YAML. -/
  | malformed
  /-- An escape names a code point beyond Unicode. -/
  | codePoint (n : Nat)
  /-- A number of a version has too many digits. -/
  | integer (fault : Text.IntegerFault)
  deriving DecidableEq, Repr

/-- A result or the fault of the text. -/
abbrev Scanned (α : Type) := Except SourceFault α

/-- A line break inside a scalar with the blank lines after it: a line feed folds into a space, or into
nothing if blank lines follow. -/
def folded (lineBreak : List Char) (breaks : List Char) : List Char :=
  if lineBreak != ['\n'] then lineBreak ++ breaks
  else if breaks.isEmpty then [' '] else breaks

/-! ## Quoted scalars -/

/-- The character of a one-letter escape. -/
def simpleEscape? (c : Char) : Option Char :=
  [('0', 0x00), ('a', 0x07), ('b', 0x08), ('t', 0x09), ('\t', 0x09), ('n', 0x0A), ('v', 0x0B),
    ('f', 0x0C), ('r', 0x0D), ('e', 0x1B), (' ', 0x20), ('"', 0x22), ('\\', 0x5C), ('/', 0x2F),
    ('N', 0x85), ('_', 0xA0), ('L', 0x2028), ('P', 0x2029)].lookup c |>.map Char.ofNat

/-- The number of hexadecimal digits of an escape letter. -/
def escapeDigits? (c : Char) : Option Nat :=
  [('x', 2), ('u', 4), ('U', 8)].lookup c

/-- The blank lines at a place inside a quoted scalar; no document marker may start a line. -/
def quotedBreaks : Nat → Cursor → Scanned (List Char × Cursor)
  | 0, _ => .error .malformed
  | fuel + 1, c => do
    if c.atDocumentMark then throw .malformed
    let c := c.skip isSpaceOrTab
    if isBreak c.head then
      let (b, c) := c.lineBreak
      let (bs, c) ← quotedBreaks fuel c
      return (b ++ bs, c)
    else return ([], c)

/-- The escape after a backslash in a double-quoted scalar. -/
def quotedEscape (fuel : Nat) (c : Cursor) : Scanned (List Char × Cursor) :=
  match simpleEscape? c.head, escapeDigits? c.head with
  | some e, _ => if c.rest.isEmpty then .error .malformed else .ok ([e], c.next)
  | none, some count =>
    let digits := (c.next.rest.take count).filterMap Text.hexValue?
    if digits.length < count then .error .malformed
    else
      let code := digits.foldl (fun n d => 16 * n + d) 0
      if code ≥ 0x110000 then .error (.codePoint code)
      else
        let shown := if 0xD800 ≤ code && code < 0xE000 then 0xFFFD else code
        .ok ([Char.ofNat shown], c.forward (count + 1))
  | none, none =>
    if isBreak c.head then quotedBreaks fuel c.lineBreak.2 else .error .malformed

/-- The contents of a quoted scalar from a place on, up to its closing quote. -/
def quotedBody (double : Bool) : Nat → Cursor → Scanned (List Char × Cursor)
  | 0, _ => .error .malformed
  | fuel + 1, c => do
    let ch := c.head
    if c.rest.isEmpty then throw .malformed
    else if ch == '\'' && !double then
      if c.peek 1 == '\'' then
        let (cs, c) ← quotedBody double fuel (c.forward 2)
        return ('\'' :: cs, c)
      else return ([], c.next)
    else if ch == '"' && double then return ([], c.next)
    else if ch == '\\' && double then
      let (e, c) ← quotedEscape fuel c.next
      let (cs, c) ← quotedBody double fuel c
      return (e ++ cs, c)
    else if isSpaceOrTab ch || isBreak ch then
      let (blanks, c) := c.span isSpaceOrTab
      if isBreak c.head then
        let (b, c) := c.lineBreak
        let (bs, c) ← quotedBreaks fuel c
        let (cs, c) ← quotedBody double fuel c
        return (folded b bs ++ cs, c)
      else
        let (cs, c) ← quotedBody double fuel c
        return (blanks ++ cs, c)
    else
      let (cs, c) ← quotedBody double fuel c.next
      return (ch :: cs, c)

/-- The quoted scalar at a place. -/
def quotedScalar (c : Cursor) : Scanned (List Char × Cursor) :=
  quotedBody (c.head == '"') (c.rest.length + 1) c.next

/-! ## Plain scalars -/

/-- The number of characters of a plain scalar's next word. -/
def plainWord (flow : Bool) : List Char → Nat
  | [] => 0
  | ch :: rest =>
    let follower := rest.headD endMark
    if isBlankOrEnd ch then 0
    else if ch == ':' && (isBlankOrEnd follower ||
        (flow && [',', '[', ']', '\x7b', '\x7d'].contains follower)) then 0
    else if flow && [',', '?', '[', ']', '\x7b', '\x7d'].contains ch then 0
    else 1 + plainWord flow rest

/-- The blank lines and spaces at a place between the lines of a plain scalar; `none` at a document
marker. -/
def plainBreaks : Nat → Cursor → Option (List Char) × Cursor
  | 0, c => (none, c)
  | fuel + 1, c =>
    if c.head == ' ' then plainBreaks fuel c.next
    else if isBreak c.head then
      let (b, c) := c.lineBreak
      if c.atDocumentMark then (none, c)
      else
        let (bs, c) := plainBreaks fuel c
        (bs.map (b ++ ·), c)
    else (some [], c)

/-- What stands between two words of a plain scalar: its text, whether it held a line break, and the
place after it; an empty text ends the scalar. -/
def plainSpaces (c : Cursor) : List Char × Bool × Cursor :=
  let (blanks, c) := c.span (· == ' ')
  if isBreak c.head then
    let (b, c) := c.lineBreak
    if c.atDocumentMark then ([], true, c)
    else match plainBreaks (c.rest.length + 1) c with
      | (some bs, c) => (folded b bs, true, c)
      | (none, c) => ([], true, c)
  else (blanks, false, c)

/-- The words of a plain scalar from a place on, each with what stands before it; whether a key may
start at the end, and the place after it. -/
def plainBody (flow : Bool) (indent : Int) :
    Nat → List Char → Bool → Cursor → List Char × Bool × Cursor
  | 0, _, broken, c => ([], broken, c)
  | fuel + 1, before, broken, c =>
    if c.head == '#' then ([], broken, c)
    else
      let length := plainWord flow c.rest
      if length == 0 then ([], broken, c)
      else
        let word := before ++ c.rest.take length
        let (spaces, broken, c) := plainSpaces (c.forward length)
        if spaces.isEmpty || c.head == '#' || (!flow && Int.ofNat c.column < indent) then
          (word, broken, c)
        else
          let (more, broken, c) := plainBody flow indent fuel spaces broken c
          (word ++ more, broken, c)

/-- The plain scalar at a place in a block of an indentation; whether a key may start after it, and the
place after it. -/
def plainScalar (flow : Bool) (indent : Int) (c : Cursor) : List Char × Bool × Cursor :=
  plainBody flow (indent + 1) (c.rest.length + 1) [] false c

/-! ## Block scalars -/

/-- What happens to the final line breaks of a block scalar. -/
inductive Chomping where
  | strip
  | clip
  | keep
  deriving DecidableEq, Repr

/-- The chomping of an indicator. -/
def chomping? (c : Char) : Option Chomping :=
  if c == '+' then some .keep else if c == '-' then some .strip else none

/-- The indicators of a block scalar in either order. -/
def blockIndicators (c : Cursor) : Scanned (Chomping × Option Nat × Cursor) := do
  let digit (c : Cursor) : Scanned (Option Nat × Cursor) :=
    if c.head.isDigit then
      if c.head == '0' then .error .malformed
      else .ok (some (c.head.toNat - 48), c.next)
    else .ok (none, c)
  let (chomping, increment, c) ←
    match chomping? c.head with
    | some chomping => do
      let (n, c) ← digit c.next
      pure (chomping, n, c)
    | none => do
      let (n, c) ← digit c
      match n, chomping? c.head with
      | some n, some chomping => pure (chomping, some n, c.next)
      | n, _ => pure (.clip, n, c)
  if isSpaceOrEnd c.head then return (chomping, increment, c) else throw .malformed

/-- The leading blank lines of a block scalar, and the greatest column of their spaces. -/
def blockIndentation : Nat → Nat → Cursor → List Char × Nat × Cursor
  | 0, most, c => ([], most, c)
  | fuel + 1, most, c =>
    if c.head == ' ' then
      let c := c.next
      blockIndentation fuel (max most c.column) c
    else if isBreak c.head then
      let (b, c) := c.lineBreak
      let (bs, most, c) := blockIndentation fuel most c
      (b ++ bs, most, c)
    else ([], most, c)

/-- The place after at most the indentation of a block scalar. -/
def skipIndentation (indent : Nat) : Nat → Cursor → Cursor
  | 0, c => c
  | fuel + 1, c => if c.column < indent && c.head == ' ' then skipIndentation indent fuel c.next else c

/-- The blank lines of a block scalar at a place, each up to the indentation. -/
def blockBreaks (indent : Nat) : Nat → Cursor → List Char × Cursor
  | 0, c => ([], c)
  | fuel + 1, c =>
    let c := skipIndentation indent (indent + 1) c
    if isBreak c.head then
      let (b, c) := c.lineBreak
      let (bs, c) := blockBreaks indent fuel c
      (b ++ bs, c)
    else ([], c)

/-- The lines of a block scalar from a place on, given the blank lines before; the result ends in the
last line break and the blank lines after it. -/
def blockLines (fold : Bool) (indent : Nat) :
    Nat → List Char → Cursor → List Char × List Char × List Char × Cursor
  | 0, breaks, c => ([], [], breaks, c)
  | fuel + 1, breaks, c =>
    if c.column == indent && !c.rest.isEmpty then
      let textual := !isSpaceOrTab c.head
      let (line, c) := c.span fun ch => !isBreakOrEnd ch
      let (b, c) := c.lineBreak
      let (after, c) := blockBreaks indent (c.rest.length + 1) c
      if c.column == indent && !c.rest.isEmpty then
        let joint :=
          if fold && b == ['\n'] && textual && !isSpaceOrTab c.head then
            if after.isEmpty then [' '] else []
          else b
        let (more, last, final, c) := blockLines fold indent fuel after c
        (breaks ++ line ++ joint ++ more, last, final, c)
      else (breaks ++ line, b, after, c)
    else ([], [], breaks, c)

/-- The block scalar at a place in a block of an indentation. -/
def blockScalar (indent : Int) (c : Cursor) : Scanned (List Char × Cursor) := do
  let fold := c.head == '>'
  let (chomping, increment, c) ← blockIndicators c.next
  let c := c.skipComment
  if !isBreakOrEnd c.head then throw .malformed
  let c := c.lineBreak.2
  let least := (max (indent + 1) 1).toNat
  let fuel := c.rest.length + 1
  let (breaks, column, c) := match increment with
    | some n =>
      let column := least + n - 1
      let (breaks, c) := blockBreaks column fuel c
      (breaks, column, c)
    | none =>
      let (breaks, most, c) := blockIndentation fuel 0 c
      (breaks, max least most, c)
  let (lines, last, final, c) := blockLines fold column fuel breaks c
  let tail := match chomping with
    | .strip => []
    | .clip => last
    | .keep => last ++ final
  return (lines ++ tail, c)

end SchemaReconcile.Yaml
