import SchemaReconcile.Text.Hex

/-!
# Places in a YAML text

A cursor is what is left of a text with the offset, line and column of its first character.  The end of
the text reads as the character `U+0000`, which no text may hold.
-/

namespace SchemaReconcile.Yaml

/-- The character that stands for the end of a text. -/
def endMark : Char := Char.ofNat 0

/-- Whether a character breaks a line. -/
def isBreak (c : Char) : Bool :=
  c == '\n' || c == '\r' || c.toNat == 0x85 || c.toNat == 0x2028 || c.toNat == 0x2029

/-- Whether a character breaks a line or is the end of the text. -/
def isBreakOrEnd (c : Char) : Bool := c == endMark || isBreak c

/-- Whether a character is a space, a line break or the end of the text. -/
def isSpaceOrEnd (c : Char) : Bool := c == ' ' || isBreakOrEnd c

/-- Whether a character is a space, a tab, a line break or the end of the text. -/
def isBlankOrEnd (c : Char) : Bool := c == '\t' || isSpaceOrEnd c

/-- Whether a character is a space or a tab. -/
def isSpaceOrTab (c : Char) : Bool := c == ' ' || c == '\t'

/-- Whether a character may stand in the name of an anchor, directive or tag handle. -/
def isWordChar (c : Char) : Bool := c.isAlphanum || c == '-' || c == '_'

/-- Whether a character may stand in a YAML text at all. -/
def isAllowed (c : Char) : Bool :=
  let n := c.toNat
  n == 9 || n == 10 || n == 13 || (32 ≤ n && n ≤ 126) || n == 0x85 || (0xA0 ≤ n && n ≤ 0xD7FF) ||
    (0xE000 ≤ n && n ≤ 0xFFFD) || 0x10000 ≤ n

/-- A place in a text. -/
structure Cursor where
  rest : List Char
  index : Nat := 0
  line : Nat := 0
  column : Nat := 0
  deriving DecidableEq, Repr, Inhabited

namespace Cursor

/-- The character `n` places on. -/
def peek (c : Cursor) (n : Nat) : Char := (c.rest[n]?).getD endMark

/-- The current character. -/
def head (c : Cursor) : Char := c.rest.headD endMark

/-- The place after the current character; a carriage return with a line feed is one line break. -/
def next (c : Cursor) : Cursor :=
  match c.rest with
  | [] => c
  | ch :: rest =>
    if ch == '\r' then
      if rest.head? == some '\n' then ⟨rest, c.index + 1, c.line, c.column + 1⟩
      else ⟨rest, c.index + 1, c.line + 1, 0⟩
    else if isBreak ch then ⟨rest, c.index + 1, c.line + 1, 0⟩
    else if ch.toNat == 0xFEFF then ⟨rest, c.index + 1, c.line, c.column⟩
    else ⟨rest, c.index + 1, c.line, c.column + 1⟩

/-- The place `n` characters on. -/
def forward : Cursor → Nat → Cursor
  | c, 0 => c
  | c, n + 1 => c.next.forward n

/-- The characters of a class at the current place, and the place after them. -/
def span (p : Char → Bool) (c : Cursor) : List Char × Cursor :=
  let taken := c.rest.takeWhile p
  (taken, c.forward taken.length)

/-- The place after the characters of a class. -/
def skip (p : Char → Bool) (c : Cursor) : Cursor := (c.span p).2

/-- The text of the line break at the current place, nothing if there is none, and the place after it.
All breaks but the two Unicode separators are a line feed. -/
def lineBreak (c : Cursor) : List Char × Cursor :=
  let ch := c.head
  if ch == '\r' && c.peek 1 == '\n' then (['\n'], c.forward 2)
  else if ch == '\r' || ch == '\n' || ch.toNat == 0x85 then (['\n'], c.next)
  else if isBreak ch then ([ch], c.next)
  else ([], c)

/-- Whether a document marker stands at the current place. -/
def atDocumentMark (c : Cursor) : Bool :=
  let three := c.rest.take 3
  (three == ['-', '-', '-'] || three == ['.', '.', '.']) && isBlankOrEnd (c.peek 3)

/-- The place after spaces and a comment. -/
def skipComment (c : Cursor) : Cursor :=
  let c := c.skip (· == ' ')
  if c.head == '#' then c.skip (fun ch => !isBreakOrEnd ch) else c

end Cursor

end SchemaReconcile.Yaml
