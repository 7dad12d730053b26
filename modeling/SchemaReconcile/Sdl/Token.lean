import SchemaReconcile.Text.Hex

/-!
# Tokens of the schema language

A schema text is a list of tokens: punctuators, names, numbers and strings.  Blanks, commas, line ends
and comments separate tokens.  Every token carries the offset of its first character.  A text with a
character that starts no token yields the tokens before it and an `invalid` token at the place of the
fault, and every other text ends in an `end` token.
-/

namespace SchemaReconcile.Sdl

/-- The kinds of tokens. -/
inductive TokenKind where
  | punctuator (c : Char)
  | spread
  | name
  | int
  | float
  | string
  | finish
  | invalid
  deriving DecidableEq, Repr, Inhabited

/-- A token: its kind, its text (the contents of a string) and the offset of its first character. -/
structure Token where
  kind : TokenKind
  text : String
  start : Nat
  deriving DecidableEq, Repr, Inhabited

/-- Whether a name may start with a character. -/
def isNameStart (c : Char) : Bool := c.isAlpha || c == '_'

/-- Whether a name may go on with a character. -/
def isNameContinue (c : Char) : Bool := c.isAlphanum || c == '_'

/-- Whether a character is a token by itself. -/
def isPunctuator (c : Char) : Bool :=
  ['!', '$', '&', '(', ')', ':', '=', '?', '@', '[', ']', '\x7b', '|', '\x7d'].contains c

/-- Whether a character only separates tokens. -/
def isIgnored (c : Char) : Bool :=
  [' ', '\t', ',', '\n', '\r', Char.ofNat 0xFEFF].contains c

/-- What reading one token yields: the token's kind and text with the number of characters read, or the
number of characters after which the text is at fault. -/
inductive Lexeme where
  | token (kind : TokenKind) (text : List Char) (length : Nat)
  | fault (length : Nat)
  deriving DecidableEq, Repr

/-! ## Numbers -/

/-- The digits at the head of a text, `none` if there are none. -/
def digits? (cs : List Char) : Option (List Char × List Char) :=
  match cs.takeWhile Char.isDigit with
  | [] => none
  | ds => some (ds, cs.dropWhile Char.isDigit)

/-- The exponent at the head of a text: its characters and what follows; `.error` carries the number of
characters before the fault. -/
def exponentPart (cs : List Char) : Except Nat (List Char × List Char) :=
  match cs with
  | c :: rest =>
    if c == 'e' || c == 'E' then
      let (sign, rest) := match rest with
        | s :: more => if s == '+' || s == '-' then ([s], more) else ([], rest)
        | [] => ([], [])
      match digits? rest with
      | some (ds, rest) => .ok (c :: sign ++ ds, rest)
      | none => .error (1 + sign.length)
    else .ok ([], cs)
  | [] => .ok ([], [])

/-- The fraction at the head of a text. -/
def fractionPart (cs : List Char) : Except Nat (List Char × List Char) :=
  match cs with
  | '.' :: rest =>
    match digits? rest with
    | some (ds, rest) => .ok ('.' :: ds, rest)
    | none => .error 1
  | _ => .ok ([], cs)

/-- The integer part at the head of a text: a zero, or digits that do not start with zero. -/
def wholePart (cs : List Char) : Except Nat (List Char × List Char) :=
  match cs with
  | '0' :: c :: rest => if c.isDigit then .error 1 else .ok (['0'], c :: rest)
  | _ =>
    match digits? cs with
    | some (ds, rest) => .ok (ds, rest)
    | none => .error 0

/-- The number at the head of a text.  No name and no point may follow a number. -/
def number (cs : List Char) : Lexeme :=
  let (sign, body) := match cs with
    | '-' :: rest => (['-'], rest)
    | _ => ([], cs)
  match wholePart body with
  | .error n => .fault (sign.length + n)
  | .ok (whole, rest) =>
    let before := sign.length + whole.length
    match fractionPart rest with
    | .error n => .fault (before + n)
    | .ok (fraction, rest) =>
      let before := before + fraction.length
      match exponentPart rest with
      | .error n => .fault (before + n)
      | .ok (exponent, rest) =>
        let length := before + exponent.length
        let kind := if fraction.isEmpty && exponent.isEmpty then TokenKind.int else TokenKind.float
        match rest with
        | c :: _ =>
          if c == '.' || isNameStart c then .fault length
          else .token kind (sign ++ whole ++ fraction ++ exponent) length
        | [] => .token kind (sign ++ whole ++ fraction ++ exponent) length

/-! ## Strings -/

/-- The code point of four hexadecimal digits at the head of a text. -/
def fourDigits? (cs : List Char) : Option Nat :=
  match cs with
  | a :: b :: c :: d :: _ => do
    let a ← Text.hexValue? a
    let b ← Text.hexValue? b
    let c ← Text.hexValue? c
    let d ← Text.hexValue? d
    return ((a * 16 + b) * 16 + c) * 16 + d
  | _ => none

/-- Whether a code point is a character: surrogates and numbers above `U+10FFFF` are not. -/
def isScalar (n : Nat) : Bool := n < 0xD800 || (0xE000 ≤ n && n ≤ 0x10FFFF)

/-- The character of the braced hexadecimal digits after a backslash, the letter `u` and an opening
brace, with the number of characters up to the closing brace.  At most eight digits may stand there. -/
def bracedEscape? (value count : Nat) : List Char → Option (Char × Nat)
  | [] => none
  | c :: rest =>
    if count > 8 then none
    else if c == '\x7d' then
      if count > 0 && isScalar value then some (Char.ofNat value, count + 1) else none
    else match Text.hexValue? c with
      | some d => bracedEscape? (value * 16 + d) (count + 1) rest
      | none => none

/-- The character of an escape and its number of characters, given the text after the backslash. -/
def escape? (cs : List Char) : Option (Char × Nat) :=
  match cs with
  | 'u' :: '\x7b' :: rest => (bracedEscape? 0 0 rest).map fun (c, n) => (c, n + 3)
  | 'u' :: rest =>
    match fourDigits? rest with
    | none => none
    | some code =>
      if isScalar code then some (Char.ofNat code, 6)
      else if code < 0xDC00 && (rest.drop 4).take 2 == ['\\', 'u'] then
        match fourDigits? (rest.drop 6) with
        | some trail =>
          if 0xDC00 ≤ trail && trail ≤ 0xDFFF then
            some (Char.ofNat (0x10000 + (code - 0xD800) * 0x400 + (trail - 0xDC00)), 12)
          else none
        | none => none
      else none
  | '"' :: _ => some ('"', 2)
  | '\\' :: _ => some ('\\', 2)
  | '/' :: _ => some ('/', 2)
  | 'b' :: _ => some ('\x08', 2)
  | 'f' :: _ => some ('\x0c', 2)
  | 'n' :: _ => some ('\n', 2)
  | 'r' :: _ => some ('\r', 2)
  | 't' :: _ => some ('\t', 2)
  | _ => none

/-- The rest of a string after its opening quote; `skip` characters belong to an escape already read,
and `length` counts the characters before this place. -/
def stringBody (skip length : Nat) (done : List Char) : List Char → Lexeme
  | [] => .fault length
  | c :: rest =>
    if skip > 0 then stringBody (skip - 1) (length + 1) done rest
    else if c == '"' then .token .string done.reverse (length + 1)
    else if c == '\n' || c == '\r' then .fault length
    else if c == '\\' then
      match escape? rest with
      | some (e, n) => stringBody (n - 1) (length + 1) (e :: done) rest
      | none => .fault length
    else stringBody 0 (length + 1) (c :: done) rest

/-- The number of spaces and tabs at the head of a line. -/
def indentation (line : List Char) : Nat :=
  (line.takeWhile fun c => c == ' ' || c == '\t').length

/-- Whether a line holds spaces and tabs only. -/
def isBlankLine (line : List Char) : Bool := indentation line == line.length

/-- The lines of a block string without the common indentation of all lines but the first, and without
blank lines at both ends. -/
def dedentBlock (lines : List (List Char)) : List (List Char) :=
  let indents := ((lines.drop 1).filter fun l => !isBlankLine l).map indentation
  let common := indents.foldl (fun least n => some (match least with | none => n | some m => min m n))
    (none : Option Nat)
  let cut (line : List Char) : List Char := match common with
    | some n => line.drop n
    | none => []
  let marked := match lines with
    | [] => []
    | first :: rest => (first, isBlankLine first) :: rest.map fun l => (cut l, isBlankLine l)
  let trimmed := (marked.dropWhile (·.2)).reverse.dropWhile (·.2)
  trimmed.reverse.map (·.1)

/-- The rest of a block string after its opening quotes, given the finished lines and the current line,
both reversed; `skip` characters have already been read. -/
def blockBody (skip length : Nat) (lines : List (List Char)) (line : List Char) :
    List Char → Lexeme
  | [] => .fault length
  | c :: rest =>
    if skip > 0 then blockBody (skip - 1) (length + 1) lines line rest
    else if c == '"' && rest.take 2 == ['"', '"'] then
      let text := ['\n'].intercalate (dedentBlock (line.reverse :: lines).reverse)
      .token .string text (length + 3)
    else if c == '\\' && rest.take 3 == ['"', '"', '"'] then
      blockBody 3 (length + 1) lines ('"' :: '"' :: '"' :: line) rest
    else if c == '\n' then blockBody 0 (length + 1) (line.reverse :: lines) [] rest
    else if c == '\r' then
      blockBody (if rest.head? == some '\n' then 1 else 0) (length + 1) (line.reverse :: lines) [] rest
    else blockBody 0 (length + 1) lines (c :: line) rest

/-! ## The token list -/

/-- The token at the head of a text that starts with neither a separator nor a comment. -/
def lexeme (c : Char) (rest : List Char) : Lexeme :=
  if isPunctuator c then .token (.punctuator c) [c] 1
  else if c.isDigit || c == '-' then number (c :: rest)
  else if isNameStart c then
    let tail := rest.takeWhile isNameContinue
    .token .name (c :: tail) (1 + tail.length)
  else if c == '.' && rest.take 2 == ['.', '.'] then .token .spread ['.', '.', '.'] 3
  else if c == '"' then
    if rest.take 2 == ['"', '"'] then blockBody 2 1 [] [] rest else stringBody 0 1 [] rest
  else .fault 0

/-- The tokens of a text from an offset on; `skip` characters belong to the token before, and
`comment` tells whether the place is inside a comment. -/
def tokensFrom (skip offset : Nat) (comment : Bool) : List Char → List Token
  | [] => [⟨.finish, "", offset⟩]
  | c :: rest =>
    if skip > 0 then tokensFrom (skip - 1) (offset + 1) false rest
    else if comment then tokensFrom 0 (offset + 1) (c != '\n' && c != '\r') rest
    else if isIgnored c then tokensFrom 0 (offset + 1) false rest
    else if c == '#' then tokensFrom 0 (offset + 1) true rest
    else match lexeme c rest with
      | .token kind text length =>
        ⟨kind, String.ofList text, offset⟩ :: tokensFrom (length - 1) (offset + 1) false rest
      | .fault length => [⟨.invalid, "", offset + length⟩]

/-- The tokens of a text. -/
def tokens (text : String) : List Token :=
  tokensFrom 0 0 false text.toList

/-- A place in a text: line and column, both from one. -/
structure Position where
  line : Nat
  column : Nat
  deriving DecidableEq, Repr, Inhabited

/-- The place of an offset; a line ends in a line feed, a carriage return, or both together. -/
def positionFrom (line column : Nat) : List Char → Nat → Position
  | [], n => ⟨line, column + n⟩
  | _, 0 => ⟨line, column⟩
  | '\r' :: '\n' :: rest, n + 1 =>
    match n with
    | 0 => ⟨line + 1, 0⟩
    | m + 1 => positionFrom (line + 1) 1 rest m
  | c :: rest, n + 1 =>
    if c == '\n' || c == '\r' then positionFrom (line + 1) 1 rest n
    else positionFrom line (column + 1) rest n

/-- The place of an offset in a text. -/
def position (text : String) (offset : Nat) : Position :=
  positionFrom 1 1 text.toList offset

end SchemaReconcile.Sdl
