/-!
# SQL statements

A statement is a list of pieces: fixed text, identifiers and literals.  Identifiers are written between
double quotes with each double quote twice, literals between single quotes with each single quote twice.
A literal with a backslash is written as an escape literal with each backslash twice, and a literal with
the character `U+0000` cannot be written.
-/

namespace SchemaReconcile.Sql

/-- A piece of a statement. -/
inductive Piece where
  | fixed (text : String)
  | identifier (name : String)
  | literal (text : String)
  deriving DecidableEq, Repr, Inhabited

/-- A statement, or a part of one. -/
abbrev Statement := List Piece

/-- A list of characters with each occurrence of one of them twice. -/
def doubled (c : Char) : List Char → List Char
  | [] => []
  | d :: rest => if d = c then d :: d :: doubled c rest else d :: doubled c rest

/-- An identifier between double quotes. -/
def quoteIdentifier (name : String) : String :=
  String.ofList ('"' :: doubled '"' name.toList ++ ['"'])

/-- A literal between single quotes; with a backslash, in the form for escapes. -/
def quoteLiteral (text : String) : String :=
  let quotes := doubled '\'' text.toList
  if text.toList.contains '\\' then
    String.ofList (' ' :: 'E' :: '\'' :: doubled '\\' quotes ++ ['\''])
  else String.ofList ('\'' :: quotes ++ ['\''])

/-- Whether a piece can be written. -/
def Piece.writable : Piece → Bool
  | literal text => !text.toList.contains (Char.ofNat 0)
  | _ => true

/-- The text of a piece. -/
def Piece.render : Piece → String
  | fixed text => text
  | identifier name => quoteIdentifier name
  | literal text => quoteLiteral text

/-- The text of a statement, none if a literal cannot be written. -/
def render? (s : Statement) : Option String :=
  if s.all Piece.writable then some (String.join (s.map Piece.render)) else none

/-- The wording of a literal that cannot be written. -/
def nulMessage : String := "PostgreSQL text fields cannot contain NUL (0x00) bytes"

/-- Parts with a separator between them. -/
def separatedBy (separator : String) : List Statement → Statement
  | [] => []
  | [s] => s
  | s :: rest => s ++ .fixed separator :: separatedBy separator rest

/-- Identifiers with a separator between them. -/
def identifiers (separator : String) (names : List String) : Statement :=
  separatedBy separator (names.map fun n => [.identifier n])

/-- Two names with a point between them. -/
def qualified (first second : String) : Statement :=
  [.identifier first, .fixed ".", .identifier second]

end SchemaReconcile.Sql
