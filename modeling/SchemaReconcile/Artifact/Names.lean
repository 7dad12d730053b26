import SchemaReconcile.Text.Alphanumeric
import SchemaReconcile.Text.CaseMapping
import SchemaReconcile.Text.Identifier

/-!
# Names in generated sources

Class names start with an upper-case letter, attributes and members that are keywords get an underscore,
and the values of an enumeration become pairwise different member names.
-/

namespace SchemaReconcile.Artifact

/-- The keywords of the generated sources. -/
def keywords : List String :=
  ["False", "None", "True", "and", "as", "assert", "async", "await", "break", "class", "continue", "def",
    "del", "elif", "else", "except", "finally", "for", "from", "global", "if", "import", "in", "is",
    "lambda", "nonlocal", "not", "or", "pass", "raise", "return", "try", "while", "with", "yield"]

/-- A name that is no keyword: a keyword gets an underscore. -/
def unreserved (name : String) : String := if keywords.contains name then name ++ "_" else name

/-- A name whose first letter is in upper case. -/
def className (name : String) : String :=
  match name.toList with
  | [] => ""
  | c :: rest => String.ofList (Text.upperChar c ++ rest)

/-! ## Members of enumerations -/

/-- A value with an underscore for every character that is not a letter, a digit or an underscore; a value
that is an identifier stays. -/
def sanitized (value : String) : String :=
  if Text.isIdentifier value.toList then value
  else String.ofList (value.toList.map fun c => if Text.isLetterOrDigit c || c == '_' then c else '_')

/-- A name that is neither empty nor starts with a digit. -/
def undigited (name : String) : String :=
  match name.toList with
  | [] => "_"
  | c :: _ => if Text.isDigitLike c then "_" ++ name else name

/-- The member name that a value gets if it is free. -/
def memberBase (value : String) : String := unreserved (undigited (sanitized value))

/-- A name with a number. -/
def numbered (base : String) (n : Nat) : String := base ++ "_" ++ toString n

/-- The first free name among a name with the numbers from one on; a number of tries that exceeds the
number of taken names always finds one. -/
def freeNumbered (taken : List String) (base : String) : Nat → Nat → String
  | 0, n => numbered base n
  | tries + 1, n =>
    if taken.contains (numbered base n) then freeNumbered taken base tries (n + 1)
    else numbered base n

/-- A name that is not taken: the name itself, or the name with the smallest free number from two on. -/
def freeName (taken : List String) (base : String) : String :=
  if taken.contains base then freeNumbered taken base taken.length 2 else base

/-- A member of a generated enumeration. -/
structure Member where
  name : String
  value : String
  deriving DecidableEq, Repr, Inhabited

/-- The members of values, given the names that are taken. -/
def membersFrom (taken : List String) : List String → List Member
  | [] => []
  | value :: rest =>
    let name := freeName taken (memberBase value)
    ⟨name, value⟩ :: membersFrom (name :: taken) rest

/-- The members of the values of an enumeration. -/
def members (values : List String) : List Member := membersFrom [] values

end SchemaReconcile.Artifact
