import SchemaReconcile.Text.CaseMapping

/-!
# Snake case

Database names are the names of a schema in lower case with underscores between words.  Words are
separated in two passes over the ASCII letters: first inside a run of capitals before the last one that
a small letter follows, then between a small letter or digit and a capital.
-/

namespace SchemaReconcile.Naming

/-- The text after the first separation: in a longest run of at least two capitals that a small letter
follows, an underscore stands before the last capital.  The recursion ends within the length of the
text. -/
def splitCapitals : Nat → List Char → List Char
  | 0, cs => cs
  | _ + 1, [] => []
  | fuel + 1, c :: cs =>
    let run := (c :: cs).takeWhile Char.isUpper
    let rest := (c :: cs).dropWhile Char.isUpper
    match run.reverse, rest with
    | last :: before :: more, small :: rest =>
      if small.isLower then
        (before :: more).reverse ++ '_' :: last :: small :: splitCapitals fuel rest
      else c :: splitCapitals fuel cs
    | _, _ => c :: splitCapitals fuel cs

/-- The text after the second separation: an underscore stands between a small letter or digit and a
capital. -/
def splitHumps : List Char → List Char
  | [] => []
  | [c] => [c]
  | c :: d :: rest =>
    if (c.isLower || c.isDigit) && d.isUpper then c :: '_' :: d :: splitHumps rest
    else c :: splitHumps (d :: rest)

/-- The snake case of the characters of a name. -/
def snakeChars (cs : List Char) : List Char :=
  Text.lower (splitHumps (splitCapitals cs.length cs))

/-- The snake case of a name. -/
def snakeCase (name : String) : String :=
  String.ofList (snakeChars name.toList)

end SchemaReconcile.Naming
