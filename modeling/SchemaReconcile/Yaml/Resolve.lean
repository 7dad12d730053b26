/-!
# Tags of plain scalars

A plain scalar without a tag gets the tag of the first form that its text has: a truth value, a number,
a merge mark, null, a day or moment, a value mark, and otherwise plain text.
-/

namespace SchemaReconcile.Yaml

/-- The full name of a core tag. -/
def coreTag (name : String) : String := "tag:yaml.org,2002:" ++ name

/-- Whether a text has the form of a truth value. -/
def isBoolForm (s : String) : Bool :=
  ["yes", "Yes", "YES", "no", "No", "NO", "true", "True", "TRUE", "false", "False", "FALSE", "on", "On",
    "ON", "off", "Off", "OFF"].contains s

/-- Whether a text has the form of null. -/
def isNullForm (s : String) : Bool :=
  ["", "~", "null", "Null", "NULL"].contains s

/-- Whether a character is a digit or a low line. -/
def isDigitOrLine (c : Char) : Bool := c.isDigit || c == '_'

/-- A text without a sign in front. -/
def dropSign : List Char → List Char
  | '+' :: cs => cs
  | '-' :: cs => cs
  | cs => cs

/-- Whether a text is a non-empty run of a class of characters. -/
def allOf (p : Char → Bool) (cs : List Char) : Bool := !cs.isEmpty && cs.all p

/-- Whether a text is an exponent with a sign. -/
def isExponent : List Char → Bool
  | e :: sign :: digits => (e == 'e' || e == 'E') && (sign == '+' || sign == '-') && allOf Char.isDigit digits
  | _ => false

/-- Whether a text is digits and low lines, and possibly an exponent. -/
def isFraction (cs : List Char) : Bool :=
  let rest := cs.dropWhile isDigitOrLine
  rest.isEmpty || isExponent rest

/-- The rest of a text after base-sixty places, each a colon with one digit or with two digits below
sixty; at least one place must be there.  A text of `n` characters has fewer than `n` places. -/
def dropPlaces? : Nat → List Char → Option (List Char)
  | fuel + 1, ':' :: a :: rest =>
    if a.isDigit then
      let rest := match rest with
        | b :: more => if b.isDigit && a ≤ '5' then more else rest
        | [] => []
      if rest.head? == some ':' then dropPlaces? fuel rest else some rest
    else none
  | _, _ => none

/-- Whether a text has the form of a binary floating point number. -/
def isFloatForm (cs : List Char) : Bool :=
  let body := dropSign cs
  let plain := match body with
    | c :: _ =>
      if c.isDigit then match body.dropWhile isDigitOrLine with
        | '.' :: rest => isFraction rest
        | rest => match dropPlaces? rest.length rest with
          | some ('.' :: rest) => rest.all isDigitOrLine
          | _ => false
      else false
    | [] => false
  let pointFirst := match cs with
    | '.' :: d :: rest => d.isDigit && isFraction rest
    | _ => false
  plain || pointFirst ||
    [".inf", ".Inf", ".INF"].contains (String.ofList body) ||
    [".nan", ".NaN", ".NAN"].contains (String.ofList cs)

/-- Whether a character is a binary digit or a low line. -/
def isBinaryOrLine (c : Char) : Bool := c == '0' || c == '1' || c == '_'

/-- Whether a character is an octal digit or a low line. -/
def isOctalOrLine (c : Char) : Bool := ('0' ≤ c && c ≤ '7') || c == '_'

/-- Whether a character is a hexadecimal digit or a low line. -/
def isHexOrLine (c : Char) : Bool :=
  c.isDigit || ('a' ≤ c && c ≤ 'f') || ('A' ≤ c && c ≤ 'F') || c == '_'

/-- Whether a text has the form of an integer. -/
def isIntForm (cs : List Char) : Bool :=
  match dropSign cs with
  | ['0'] => true
  | '0' :: rest =>
    allOf isOctalOrLine rest || match rest with
      | 'b' :: digits => allOf isBinaryOrLine digits
      | 'x' :: digits => allOf isHexOrLine digits
      | _ => false
  | c :: rest =>
    c.isDigit && match rest.dropWhile isDigitOrLine with
      | [] => true
      | places => dropPlaces? places.length places == some []
  | [] => false

/-- A run of at least `least` and at most `most` digits at the head of a text, and the rest. -/
def digitsBetween? (least most : Nat) (cs : List Char) : Option (List Char × List Char) :=
  let digits := (cs.takeWhile Char.isDigit).take most
  if digits.length < least then none else some (digits, cs.drop digits.length)

/-- The rest of a text after a character. -/
def dropChar? (c : Char) : List Char → Option (List Char)
  | d :: rest => if d == c then some rest else none
  | [] => none

/-- The parts of a day with an optional time of day, as digits. -/
structure TimeParts where
  (year month day : List Char)
  /-- Hour, minute and second. -/
  time : Option (List Char × List Char × List Char) := none
  fraction : List Char := []
  /-- The offset: its sign, hours and minutes; `none` inside is universal time. -/
  zone : Option (Option (Char × List Char × List Char)) := none
  deriving DecidableEq, Repr

/-- The offset at the end of a moment. -/
def timeZone? (cs : List Char) : Option (Option (Option (Char × List Char × List Char))) :=
  match cs.dropWhile fun c => c == ' ' || c == '\t' with
  | [] => if cs.isEmpty then some none else none
  | ['Z'] => some (some none)
  | sign :: rest =>
    if sign == '+' || sign == '-' then do
      let (hours, rest) ← digitsBetween? 1 2 rest
      match rest with
      | [] => some (some (some (sign, hours, [])))
      | ':' :: rest =>
        let (minutes, rest) ← digitsBetween? 2 2 rest
        if rest.isEmpty then some (some (some (sign, hours, minutes))) else none
      | _ => none
    else none

/-- The parts of a text in the form of a day or moment. -/
def timeParts? (cs : List Char) : Option TimeParts := do
  let (year, rest) ← digitsBetween? 4 4 cs
  let (month, rest) ← digitsBetween? 1 2 (← dropChar? '-' rest)
  let (day, rest) ← digitsBetween? 1 2 (← dropChar? '-' rest)
  match rest with
  | [] => return { year, month, day }
  | c :: tail =>
    let rest ← if c == 'T' || c == 't' then some tail
      else if c == ' ' || c == '\t' then
        some (tail.dropWhile fun c => c == ' ' || c == '\t')
      else none
    let (hour, rest) ← digitsBetween? 1 2 rest
    let (minute, rest) ← digitsBetween? 2 2 (← dropChar? ':' rest)
    let (second, rest) ← digitsBetween? 2 2 (← dropChar? ':' rest)
    let (fraction, rest) := match rest with
      | '.' :: rest => (rest.takeWhile Char.isDigit, rest.dropWhile Char.isDigit)
      | _ => ([], rest)
    let zone ← timeZone? rest
    return { year, month, day, time := some (hour, minute, second), fraction, zone }

/-- Whether a text has the form of a day or moment; a bare day has two digits for month and day. -/
def isTimeForm (cs : List Char) : Bool :=
  match timeParts? cs with
  | some p => p.time.isSome || (p.month.length == 2 && p.day.length == 2)
  | none => false

/-- A text without a line feed at its end; the forms of plain scalars go no further. -/
def dropLineFeed (cs : List Char) : List Char :=
  match cs.reverse with
  | '\n' :: rest => rest.reverse
  | _ => cs

/-- The tag of a plain scalar.  A lone line feed has no form. -/
def plainTag (text : String) : String :=
  let cs := if text == "\n" then text.toList else dropLineFeed text.toList
  let text := String.ofList cs
  coreTag <|
    if isBoolForm text then "bool"
    else if isFloatForm cs then "float"
    else if isIntForm cs then "int"
    else if text == "<<" then "merge"
    else if isNullForm text then "null"
    else if isTimeForm cs then "timestamp"
    else if text == "=" then "value"
    else if text == "!" || text == "&" || text == "*" then "yaml"
    else "str"

end SchemaReconcile.Yaml
