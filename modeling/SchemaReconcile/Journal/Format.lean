import SchemaReconcile.Journal.Record
import SchemaReconcile.Text.CaseMapping
import SchemaReconcile.Text.Hex

/-!
# Formatted records

A record is written either as one JSON object or as a line for people.  JSON texts hold ASCII only; values
that JSON has no form for are written as texts.
-/

namespace SchemaReconcile.Journal

open Number (Binary64)

/-! ## JSON -/

/-- The escape of a number of 16 bits. -/
def unitEscape (n : Nat) : List Char :=
  ['\\', 'u'] ++ Text.hexDigits 4 n

/-- A character inside a JSON text. -/
def jsonCharacter (c : Char) : List Char :=
  if c == '"' then ['\\', '"']
  else if c == '\\' then ['\\', '\\']
  else if c == '\n' then ['\\', 'n']
  else if c == '\r' then ['\\', 'r']
  else if c == '\t' then ['\\', 't']
  else if c.toNat == 8 then ['\\', 'b']
  else if c.toNat == 12 then ['\\', 'f']
  else if 32 ≤ c.toNat && c.toNat < 127 then [c]
  else if c.toNat < 0x10000 then unitEscape c.toNat
  else
    let n := c.toNat - 0x10000
    unitEscape (0xD800 + n / 0x400) ++ unitEscape (0xDC00 + n % 0x400)

/-- A JSON text. -/
def jsonText (s : String) : String :=
  "\"" ++ String.ofList (s.toList.flatMap jsonCharacter) ++ "\""

/-- A floating-point number in JSON. -/
def jsonFloat (x : Binary64) : String :=
  match x.text with
  | "nan" => "NaN"
  | "inf" => "Infinity"
  | "-inf" => "-Infinity"
  | s => s

/-- The text of a key in JSON. -/
def jsonKey : Value → String
  | .null => "null"
  | .bool b => if b then "true" else "false"
  | .float x => jsonFloat x
  | v => v.display

mutual

/-- A value in JSON. -/
def json : Value → String
  | .null => "null"
  | .bool b => if b then "true" else "false"
  | .int n => toString n
  | .float x => jsonFloat x
  | .list items => "[" ++ ", ".intercalate (jsonItems items) ++ "]"
  | .tuple items => "[" ++ ", ".intercalate (jsonItems items) ++ "]"
  | .dict entries => "\x7b" ++ ", ".intercalate (jsonEntries entries) ++ "\x7d"
  | v => jsonText v.display

/-- Values in JSON. -/
def jsonItems : List Value → List String
  | [] => []
  | v :: rest => json v :: jsonItems rest

/-- Entries in JSON. -/
def jsonEntries : List (Value × Value) → List String
  | [] => []
  | (key, v) :: rest => (jsonText (jsonKey key) ++ ": " ++ json v) :: jsonEntries rest

end

/-! ## Formats -/

/-- Where in a program a record was written. -/
structure Origin where
  file : String
  line : Nat
  function : String
  deriving DecidableEq, Repr, Inhabited

/-- What a JSON record shows beside its message. -/
structure Shows where
  time : Bool := true
  level : Bool := true
  logger : Bool := true
  context : Bool := true
  deriving DecidableEq, Repr, Inhabited

/-- The time of a record in universal time. -/
def stamp (now : CivilTime) : String := now.iso ++ "Z"

/-- A record as one JSON object. -/
def structured (shows : Shows) (now : CivilTime) (origin : Origin) (c : Context) (r : Record) :
    String :=
  let part (shown : Bool) (key : String) (v : Value) : List (String × Value) :=
    if shown then [(key, v)] else []
  json (.object
    (part shows.time "timestamp" (.text (stamp now)) ++
      part shows.level "level" (.text r.level.name) ++
      part shows.logger "logger" (.text r.logger) ++ [("message", .text r.message)] ++
      part (shows.context && !c.entries.isEmpty) "context" (.dict c.entries) ++
      part (!r.extra.isEmpty) "data" (.dict r.extra) ++
      (match r.exception with | some e => [("exception", .text e)] | none => []) ++
      [("source", .object [("file", .text origin.file), ("line", .count origin.line),
        ("function", .text origin.function)])]))

/-- The names of a context that a line for people shows, with the words that it uses for them. -/
def shownContext : List (String × String) :=
  [("schema", "schema"), ("entity", "entity"), ("field", "field"), ("enum_name", "enum")]

/-- A text with blanks behind it up to a width. -/
def leftAligned (width : Nat) (s : String) : String :=
  s ++ String.ofList (List.replicate (width - s.length) ' ')

/-- A record as a line for people. -/
def human (now : CivilTime) (c : Context) (r : Record) : String :=
  let seconds := ({ now with micro := 0, offset := none } : CivilTime).isoWith " "
  let parts := shownContext.filterMap fun (name, word) =>
    if (c.get name).truthy then some (word ++ "=" ++ (c.get name).display) else none
  seconds ++ " " ++ leftAligned 8 r.level.name ++ " " ++ r.logger ++
    (if parts.isEmpty then "" else " [" ++ ", ".intercalate parts ++ "]") ++ ": " ++ r.message ++
    (if r.extra.isEmpty then "" else " " ++ (Value.dict r.extra).shown) ++
    match r.exception with
    | some e => "\n" ++ e
    | none => ""

/-! ## Messages -/

/-- A value in the place of a mark of a message, for the letter of the mark. -/
def argumentText (letter : Char) (v : Value) : Option String :=
  match letter, v with
  | 's', v => some v.display
  | 'r', v => some v.shown
  | 'd', .int n => some (toString n)
  | 'd', .bool b => some (if b then "1" else "0")
  | 'd', .float x => x.truncated?.map toString
  | _, _ => none

/-- A message with values in the places of its marks, none if they do not fit. -/
def substituted? : List Char → List Value → Option (List Char)
  | [], [] => some []
  | [], _ :: _ => none
  | '%' :: '%' :: rest, args => (substituted? rest args).map ('%' :: ·)
  | '%' :: letter :: rest, v :: args => do
    let shown ← argumentText (if letter == 'i' then 'd' else letter) v
    let later ← substituted? rest args
    return shown.toList ++ later
  | '%' :: _, _ => none
  | c :: rest, args => (substituted? rest args).map (c :: ·)

/-- A message with values in the places of its marks; without values it stays as it is. -/
def messageOf (message : String) (args : List Value) : Option String :=
  if args.isEmpty then some message
  else (substituted? message.toList args).map String.ofList

/-! ## Configuration -/

/-- How the journal is written: from which level on, and in which format. -/
structure Configuration where
  level : Level
  isStructured : Bool
  deriving DecidableEq, Repr, Inhabited

/-- The level of a word in any case; other words are the level of ordinary news. -/
def levelOf (word : String) : Level :=
  (Level.ofName? (String.ofList (Text.upper word.toList))).getD .info

/-- The configuration for a level, where the environment may ask for JSON. -/
def configuration (level : Level) (json : Bool) (format : String) : Configuration where
  level
  isStructured := json || String.ofList (Text.lower format.toList) == "json"

end SchemaReconcile.Journal
