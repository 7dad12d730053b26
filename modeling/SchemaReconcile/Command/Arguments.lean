import SchemaReconcile.Text.Alphanumeric
import SchemaReconcile.Text.Integer

/-!
# Command line arguments

A command has options that switch something on or take a value.  A long option may be cut short as long as
it stays the only one with that beginning, and its value follows it or stands behind an equals sign.  Short
options may be written together.  Arguments that belong to no option are refused.
-/

namespace SchemaReconcile.Command

/-- What an option takes. -/
inductive Takes where
  | nothing
  | text
  | integer
  /-- The option asks for help, and ends the reading of arguments. -/
  | help
  deriving DecidableEq, Repr, Inhabited

/-- An option: its names, of which the first one stands for it. -/
structure Option_ where
  names : List String
  takes : Takes
  required : Bool := false
  deriving DecidableEq, Repr, Inhabited

/-- The name that stands for an option. -/
def Option_.name (o : Option_) : String := o.names.headD ""

/-- The option that asks for help. -/
def helpOption : Option_ := { names := ["--help", "-h"], takes := .help }

/-- The value of an option. -/
inductive Setting where
  | on
  | text (value : String)
  | integer (value : Int)
  deriving DecidableEq, Repr, Inhabited

/-- The values of options in the order in which they were given. -/
abbrev Given := List (String × Setting)

namespace Given

/-- Whether an option was given. -/
def has (g : Given) (name : String) : Bool := (g.lookup name).isSome

/-- The last text that an option was given. -/
def text? (g : Given) (name : String) : Option String :=
  match g.reverse.lookup name with
  | some (.text s) => some s
  | _ => none

/-- The last integer that an option was given. -/
def integer? (g : Given) (name : String) : Option Int :=
  match g.reverse.lookup name with
  | some (.integer n) => some n
  | _ => none

end Given

/-- How the reading of arguments ends without values. -/
inductive Refusal where
  /-- Help was asked for. -/
  | help
  /-- The arguments do not fit. -/
  | usage
  deriving DecidableEq, Repr, Inhabited

/-- What stands behind the name of an option in the same argument. -/
inductive Attached where
  | nothing
  /-- A value behind an equals sign. -/
  | value (s : String)
  /-- Text that follows a short option directly. -/
  | letters (s : String)
  deriving DecidableEq, Repr, Inhabited

/-- What an argument is taken for. -/
inductive Token where
  | value
  /-- An option, and what stands behind its name. -/
  | option (o : Option_) (attached : Attached)
  | unknown
  /-- The mark after which every argument is a value. -/
  | divider
  deriving DecidableEq, Repr, Inhabited

/-- The option of a name. -/
def named? (options : List Option_) (name : String) : Option Option_ :=
  options.find? fun o => o.names.contains name

/-- Every name of every option. -/
def allNames (options : List Option_) : List (String × Option_) :=
  options.flatMap fun o => o.names.map fun n => (n, o)

/-- The part of a text before the first equals sign and the part behind it. -/
def splitEquals (s : String) : Option (String × String) :=
  let before := s.toList.takeWhile (· != '=')
  match s.toList.dropWhile (· != '=') with
  | [] => none
  | _ :: behind => some (String.ofList before, String.ofList behind)

/-- Whether a text starts with another one. -/
def startsWith (s start : String) : Bool := start.toList.isPrefixOf s.toList

/-- Whether a text is a negative number in decimal. -/
def isNegativeNumber (s : String) : Bool :=
  let digit (c : Char) : Bool := (Text.decimalValue? c).isSome
  match s.toList with
  | '-' :: body =>
    let whole := body.takeWhile digit
    match body.dropWhile digit with
    | [] => !whole.isEmpty
    | ['\n'] => !whole.isEmpty
    | '.' :: fraction =>
      match fraction.dropWhile digit with
      | [] => !fraction.isEmpty
      | ['\n'] => fraction.length > 1
      | _ => false
    | _ => false
  | _ => false

/-- The options that the beginning of a long option may stand for. -/
def longMatches (options : List Option_) (s : String) : List Token :=
  let (start, attached) := match splitEquals s with
    | some (before, behind) => (before, Attached.value behind)
    | none => (s, .nothing)
  (allNames options).filterMap fun (name, o) =>
    if startsWith name start then some (.option o attached) else none

/-- The options that a group of short options may start with. -/
def shortMatches (options : List Option_) (s : String) : List Token :=
  let first := String.ofList (s.toList.take 2)
  let behind := String.ofList (s.toList.drop 2)
  (allNames options).filterMap fun (name, o) =>
    if name == first then some (.option o (.letters behind))
    else if startsWith name s then some (.option o .nothing)
    else none

/-- The option of an argument that starts with a dash and is no full name. -/
def partialToken (options : List Option_) (s : String) : Except Refusal Token :=
  let found := if startsWith s "--" then longMatches options s else shortMatches options s
  match found with
  | [one] => .ok one
  | _ :: _ :: _ => .error .usage
  | [] =>
    if isNegativeNumber s || s.toList.contains ' ' then .ok .value else .ok .unknown

/-- What an argument is taken for, if no divider stands before it. -/
def token (options : List Option_) (s : String) : Except Refusal Token :=
  if !startsWith s "-" then .ok .value
  else match named? options s with
    | some o => .ok (.option o .nothing)
    | none =>
      if s.length == 1 then .ok .value
      else match splitEquals s with
        | none => partialToken options s
        | some (before, behind) =>
          match named? options before with
          | some o => .ok (.option o (.value behind))
          | none => partialToken options s

/-- What each argument is taken for. -/
def tokens (options : List Option_) : List String → Except Refusal (List (String × Token))
  | [] => .ok []
  | "--" :: rest => .ok (("--", .divider) :: rest.map fun s => (s, .value))
  | s :: rest => do
    let t ← token options s
    let ts ← tokens options rest
    return (s, t) :: ts

/-- The value of an option that takes one. -/
def setting (takes : Takes) (s : String) : Except Refusal Setting :=
  match takes with
  | .integer =>
    match Text.readInteger s with
    | .ok n => .ok (.integer n)
    | .error _ => .error .usage
  | _ => .ok (.text s)

/-- Whether an option stands without a value. -/
def Takes.isBare : Takes → Bool
  | .nothing => true
  | .help => true
  | _ => false

/-- The short options that are written behind an option in one argument, up to a letter that is none of them,
and whether there is such a letter.  No value may stand in such a group. -/
def shortGroup (options : List Option_) : List Char → Except Refusal (List Option_ × Bool)
  | [] => .ok ([], false)
  | c :: rest =>
    if c == '-' || c == '=' then .error .usage
    else match named? options (String.ofList ['-', c]) with
      | none => .ok ([], true)
      | some next =>
        if next.takes.isBare then do
          let (later, extra) ← shortGroup options rest
          return (next :: later, extra)
        else .error .usage

/-- The settings of an option without a value and of the short options behind it in the same argument, and
whether some of that belongs to no option. -/
def bareSettings (options : List Option_) (o : Option_) (attached : Attached) :
    Except Refusal (Given × Bool) := do
  let (group, extra) ← match attached with
    | .nothing => pure ([], false)
    | .value _ => throw .usage
    | .letters s => shortGroup options s.toList
  if (o :: group).any (·.takes == .help) then throw .help
  return ((o :: group).map fun o => (o.name, .on), extra)

/-- The settings of arguments. -/
def settings (options : List Option_) : List (String × Token) → Except Refusal (Given × Bool)
  | [] => .ok ([], false)
  | (_, .value) :: rest => do
    let (given, _) ← settings options rest
    return (given, true)
  | (_, .unknown) :: rest => do
    let (given, _) ← settings options rest
    return (given, true)
  | (_, .divider) :: rest => do
    let (given, _) ← settings options rest
    return (given, true)
  | (_, .option o attached) :: rest =>
    if o.takes.isBare then do
      let (own, extra) ← bareSettings options o attached
      let (given, later) ← settings options rest
      return (own ++ given, extra || later)
    else
      match attached, rest with
      | .nothing, (s, .value) :: rest => do
        let value ← setting o.takes s
        let (given, extra) ← settings options rest
        return ((o.name, value) :: given, extra)
      | .nothing, _ => .error .usage
      | .value s, rest => do
        let value ← setting o.takes s
        let (given, extra) ← settings options rest
        return ((o.name, value) :: given, extra)
      | .letters s, rest => do
        let value ← setting o.takes s
        let (given, extra) ← settings options rest
        return ((o.name, value) :: given, extra)

/-- The settings that arguments give to the options of a command. -/
def readArguments (options : List Option_) (arguments : List String) : Except Refusal Given := do
  let options := helpOption :: options
  let ts ← tokens options arguments
  let (given, extra) ← settings options ts
  if extra || options.any fun o => o.required && !given.has o.name then throw .usage
  return given

end SchemaReconcile.Command
