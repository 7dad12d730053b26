import SchemaReconcile.Text.Blank
import SchemaReconcile.Text.CaseMapping
import SchemaReconcile.Text.Integer
import SchemaReconcile.Text.Utf8
import SchemaReconcile.Value.Shown

/-!
# Shapes of dynamic values

Reading a dynamic value as a value of a fixed shape either succeeds or reports every fault with the
place where it stands.  The faults of the fields of a record are collected in the order of its fields,
and a rule about the whole record is asked only when all fields are sound.
-/

namespace SchemaReconcile.Shape

open Number (Binary64)

/-- One step to a place inside a value. -/
inductive Step where
  | name (s : String)
  | index (n : Int)
  deriving DecidableEq, Repr, Inhabited

/-- The kinds of faults. -/
inductive FaultKind where
  | missing
  | stringType
  | stringUnicode
  | boolType
  | boolParsing
  | intType
  | intParsing
  | intParsingSize
  | intFromFloat
  | finiteNumber
  | listType
  | dictType
  | modelType
  | enumeration
  | tooShort
  | stringTooLong
  | stringPatternMismatch
  | greaterThanEqual
  | valueError (text : String)
  deriving DecidableEq, Repr, Inhabited

/-- The word of a kind of fault. -/
def FaultKind.word : FaultKind → String
  | missing => "missing"
  | stringType => "string_type"
  | stringUnicode => "string_unicode"
  | boolType => "bool_type"
  | boolParsing => "bool_parsing"
  | intType => "int_type"
  | intParsing => "int_parsing"
  | intParsingSize => "int_parsing_size"
  | intFromFloat => "int_from_float"
  | finiteNumber => "finite_number"
  | listType => "list_type"
  | dictType => "dict_type"
  | modelType => "model_type"
  | enumeration => "enum"
  | tooShort => "too_short"
  | stringTooLong => "string_too_long"
  | stringPatternMismatch => "string_pattern_mismatch"
  | greaterThanEqual => "greater_than_equal"
  | valueError _ => "value_error"

/-- The wording of a fault, for the kinds that have one of their own. -/
def FaultKind.message? : FaultKind → Option String
  | valueError text => some ("Value error, " ++ text)
  | _ => none

/-- A fault at a place. -/
structure Fault where
  place : List Step
  kind : FaultKind
  deriving DecidableEq, Repr, Inhabited

/-- A value read from a dynamic one, or all faults. -/
inductive Checked (α : Type) where
  | ok (value : α)
  | faults (all : List Fault)
  deriving Repr

namespace Checked

variable {α β : Type}

/-- One fault at the current place. -/
def fault (kind : FaultKind) : Checked α := .faults [⟨[], kind⟩]

/-- The function of one result applied to another; the faults of both are kept. -/
def apply (f : Checked (α → β)) (x : Checked α) : Checked β :=
  match f, x with
  | .ok f, .ok a => .ok (f a)
  | .ok _, .faults later => .faults later
  | .faults first, .ok _ => .faults first
  | .faults first, .faults later => .faults (first ++ later)

/-- A function applied to a result. -/
def map (f : α → β) : Checked α → Checked β
  | .ok a => .ok (f a)
  | .faults all => .faults all

instance : Applicative Checked where
  pure := .ok
  map := map
  seq f x := apply f (x ())

/-- A further rule about a result. -/
def andThen (x : Checked α) (f : α → Checked β) : Checked β :=
  match x with
  | .ok a => f a
  | .faults all => .faults all

/-- A result one step further inside. -/
def inside (step : Step) : Checked α → Checked α
  | .ok a => .ok a
  | .faults all => .faults (all.map fun f => { f with place := step :: f.place })

end Checked

open Checked

/-! ## Scalars -/

/-- A text; bytes in UTF-8 count as one. -/
def readText : Value → Checked String
  | .text s => .ok s
  | .binary kind bytes =>
    if kind == .memoryview then fault .stringType
    else match Text.decodeUtf8? bytes with
      | some cs => .ok (String.ofList cs)
      | none => fault .stringUnicode
  | _ => fault .stringType

/-- The words for true. -/
def trueWords : List String := ["1", "t", "true", "y", "yes", "on"]

/-- The words for false. -/
def falseWords : List String := ["0", "f", "false", "n", "no", "off"]

/-- A truth value: also the numbers one and zero, and words in any case. -/
def readBool : Value → Checked Bool
  | .bool b => .ok b
  | .int n => if n == 1 then .ok true else if n == 0 then .ok false else fault .boolParsing
  | .float x =>
    match x.toInt? with
    | some 1 => .ok true
    | some 0 => .ok false
    | some _ => fault .boolParsing
    | none => fault .boolType
  | .text s =>
    let word := String.ofList (s.toList.map Char.toLower)
    if trueWords.contains word then .ok true
    else if falseWords.contains word then .ok false
    else fault .boolParsing
  | _ => fault .boolType

/-- Whether a list of characters is digits with single low lines between them. -/
def isDigitRun : List Char → Bool
  | [] => false
  | [c] => c.isDigit
  | c :: d :: rest =>
    c.isDigit && (if d == '_' then isDigitRun rest else isDigitRun (d :: rest))

/-- The integer of a text: an optional sign, digits with single low lines, and possibly a point with
zeros only. -/
def integerOfText? (text : String) : Option Int :=
  let trimmed := Text.trimBoth Text.isBlank text.toList
  let (negative, body) := Text.takeSign trimmed
  let whole := body.takeWhile (· != '.')
  let fraction := body.dropWhile (· != '.')
  let pointless := fraction.isEmpty || (fraction.drop 1).all (· == '0')
  if isDigitRun whole && pointless then
    let n := Text.natOfDigits ((whole.filter Char.isDigit).map fun c => c.toNat - 48)
    some (if negative then -Int.ofNat n else Int.ofNat n)
  else none

/-- An integer: also a truth value, a float without a fraction, and a decimal text. -/
def readInt : Value → Checked Int
  | .bool b => .ok (if b then 1 else 0)
  | .int n => .ok n
  | .float x =>
    match x.toInt? with
    | some n => .ok n
    | none => fault (if x.isSpecial then .finiteNumber else .intFromFloat)
  | .text s =>
    if s.length > Text.maxDigits then fault .intParsingSize
    else match integerOfText? s with
      | some n => .ok n
      | none => fault .intParsing
  | _ => fault .intType

/-- A word of a closed vocabulary. -/
def readWord {α : Type} (ofName? : String → Option α) : Value → Checked α
  | .text s =>
    match ofName? s with
    | some a => .ok a
    | none => fault .enumeration
  | _ => fault .enumeration

/-- A value or null. -/
def readOptional {α : Type} (read : Value → Checked α) : Value → Checked (Option α)
  | .null => .ok none
  | v => (read v).map some

/-! ## Collections -/

/-- The items of a list from an index on. -/
def readItems {α : Type} (read : Value → Checked α) : Int → List Value → Checked (List α)
  | _, [] => .ok []
  | n, v :: rest => apply (((read v).inside (.index n)).map List.cons) (readItems read (n + 1) rest)

/-- A list; tuples and sets count as one. -/
def readList {α : Type} (read : Value → Checked α) : Value → Checked (List α)
  | .list items => readItems read 0 items
  | .tuple items => readItems read 0 items
  | .set items => readItems read 0 items
  | _ => fault .listType

/-- The step of a mapping key that is not a text. -/
def keyStep : Value → Step
  | .text s => .name s
  | .bool b => .index (if b then 1 else 0)
  | .int n =>
    if -9223372036854775808 ≤ n && n ≤ 9223372036854775807 then .index n else .name (toString n)
  | v => .name v.shown

/-- The entries of a mapping with text keys. -/
def readEntries : List (Value × Value) → Checked (List (Value × Value))
  | [] => .ok []
  | (key, value) :: rest =>
    let entry : Checked (Value × Value) :=
      ((readText key).inside (.name "[key]")).inside (keyStep key) |>.map fun s => (.text s, value)
    apply (entry.map List.cons) (readEntries rest)

/-- A mapping with text keys and any values. -/
def readMapping : Value → Checked (List (Value × Value))
  | .dict entries => readEntries entries
  | _ => fault .dictType

/-- A record: a mapping whose entries are read by name. -/
def readRecord {α : Type} (read : List (Value × Value) → Checked α) : Value → Checked α
  | .dict entries => read entries
  | _ => fault .modelType

/-- A field of a record that must be there. -/
def required {α : Type} (name : String) (read : Value → Checked α)
    (entries : List (Value × Value)) : Checked α :=
  (match Value.entry? (.text name) entries with
    | some v => read v
    | none => fault .missing).inside (.name name)

/-- A field of a record with a value for its absence. -/
def withDefault {α : Type} (name : String) (default : α) (read : Value → Checked α)
    (entries : List (Value × Value)) : Checked α :=
  match Value.entry? (.text name) entries with
  | some v => (read v).inside (.name name)
  | none => .ok default

end SchemaReconcile.Shape
