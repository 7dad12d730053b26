import SchemaReconcile.Text.Integer
import SchemaReconcile.Text.Quoted
import SchemaReconcile.Value.Basic

/-!
# Shown values

The text of a value inside a message: quoted texts, bracketed lists, braced mappings and constructor
forms.  The text of an integer has a limit of digits, so a value that holds a larger one has no text.
-/

namespace SchemaReconcile.Value

/-- The text of a binary value. -/
def shownBinary (kind : BinaryKind) (bytes : List UInt8) : String :=
  match kind with
  | .bytes => Text.quotedBytes bytes
  | .bytearray => "bytearray(" ++ Text.quotedBytes bytes ++ ")"
  | .memoryview => "<memory at 0x0>"

mutual

/-- The text of a value inside a message. -/
def shown : Value → String
  | null => "None"
  | bool b => if b then "True" else "False"
  | int n => toString n
  | float x => x.text
  | decimal d => "Decimal('" ++ d.text ++ "')"
  | text s => Text.quoted s
  | binary kind bytes => shownBinary kind bytes
  | list items => "[" ++ ", ".intercalate (shownItems items) ++ "]"
  | tuple items =>
    match shownItems items with
    | [one] => "(" ++ one ++ ",)"
    | many => "(" ++ ", ".intercalate many ++ ")"
  | set items =>
    match shownItems items with
    | [] => "set()"
    | many => "\x7b" ++ ", ".intercalate many ++ "\x7d"
  | dict entries => "\x7b" ++ ", ".intercalate (shownEntries entries) ++ "\x7d"
  | date d => d.shown
  | time t => t.shown

/-- The texts of the values of a list. -/
def shownItems : List Value → List String
  | [] => []
  | v :: vs => shown v :: shownItems vs

/-- The texts of the entries of a mapping. -/
def shownEntries : List (Value × Value) → List String
  | [] => []
  | (k, v) :: rest => (shown k ++ ": " ++ shown v) :: shownEntries rest

end

mutual

/-- Whether every integer of a value is within the limit of digits. -/
def isWritable : Value → Bool
  | int n => n.natAbs < Nat.pow 10 Text.maxDigits
  | list items => areWritable items
  | tuple items => areWritable items
  | set items => areWritable items
  | dict entries => haveWritable entries
  | _ => true

/-- Whether every integer of the values of a list is within the limit of digits. -/
def areWritable : List Value → Bool
  | [] => true
  | v :: vs => isWritable v && areWritable vs

/-- Whether every integer of the entries of a mapping is within the limit of digits. -/
def haveWritable : List (Value × Value) → Bool
  | [] => true
  | (k, v) :: rest => isWritable k && isWritable v && haveWritable rest

end

/-- The text of a value inside a message, if its integers are within the limit of digits. -/
def written (v : Value) : Except Text.IntegerFault String :=
  if v.isWritable then .ok v.shown else .error .longNumber

/-- The text of a value on its own: a text stands for itself, and so do numbers and days. -/
def display : Value → String
  | text s => s
  | decimal d => d.text
  | date d => d.iso
  | time t => t.isoWith " "
  | v => v.shown

/-- The text of a value on its own, if its integers are within the limit of digits. -/
def displayed (v : Value) : Except Text.IntegerFault String :=
  if v.isWritable then .ok v.display else .error .longNumber

end SchemaReconcile.Value
