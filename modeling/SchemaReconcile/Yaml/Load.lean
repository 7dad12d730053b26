import SchemaReconcile.Text.Base64
import SchemaReconcile.Text.CaseMapping
import SchemaReconcile.Value.Basic
import SchemaReconcile.Yaml.Node
import SchemaReconcile.Yaml.Object

/-!
# Values of YAML nodes

A scalar becomes the value that its tag says, a sequence a list and a mapping a mapping; merge keys
bring in the entries of other mappings.  Collections are built level by level, so of several faults the
one at the smallest depth counts, and of those the first in the text.

What is built are objects, in which a mapping that is named in several places is one mapping.  Whatever reads
texts in this way is a `Library`; `loadObject` is one.
-/

namespace SchemaReconcile.Yaml

open Number (Binary64)

/-- Why a YAML text yields no value. -/
inductive LoadFault where
  /-- The text is not YAML, or a node does not fit its tag. -/
  | malformed
  /-- An escape names a code point beyond Unicode. -/
  | codePoint (n : Nat)
  /-- A text with an integer tag is no integer, or a version has too many digits. -/
  | integer (fault : Text.IntegerFault)
  /-- A text with a float tag is no number. -/
  | float (text : String)
  /-- A text with a number tag is empty. -/
  | emptyNumber
  /-- A number in base sixty has a place beyond the floating point numbers. -/
  | largePlace
  /-- A text with the tag of truth values is none. -/
  | truthValue (word : String)
  /-- A text with the tag of moments has another form. -/
  | momentForm
  /-- A mapping with the tag of moments stands for a text, but is none. -/
  | notText
  /-- The numbers of a moment do not name one. -/
  | calendar (fault : CalendarFault)
  deriving DecidableEq, Repr

/-- The fault of a text as a fault of its value. -/
def SourceFault.toLoadFault : SourceFault → LoadFault
  | malformed => .malformed
  | codePoint n => .codePoint n
  | integer fault => .integer fault

/-- The wording of a fault of a value. -/
def LoadFault.message : LoadFault → String
  | malformed => ""
  | codePoint _ => "chr() arg not in range(0x110000)"
  | integer fault => fault.message
  | float text => "could not convert string to float: " ++ Text.quoted text
  | emptyNumber => "string index out of range"
  | largePlace => "int too large to convert to float"
  | truthValue word => word
  | momentForm => ""
  | notText => "expected string or bytes-like object, got 'list'"
  | calendar fault => fault.message

/-! ## Scalars -/

/-- The truth value of a word in any case. -/
def truthValue (text : String) : Except LoadFault Scalar :=
  let word := String.ofList (Text.lower text.toList)
  if ["yes", "true", "on"].contains word then .ok ⟨.bool true, rfl⟩
  else if ["no", "false", "off"].contains word then .ok ⟨.bool false, rfl⟩
  else .error (.truthValue word)

/-- A text without low lines, split into a sign and the rest; `none` if nothing is there. -/
def signed? (cs : List Char) : Option (Bool × List Char) :=
  match cs.filter (· != '_') with
  | [] => none
  | c :: rest => some (if c == '-' then (true, rest) else if c == '+' then (false, rest)
      else (false, c :: rest))

/-- The parts of a text between colons. -/
def colonParts (cs : List Char) : List String :=
  ((String.ofList cs).splitOn ":")

/-- The integer of a text: binary, hexadecimal, octal, base sixty with colons, or decimal. -/
def integerValue (text : String) : Except LoadFault Scalar :=
  match signed? text.toList with
  | none => .error .emptyNumber
  | some (_, []) => .error .emptyNumber
  | some (negative, body) =>
    let whole := String.ofList body
    let number : Except Text.IntegerFault Int :=
      if whole == "0" then .ok 0
      else match body with
        | '0' :: 'b' :: digits => Text.readRadix 2 (String.ofList digits)
        | '0' :: 'x' :: digits => Text.readRadix 16 (String.ofList digits)
        | '0' :: _ => Text.readRadix 8 whole
        | _ =>
          if body.contains ':' then do
            let places ← (colonParts body).mapM Text.readInteger
            return places.foldl (fun n p => 60 * n + p) 0
          else Text.readInteger whole
    match number with
    | .ok n => .ok ⟨.int (if negative then -n else n), rfl⟩
    | .error fault => .error (.integer fault)

/-- The number of a decimal text. -/
def floatOf (text : String) : Except LoadFault Binary64 :=
  match Binary64.ofText? text with
  | some x => .ok x
  | none => .error (.float text)

/-- The sum of base-sixty places, the last one first. -/
def sumPlaces (base : Nat) (sum : Binary64) : List Binary64 → Except LoadFault Binary64
  | [] => .ok sum
  | x :: rest =>
    match x.scale base with
    | some product => sumPlaces (base * 60) (sum.add product) rest
    | none => .error .largePlace

/-- The floating point number of a text: an infinity, no number, base sixty with colons, or decimal. -/
def floatValue (text : String) : Except LoadFault Scalar :=
  match signed? text.toList with
  | none => .error .emptyNumber
  | some (negative, body) =>
    let word := String.ofList (Text.lower body)
    let number : Except LoadFault Binary64 :=
      if word == ".inf" then .ok (.infinite false)
      else if word == ".nan" then .ok .nan
      else if word.contains ':' then do
        let places ← (word.splitOn ":").mapM floatOf
        sumPlaces 1 (.zero false) places.reverse
      else floatOf word
    number.map fun x => ⟨.float (if negative then x.negate else x), rfl⟩

/-- The number of decimal digits. -/
def digitsValue (cs : List Char) : Nat := Text.natOfDigits (cs.map fun c => c.toNat - 48)

/-- The microseconds of a fraction of a second; digits after the sixth are cut. -/
def microseconds (fraction : List Char) : Nat :=
  digitsValue ((fraction ++ List.replicate 6 '0').take 6)

/-- The offset in seconds of the parts of a moment. -/
def offsetOf (p : TimeParts) : Except CalendarFault (Option Int) :=
  match p.zone with
  | none => .ok none
  | some none => .ok (some 0)
  | some (some (sign, hours, minutes)) =>
    let seconds := Int.ofNat (3600 * digitsValue hours + 60 * digitsValue minutes)
    let seconds := if sign == '-' then -seconds else seconds
    if seconds.natAbs < 86400 then .ok (some seconds) else .error (.offset seconds)

/-- The day or moment of a text. -/
def momentValue (text : String) : Except LoadFault Scalar :=
  match timeParts? (dropLineFeed text.toList) with
  | none => .error .momentForm
  | some p =>
    let day : Except CalendarFault CivilDate :=
      CivilDate.of (digitsValue p.year) (digitsValue p.month) (digitsValue p.day)
    let built : Except CalendarFault Scalar :=
      match p.time with
      | none => day.map fun d => ⟨.date d, rfl⟩
      | some (hour, minute, second) => do
        let offset ← offsetOf p
        let date ← day
        let time ← CivilTime.of date (digitsValue hour) (digitsValue minute) (digitsValue second)
          (microseconds p.fraction) offset
        return ⟨.time time, rfl⟩
    match built with
    | .ok v => .ok v
    | .error fault => .error (.calendar fault)

/-- The bytes of a text in base 64. -/
def binaryValue (text : String) : Except LoadFault Scalar :=
  if text.toList.all fun c => c.toNat < 128 then
    match Text.decodeBase64? text.toList with
    | some bytes => .ok ⟨.binary .bytes bytes, rfl⟩
    | none => .error .malformed
  else .error .malformed

/-- No value, whatever the text is. -/
def nullValue (_ : String) : Except LoadFault Scalar := .ok .null

/-- The text as it is. -/
def textValue (text : String) : Except LoadFault Scalar := .ok ⟨.text text, rfl⟩

/-- The value of a scalar with a full tag; `none` if the tag is not one of scalars. -/
def scalarReader? (tag : String) : Option (String → Except LoadFault Scalar) :=
  [("null", nullValue), ("bool", truthValue), ("int", integerValue), ("float", floatValue),
    ("binary", binaryValue), ("timestamp", momentValue), ("str", textValue)].findSome?
    fun (name, read) => if tag == coreTag name then some read else none

/-! ## Collections -/

/-- A node with the tag of plain text if it was a value mark. -/
def Node.plainKey : Node → Node
  | .scalar tag text => .scalar (if tag == coreTag "value" then coreTag "str" else tag) text
  | node => node

mutual

/-- The merged and the own entries of a mapping; `none` if something is merged that is no mapping. -/
def mergeEntries? : List (Node × Node) → Option (List (Node × Node) × List (Node × Node))
  | [] => some ([], [])
  | (key, value) :: rest => do
    if key.tag == coreTag "merge" then
      let merged ← mergedOf? value
      let (more, own) ← mergeEntries? rest
      return (merged ++ more, own)
    else
      let (merged, own) ← mergeEntries? rest
      return (merged, (key.plainKey, value) :: own)

/-- The entries that a node brings into a mapping. -/
def mergedOf? : Node → Option (List (Node × Node))
  | .mapping _ _ entries => (mergeEntries? entries).map fun (merged, own) => merged ++ own
  | .sequence _ items => mergedItems? items
  | _ => none

/-- The entries that nodes bring into a mapping, those of the last node first. -/
def mergedItems? : List Node → Option (List (Node × Node))
  | [] => some []
  | .mapping _ _ entries :: rest => do
    let (merged, own) ← mergeEntries? entries
    let later ← mergedItems? rest
    return later ++ (merged ++ own)
  | _ :: _ => none

end

mutual

/-- The nesting depth of a node. -/
def Node.depth : Node → Nat
  | .sequence _ items => itemsDepth items + 1
  | .mapping _ _ entries => entriesDepth entries + 1
  | _ => 1

/-- The greatest nesting depth of nodes. -/
def itemsDepth : List Node → Nat
  | [] => 0
  | n :: rest => max n.depth (itemsDepth rest)

/-- The greatest nesting depth of keys and values. -/
def entriesDepth : List (Node × Node) → Nat
  | [] => 0
  | (k, v) :: rest => max (max k.depth v.depth) (entriesDepth rest)

end

/-- A fault and the level at which it is found. -/
abbrev LevelFault := Nat × LoadFault

/-- An object, a placeholder where there is a fault, and the faults in text order. -/
abbrev Built := Object × List LevelFault

/-- A placeholder with one fault. -/
def faultAt (level : Nat) (fault : LoadFault) : Built := (.null, [(level, fault)])

mutual

/-- The text of a scalar, or of the one that a mapping stands for. -/
def Node.text? : Node → Option String
  | .scalar _ text => some text
  | .mapping _ _ entries => markedText? entries
  | _ => none

/-- The text of the first value with a value mark. -/
def markedText? : List (Node × Node) → Option String
  | [] => none
  | (key, value) :: rest => if key.tag == coreTag "value" then Node.text? value else markedText? rest

end

/-- The only entry of a mapping node. -/
def singleEntry? : Node → Option (Node × Node)
  | .mapping _ _ [entry] => some entry
  | _ => none

/-- The object of a node that is met at a level; `fuel` bounds the nesting. -/
def build : Nat → Nat → Node → Built
  | 0, level, _ => faultAt level .malformed
  | fuel + 1, level, node =>
    match node with
    | .enclosing _ => (.null, [])
    | .scalar tag text =>
      match scalarReader? tag with
      | some read =>
        match read text with
        | .ok s => (.scalar s, [])
        | .error fault => faultAt level fault
      | none => faultAt level .malformed
    | .sequence tag items =>
      if tag == coreTag "seq" then
        let built := items.map (build fuel (level + 1))
        (.list (built.map (·.1)), built.flatMap (·.2))
      else if tag == coreTag "omap" || tag == coreTag "pairs" then
        let built := items.map fun item =>
          match singleEntry? item with
          | some (k, v) =>
            let key := build fuel (level + 1) k
            let value := build fuel (level + 1) v
            (Object.tuple [key.1, value.1], key.2 ++ value.2)
          | none => faultAt (level + 1) .malformed
        (.list (built.map (·.1)), built.flatMap (·.2))
      else faultAt level .malformed
    | .mapping place tag entries =>
      if tag == coreTag "map" || tag == coreTag "set" then
        match mergeEntries? entries with
        | none => faultAt (level + 1) .malformed
        | some (merged, own) =>
          let built := (merged ++ own).map fun (k, v) =>
            let key := build fuel (level + 1) k
            let value := build fuel (level + 1) v
            let faults := if key.1.plain.isKey then key.2 ++ value.2
              else key.2 ++ (level + 1, LoadFault.malformed) :: value.2
            ((key.1.plain, value.1), faults)
          let collected := built.foldl (fun entries (kv, _) => Value.putEntry kv.1 kv.2 entries) []
          let object := if tag == coreTag "map" then Object.mapping place collected
            else .set (collected.map (·.1))
          (object, built.flatMap (·.2))
      else match scalarReader? tag, markedText? entries with
        | some read, some text =>
          -- the form of a moment is looked for in the mapping itself
          if tag == coreTag "timestamp" then faultAt level .notText
          else match read text with
            | .ok s => (.scalar s, [])
            | .error fault => faultAt level fault
        | _, _ => faultAt level .malformed

/-- The first fault at the smallest level. -/
def firstFault? (faults : List LevelFault) : Option LoadFault :=
  match (faults.map (·.1)).min? with
  | none => none
  | some level => (faults.find? fun f => f.1 == level).map (·.2)

/-- What reads YAML texts. -/
abbrev Library := String → Except LoadFault Object

/-- The object of a text, null if it holds no document. -/
def loadObject : Library := fun text =>
  match readNode text with
  | .error fault => .error fault.toLoadFault
  | .ok none => .ok .null
  | .ok (some node) =>
    let (object, faults) := build (node.depth + 1) 0 node
    match firstFault? faults with
    | some fault => .error fault
    | none => .ok object

/-- The value of a text. -/
def load (text : String) : Except LoadFault Value :=
  Object.plain <$> loadObject text

end SchemaReconcile.Yaml
