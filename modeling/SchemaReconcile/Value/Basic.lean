import SchemaReconcile.Calendar
import SchemaReconcile.Number.Decimal
import SchemaReconcile.Number.Shortest

/-!
# Dynamic values

Schema documents, driver rows and log records carry values whose type is known only when they are
read.  A mapping is a list of entries in insertion order with pairwise different keys, where numbers of
different types are the same key when they are equal.
-/

namespace SchemaReconcile

open Number (Binary64 Decimal)

/-- The forms in which binary data is held. -/
inductive BinaryKind where
  | bytes
  | bytearray
  | memoryview
  deriving DecidableEq, Repr, Inhabited

/-- The name of a form of binary data. -/
def BinaryKind.name : BinaryKind → String
  | bytes => "bytes"
  | bytearray => "bytearray"
  | memoryview => "memoryview"

/-- A value of a type known only when it is read. -/
inductive Value where
  | null
  | bool (b : Bool)
  | int (n : Int)
  | float (x : Binary64)
  | decimal (d : Decimal)
  | text (s : String)
  | binary (kind : BinaryKind) (bytes : List UInt8)
  | list (items : List Value)
  | tuple (items : List Value)
  | set (items : List Value)
  | dict (entries : List (Value × Value))
  | date (d : CivilDate)
  | time (t : CivilTime)
  deriving Repr, Inhabited

namespace Value

/-- The name of the type of a value. -/
def typeName : Value → String
  | null => "NoneType"
  | bool _ => "bool"
  | int _ => "int"
  | float _ => "float"
  | decimal _ => "Decimal"
  | text _ => "str"
  | binary kind _ => kind.name
  | list _ => "list"
  | tuple _ => "tuple"
  | set _ => "set"
  | dict _ => "dict"
  | date _ => "date"
  | time _ => "datetime"

/-- Whether a value is no collection of others. -/
def isScalar : Value → Bool
  | list _ | tuple _ | set _ | dict _ => false
  | _ => true

/-- Whether a value can be gone through item by item. -/
def isCollection : Value → Bool
  | list _ | tuple _ | set _ | text _ | binary _ _ | dict _ => true
  | _ => false

/-- Whether a value counts as true: not null, not false, not zero and not empty. -/
def truthy : Value → Bool
  | null => false
  | bool b => b
  | int n => n != 0
  | float x => !(x.equal (Binary64.zero false))
  | decimal (.finite _ coefficient _) => coefficient != 0
  | decimal _ => true
  | text s => !s.isEmpty
  | binary _ bytes => !bytes.isEmpty
  | list items => !items.isEmpty
  | tuple items => !items.isEmpty
  | set items => !items.isEmpty
  | dict entries => !entries.isEmpty
  | date _ => true
  | time _ => true

/-- The integer that a number equals, truth values counting as zero and one. -/
def integral? : Value → Option Int
  | bool b => some (if b then 1 else 0)
  | int n => some n
  | float x => x.toInt?
  | decimal d => d.toInt?
  | _ => none

/-- Whether two scalars are the same key. -/
def sameScalar : Value → Value → Bool
  | null, null => true
  | text s, text t => s == t
  | binary k bs, binary k' bs' => bs == bs' && k != .bytearray && k' != .bytearray
  | date d, date e => d == e
  | time t, time u => t == u
  | float x, float y => x.equal y
  | decimal x, decimal y => x == y
  | x, y =>
    match x.integral?, y.integral? with
    | some m, some n => m == n
    | _, _ => false

mutual

/-- Whether two values that may be keys are the same key. -/
def sameKey : Value → Value → Bool
  | tuple as, tuple bs => sameKeys as bs
  | x, y => sameScalar x y

/-- Whether the values of two lists are the same keys, one by one. -/
def sameKeys : List Value → List Value → Bool
  | [], [] => true
  | a :: as, b :: bs => sameKey a b && sameKeys as bs
  | _, _ => false

end

mutual

/-- Whether a value may be a key: lists, sets, mappings and changeable bytes may not. -/
def isKey : Value → Bool
  | list _ => false
  | set _ => false
  | dict _ => false
  | binary kind _ => kind != .bytearray
  | tuple items => areKeys items
  | _ => true

/-- Whether every value of a list may be a key. -/
def areKeys : List Value → Bool
  | [] => true
  | v :: vs => isKey v && areKeys vs

end

/-- The value of a key in a list of entries. -/
def entry? {α : Type} (key : Value) : List (Value × α) → Option α
  | [] => none
  | (k, v) :: rest => if sameKey k key then some v else entry? key rest

/-- Entries with a value for a key: in the place of that key if it is there, at the end otherwise. -/
def putEntry {α : Type} (key : Value) (value : α) : List (Value × α) → List (Value × α)
  | [] => [(key, value)]
  | (k, v) :: rest => if sameKey k key then (k, value) :: rest else (k, v) :: putEntry key value rest

/-- The value of a text key of a mapping. -/
def get? (v : Value) (key : String) : Option Value :=
  match v with
  | dict entries => entry? (text key) entries
  | _ => none

/-- A mapping with text keys. -/
def object (entries : List (String × Value)) : Value :=
  dict (entries.map fun (k, v) => (text k, v))

/-- A list of texts. -/
def texts (items : List String) : Value :=
  list (items.map text)

/-- A text or null. -/
def optionalText : Option String → Value
  | none => null
  | some s => text s

/-- A truth value or null. -/
def optionalBool : Option Bool → Value
  | none => null
  | some b => bool b

/-- A number of things. -/
def count (n : Nat) : Value :=
  int (Int.ofNat n)

end Value

end SchemaReconcile
