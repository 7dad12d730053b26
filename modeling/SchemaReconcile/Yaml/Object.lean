import SchemaReconcile.Value.Basic

/-!
# Values that share their mappings

A text can write a mapping once and name it in several places.  Its value then holds one mapping in all of
them, so that a change made in one place is seen in the others.  `Object` is a value before such changes, where
each mapping tells the place at which it was written; `Object.valueWith` makes changes by these places, and
`Object.plain` makes none.
-/

namespace SchemaReconcile.Yaml

/-- A value that is no collection of others. -/
abbrev Scalar := { v : Value // v.isScalar = true }

/-- A value whose mappings are told apart by the places at which they were written.  The items of a set are keys,
so there is no mapping among them. -/
inductive Object where
  | scalar (s : Scalar)
  | set (items : List Value)
  | list (items : List Object)
  | tuple (items : List Object)
  | mapping (place : Nat) (entries : List (Value × Object))
  deriving Repr, Inhabited

/-- No value. -/
def Scalar.null : Scalar := ⟨.null, rfl⟩

/-- The object of no value. -/
def Object.null : Object := .scalar .null

section

variable (change : Nat → List (Value × Value) → List (Value × Value))

mutual

/-- The value of an object after a change of the entries of its mappings. -/
def Object.valueWith : Object → Value
  | .scalar s => s
  | .set items => .set items
  | .list items => .list (itemValues items)
  | .tuple items => .tuple (itemValues items)
  | .mapping place entries => .dict (change place (entryValues entries))

/-- The values of items after a change. -/
def itemValues : List Object → List Value
  | [] => []
  | o :: rest => Object.valueWith o :: itemValues rest

/-- The values of entries after a change. -/
def entryValues : List (Value × Object) → List (Value × Value)
  | [] => []
  | (k, o) :: rest => (k, Object.valueWith o) :: entryValues rest

end

end

/-- The value of an object. -/
def Object.plain : Object → Value := Object.valueWith fun _ entries => entries

end SchemaReconcile.Yaml
