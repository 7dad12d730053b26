import SchemaReconcile.Model.Basic

/-!
# The order of shapes

A shape comes after the shapes that it nests, unless they nest it in turn.  The shapes are visited in the
order of the model, each after the shapes nested in it that are not being visited already.
-/

namespace SchemaReconcile.Artifact

/-- The last shape of a name. -/
def shapeOf (shapes : List JsonShape) (name : String) : Option JsonShape :=
  shapes.reverse.find? fun s => s.name == name

/-- Whether a shape of a name is in a list. -/
def hasShape (ordered : List JsonShape) (name : String) : Bool :=
  ordered.any fun s => s.name == name

/-- The ordered shapes after a visit; the shapes being visited are given by name, and their number bounds
the depth of the visit. -/
def visit (shapes : List JsonShape) : Nat → List String → List JsonShape → JsonShape → List JsonShape
  | 0, _, ordered, _ => ordered
  | depth + 1, visiting, ordered, shape =>
    if hasShape ordered shape.name || visiting.contains shape.name then ordered
    else
      let nested := shape.nested.filterMap (shapeOf shapes)
      nested.foldl (visit shapes depth (shape.name :: visiting)) ordered ++ [shape]

/-- The shapes in the order of their nesting. -/
def inOrder (shapes : List JsonShape) : List JsonShape :=
  shapes.foldl (visit shapes (shapes.length + 1) []) []

end SchemaReconcile.Artifact
