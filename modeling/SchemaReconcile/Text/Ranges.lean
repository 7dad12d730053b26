/-!
# Ranges of code points

A set of code points is a strictly increasing list of bounds: a code point belongs to the set exactly
when an odd number of bounds are at most that code point.
-/

namespace SchemaReconcile.Text

/-- Whether a code point belongs to the set with the given bounds; `inside` tells on which side of the
bounds already passed it lies. -/
def inRangesFrom (inside : Bool) : List Nat → Nat → Bool
  | [], _ => inside
  | b :: bs, n => if n < b then inside else inRangesFrom (!inside) bs n

/-- Whether a code point belongs to the set with the given bounds. -/
def inRanges (bounds : List Nat) (n : Nat) : Bool :=
  inRangesFrom false bounds n

end SchemaReconcile.Text
