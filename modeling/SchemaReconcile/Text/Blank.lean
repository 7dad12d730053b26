import SchemaReconcile.Text.Ranges

/-!
# Blank characters

The white space of the Unicode standard, with the four separator controls `U+001C` to `U+001F`.
-/

namespace SchemaReconcile.Text

/-- Ends of the ranges of white space. -/
def blankBounds : List Nat := [
  9, 14, 28, 33, 133, 134, 160, 161, 5760, 5761, 8192, 8203, 8232, 8234, 8239, 8240, 8287, 8288,
  12288, 12289]

/-- Whether a character is white space. -/
def isBlank (c : Char) : Bool :=
  inRanges blankBounds c.toNat

/-- Whether a character is ASCII white space: the space, tab, line feed, vertical tab, form feed and
carriage return. -/
def isAsciiBlank (c : Char) : Bool :=
  c.toNat == 32 || (9 ≤ c.toNat && c.toNat ≤ 13)

/-- A text without the characters of a class at its two ends. -/
def trimBoth (blank : Char → Bool) (cs : List Char) : List Char :=
  ((cs.dropWhile blank).reverse.dropWhile blank).reverse

end SchemaReconcile.Text
