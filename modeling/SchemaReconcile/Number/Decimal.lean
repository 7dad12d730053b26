import SchemaReconcile.Text.Blank
import SchemaReconcile.Text.Integer

/-!
# Decimal numbers

Exact decimal numbers with a sign, a coefficient and a power of ten, with infinities and two kinds of
no number, as they are exchanged with a database.
-/

namespace SchemaReconcile.Number

/-- A decimal number; a finite one is `± coefficient * 10 ^ exponent`. -/
inductive Decimal where
  | finite (negative : Bool) (coefficient : Nat) (exponent : Int)
  | infinite (negative : Bool)
  | nan (negative signaling : Bool) (payload : String)
  deriving DecidableEq, Repr, Inhabited

/-- The memory for integers, as the number of digits of the longest one that is ever built. -/
class Capacity where
  digits : Nat
  /-- Every integer that has a text can be built. -/
  maxDigits_le : Text.maxDigits ≤ digits

/-- An ordinary memory. -/
instance : Capacity := ⟨1000000000000, Nat.le_of_ble_eq_true rfl⟩

namespace Decimal

/-- The decimal digits of a coefficient. -/
def coefficientText (n : Nat) : List Char := (toString n).toList

/-- The text of a decimal: positional unless the exponent is positive or the number is below `1e-6`. -/
def text : Decimal → String
  | infinite negative => if negative then "-Infinity" else "Infinity"
  | nan negative signaling payload =>
    (if negative then "-" else "") ++ (if signaling then "sNaN" else "NaN") ++ payload
  | finite negative coefficient exponent =>
    let digits := coefficientText coefficient
    let count := Int.ofNat digits.length
    let left := exponent + count
    let point : Int := if exponent ≤ 0 && left > -6 then left else 1
    let body :=
      if point ≤ 0 then '0' :: '.' :: List.replicate (-point).toNat '0' ++ digits
      else if point ≥ count then digits ++ List.replicate (point - count).toNat '0'
      else digits.take point.toNat ++ '.' :: digits.drop point.toNat
    let power :=
      if left == point then []
      else 'E' :: (if left - point < 0 then '-' else '+') :: (toString (left - point).natAbs).toList
    String.ofList ((if negative then ['-'] else []) ++ body ++ power)

/-- The unsigned finite decimal that a text writes. -/
def readUnsigned (cs : List Char) : Option (Nat × Int) := do
  let digitsOf (cs : List Char) : List Nat × List Char :=
    ((cs.takeWhile fun c => (Text.decimalValue? c).isSome).filterMap Text.decimalValue?,
      cs.dropWhile fun c => (Text.decimalValue? c).isSome)
  let (whole, rest) := digitsOf cs
  let (fraction, rest) := match rest with
    | '.' :: rest => digitsOf rest
    | rest => ([], rest)
  if (whole ++ fraction).isEmpty then none
  let exponent ← match rest with
    | [] => some 0
    | c :: rest =>
      if c == 'e' || c == 'E' then
        let (negative, rest) := Text.takeSign rest
        let (digits, rest) := digitsOf rest
        if digits.isEmpty || !rest.isEmpty then none
        else some (if negative then -Int.ofNat (Text.natOfDigits digits)
          else Int.ofNat (Text.natOfDigits digits))
      else none
  return (Text.natOfDigits (whole ++ fraction), exponent - Int.ofNat fraction.length)

/-- The decimal that a text writes. -/
def ofText? (text : String) : Option Decimal :=
  let trimmed := (Text.trimBoth Text.isBlank text.toList).filter (· != '_')
  let (negative, body) := Text.takeSign trimmed
  let lowered := body.map Char.toLower
  if lowered == "inf".toList || lowered == "infinity".toList then some (infinite negative)
  else if lowered.take 3 == "nan".toList && (lowered.drop 3).all Char.isDigit then
    some (nan negative false (String.ofList ((lowered.drop 3).dropWhile (· == '0'))))
  else if lowered.take 4 == "snan".toList && (lowered.drop 4).all Char.isDigit then
    some (nan negative true (String.ofList ((lowered.drop 4).dropWhile (· == '0'))))
  else (readUnsigned body).map fun (coefficient, exponent) => finite negative coefficient exponent

/-- A natural number with a sign. -/
def signed (negative : Bool) (n : Nat) : Int :=
  if negative then -Int.ofNat n else Int.ofNat n

/-- The integer nearest to a finite decimal on the side of zero. -/
def truncate (negative : Bool) (coefficient : Nat) (exponent : Int) : Int :=
  if 0 ≤ exponent then
    if coefficient == 0 then 0 else signed negative (coefficient * Nat.pow 10 exponent.toNat)
  else if (coefficientText coefficient).length < (-exponent).toNat then 0
  else signed negative (coefficient / Nat.pow 10 (-exponent).toNat)

/-- The integer of a decimal is too long for memory.  It has a zero for each unit of the exponent, so a short
decimal can have a long integer; one without an exponent is held already. -/
def exhausts [Capacity] : Decimal → Bool
  | finite _ coefficient exponent =>
    0 < exponent && coefficient != 0 &&
      Capacity.digits < (coefficientText coefficient).length + exponent.toNat
  | _ => false

/-- The integer equal to a finite decimal. -/
def toInt? : Decimal → Option Int
  | finite negative coefficient exponent =>
    if 0 ≤ exponent || coefficient == 0 then some (truncate negative coefficient exponent)
    else if (coefficientText coefficient).length < (-exponent).toNat then none
    else if coefficient % Nat.pow 10 (-exponent).toNat == 0 then
      some (truncate negative coefficient exponent)
    else none
  | _ => none

end Decimal

end SchemaReconcile.Number
