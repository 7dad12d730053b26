import SchemaReconcile.Text.Alphanumeric
import SchemaReconcile.Text.Blank
import SchemaReconcile.Text.Integer

/-!
# Binary floating point

Numbers of the 64-bit binary format as exact values: a sign, a mantissa below `2 ^ 53` and an exponent
of two that is at least `-1074`, or an infinity, or no number.  Every conversion goes through an exact
fraction and one rounding to nearest, ties to an even mantissa.
-/

namespace SchemaReconcile.Number

/-- A number of the 64-bit binary format; a finite one is `± mantissa * 2 ^ exponent`. -/
inductive Binary64 where
  | finite (negative : Bool) (mantissa : Nat) (exponent : Int)
  | infinite (negative : Bool)
  | nan
  deriving DecidableEq, Repr, Inhabited

namespace Binary64

/-- The exponent of the smallest positive number. -/
def minExponent : Int := -1074

/-- The exponent of the largest finite number. -/
def maxExponent : Int := 971

/-- The positive or negative zero. -/
def zero (negative : Bool) : Binary64 := finite negative 0 minExponent

/-- The quotient of two natural numbers rounded to nearest, ties to even. -/
def roundQuotient (num den : Nat) : Nat :=
  let q := num / den
  let twice := 2 * (num % den)
  if twice > den || (twice == den && q % 2 == 1) then q + 1 else q

/-- The exponent that gives a positive fraction a mantissa of 53 bits, or `minExponent` if that is
larger. -/
def exponentOfFraction (num den : Nat) : Int :=
  let gap : Int := Int.ofNat num.log2 - Int.ofNat den.log2
  let atLeast := if 0 ≤ gap then num ≥ den * Nat.pow 2 gap.toNat else num * Nat.pow 2 (-gap).toNat ≥ den
  max (if atLeast then gap - 52 else gap - 53) minExponent

/-- The number nearest to a fraction. -/
def ofFraction (negative : Bool) (num den : Nat) : Binary64 :=
  if num == 0 then zero negative
  else
    let e := exponentOfFraction num den
    let m := if 0 ≤ e then roundQuotient num (den * Nat.pow 2 e.toNat)
      else roundQuotient (num * Nat.pow 2 (-e).toNat) den
    let (m, e) := if m == Nat.pow 2 53 then (Nat.pow 2 52, e + 1) else (m, e)
    if e > maxExponent then infinite negative else finite negative m e

/-- The number nearest to `± coefficient * 10 ^ exponent`, where the coefficient has at most `digits`
digits. -/
def ofDecimal (negative : Bool) (coefficient digits : Nat) (exponent : Int) : Binary64 :=
  if coefficient == 0 then zero negative
  else if exponent > 400 then infinite negative
  else if exponent + Int.ofNat digits < -400 then zero negative
  else if 0 ≤ exponent then ofFraction negative (coefficient * Nat.pow 10 exponent.toNat) 1
  else ofFraction negative coefficient (Nat.pow 10 (-exponent).toNat)

/-- The number nearest to an integer. -/
def ofInt (n : Int) : Binary64 :=
  ofFraction (n < 0) n.natAbs 1

/-- The integer equal to a finite number without a fraction. -/
def toInt? : Binary64 → Option Int
  | finite negative m e =>
    let signed (n : Nat) : Int := if negative then -Int.ofNat n else Int.ofNat n
    if 0 ≤ e then some (signed (m * Nat.pow 2 e.toNat))
    else if m % Nat.pow 2 (-e).toNat == 0 then some (signed (m / Nat.pow 2 (-e).toNat))
    else none
  | _ => none

/-- A finite number without its fraction. -/
def truncated? : Binary64 → Option Int
  | finite negative m e =>
    let n := if 0 ≤ e then m * Nat.pow 2 e.toNat else m / Nat.pow 2 (-e).toNat
    some (if negative then -Int.ofNat n else Int.ofNat n)
  | _ => none

/-- Whether a number is not a finite one. -/
def isSpecial : Binary64 → Bool
  | finite _ _ _ => false
  | _ => true

/-- Numeric equality: the two zeros are equal, and no number equals nothing, itself included. -/
def equal : Binary64 → Binary64 → Bool
  | finite n m e, finite n' m' e' => (m == 0 && m' == 0) || (n == n' && m == m' && e == e')
  | infinite n, infinite n' => n == n'
  | _, _ => false

/-- The number with the other sign. -/
def negate : Binary64 → Binary64
  | finite n m e => finite (!n) m e
  | infinite n => infinite (!n)
  | nan => nan

/-- The signed numerator over `2 ^ 1074` of a finite number. -/
def scaled (negative : Bool) (m : Nat) (e : Int) : Int :=
  let n := Int.ofNat (m * Nat.pow 2 (e - minExponent).toNat)
  if negative then -n else n

/-- The sum of two numbers. -/
def add : Binary64 → Binary64 → Binary64
  | finite n m e, finite n' m' e' =>
    let sum := scaled n m e + scaled n' m' e'
    if sum == 0 then zero (n && n') else ofFraction (sum < 0) sum.natAbs (Nat.pow 2 1074)
  | infinite n, infinite n' => if n == n' then infinite n else nan
  | infinite n, finite _ _ _ => infinite n
  | finite _ _ _, infinite n => infinite n
  | _, _ => nan

/-- The product of a number and a natural number, `none` if that one is beyond the finite numbers. -/
def scale (x : Binary64) (k : Nat) : Option Binary64 :=
  match ofInt k with
  | finite _ mk ek =>
    match x with
    | finite n m e =>
      let num := m * mk
      let exponent := e + ek
      if 0 ≤ exponent then some (ofFraction n (num * Nat.pow 2 exponent.toNat) 1)
      else some (ofFraction n num (Nat.pow 2 (-exponent).toNat))
    | infinite n => some (if k == 0 then nan else infinite n)
    | nan => some nan
  | _ => none

/-- The unsigned number that a decimal text writes: digits with an optional point, at least one digit,
and an optional exponent.  Single low lines may stand between digits. -/
def readUnsigned (cs : List Char) : Option Binary64 := do
  let run (cs : List Char) : Option Text.DigitRun :=
    match cs with
    | c :: _ => if (Text.decimalValue? c).isSome then Text.digitRun? false cs else some ⟨[], cs⟩
    | [] => some ⟨[], []⟩
  let whole ← run cs
  let (fraction, rest) ← match whole.rest with
    | '.' :: rest => (run rest).map fun f => (f.digits, f.rest)
    | rest => some ([], rest)
  let digits := whole.digits ++ fraction
  if digits.isEmpty then none
  let exponent ← match rest with
    | [] => some 0
    | c :: rest =>
      if c == 'e' || c == 'E' then do
        let (negative, rest) := Text.takeSign rest
        let e ← run rest
        if e.digits.isEmpty || !e.rest.isEmpty then none
        let n := Int.ofNat (Text.natOfDigits e.digits)
        some (if negative then -n else n)
      else none
  let shown := digits.dropWhile (· == 0)
  return ofDecimal false (Text.natOfDigits shown) shown.length (exponent - Int.ofNat fraction.length)

/-- The number that a text writes: white space at both ends, a sign, and a decimal number, an infinity
or no number. -/
def ofText? (text : String) : Option Binary64 := do
  let (negative, body) := Text.takeSign (Text.trimBoth Text.isBlank text.toList)
  let magnitude ← match String.ofList (body.map Char.toLower) with
    | "inf" | "infinity" => some (infinite false)
    | "nan" => some nan
    | _ => readUnsigned body
  return if negative then magnitude.negate else magnitude

end Binary64

end SchemaReconcile.Number
