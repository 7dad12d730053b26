import SchemaReconcile.Number.Binary64

/-!
# Shortest decimal text

The text of a binary number has the fewest significant digits that read back as the same number, the
nearest such digits among equally short ones.  It is positional from `1e-4` up to, but not including,
`1e16`, and scientific elsewhere.
-/

namespace SchemaReconcile.Number

namespace Binary64

/-- The interval of fractions over one denominator that round to a positive number: its lower end, the
number itself, its upper end, the denominator, and whether the ends belong to it. -/
structure Interval where
  lower : Nat
  value : Nat
  upper : Nat
  denominator : Nat
  closed : Bool
  deriving DecidableEq, Repr

/-- The interval of a positive mantissa and its exponent.  Below a power of two the next number is half
as far away. -/
def interval (m : Nat) (e : Int) : Interval :=
  let up := Nat.pow 2 e.toNat
  let below := if m == Nat.pow 2 52 && e > minExponent then 1 else 2
  ⟨(4 * m - below) * up, 4 * m * up, (4 * m + 2) * up, 4 * Nat.pow 2 (-e).toNat, m % 2 == 0⟩

/-- Whether `n / d` belongs to the interval. -/
def Interval.contains (i : Interval) (n d : Nat) : Bool :=
  if i.closed then i.lower * d ≤ n * i.denominator && n * i.denominator ≤ i.upper * d
  else i.lower * d < n * i.denominator && n * i.denominator < i.upper * d

/-- The exponent `p` with `10 ^ (p - 1) ≤ value < 10 ^ p`, found from a lower estimate. -/
def decimalPoint (i : Interval) : Nat → Int → Int
  | 0, p => p
  | fuel + 1, p =>
    let below := if 0 ≤ p then i.value < i.denominator * Nat.pow 10 p.toNat
      else i.value * Nat.pow 10 (-p).toNat < i.denominator
    if below then p else decimalPoint i fuel (p + 1)

/-- Digits and the place of the decimal point after the first digits. -/
structure Digits where
  /-- The significant digits as one number. -/
  coefficient : Nat
  /-- The power of ten of the last digit. -/
  exponent : Int
  deriving DecidableEq, Repr

/-- The point of the grid of multiples of `10 ^ exponent` that belongs to the interval and lies nearest
to the number, if one of its two neighbours belongs to it. -/
def gridPoint? (i : Interval) (exponent : Int) : Option Digits :=
  let (unit, parts) :=
    if 0 ≤ exponent then (Nat.pow 10 exponent.toNat, 1) else (1, Nat.pow 10 (-exponent).toNat)
  -- the number is `value / denominator`; a grid point is `k * unit / parts`
  let down := i.value * parts / (i.denominator * unit)
  let inside (k : Nat) := 0 < k && i.contains (k * unit) parts
  let twice := 2 * (i.value * parts % (i.denominator * unit))
  match inside down, inside (down + 1) with
  | true, true =>
    let pickUp := twice > i.denominator * unit || (twice == i.denominator * unit && down % 2 == 1)
    some ⟨if pickUp then down + 1 else down, exponent⟩
  | true, false => some ⟨down, exponent⟩
  | false, true => some ⟨down + 1, exponent⟩
  | false, false => none

/-- The fewest digits for a positive number: grids of 1, 2, … digits are tried in turn. -/
def shortestFrom (i : Interval) (point : Int) : Nat → Nat → Digits
  | 0, count => ⟨i.value / i.denominator, point - Int.ofNat count⟩
  | fuel + 1, count =>
    match gridPoint? i (point - Int.ofNat count) with
    | some digits => digits
    | none => shortestFrom i point fuel (count + 1)

/-- The fewest digits that read back as a positive number. -/
def shortest (m : Nat) (e : Int) : Digits :=
  let i := interval m e
  let estimate : Int := (Int.ofNat m.log2 + e) * 30103 / 100000 - 1
  shortestFrom i (decimalPoint i 8 estimate) 17 1

/-- Digits without trailing zeros. -/
def Digits.trimmed : Nat → Digits → Digits
  | 0, d => d
  | fuel + 1, d =>
    if d.coefficient != 0 && d.coefficient % 10 == 0 then
      Digits.trimmed fuel ⟨d.coefficient / 10, d.exponent + 1⟩
    else d

/-- Digits in positional or scientific form. -/
def Digits.text (d : Digits) : String :=
  let digits := (toString d.coefficient).toList
  let count := Int.ofNat digits.length
  let point := count + d.exponent
  let chars :=
    if point ≤ -4 || point > 16 then
      let power := point - 1
      let mantissa := match digits with
        | [] => []
        | [c] => [c]
        | c :: rest => c :: '.' :: rest
      let size := (toString power.natAbs).toList
      mantissa ++ 'e' :: (if power < 0 then '-' else '+') ::
        (if size.length < 2 then '0' :: size else size)
    else if point ≤ 0 then '0' :: '.' :: List.replicate (-point).toNat '0' ++ digits
    else if point ≥ count then digits ++ List.replicate (point - count).toNat '0' ++ ['.', '0']
    else digits.take point.toNat ++ '.' :: digits.drop point.toNat
  String.ofList chars

/-- The text of a number. -/
def text : Binary64 → String
  | nan => "nan"
  | infinite negative => if negative then "-inf" else "inf"
  | finite negative m e =>
    let magnitude := if m == 0 then "0.0" else ((shortest m e).trimmed 20).text
    if negative then "-" ++ magnitude else magnitude

end Binary64

end SchemaReconcile.Number
