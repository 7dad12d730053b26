import SchemaReconcile.Text.Alphanumeric
import SchemaReconcile.Text.Blank
import SchemaReconcile.Text.Quoted

/-!
# Integer text

Decimal integers in text: white space at both ends, one sign, and decimal digits of any script with
single low lines between them.  Texts of more than `maxDigits` digits are refused in both directions.
-/

namespace SchemaReconcile.Text

/-- The number of decimal digits up to which integers and text are converted. -/
def maxDigits : Nat := 4300

/-- Why a conversion between an integer and its text is refused. -/
inductive IntegerFault where
  /-- The text is not an integer of a base. -/
  | malformed (base : Nat) (text : String)
  /-- The text has this many digits, more than the limit. -/
  | longText (digits : Nat)
  /-- The text of the number would have more digits than the limit. -/
  | longNumber
  deriving DecidableEq, Repr

/-- The wording of a refusal. -/
def IntegerFault.message : IntegerFault → String
  | malformed base text => s!"invalid literal for int() with base {base}: " ++ quoted text
  | longText digits =>
    s!"Exceeds the limit ({maxDigits} digits) for integer string conversion: value has {digits} " ++
      "digits; use sys.set_int_max_str_digits() to increase the limit"
  | longNumber =>
    s!"Exceeds the limit ({maxDigits} digits) for integer string conversion; " ++
      "use sys.set_int_max_str_digits() to increase the limit"

/-- White space at the ends of an integer. -/
def isIntegerBlank (c : Char) : Bool :=
  if c.toNat < 128 then isAsciiBlank c else isBlank c

/-- A run of decimal digits with single low lines between them. -/
structure DigitRun where
  /-- The digits, most significant first. -/
  digits : List Nat
  /-- What follows the run. -/
  rest : List Char
  deriving DecidableEq, Repr

/-- The longest run of digits with single low lines, given whether a low line stands before; `none`
when the run would hold two low lines in a row or end in one. -/
def digitRun? (afterLine : Bool) : List Char → Option DigitRun
  | [] => if afterLine then none else some ⟨[], []⟩
  | c :: cs =>
    if c == '_' then
      if afterLine then none else digitRun? true cs
    else match decimalValue? c with
      | some d => (digitRun? false cs).map fun run => ⟨d :: run.digits, run.rest⟩
      | none => if afterLine then none else some ⟨[], c :: cs⟩

/-- The number written by digits, most significant first. -/
def natOfDigits (digits : List Nat) : Nat :=
  digits.foldl (fun n d => 10 * n + d) 0

/-- The sign in front of a number and what follows; `true` is minus. -/
def takeSign : List Char → Bool × List Char
  | '-' :: cs => (true, cs)
  | '+' :: cs => (false, cs)
  | cs => (false, cs)

/-- The integer that a text writes. -/
def readInteger (text : String) : Except IntegerFault Int :=
  let (negative, body) := takeSign (text.toList.dropWhile isIntegerBlank)
  match digitRun? true body with
  | none => .error (.malformed 10 text)
  | some run =>
    if run.digits.length > maxDigits then .error (.longText run.digits.length)
    else if run.rest.all isIntegerBlank then
      let n := natOfDigits run.digits
      .ok (if negative then -Int.ofNat n else Int.ofNat n)
    else .error (.malformed 10 text)

/-- The marks that may stand in front of the digits of a base. -/
def baseMark? (base : Nat) : Option Char :=
  [(2, 'b'), (8, 'o'), (16, 'x')].lookup base

/-- The integer that a text writes in base 2, 8 or 16, possibly with the mark of the base. -/
def readRadix (base : Nat) (text : String) : Except IntegerFault Int :=
  let (negative, body) := takeSign (trimBoth isIntegerBlank text.toList)
  let digits := match body with
    | '0' :: mark :: rest => if some mark.toLower == baseMark? base then rest else body
    | _ => body
  let values := digits.filterMap fun c => (hexValue? c).filter (· < base)
  if digits.isEmpty || values.length < digits.length then .error (.malformed base text)
  else
    let n := values.foldl (fun n d => base * n + d) 0
    .ok (if negative then -Int.ofNat n else Int.ofNat n)

/-- The decimal text of an integer within the limit. -/
def writeInteger (n : Int) : Except IntegerFault String :=
  if n.natAbs < Nat.pow 10 maxDigits then .ok (toString n) else .error .longNumber

end SchemaReconcile.Text
