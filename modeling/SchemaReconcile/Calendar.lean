/-!
# Dates and times of day

Days of the proleptic Gregorian calendar from year 1 to year 9999, and moments on such a day with
microseconds and an optional offset from universal time.
-/

namespace SchemaReconcile

/-- A day of the calendar. -/
structure CivilDate where
  (year month day : Nat)
  deriving DecidableEq, Repr, Inhabited

/-- A moment: a day, a time of day, and the offset from universal time in seconds if it is known. -/
structure CivilTime where
  date : CivilDate
  (hour minute second micro : Nat)
  offset : Option Int := none
  deriving DecidableEq, Repr, Inhabited

/-- Why numbers do not name a day or a moment. -/
inductive CalendarFault where
  | year (value : Nat)
  | month
  | day
  | hour
  | minute
  | second
  | offset (seconds : Int)
  deriving DecidableEq, Repr

/-- Whether a year has a leap day. -/
def isLeapYear (year : Nat) : Bool :=
  year % 4 == 0 && (year % 100 != 0 || year % 400 == 0)

/-- The number of days of a month. -/
def daysInMonth (year month : Nat) : Nat :=
  if month == 2 then if isLeapYear year then 29 else 28
  else if [4, 6, 9, 11].contains month then 30
  else 31

/-- The day that three numbers name. -/
def CivilDate.of (year month day : Nat) : Except CalendarFault CivilDate :=
  if year < 1 || year > 9999 then .error (.year year)
  else if month < 1 || month > 12 then .error .month
  else if day < 1 || day > daysInMonth year month then .error .day
  else .ok ⟨year, month, day⟩

/-- The moment that numbers name. -/
def CivilTime.of (date : CivilDate) (hour minute second micro : Nat) (offset : Option Int) :
    Except CalendarFault CivilTime :=
  if hour > 23 then .error .hour
  else if minute > 59 then .error .minute
  else if second > 59 then .error .second
  else .ok ⟨date, hour, minute, second, micro, offset⟩

/-- The last `width` decimal digits of a number, most significant first. -/
def paddedDigits : Nat → Nat → List Char
  | 0, _ => []
  | width + 1, n => paddedDigits width (n / 10) ++ [Char.ofNat (48 + n % 10)]

/-- A number with at least `width` digits. -/
def padded (width n : Nat) : String :=
  String.ofList (paddedDigits width n)

/-- The text of a span of whole days and seconds, as days and the seconds of the last day. -/
def spanText (seconds : Int) : String :=
  let days := Int.fdiv seconds 86400
  let rest := Int.fmod seconds 86400
  let parts := (if days == 0 then [] else [s!"days={days}"]) ++
    (if rest == 0 then [] else [s!"seconds={rest}"])
  "datetime.timedelta(" ++ (if parts.isEmpty then "0" else ", ".intercalate parts) ++ ")"

/-- The wording of a fault. -/
def CalendarFault.message : CalendarFault → String
  | year value => s!"year {value} is out of range"
  | month => "month must be in 1..12"
  | day => "day is out of range for month"
  | hour => "hour must be in 0..23"
  | minute => "minute must be in 0..59"
  | second => "second must be in 0..59"
  | offset seconds =>
    "offset must be a timedelta strictly between -timedelta(hours=24) and timedelta(hours=24), not " ++
      spanText seconds ++ "."

/-- The text `YYYY-MM-DD`. -/
def CivilDate.iso (d : CivilDate) : String :=
  padded 4 d.year ++ "-" ++ padded 2 d.month ++ "-" ++ padded 2 d.day

/-- The text `±HH:MM`, with seconds if there are any. -/
def offsetText (seconds : Int) : String :=
  let n := seconds.natAbs
  (if seconds < 0 then "-" else "+") ++ padded 2 (n / 3600) ++ ":" ++ padded 2 (n / 60 % 60) ++
    (if n % 60 == 0 then "" else ":" ++ padded 2 (n % 60))

/-- The text of a moment with a separator between day and time; the fraction is left out when it is
zero. -/
def CivilTime.isoWith (separator : String) (t : CivilTime) : String :=
  t.date.iso ++ separator ++ padded 2 t.hour ++ ":" ++ padded 2 t.minute ++ ":" ++
    padded 2 t.second ++ (if t.micro == 0 then "" else "." ++ padded 6 t.micro) ++
    (t.offset.map offsetText).getD ""

/-- The text `YYYY-MM-DDTHH:MM:SS` of a moment. -/
def CivilTime.iso (t : CivilTime) : String := t.isoWith "T"

/-- The constructor form of a day. -/
def CivilDate.shown (d : CivilDate) : String :=
  s!"datetime.date({d.year}, {d.month}, {d.day})"

/-- The constructor form of a moment: zero seconds and fractions are left out at the end. -/
def CivilTime.shown (t : CivilTime) : String :=
  let head := [toString t.date.year, toString t.date.month, toString t.date.day, toString t.hour,
    toString t.minute]
  let tail := if t.micro != 0 then [toString t.second, toString t.micro]
    else if t.second != 0 then [toString t.second] else []
  let zone := match t.offset with
    | none => []
    | some 0 => ["tzinfo=datetime.timezone.utc"]
    | some seconds => ["tzinfo=datetime.timezone(" ++ spanText seconds ++ ")"]
  "datetime.datetime(" ++ ", ".intercalate (head ++ tail ++ zone) ++ ")"

end SchemaReconcile
