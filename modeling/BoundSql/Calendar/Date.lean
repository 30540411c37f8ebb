import BoundSql.Text.Blank
import BoundSql.Text.Digits

/-!
# Calendar dates

Dates of the proleptic Gregorian calendar as day counts from 2000-01-01, over
the years `-262143 … 262142`.  A date is written `YYYY-MM-DD`; years outside
`0 … 9999` carry a sign.
-/

namespace BoundSql

namespace Calendar

/-- A year whose February has 29 days. -/
def isLeap (year : Int) : Bool := year % 4 == 0 && (year % 100 != 0 || year % 400 == 0)

/-- The days of a month, zero for a month that does not exist. -/
def daysInMonth (year : Int) : Nat → Nat
  | 1 | 3 | 5 | 7 | 8 | 10 | 12 => 31
  | 4 | 6 | 9 | 11 => 30
  | 2 => if isLeap year then 29 else 28
  | _ => 0

/-- The days from 2000-01-01 to a date.  Years are counted from March, so that
the leap day is a year's last and a month's first day is `(153 m + 2) / 5` days
after the first of March. -/
def dayNumber (year : Int) (month day : Nat) : Int :=
  let y := if month ≤ 2 then year - 1 else year
  let m : Int := ((month : Int) + 9) % 12
  y * 365 + y / 4 - y / 100 + y / 400 + (153 * m + 2) / 5 + day - 730426

/-- The year, month and day of a day number.  Within an era of 400 years the day
determines the year, then the day within the year the month. -/
def civil (dayNumber : Int) : Int × Nat × Nat :=
  let z := dayNumber + 730425
  let era := z / 146097
  let dayOfEra := (z % 146097).toNat
  let yearOfEra :=
    (dayOfEra - dayOfEra / 1460 + dayOfEra / 36524 - dayOfEra / 146096) / 365
  let dayOfYear := dayOfEra - (365 * yearOfEra + yearOfEra / 4 - yearOfEra / 100)
  let m := (5 * dayOfYear + 2) / 153
  let day := dayOfYear - (153 * m + 2) / 5 + 1
  let month := if m < 10 then m + 3 else m - 9
  let year := (yearOfEra : Int) + era * 400
  (if month ≤ 2 then year + 1 else year, month, day)

/-- The first day of the calendar, `-262143-01-01`. -/
def firstDay : Int := -96476249

/-- The last day of the calendar, `262142-12-31`. -/
def lastDay : Int := 95015279

end Calendar

/-- A date: days from 2000-01-01. -/
structure Date where
  day : Int
  firstDay_le : Calendar.firstDay ≤ day
  le_lastDay : day ≤ Calendar.lastDay
  deriving DecidableEq

namespace Date

/-- The date of a day number within the calendar. -/
def ofDay? (day : Int) : Option Date :=
  if h : Calendar.firstDay ≤ day ∧ day ≤ Calendar.lastDay then some ⟨day, h.1, h.2⟩ else none

/-- The date of a year, a month and a day that exist in the calendar. -/
def ofCivil? (year : Int) (month day : Nat) : Option Date :=
  if 1 ≤ day && day ≤ Calendar.daysInMonth year month then
    ofDay? (Calendar.dayNumber year month day)
  else none

/-- The text of a year: four digits, or a sign and at least four. -/
def yearText (year : Int) : String :=
  if 0 ≤ year && year ≤ 9999 then Text.padded 4 year.toNat
  else (if year < 0 then "-" else "+") ++ Text.padded 4 year.natAbs

/-- The text `YYYY-MM-DD`. -/
def toText (d : Date) : String :=
  let (year, month, day) := Calendar.civil d.day
  s!"{yearText year}-{Text.padded 2 month}-{Text.padded 2 day}"

/-- A run of at least one and at most `limit` digits, if one is given, and what
follows it. -/
def readDigits? (limit : Option Nat) (cs : List Char) : Option (Nat × List Char) :=
  let run := cs.takeWhile Char.isDigit
  let ds := match limit with
    | some n => run.take n
    | none => run
  if ds.isEmpty then none else some (Text.natOfDigits ds, cs.drop ds.length)

/-- A year: four digits at most, or a sign and any number of them. -/
def readYear? : List Char → Option (Int × List Char)
  | '-' :: cs => (readDigits? none cs).map fun (n, rest) => (-(n : Int), rest)
  | '+' :: cs => (readDigits? none cs).map fun (n, rest) => ((n : Int), rest)
  | cs => (readDigits? (some 4) cs).map fun (n, rest) => ((n : Int), rest)

/-- A hyphen, white space allowed on both sides. -/
def readHyphen? (cs : List Char) : Option (List Char) :=
  match Text.trimStart cs with
  | '-' :: rest => some (Text.trimStart rest)
  | _ => none

/-- Reads year, month and day between hyphens.  Zeros in front may be missing,
and white space may stand around every part. -/
def ofText? (s : String) : Option Date := do
  let (year, rest) ← readYear? (Text.trimStart s.toList)
  let (month, rest) ← readDigits? (some 2) (← readHyphen? rest)
  let (day, rest) ← readDigits? (some 2) (← readHyphen? rest)
  if (Text.trimStart rest).isEmpty then ofCivil? year month day else none

end Date

end BoundSql
