import BoundSql.Calendar.Date

/-!
# Times and timestamps

A time of day counts seconds and nanoseconds.  A leap second is the second
before it with a second's worth of nanoseconds on top.  Written, a time has no
fraction or one of three, six or nine digits, the fewest that are exact.
-/

namespace BoundSql

/-- A time of day. -/
structure Time where
  /-- Seconds from midnight. -/
  second : Nat
  /-- Nanoseconds within the second, and within the leap second after it. -/
  nano : Nat
  second_lt : second < 86400
  nano_lt : nano < 2000000000
  deriving DecidableEq

namespace Time

/-- The time of a count of seconds and nanoseconds in range. -/
def ofParts? (second nano : Nat) : Option Time :=
  if h : second < 86400 ∧ nano < 2000000000 then some ⟨second, nano, h.1, h.2⟩ else none

/-- The time at a count of microseconds from midnight, full days taken off. -/
def ofMicros (micros : Int) : Time :=
  let n := (micros % 86400000000).toNat
  have h : n < 86400000000 := by omega
  ⟨n / 1000000, n % 1000000 * 1000, by omega, by omega⟩

/-- Microseconds from midnight, what is smaller cut off. -/
def micros (t : Time) : Int := t.second * 1000000 + t.nano / 1000

/-- The fraction of a second in the fewest digits. -/
def fractionText (nano : Nat) : String :=
  if nano = 0 then ""
  else if nano % 1000000 = 0 then "." ++ Text.padded 3 (nano / 1000000)
  else if nano % 1000 = 0 then "." ++ Text.padded 6 (nano / 1000)
  else "." ++ Text.padded 9 nano

/-- The text `HH:MM:SS` and a fraction. -/
def toText (t : Time) : String :=
  let leap := t.nano / 1000000000
  let hour := Text.padded 2 (t.second / 3600)
  let minute := Text.padded 2 (t.second / 60 % 60)
  let second := Text.padded 2 (t.second % 60 + leap)
  s!"{hour}:{minute}:{second}{fractionText (t.nano % 1000000000)}"

/-- Reads two digits. -/
def readTwo? : List Char → Option (Nat × List Char)
  | a :: b :: rest =>
    if a.isDigit && b.isDigit then some (Text.natOfDigits [a, b], rest) else none
  | _ => none

/-- Reads a point and digits as nanoseconds; digits past the ninth do not count. -/
def readFraction? : List Char → Option Nat
  | [] => some 0
  | '.' :: ds =>
    if ds ≠ [] && ds.all Char.isDigit then
      let nine := ds.take 9
      some (Text.natOfDigits nine * Nat.pow 10 (9 - nine.length))
    else none
  | _ => none

/-- Reads `HH:MM:SS` and an optional fraction; second 60 is the leap second. -/
def ofChars? (cs : List Char) : Option Time := do
  let (hour, rest) ← readTwo? cs
  let ':' :: rest := rest | none
  let (minute, rest) ← readTwo? rest
  let ':' :: rest := rest | none
  let (second, rest) ← readTwo? rest
  let nano ← readFraction? rest
  if hour < 24 && minute < 60 && second ≤ 60 then
    let leap := second / 60
    ofParts? (hour * 3600 + minute * 60 + (second - leap)) (leap * 1000000000 + nano)
  else none

/-- Reads `HH:MM:SS` and an optional fraction. -/
def ofText? (s : String) : Option Time := ofChars? s.toList

end Time

/-- A date and a time of day. -/
structure Timestamp where
  date : Date
  time : Time
  deriving DecidableEq

namespace Timestamp

/-- The text of the date, a `T`, and the text of the time. -/
def toText (t : Timestamp) : String := s!"{t.date.toText}T{t.time.toText}"

/-- Reads a date, a `T` and a time. -/
def ofText? (s : String) : Option Timestamp := do
  let cs := s.toList
  let date ← Date.ofText? (String.ofList (cs.takeWhile (· != 'T')))
  let time ← Time.ofChars? ((cs.dropWhile (· != 'T')).drop 1)
  return ⟨date, time⟩

/-- The timestamp at a count of microseconds from 2000-01-01, if its date is in
the calendar. -/
def ofMicros? (micros : Int) : Option Timestamp :=
  (Date.ofDay? (micros / 86400000000)).map fun date => ⟨date, Time.ofMicros micros⟩

/-- Microseconds from 2000-01-01, what is smaller cut off toward that day. -/
def micros (t : Timestamp) : Int :=
  ((t.date.day * 86400 + t.time.second) * 1000000000 + t.time.nano).tdiv 1000

end Timestamp

end BoundSql
