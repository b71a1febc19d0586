import RitualGate.Text.Numeral

/-!
# Instants

An instant counts nanoseconds from the start of the year 1970. It is written as a date and a time of
day, in one form with six decimals of a second, always of the same length, and in another with as
many decimals as it needs.
-/

namespace RitualGate

/-- A moment, in nanoseconds from the start of the year 1970. -/
structure Instant where
  nanos : Nat
deriving DecidableEq, Repr

/-- A day of the calendar. -/
structure CivilDate where
  year : Nat
  month : Nat
  day : Nat
deriving DecidableEq, Repr

namespace CivilDate

/-- The day that lies a number of days behind the first of January 1970. Years are counted from the
first of March, so that the leap day is the last day of its year. -/
def ofDays (days : Nat) : CivilDate :=
  let n := days + 719468
  let cycle := n / 146097
  let dayOfCycle := n % 146097
  let yearOfCycle :=
    (dayOfCycle - dayOfCycle / 1460 + dayOfCycle / 36524 - dayOfCycle / 146096) / 365
  let dayOfYear := dayOfCycle - (365 * yearOfCycle + yearOfCycle / 4 - yearOfCycle / 100)
  let month := (5 * dayOfYear + 2) / 153
  { year := yearOfCycle + 400 * cycle + (if month < 10 then 0 else 1)
    month := if month < 10 then month + 3 else month - 9
    day := dayOfYear - (153 * month + 2) / 5 + 1 }

end CivilDate

namespace Instant

/-- The last digits of a number, with zeros in front if it has fewer. -/
def padded : (width n : Nat) → List Char
  | 0, _ => []
  | width + 1, n => padded width (n / 10) ++ [Nat.digitChar (n % 10)]

/-- The whole seconds of an instant. -/
def seconds (t : Instant) : Nat := t.nanos / 1000000000

/-- What an instant has beyond its whole seconds. -/
def fraction (t : Instant) : Nat := t.nanos % 1000000000

/-- The date and the time of day, to the second. -/
def secondChars (t : Instant) : List Char :=
  let date := CivilDate.ofDays (t.seconds / 86400)
  let time := t.seconds % 86400
  padded 4 date.year ++ '-' :: padded 2 date.month ++ '-' :: padded 2 date.day ++
    'T' :: padded 2 (time / 3600) ++ ':' :: padded 2 (time / 60 % 60) ++ ':' :: padded 2 (time % 60)

/-- The form with six decimals of a second. -/
def stamp (t : Instant) : String :=
  String.ofList (t.secondChars ++ '.' :: padded 6 (t.fraction / 1000) ++ ['Z'])

/-- The decimals of a second: none, three, six or nine. -/
def fractionChars (t : Instant) : List Char :=
  if t.fraction = 0 then []
  else if t.fraction % 1000000 = 0 then '.' :: padded 3 (t.fraction / 1000000)
  else if t.fraction % 1000 = 0 then '.' :: padded 6 (t.fraction / 1000)
  else '.' :: padded 9 t.fraction

/-- The form with as many decimals of a second as needed and the offset from universal time. -/
def text (t : Instant) : String :=
  String.ofList (t.secondChars ++ t.fractionChars ++ "+00:00".toList)

end Instant

end RitualGate
