/-
The Gregorian calendar, reckoned backwards and forwards without end. Days are counted from the first of
January 1970. A year is taken to begin in March, so that the leap day is its last day and the lengths
of its months follow one rule; four hundred such years have the same number of days each time.
-/
namespace Tollgate

/-- A day by year, month and day of the month. -/
structure Date where
  year : Int
  month : Nat
  day : Nat
deriving DecidableEq, Repr

namespace Date

/-- Whether a year has a leap day. -/
def isLeap (year : Int) : Bool := year % 4 = 0 && (year % 100 ≠ 0 || year % 400 = 0)

/-- The number of days in a month. -/
def daysInMonth (year : Int) (month : Nat) : Nat :=
  if month = 2 then if isLeap year then 29 else 28
  else if month = 4 ∨ month = 6 ∨ month = 9 ∨ month = 11 then 30
  else 31

/-- Whether there is such a day. -/
def isValid (d : Date) : Bool :=
  1 ≤ d.month && d.month ≤ 12 && 1 ≤ d.day && d.day ≤ daysInMonth d.year d.month

/-- Days in four hundred years. -/
def daysInEra : Nat := 146097

/-- Days from the first of March of the year 0 to the first of January 1970. -/
def daysToEpoch : Int := 719468

/-- The first day of a month, counted from March as month 0, within the year. -/
def monthStart (m : Nat) : Nat := (153 * m + 2) / 5

/-- The days from the first of January 1970. -/
def toDays (d : Date) : Int :=
  let year := if d.month ≤ 2 then d.year - 1 else d.year
  let era := year / 400
  let yearOfEra := (year - 400 * era).toNat
  let dayOfYear := monthStart ((d.month + 9) % 12) + (d.day - 1)
  era * daysInEra + (365 * yearOfEra + yearOfEra / 4 - yearOfEra / 100 + dayOfYear : Nat) - daysToEpoch

/-- The year within four hundred that a day belongs to, and the day within it. The last year of a
century, and the last day of four years, make up for the leap days. -/
def splitEra (dayOfEra : Nat) : Nat × Nat :=
  let century := min (dayOfEra / 36524) 3
  let dayOfCentury := dayOfEra - 36524 * century
  let four := dayOfCentury / 1461
  let dayOfFour := dayOfCentury - 1461 * four
  let year := min (dayOfFour / 365) 3
  (100 * century + 4 * four + year, dayOfFour - 365 * year)

/-- The day a number of days after the first of January 1970. -/
def ofDays (n : Int) : Date :=
  let shifted := n + daysToEpoch
  let era := shifted / daysInEra
  let (yearOfEra, dayOfYear) := splitEra (shifted - era * daysInEra).toNat
  let m := (5 * dayOfYear + 2) / 153
  let month := if m < 10 then m + 3 else m - 9
  let year := era * 400 + yearOfEra
  { year := if month ≤ 2 then year + 1 else year
    month
    day := dayOfYear - monthStart m + 1 }

end Date

end Tollgate
