/-
Durations in nanoseconds, and the form in which settings reports show them.
-/
import Tollgate.Text.Blank

namespace Tollgate.Duration

/-- The nanoseconds of seconds. -/
def ofSeconds (n : Nat) : Nat := n * 1000000000

/-- The nanoseconds of milliseconds. -/
def ofMillis (n : Nat) : Nat := n * 1000000

/-- The whole seconds of nanoseconds. -/
def seconds (nanos : Nat) : Nat := nanos / 1000000000

/-- The whole milliseconds of nanoseconds. -/
def millis (nanos : Nat) : Nat := nanos / 1000000

/-- A number of units and what is left, as a decimal fraction of as many digits as are needed. -/
def shownIn (name : String) (unit digits nanos : Nat) : String :=
  let rest := Nat.toDigits 10 (nanos % unit)
  let fraction := Text.trimmedRight (· == '0') (List.replicate (digits - rest.length) '0' ++ rest)
  (nanos / unit).repr ++ (if fraction.isEmpty then "" else String.ofList ('.' :: fraction)) ++ name

/-- The form in reports: in the largest unit of which there is at least one. -/
def shown (nanos : Nat) : String :=
  if 1000000000 ≤ nanos then shownIn "s" 1000000000 9 nanos
  else if 1000000 ≤ nanos then shownIn "ms" 1000000 6 nanos
  else if 1000 ≤ nanos then shownIn "µs" 1000 3 nanos
  else nanos.repr ++ "ns"

end Tollgate.Duration
