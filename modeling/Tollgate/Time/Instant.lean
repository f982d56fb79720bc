/-
Instants in seconds and nanoseconds. A leap second has no number of its own: it is the second before
it with a billion nanoseconds more. An instant may have as many after any second; where that second
does not end a minute, no clock shows such a leap second.
-/
import Tollgate.Time.Calendar

namespace Tollgate

/-- Seconds from the first of January 1970, and nanoseconds; a billion or more of these in a leap
second. -/
structure Instant where
  secs : Int
  nanos : Nat
deriving DecidableEq, Repr

namespace Instant

/-- Nanoseconds in a second. -/
def nanosPerSecond : Nat := 1000000000

/-- The first second that is kept, in the year -262143. -/
def firstSecond : Int := (Date.mk (-262143) 1 1).toDays * 86400

/-- The last second that is kept, in the year 262142. -/
def lastSecond : Int := (Date.mk 262143 1 1).toDays * 86400 - 1

/-- Whether a second lies within the years that are kept. -/
def representable (secs : Int) : Bool := firstSecond ≤ secs && secs ≤ lastSecond

/-- Whether there is such an instant. -/
def isValid (t : Instant) : Bool := representable t.secs && t.nanos < 2 * nanosPerSecond

/-- Whether there is such an instant on a clock: a leap second follows a second that ends a minute. Only
such instants are made from seconds and nanoseconds, and only such ones are read. -/
def isRegular (t : Instant) : Bool :=
  representable t.secs &&
    (t.nanos < nanosPerSecond || (t.nanos < 2 * nanosPerSecond && t.secs % 60 = 59))

/-- The day of an instant. -/
def date (t : Instant) : Date := Date.ofDays (t.secs / 86400)

/-- The second within the day. -/
def secondOfDay (t : Instant) : Int := t.secs % 86400

/-- Whether the instant lies in a leap second. -/
def inLeap (t : Instant) : Bool := nanosPerSecond ≤ t.nanos

/-- The nanoseconds from `u` to `t`. A leap second that one of them lies in is counted when the other
has a later time of day. -/
def nanosSince (t u : Instant) : Int :=
  let counted : Int :=
    if u.secondOfDay < t.secondOfDay then if u.inLeap then 1 else 0
    else if t.secondOfDay < u.secondOfDay then if t.inLeap then -1 else 0
    else 0
  (t.secs - u.secs + counted) * nanosPerSecond + ((t.nanos : Int) - u.nanos)

/-- The whole minutes between two instants, whichever comes first. -/
def minutesApart (t u : Instant) : Nat := (t.nanosSince u).natAbs / (60 * nanosPerSecond)

end Instant

end Tollgate
