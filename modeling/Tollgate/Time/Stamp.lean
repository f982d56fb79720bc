/-
Time stamps in texts: a date and a time of day with an offset from universal time, as RFC 3339 has
them. Written stamps are in universal time and carry as many fractional digits as they need; read
stamps may have any offset and any number of fractional digits, of which nine count.
-/
import Tollgate.Text.Integer
import Tollgate.Time.Instant

namespace Tollgate.Stamp

/-! ## Writing -/

/-- A number in at least `width` digits. -/
def padded (width n : Nat) : List Char :=
  let ds := Nat.toDigits 10 n
  List.replicate (width - ds.length) '0' ++ ds

/-- A year: four digits, with a sign where these do not suffice. -/
def yearDigits (year : Int) : List Char :=
  if 0 ≤ year ∧ year ≤ 9999 then padded 4 year.toNat
  else (if year < 0 then '-' else '+') :: padded 4 year.natAbs

/-- The fraction of a second, without zeros at its end. -/
def fraction (nanos : Nat) : List Char :=
  if nanos = 0 then [] else '.' :: Text.trimmedRight (· == '0') (padded 9 nanos)

/-- The stamp of an instant. A billion nanoseconds or more show as one second more, which makes 60 in a leap
second that a clock can show. -/
def chars (t : Instant) : List Char :=
  let d := t.date
  let s := t.secondOfDay.toNat
  let second := s % 60 + t.nanos / Instant.nanosPerSecond
  yearDigits d.year ++ '-' :: padded 2 d.month ++ '-' :: padded 2 d.day ++
    'T' :: padded 2 (s / 3600) ++ ':' :: padded 2 (s / 60 % 60) ++ ':' :: padded 2 second ++
    fraction (t.nanos % Instant.nanosPerSecond) ++ ['Z']

/-- The stamp of an instant as a text. -/
def ofInstant (t : Instant) : String := String.ofList (chars t)

/-! ## Reading -/

/-- A number of exactly `width` digits, and the rest. -/
def digits? (width : Nat) (s : List Char) : Option (Nat × List Char) :=
  let ds := s.take width
  if ds.length = width ∧ ds.all Char.isDigit then some (Nat.ofDigitChars 10 ds 0, s.drop width) else none

/-- One of some characters, and the rest. -/
def one? (p : Char → Bool) : List Char → Option (Char × List Char)
  | [] => none
  | c :: rest => if p c then some (c, rest) else none

/-- The nanoseconds of an optional fraction of which nine digits count, and the rest. -/
def fraction? : List Char → Option (Nat × List Char)
  | '.' :: s =>
    let ds := s.takeWhile Char.isDigit
    if ds.isEmpty then none
    else
      let kept := ds.take 9
      some (Nat.ofDigitChars 10 kept 0 * 10 ^ (9 - kept.length), s.dropWhile Char.isDigit)
  | s => some (0, s)

/-- The offset in minutes, which ends the stamp: `Z`, or a sign, two digits of hours below 24, a colon
and two digits of minutes below 60. -/
def offset? (s : List Char) : Option Int := do
  let (sign, s) ← one? (fun c => c == 'Z' || c == 'z' || c == '+' || c == '-' || c == '\u2212') s
  if sign = 'Z' ∨ sign = 'z' then if s.isEmpty then some 0 else none
  else
    let (hours, s) ← digits? 2 s
    let (_, s) ← one? (· == ':') s
    let (minutes, s) ← digits? 2 s
    guard (hours < 24 ∧ minutes < 60 ∧ s.isEmpty)
    let size : Int := hours * 60 + minutes
    return if sign = '+' then size else -size

/-- The instant of a stamp. -/
def chars? (s : List Char) : Option Instant := do
  let (year, s) ← digits? 4 s
  let (_, s) ← one? (· == '-') s
  let (month, s) ← digits? 2 s
  let (_, s) ← one? (· == '-') s
  let (day, s) ← digits? 2 s
  let (_, s) ← one? (fun c => c == 'T' || c == 't' || c == ' ') s
  let (hour, s) ← digits? 2 s
  let (_, s) ← one? (· == ':') s
  let (minute, s) ← digits? 2 s
  let (_, s) ← one? (· == ':') s
  let (second, s) ← digits? 2 s
  let (nanos, s) ← fraction? s
  let offset ← offset? s
  let date : Date := ⟨year, month, day⟩
  guard (date.isValid ∧ hour < 24 ∧ minute < 60 ∧ second ≤ 60)
  let clock : Int := date.toDays * 86400 + hour * 3600 + minute * 60 + min second 59
  return ⟨clock - offset * 60, if second = 60 then nanos + Instant.nanosPerSecond else nanos⟩

/-- The instant of a stamp in a text. -/
def read? (s : String) : Option Instant := chars? s.toList

end Tollgate.Stamp
