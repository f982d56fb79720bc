/-
Whole numbers in settings and exponents: ASCII digits after an optional sign, within the bounds of a
machine integer.
-/
import Tollgate.Text.Blank

namespace Tollgate.Text

/-- The value of one or more ASCII digits. -/
def natural? (s : List Char) : Option Nat :=
  if s.isEmpty || !s.all Char.isDigit then none else some (Nat.ofDigitChars 10 s 0)

/-- A number below `2 ^ bits`, with an optional plus sign. -/
def unsigned? (bits : Nat) (s : List Char) : Option Nat := do
  let digits := match s with
    | '+' :: rest => rest
    | _ => s
  let n ← natural? digits
  if n < 2 ^ bits then some n else none

/-- A number of 64 bits, with an optional sign. -/
def int64? (s : List Char) : Option Int := do
  let (negative, digits) := match s with
    | '+' :: rest => (false, rest)
    | '-' :: rest => (true, rest)
    | _ => (false, s)
  let n ← natural? digits
  if negative then if n ≤ 2 ^ 63 then some (-(n : Int)) else none
  else if n < 2 ^ 63 then some n else none

end Tollgate.Text
