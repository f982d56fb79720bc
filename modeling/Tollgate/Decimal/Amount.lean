/-
Amounts of money: a non-negative decimal number with a fixed count of fractional digits. The two
numbers that make it up leave no room for an exponent or a leading zero, so an amount has one written
form, and reading keeps the fractional digits that were written.
-/
import Tollgate.Text.Quoted
import Tollgate.Text.Integer

namespace Tollgate

/-- `units` divided by ten to the `scale`, shown with exactly `scale` fractional digits. -/
structure Amount where
  units : Nat
  scale : Nat
deriving DecidableEq, Repr

namespace Amount

/-- Why a text is no amount. -/
inductive Fault where
  | negative
  | invalid (text : String)
  | exponent (text : String)
  /-- The exponent's magnitude is beyond 64 signed bits: no answer is given at all. -/
  | overflow
deriving DecidableEq, Repr

/-- What is said of a text that is no amount. -/
def Fault.message : Fault → String
  | .negative => "amount must not be negative"
  | .invalid text => "invalid amount: " ++ Text.quoted text
  | .exponent text => "amount exponent out of range: " ++ Text.quoted text
  | .overflow => "amount exponent overflows"

/-- Exponents beyond this are refused rather than written out. -/
def maxExponent : Nat := 64

/-- The written form: the whole part, and after a point the fractional digits if there are any. -/
def digits (a : Amount) : List Char :=
  let all := Nat.toDigits 10 a.units
  if a.scale = 0 then all
  else
    let padded := List.replicate (a.scale + 1 - all.length) '0' ++ all
    padded.take (padded.length - a.scale) ++ '.' :: padded.drop (padded.length - a.scale)

/-- The written form as a text. -/
def toText (a : Amount) : String := String.ofList a.digits

/-- The amount of a whole part, a fractional part and a power of ten: `whole.fraction · 10^e`. Moving
the point to the right uses up fractional digits, then adds zeros. -/
def ofParts (whole fraction : List Char) (e : Int) : Amount where
  units := Nat.ofDigitChars 10 (whole ++ fraction) 0 * 10 ^ (e - fraction.length).toNat
  scale := ((fraction.length : Int) - e).toNat

/-- Reads `digits[.digits][(e|E)[+|-]digits]`, with white space around it. -/
def parse (text : String) : Except Fault Amount := do
  let s := Text.trimmed text.toList
  if s.head? = some '-' then throw .negative
  let (mantissa, e) ←
    match Text.cutAt? (fun c => c == 'e' || c == 'E') s with
    | some (mantissa, digits) =>
      match Text.int64? digits with
      | some e => pure (mantissa, e)
      | none => throw (.invalid text)
    | none => pure (s, 0)
  let (whole, fraction) ←
    match Text.cutAt? (· == '.') mantissa with
    | some (whole, fraction) => if fraction.isEmpty then throw (.invalid text) else pure (whole, fraction)
    | none => pure (mantissa, [])
  if whole.isEmpty || !whole.all Char.isDigit || !fraction.all Char.isDigit then throw (.invalid text)
  if e = -(2 ^ 63) then throw .overflow
  if e.natAbs > maxExponent then throw (.exponent text)
  return ofParts whole fraction e

end Amount

end Tollgate
