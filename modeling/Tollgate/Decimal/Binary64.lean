/-
Floating-point numbers of 64 bits by their bit patterns: exact reading of the bits, rounding of a
quotient, and the fewest decimal digits that read back.
-/
namespace Tollgate

/-- The bit pattern of a floating-point number of 64 bits. -/
structure Binary64 where
  bits : UInt64
deriving DecidableEq, Repr

namespace Binary64

/-- Whether the sign bit is set. -/
def negative (x : Binary64) : Bool := x.bits >>> 63 == 1

/-- The eleven bits of the exponent. -/
def exponentField (x : Binary64) : Nat := ((x.bits >>> 52) &&& 0x7FF).toNat

/-- The fifty-two bits of the fraction. -/
def fractionField (x : Binary64) : Nat := (x.bits &&& 0xFFFFFFFFFFFFF).toNat

/-- Neither infinite nor no number. -/
def isFinite (x : Binary64) : Bool := x.exponentField ≠ 0x7FF

/-- The whole number `m` in `m · 2^q`, the magnitude of a finite number. -/
def significand (x : Binary64) : Nat :=
  if x.exponentField = 0 then x.fractionField else 2 ^ 52 + x.fractionField

/-- The exponent `q` in `m · 2^q`. -/
def exponent (x : Binary64) : Int :=
  if x.exponentField = 0 then -1074 else (x.exponentField : Int) - 1075

/-- The same magnitude with the other sign. -/
def neg (x : Binary64) : Binary64 := ⟨x.bits ^^^ 0x8000000000000000⟩

/-- Positive infinity. -/
def infinity : Binary64 := ⟨0x7FF0000000000000⟩

/-! ## Rounding -/

/-- The whole number nearest to a quotient; of two the even one. -/
def roundQuotient (num den : Nat) : Nat :=
  let q := num / den
  let r := num % den
  if 2 * r < den then q
  else if den < 2 * r then q + 1
  else if q % 2 = 0 then q else q + 1

/-- The number nearest to `num / den`; of two the one with an even significand. -/
def ofQuotient (num den : Nat) : Binary64 :=
  if num = 0 then ⟨0⟩
  else
    -- the quotient lies strictly between 2^(scale - 1) and 2^(scale + 1)
    let scale : Int := (num.log2 : Int) - (den.log2 : Int)
    let below := num * 2 ^ (-scale).toNat < den * 2 ^ scale.toNat
    let top := if below then scale - 1 else scale
    -- the last place of a normal number is 52 below the first, and never below -1074
    let q := max (top - 52) (-1074)
    let m := roundQuotient (num * 2 ^ (-q).toNat) (den * 2 ^ q.toNat)
    if m < 2 ^ 52 then ⟨m.toUInt64⟩
    else
      -- rounding up to the next power of two moves the last place
      let (m, q) := if m = 2 ^ 53 then (2 ^ 52, q + 1) else (m, q)
      if 971 < q then infinity
      else ⟨((q + 1075).toNat * 2 ^ 52 + (m - 2 ^ 52)).toUInt64⟩

/-- The product with a power of ten that is itself rounded first. -/
def mulPow10 (x : Binary64) (n : Nat) : Binary64 :=
  let p := ofQuotient (10 ^ n) 1
  let q := x.exponent + p.exponent
  ofQuotient (x.significand * p.significand * 2 ^ q.toNat) (2 ^ (-q).toNat)

/-- The quotient by a power of ten that is itself rounded first. -/
def divPow10 (x : Binary64) (n : Nat) : Binary64 :=
  let p := ofQuotient (10 ^ n) 1
  let q := x.exponent - p.exponent
  ofQuotient (x.significand * 2 ^ q.toNat) (p.significand * 2 ^ (-q).toNat)

/-- The whole part, without the sign. -/
def wholePart (x : Binary64) : Nat :=
  x.significand * 2 ^ x.exponent.toNat / 2 ^ (-x.exponent).toNat

/-! ## The fewest digits -/

/-- A decimal number `digits · 10^exp`. -/
structure Shortest where
  digits : Nat
  exp : Int
deriving DecidableEq, Repr

/-- Compares `a · 10^i` with `n · 2^j`. -/
def compareScaled (a : Nat) (i : Int) (n : Nat) (j : Int) : Ordering :=
  compare (a * 10 ^ i.toNat * 2 ^ (-j).toNat) (n * 2 ^ j.toNat * 10 ^ (-i).toNat)

/-- Whether a decimal lies among the numbers that round to `x`. Below a power of two the gap is half
as wide, and the ends belong to an even significand. -/
def readsBack (x : Binary64) (d : Shortest) : Bool :=
  let m := x.significand
  let narrow := x.fractionField = 0 ∧ 1 < x.exponentField
  let low := compareScaled d.digits d.exp (if narrow then 4 * m - 1 else 4 * m - 2) (x.exponent - 2)
  let high := compareScaled d.digits d.exp (4 * m + 2) (x.exponent - 2)
  let ends := m % 2 = 0
  (low = .gt ∨ (ends ∧ low = .eq)) ∧ (high = .lt ∨ (ends ∧ high = .eq))

/-- The decimal on the grid of `10^exp` that is nearest to `x` and reads back, if one does. -/
def onGrid? (x : Binary64) (exp : Int) : Option Shortest :=
  let num := x.significand * 2 ^ x.exponent.toNat * 10 ^ (-exp).toNat
  let den := 2 ^ (-x.exponent).toNat * 10 ^ exp.toNat
  let below : Shortest := ⟨num / den, exp⟩
  let above : Shortest := ⟨num / den + 1, exp⟩
  let nearest := roundQuotient num den
  let (first, second) := if nearest = below.digits then (below, above) else (above, below)
  if first.digits ≠ 0 ∧ x.readsBack first then some first
  else if second.digits ≠ 0 ∧ x.readsBack second then some second
  else none

/-- The number of digits before the point of a non-zero value: the least `k` with `x < 10^k`. -/
def magnitude (x : Binary64) : Int :=
  let bits := (x.significand.log2 : Int) + x.exponent
  -- 30103 / 100000 is a little over log 2, so the guess is off by at most one step
  let guess := bits * 30103 / 100000
  if compareScaled 1 guess x.significand x.exponent = .gt then guess
  else if compareScaled 1 (guess + 1) x.significand x.exponent = .gt then guess + 1
  else guess + 2

/-- The fewest digits that read back to a finite number other than zero. -/
def shortest (x : Binary64) : Shortest :=
  let k := x.magnitude
  match (List.range 17).findSome? fun i : Nat => x.onGrid? (k - (i : Int) - 1) with
  | some d => d
  | none => ⟨x.significand * 2 ^ x.exponent.toNat * 5 ^ (-x.exponent).toNat, min x.exponent 0⟩

/-- The text of a finite number: positional from `10^-5` up to `10^16`, a fraction always shown,
otherwise one digit before the point and an exponent that always has a sign. -/
def toText (x : Binary64) : List Char :=
  let sign := if x.negative then ['-'] else []
  if x.significand = 0 then sign ++ "0.0".toList
  else
    let s := x.shortest
    let ds := Nat.toDigits 10 s.digits
    let n : Int := ds.length + s.exp
    let zeros (i : Int) : List Char := List.replicate i.toNat '0'
    let body : List Char :=
      if 0 ≤ s.exp ∧ n ≤ 16 then ds ++ zeros s.exp ++ ['.', '0']
      else if 0 < n ∧ n ≤ 16 then ds.take n.toNat ++ '.' :: ds.drop n.toNat
      else if -5 < n ∧ n ≤ 0 then ['0', '.'] ++ zeros (-n) ++ ds
      else
        let e := n - 1
        ds.take 1 ++ (if ds.length = 1 then [] else '.' :: ds.drop 1) ++
          'e' :: (if e < 0 then '-' else '+') :: Nat.toDigits 10 e.natAbs
    sign ++ body

end Binary64

end Tollgate
