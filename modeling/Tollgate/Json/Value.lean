/-
JSON values: what a text means once numbers are numbers and every name of an object has one value.
Not every text has a value: literals must denote texts, numbers must be finite, and nesting is limited.
-/
import Tollgate.Decimal.Binary64
import Tollgate.Json.Tree

namespace Tollgate.Json

/-- A number: whole numbers of 64 bits are kept as they are, all others are floating point. -/
inductive Number where
  | natural (n : Nat)
  | negative (n : Int)
  | float (x : Binary64)
deriving DecidableEq, Repr

namespace Number

/-- Digits are taken into a number as long as it fits 64 bits: the number, and the digits left over. -/
def accumulate (start : Nat) : List Char → Nat × List Char
  | [] => (start, [])
  | c :: rest =>
    let next := 10 * start + (c.toNat - 48)
    if next < 2 ^ 64 then accumulate next rest else (start, c :: rest)

/-- The magnitude `significand · 10^exponent`: one product or quotient of floating-point numbers, and
before it a quotient by `10^308` for as long as the exponent is below `-308`. -/
def scaled? (significand : Nat) (exponent : Int) : Option Binary64 :=
  let x := Binary64.ofQuotient significand 1
  if 308 < exponent then if significand = 0 then some x else none
  else if 0 ≤ exponent then
    let y := x.mulPow10 exponent.toNat
    if y.isFinite then some y else none
  else some (shrink x exponent.natAbs)
where
  /-- The quotient by a power of ten of any size. -/
  shrink (x : Binary64) (n : Nat) : Binary64 :=
    if n ≤ 308 then x.divPow10 n
    else if x.significand = 0 then x
    else shrink (x.divPow10 308) (n - 308)
  termination_by n

/-- The bounds of 32 signed bits, at which an exponent stops. -/
def clamped (e : Int) : Int := max (-(2 ^ 31)) (min (2 ^ 31 - 1) e)

/-- The floating-point number of a numeral with a point, an exponent or many digits. Digits beyond 64
bits count only for their place. -/
def float? (n : Numeral) : Option Binary64 := do
  let (whole, dropped) := accumulate 0 n.whole
  let (significand, left) := accumulate whole n.fraction
  let shift : Int := dropped.length - (n.fraction.length - left.length : Nat)
  let x ← match n.exponent with
    | none => scaled? significand shift
    | some e =>
      let negative := e.head? = some '-'
      let size := Nat.ofDigitChars 10 (e.filter Char.isDigit) 0
      if 2 ^ 31 ≤ size then if negative ∨ significand = 0 then some ⟨0⟩ else none
      else scaled? significand (clamped (if negative then shift - size else shift + size))
  return if n.negative then x.neg else x

/-- The number of a numeral; one too large for a floating-point number has none. -/
def ofNumeral? (n : Numeral) : Option Number :=
  let size := Nat.ofDigitChars 10 n.whole 0
  if n.fraction.isEmpty && n.exponent.isNone && size < 2 ^ 64 then
    if !n.negative then some (.natural size)
    else if size = 0 ∨ 2 ^ 63 < size then some (.float (Binary64.ofQuotient size 1).neg)
    else some (.negative (-(size : Int)))
  else (float? n).map .float

/-- The written form. -/
def chars : Number → List Char
  | .natural n => Nat.toDigits 10 n
  | .negative n => '-' :: Nat.toDigits 10 n.natAbs
  | .float x => x.toText

end Number

/-- A JSON value. Members of an object are ascending by name. -/
inductive Value where
  | null
  | bool (b : Bool)
  | number (n : Number)
  | text (s : String)
  | array (items : List Value)
  | object (members : List (String × Value))

/-- Gives a name a value: in place of the one it had, or at its place in the ascending order. -/
def insertMember {α : Type} (name : String) (v : α) : List (String × α) → List (String × α)
  | [] => [(name, v)]
  | (n, w) :: rest =>
    if n = name then (name, v) :: rest
    else if name < n then (name, v) :: (n, w) :: rest
    else (n, w) :: insertMember name v rest

/-- Members in ascending order; of a name written twice the last value counts. -/
def sortMembers {α : Type} (members : List (String × α)) : List (String × α) :=
  members.foldl (fun sorted m => insertMember m.1 m.2 sorted) []

/-- Values may be nested this deep. -/
def maxDepth : Nat := 127

mutual
/-- The value of a tree whose arrays and objects are nested at most `depth` deep. -/
def Tree.value? (depth : Nat) : Tree → Option Value
  | .null => some .null
  | .bool b => some (.bool b)
  | .number n => (Number.ofNumeral? n).map .number
  | .text t => t.map .text
  | .array items => if depth = 0 then none else (itemValues? (depth - 1) items).map .array
  | .object members =>
    if depth = 0 then none
    else (memberValues? (depth - 1) members).map fun ms => .object (sortMembers ms)
/-- The values of items in order. -/
def itemValues? (depth : Nat) : List Tree → Option (List Value)
  | [] => some []
  | t :: rest => do
    let v ← t.value? depth
    let vs ← itemValues? depth rest
    pure (v :: vs)
/-- The values of members in the order they were written. -/
def memberValues? (depth : Nat) : List (Option String × Tree) → Option (List (String × Value))
  | [] => some []
  | (name, t) :: rest => do
    let n ← name
    let v ← t.value? depth
    let vs ← memberValues? depth rest
    pure ((n, v) :: vs)
end

/-- The value of a text. -/
def Value.ofText? (s : String) : Option Value := do (← Tree.ofText? s).value? maxDepth

end Tollgate.Json
