/-
Octets in base sixty-four with the alphabet that is safe in addresses, without padding. Three octets
make four characters, one makes two and two make three; bits that stand for no octet must be zero, so
each octet string has one written form.
-/
import Tollgate.Bytes.Utf8

namespace Tollgate.Base64url

/-- The character of a value below sixty-four. -/
def char (n : Nat) : Char :=
  if n < 26 then Char.ofNat (65 + n)
  else if n < 52 then Char.ofNat (71 + n)
  else if n < 62 then Char.ofNat (n - 4)
  else if n = 62 then '-' else '_'

/-- The value of a character of the alphabet. -/
def value? (c : Char) : Option Nat :=
  if 'A' ≤ c ∧ c ≤ 'Z' then some (c.toNat - 65)
  else if 'a' ≤ c ∧ c ≤ 'z' then some (c.toNat - 71)
  else if '0' ≤ c ∧ c ≤ '9' then some (c.toNat + 4)
  else if c = '-' then some 62
  else if c = '_' then some 63
  else none

/-- The written form. -/
def encode : Bytes → List Char
  | [] => []
  | [x] => [char (x.toNat / 4), char (x.toNat % 4 * 16)]
  | [x, y] => [char (x.toNat / 4), char (x.toNat % 4 * 16 + y.toNat / 16), char (y.toNat % 16 * 4)]
  | x :: y :: z :: rest =>
    char (x.toNat / 4) :: char (x.toNat % 4 * 16 + y.toNat / 16) ::
      char (y.toNat % 16 * 4 + z.toNat / 64) :: char (z.toNat % 64) :: encode rest

/-- The octets of a written form. -/
def decode? : List Char → Option Bytes
  | [] => some []
  | [_] => none
  | [a, b] => do
    let p ← value? a
    let q ← value? b
    if q % 16 = 0 then some [UInt8.ofNat (p * 4 + q / 16)] else none
  | [a, b, c] => do
    let p ← value? a
    let q ← value? b
    let r ← value? c
    if r % 4 = 0 then some [UInt8.ofNat (p * 4 + q / 16), UInt8.ofNat (q % 16 * 16 + r / 4)] else none
  | a :: b :: c :: d :: rest => do
    let p ← value? a
    let q ← value? b
    let r ← value? c
    let s ← value? d
    let more ← decode? rest
    pure (UInt8.ofNat (p * 4 + q / 16) :: UInt8.ofNat (q % 16 * 16 + r / 4) ::
      UInt8.ofNat (r % 4 * 64 + s) :: more)

end Tollgate.Base64url
