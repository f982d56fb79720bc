/-
Signatures on the twisted Edwards curve of Curve25519. A key is the octets of a seed or of a point; a
signature is accepted when the point recomputed from its scalar has the very octets that it names.
-/
import Tollgate.Bytes.Number
import Tollgate.Crypto.Modular
import Tollgate.Crypto.Sha2

namespace Tollgate.Ed25519

open Tollgate.Modular

/-- The prime of the field. -/
def p : Nat := 2 ^ 255 - 19

/-- The order of the base point. -/
def order : Nat := 2 ^ 252 + 27742317777372353535851937790883648493

/-- The constant of the curve `-x² + y² = 1 + d·x²·y²`: `-121665 / 121666`. -/
def d : Nat := 37095705934669439343138083508754565189542113879843219016388785533085940283555

/-- A square root of minus one. -/
def rootOfMinusOne : Nat :=
  19681161376707505956807079304988542015446066515923890162744021073123829784752

/-- A point `(x / z, y / z)`, with `t = x·y / z`. -/
structure Point where
  x : Nat
  y : Nat
  z : Nat
  t : Nat

/-- The neutral point. -/
def zero : Point := ⟨0, 1, 1, 0⟩

/-- The base point. -/
def base : Point :=
  let x := 15112221349535400772501151409588531511454012693041857206046113283949847762202
  let y := 46316835694926478169428394003475163141307993866256225615783033603165251855960
  ⟨x, y, 1, x * y % p⟩

/-- The sum of two points; the formulas hold for all of them. -/
def add (u v : Point) : Point :=
  let a := sub p u.y u.x * sub p v.y v.x % p
  let b := (u.y + u.x) * (v.y + v.x) % p
  let c := 2 * d * (u.t * v.t % p) % p
  let e := 2 * u.z * v.z % p
  let f := sub p b a
  let g := sub p e c
  let h := (e + c) % p
  let i := (b + a) % p
  ⟨f * g % p, h * i % p, g * h % p, f * i % p⟩

/-- The multiple of a point. -/
def scale (n : Nat) (u : Point) : Point := multiple add zero u n

/-- The opposite point. -/
def neg (u : Point) : Point := ⟨sub p 0 u.x, u.y, u.z, sub p 0 u.t⟩

/-- The octets of a point: the second coordinate, with the parity of the first in the top bit. -/
def encode (u : Point) : Bytes :=
  let inv := inverse p u.z
  let x := u.x * inv % p
  let y := u.y * inv % p
  Bytes.ofNatReversed 32 (y + x % 2 * 2 ^ 255)

/-- The point of 32 octets. The second coordinate is taken modulo the prime. -/
def decode? (b : Bytes) : Option Point :=
  if b.length ≠ 32 then none
  else
    let n := Bytes.toNatReversed b
    let y := n % 2 ^ 255 % p
    let odd := n / 2 ^ 255
    -- x² = u / v
    let u := sub p (y * y) 1
    let v := (d * (y * y % p) + 1) % p
    let w := u * pow p v 3 % p * pow p (u * pow p v 7) ((p - 5) / 8) % p
    let check := v * (w * w % p) % p
    let root? :=
      if check = u then some w
      else if check = sub p 0 u then some (w * rootOfMinusOne % p)
      else none
    root?.map fun x =>
      let x := if x % 2 = odd then x else sub p 0 x
      ⟨x, y, 1, x * y % p⟩

/-! ## Signing -/

/-- The scalar of a seed and the octets that its nonces are drawn from. -/
def expand (seed : Bytes) : Nat × Bytes :=
  let h := Sha512.digest seed
  let n := Bytes.toNatReversed (h.take 32)
  (n % 2 ^ 254 / 8 * 8 + 2 ^ 254, h.drop 32)

/-- The public key of a seed. -/
def publicKey (seed : Bytes) : Bytes := encode (scale (expand seed).1 base)

/-- The scalar that a message is given through its hash. -/
def challenge (nonce key message : Bytes) : Nat :=
  Bytes.toNatReversed (Sha512.digest (nonce ++ key ++ message)) % order

/-- The signature of a message: 64 octets. -/
def sign (seed message : Bytes) : Bytes :=
  let (a, source) := expand seed
  let key := publicKey seed
  let r := Bytes.toNatReversed (Sha512.digest (source ++ message)) % order
  let nonce := encode (scale r base)
  nonce ++ Bytes.ofNatReversed 32 ((r + challenge nonce key message * a) % order)

/-- Whether a signature belongs to a message and a public key. -/
def verify (key message signature : Bytes) : Bool :=
  if signature.length ≠ 64 then false
  else
    let nonce := signature.take 32
    let s := Bytes.toNatReversed (signature.drop 32)
    match decode? key with
    | none => false
    | some a =>
      s < order &&
        encode (add (scale s base) (scale (challenge nonce key message) (neg a))) == nonce

end Tollgate.Ed25519
