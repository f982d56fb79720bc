/-
Signatures on the Weierstrass curves over prime fields, at two sizes. Keys are uncompressed points and
signatures two numbers of fixed width, one after the other.
-/
import Tollgate.Bytes.Number
import Tollgate.Crypto.Modular
import Tollgate.Crypto.Sha2

namespace Tollgate.Ecdsa

open Tollgate.Modular

/-- A curve `y² = x³ - 3·x + b` with its base point, the order of it and the hash used with it. -/
structure Curve where
  p : Nat
  b : Nat
  order : Nat
  gx : Nat
  gy : Nat
  /-- octets in a coordinate -/
  width : Nat
  digest : Bytes → Bytes

/-- The curve P-256, with SHA-256. -/
def p256 : Curve where
  p := 0xffffffff00000001000000000000000000000000ffffffffffffffffffffffff
  b := 0x5ac635d8aa3a93e7b3ebbd55769886bc651d06b0cc53b0f63bce3c3e27d2604b
  order := 0xffffffff00000000ffffffffffffffffbce6faada7179e84f3b9cac2fc632551
  gx := 0x6b17d1f2e12c4247f8bce6e563a440f277037d812deb33a0f4a13945d898c296
  gy := 0x4fe342e2fe1a7f9b8ee7eb4a7c0f9e162bce33576b315ececbb6406837bf51f5
  width := 32
  digest := Sha256.digest

/-- The curve P-384, with SHA-384. -/
def p384 : Curve where
  p := 0xfffffffffffffffffffffffffffffffffffffffffffffffffffffffffffffffeffffffff0000000000000000ffffffff
  b := 0xb3312fa7e23ee7e4988e056be3f82d19181d9c6efe8141120314088f5013875ac656398d8a2ed19d2a85c8edd3ec2aef
  order := 0xffffffffffffffffffffffffffffffffffffffffffffffffc7634d81f4372ddf581a0db248b0a77aecec196accc52973
  gx := 0xaa87ca22be8b05378eb1c71ef320ad746e1d3b628ba79b9859f741e082542a385502f25dbf55296c3a545e3872760ab7
  gy := 0x3617de4a96262c6f5d9e98bf9292dc29f8f41dbd289a147ce9da3113b5f0b8c00a60b1ce1d7e819d7a431d7c90ea0e5f
  width := 48
  digest := Sha512.digest384

/-- A point `(x / z², y / z³)`; the neutral one has no `z`. -/
structure Point where
  x : Nat
  y : Nat
  z : Nat

namespace Curve

/-- The neutral point. -/
def zero : Point := ⟨1, 1, 0⟩

/-- The base point. -/
def base (c : Curve) : Point := ⟨c.gx, c.gy, 1⟩

/-- The sum of a point with itself. -/
def double (c : Curve) (u : Point) : Point :=
  if u.z = 0 then zero
  else
    let yy := u.y * u.y % c.p
    let s := 4 * u.x * yy % c.p
    let zz := u.z * u.z % c.p
    let m := 3 * (sub c.p u.x zz * (u.x + zz) % c.p) % c.p
    let x := sub c.p (m * m) (2 * s)
    let y := sub c.p (m * sub c.p s x) (8 * (yy * yy % c.p))
    ⟨x, y, 2 * u.y * u.z % c.p⟩

/-- The sum of two points. -/
def add (c : Curve) (u v : Point) : Point :=
  if u.z = 0 then v
  else if v.z = 0 then u
  else
    let uz := u.z * u.z % c.p
    let vz := v.z * v.z % c.p
    let ux := u.x * vz % c.p
    let vx := v.x * uz % c.p
    let uy := u.y * (v.z * vz % c.p) % c.p
    let vy := v.y * (u.z * uz % c.p) % c.p
    if ux = vx then if uy = vy then c.double u else zero
    else
      let h := sub c.p vx ux
      let r := sub c.p vy uy
      let hh := h * h % c.p
      let hhh := h * hh % c.p
      let w := ux * hh % c.p
      let x := sub c.p (r * r) (hhh + 2 * w)
      let y := sub c.p (r * sub c.p w x) (uy * hhh)
      ⟨x, y, h * (u.z * v.z % c.p) % c.p⟩

/-- The multiple of a point. -/
def scale (c : Curve) (n : Nat) (u : Point) : Point := multiple c.add zero u n

/-- The point of an uncompressed key: the octet 4 and the two coordinates, which are below the prime
and lie on the curve. -/
def decode? (c : Curve) (key : Bytes) : Option Point :=
  match key with
  | 4 :: coordinates =>
    if coordinates.length ≠ 2 * c.width then none
    else
      let x := Bytes.toNat (coordinates.take c.width)
      let y := Bytes.toNat (coordinates.drop c.width)
      if x < c.p ∧ y < c.p ∧ y * y % c.p = sub c.p (x * x * x + c.b) (3 * x) then some ⟨x, y, 1⟩
      else none
  | _ => none

/-- Whether a signature belongs to a message and a public key. Both numbers lie between zero and the
order, and the first is the first coordinate of the point that the second leads to. -/
def verify (c : Curve) (key message signature : Bytes) : Bool :=
  if signature.length ≠ 2 * c.width then false
  else
    let r := Bytes.toNat (signature.take c.width)
    let s := Bytes.toNat (signature.drop c.width)
    match c.decode? key with
    | none => false
    | some q =>
      if r = 0 ∨ c.order ≤ r ∨ s = 0 ∨ c.order ≤ s then false
      else
        let e := Bytes.toNat (c.digest message) % c.order
        let w := inverse c.order s
        let sum := c.add (c.scale (e * w % c.order) c.base) (c.scale (r * w % c.order) q)
        sum.z ≠ 0 && sum.x * inverse c.p (sum.z * sum.z) % c.p % c.order == r

end Curve

end Tollgate.Ecdsa
