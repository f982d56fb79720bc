/-
RSA signatures in the two paddings in use: the fixed one, compared as a whole, and the randomised one
with a salt as long as the hash.
-/
import Tollgate.Bytes.Number
import Tollgate.Crypto.Modular
import Tollgate.Crypto.Sha2

namespace Tollgate.Rsa

open Tollgate.Modular

/-- A hash as the paddings use it: its octets in the result, and the octets that name it. -/
structure Hash where
  digest : Bytes → Bytes
  size : Nat
  identifier : Bytes

/-- The identifier octets of the SHA-2 hashes differ in the last octet of the name and in the size. -/
def identifierOf (name size : UInt8) : Bytes :=
  [0x30, 0x11 + size, 0x30, 0x0d, 0x06, 0x09, 0x60, 0x86, 0x48, 0x01, 0x65, 0x03, 0x04, 0x02, name,
    0x05, 0x00, 0x04, size]

/-- SHA-256. -/
def sha256 : Hash := ⟨Sha256.digest, 32, identifierOf 1 32⟩

/-- SHA-384. -/
def sha384 : Hash := ⟨Sha512.digest384, 48, identifierOf 2 48⟩

/-- SHA-512. -/
def sha512 : Hash := ⟨Sha512.digest, 64, identifierOf 3 64⟩

/-- A public key by its octets. -/
structure Key where
  modulus : Bytes
  exponent : Bytes
deriving DecidableEq, Repr

/-- Whether a key is in the form and of the size that are accepted: neither number has zeros in front,
both are odd, the modulus has 2048 to 8192 bits, rounded up to octets, and the exponent lies between
3 and `2^33 - 1`. -/
def Key.isUsable (k : Key) : Bool :=
  let n := Bytes.toNat k.modulus
  let e := Bytes.toNat k.exponent
  k.modulus.head?.any (· != 0) && n % 2 = 1 && 256 ≤ k.modulus.length && k.modulus.length ≤ 1024 &&
    k.exponent.head?.any (· != 0) && k.exponent.length ≤ 5 && e % 2 = 1 && 3 ≤ e && e < 2 ^ 33

/-- The octets that a signature stands for: as many as the modulus has. -/
def opened? (k : Key) (signature : Bytes) : Option Bytes :=
  let n := Bytes.toNat k.modulus
  let s := Bytes.toNat signature
  if k.isUsable && signature.length = k.modulus.length && 0 < s && s < n then
    some (Bytes.ofNat k.modulus.length (pow n s (Bytes.toNat k.exponent)))
  else none

/-- The fixed padding of a message. -/
def fixedPadding (h : Hash) (length : Nat) (message : Bytes) : Bytes :=
  let tail := h.identifier ++ h.digest message
  [0x00, 0x01] ++ List.replicate (length - tail.length - 3) 0xff ++ 0x00 :: tail

/-- Whether a signature in the fixed padding belongs to a message and a key. -/
def verifyFixed (h : Hash) (k : Key) (message signature : Bytes) : Bool :=
  opened? k signature == some (fixedPadding h k.modulus.length message)

/-- As many octets as are wanted, from the hashes of a seed with a counter. -/
def mask (h : Hash) (seed : Bytes) (length : Nat) : Bytes :=
  ((List.range ((length + h.size - 1) / h.size)).flatMap fun i =>
    h.digest (seed ++ Bytes.ofNat 4 i)).take length

/-- Whether octets are a randomised padding of a message in `bits` bits. -/
def isSalted (h : Hash) (bits : Nat) (padded message : Bytes) : Bool :=
  let length := (bits + 7) / 8
  let extra := padded.length - length
  let body := padded.drop extra
  let dbLength := length - h.size - 1
  let masked := body.take dbLength
  let mark := (body.drop dbLength).take h.size
  let db := Bytes.toNat (List.zipWith (· ^^^ ·) masked (mask h mark dbLength)) % 2 ^ (bits - 8 * (h.size + 1))
  let plain := Bytes.ofNat dbLength db
  let zeros := dbLength - h.size - 1
  (padded.take extra).all (· == 0) && 2 * h.size + 2 ≤ length && body.getLast? == some 0xbc &&
    Bytes.toNat masked < 2 ^ (bits - 8 * (h.size + 1)) &&
    plain.take (zeros + 1) == List.replicate zeros 0 ++ [1] &&
    h.digest (List.replicate 8 0 ++ h.digest message ++ plain.drop (zeros + 1)) == mark

/-- Whether a signature in the randomised padding belongs to a message and a key. -/
def verifySalted (h : Hash) (k : Key) (message signature : Bytes) : Bool :=
  match opened? k signature with
  | some padded => isSalted h (Bytes.toNat k.modulus).log2 padded message
  | none => false

end Tollgate.Rsa
