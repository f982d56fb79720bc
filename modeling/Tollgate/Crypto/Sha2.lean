/-
The SHA-2 hash functions. One construction at two word sizes: `Family` holds what differs, `digest`
is the fold of the compression over the padded message's blocks.
-/
import Tollgate.Bytes.Number

namespace Tollgate.Sha2

/-- The eight chaining words. -/
structure Chain (ω : Type) where
  a : ω
  b : ω
  c : ω
  d : ω
  e : ω
  f : ω
  g : ω
  h : ω

/-- The chaining words in order. -/
def Chain.toList {ω : Type} (s : Chain ω) : List ω := [s.a, s.b, s.c, s.d, s.e, s.f, s.g, s.h]

/-- What a word size fixes: the arithmetic of its words, the sigma functions and the round constants. -/
structure Family (ω : Type) where
  /-- octets in a word -/
  width : Nat
  zero : ω
  add : ω → ω → ω
  choose : ω → ω → ω → ω
  majority : ω → ω → ω → ω
  bigSigma0 : ω → ω
  bigSigma1 : ω → ω
  smallSigma0 : ω → ω
  smallSigma1 : ω → ω
  constants : List ω
  read : Bytes → ω
  write : ω → Bytes

variable {ω : Type}

/-- The next schedule word, from the words so far. -/
def Family.nextWord (F : Family ω) (w : Array ω) : ω :=
  let back (n : Nat) : ω := w.getD (w.size - n) F.zero
  F.add (F.add (F.smallSigma1 (back 2)) (back 7)) (F.add (F.smallSigma0 (back 15)) (back 16))

/-- The message schedule of a block: its sixteen words, then one word for every further round. -/
def Family.schedule (F : Family ω) (block : Bytes) : List ω :=
  let words : Array ω := (List.range 16).foldl
    (fun w i => w.push (F.read ((block.drop (i * F.width)).take F.width))) #[]
  ((List.range (F.constants.length - 16)).foldl (fun w _ => w.push (F.nextWord w)) words).toList

/-- One round with its constant and schedule word. -/
def Family.round (F : Family ω) (s : Chain ω) (kw : ω × ω) : Chain ω :=
  let t₁ := F.add (F.add (F.add s.h (F.bigSigma1 s.e)) (F.choose s.e s.f s.g)) (F.add kw.1 kw.2)
  let t₂ := F.add (F.bigSigma0 s.a) (F.majority s.a s.b s.c)
  ⟨F.add t₁ t₂, s.a, s.b, s.c, F.add s.d t₁, s.e, s.f, s.g⟩

/-- The chaining words after a block. -/
def Family.compress (F : Family ω) (s : Chain ω) (block : Bytes) : Chain ω :=
  let t := (F.constants.zip (F.schedule block)).foldl F.round s
  ⟨F.add s.a t.a, F.add s.b t.b, F.add s.c t.c, F.add s.d t.d,
    F.add s.e t.e, F.add s.f t.f, F.add s.g t.g, F.add s.h t.h⟩

/-- The message, one bit, zeros up to a whole number of blocks, and the length in bits. -/
def Family.pad (F : Family ω) (message : Bytes) : Bytes :=
  let block := 16 * F.width
  let used := (message.length + 1 + 2 * F.width) % block
  message ++ 0x80 :: List.replicate ((block - used) % block) 0 ++ Bytes.ofNat (2 * F.width) (8 * message.length)

/-- Pieces of `n` octets; the last one may be shorter. -/
def chunks (n : Nat) (b : Bytes) : List Bytes :=
  if _h : n = 0 ∨ b = [] then [] else b.take n :: chunks n (b.drop n)
termination_by b.length
decreasing_by
  simp only [not_or, ← List.length_eq_zero_iff] at _h
  simp only [List.length_drop]
  omega

/-- The chaining words of a whole message. -/
def Family.run (F : Family ω) (start : Chain ω) (message : Bytes) : Chain ω :=
  (chunks (16 * F.width) (F.pad message)).foldl F.compress start

/-- The hash of a message: the chaining words written out. -/
def Family.digest (F : Family ω) (start : Chain ω) (message : Bytes) : Bytes :=
  (F.run start message).toList.flatMap F.write

end Sha2

open Sha2

namespace Sha256

/-- Rotation to the right. -/
def rotate (x : UInt32) (n : UInt32) : UInt32 := (x >>> n) ||| (x <<< (32 - n))

/-- The four octets of a word, most significant first. -/
def write (x : UInt32) : Bytes :=
  [(x >>> 24).toUInt8, (x >>> 16).toUInt8, (x >>> 8).toUInt8, x.toUInt8]

/-- The first 32 bits of the fractional parts of the cube roots of the first 64 primes. -/
def constants : List UInt32 :=
  [0x428a2f98, 0x71374491, 0xb5c0fbcf, 0xe9b5dba5, 0x3956c25b, 0x59f111f1, 0x923f82a4, 0xab1c5ed5,
    0xd807aa98, 0x12835b01, 0x243185be, 0x550c7dc3, 0x72be5d74, 0x80deb1fe, 0x9bdc06a7, 0xc19bf174,
    0xe49b69c1, 0xefbe4786, 0x0fc19dc6, 0x240ca1cc, 0x2de92c6f, 0x4a7484aa, 0x5cb0a9dc, 0x76f988da,
    0x983e5152, 0xa831c66d, 0xb00327c8, 0xbf597fc7, 0xc6e00bf3, 0xd5a79147, 0x06ca6351, 0x14292967,
    0x27b70a85, 0x2e1b2138, 0x4d2c6dfc, 0x53380d13, 0x650a7354, 0x766a0abb, 0x81c2c92e, 0x92722c85,
    0xa2bfe8a1, 0xa81a664b, 0xc24b8b70, 0xc76c51a3, 0xd192e819, 0xd6990624, 0xf40e3585, 0x106aa070,
    0x19a4c116, 0x1e376c08, 0x2748774c, 0x34b0bcb5, 0x391c0cb3, 0x4ed8aa4a, 0x5b9cca4f, 0x682e6ff3,
    0x748f82ee, 0x78a5636f, 0x84c87814, 0x8cc70208, 0x90befffa, 0xa4506ceb, 0xbef9a3f7, 0xc67178f2]

/-- SHA-2 on words of 32 bits. -/
def family : Family UInt32 where
  width := 4
  zero := 0
  add := (· + ·)
  choose x y z := (x &&& y) ^^^ (~~~x &&& z)
  majority x y z := (x &&& y) ^^^ (x &&& z) ^^^ (y &&& z)
  bigSigma0 x := rotate x 2 ^^^ rotate x 13 ^^^ rotate x 22
  bigSigma1 x := rotate x 6 ^^^ rotate x 11 ^^^ rotate x 25
  smallSigma0 x := rotate x 7 ^^^ rotate x 18 ^^^ (x >>> 3)
  smallSigma1 x := rotate x 17 ^^^ rotate x 19 ^^^ (x >>> 10)
  constants := constants
  read b := b.foldl (fun x o => (x <<< 8) ||| o.toUInt32) 0
  write := write

/-- The first 32 bits of the fractional parts of the square roots of the first eight primes. -/
def start : Chain UInt32 :=
  ⟨0x6a09e667, 0xbb67ae85, 0x3c6ef372, 0xa54ff53a, 0x510e527f, 0x9b05688c, 0x1f83d9ab, 0x5be0cd19⟩

/-- The SHA-256 hash: 32 octets. -/
def digest (message : Bytes) : Bytes := family.digest start message

@[simp] theorem length_digest (message : Bytes) : (digest message).length = 32 := by
  simp [digest, Family.digest, Chain.toList, family, write]

end Sha256

namespace Sha512

/-- Rotation to the right. -/
def rotate (x : UInt64) (n : UInt64) : UInt64 := (x >>> n) ||| (x <<< (64 - n))

/-- The eight octets of a word, most significant first. -/
def write (x : UInt64) : Bytes :=
  [(x >>> 56).toUInt8, (x >>> 48).toUInt8, (x >>> 40).toUInt8, (x >>> 32).toUInt8,
    (x >>> 24).toUInt8, (x >>> 16).toUInt8, (x >>> 8).toUInt8, x.toUInt8]

/-- The first 64 bits of the fractional parts of the cube roots of the first 80 primes. -/
def constants : List UInt64 :=
  [0x428a2f98d728ae22, 0x7137449123ef65cd, 0xb5c0fbcfec4d3b2f, 0xe9b5dba58189dbbc,
    0x3956c25bf348b538, 0x59f111f1b605d019, 0x923f82a4af194f9b, 0xab1c5ed5da6d8118,
    0xd807aa98a3030242, 0x12835b0145706fbe, 0x243185be4ee4b28c, 0x550c7dc3d5ffb4e2,
    0x72be5d74f27b896f, 0x80deb1fe3b1696b1, 0x9bdc06a725c71235, 0xc19bf174cf692694,
    0xe49b69c19ef14ad2, 0xefbe4786384f25e3, 0x0fc19dc68b8cd5b5, 0x240ca1cc77ac9c65,
    0x2de92c6f592b0275, 0x4a7484aa6ea6e483, 0x5cb0a9dcbd41fbd4, 0x76f988da831153b5,
    0x983e5152ee66dfab, 0xa831c66d2db43210, 0xb00327c898fb213f, 0xbf597fc7beef0ee4,
    0xc6e00bf33da88fc2, 0xd5a79147930aa725, 0x06ca6351e003826f, 0x142929670a0e6e70,
    0x27b70a8546d22ffc, 0x2e1b21385c26c926, 0x4d2c6dfc5ac42aed, 0x53380d139d95b3df,
    0x650a73548baf63de, 0x766a0abb3c77b2a8, 0x81c2c92e47edaee6, 0x92722c851482353b,
    0xa2bfe8a14cf10364, 0xa81a664bbc423001, 0xc24b8b70d0f89791, 0xc76c51a30654be30,
    0xd192e819d6ef5218, 0xd69906245565a910, 0xf40e35855771202a, 0x106aa07032bbd1b8,
    0x19a4c116b8d2d0c8, 0x1e376c085141ab53, 0x2748774cdf8eeb99, 0x34b0bcb5e19b48a8,
    0x391c0cb3c5c95a63, 0x4ed8aa4ae3418acb, 0x5b9cca4f7763e373, 0x682e6ff3d6b2b8a3,
    0x748f82ee5defb2fc, 0x78a5636f43172f60, 0x84c87814a1f0ab72, 0x8cc702081a6439ec,
    0x90befffa23631e28, 0xa4506cebde82bde9, 0xbef9a3f7b2c67915, 0xc67178f2e372532b,
    0xca273eceea26619c, 0xd186b8c721c0c207, 0xeada7dd6cde0eb1e, 0xf57d4f7fee6ed178,
    0x06f067aa72176fba, 0x0a637dc5a2c898a6, 0x113f9804bef90dae, 0x1b710b35131c471b,
    0x28db77f523047d84, 0x32caab7b40c72493, 0x3c9ebe0a15c9bebc, 0x431d67c49c100d4c,
    0x4cc5d4becb3e42b6, 0x597f299cfc657e2a, 0x5fcb6fab3ad6faec, 0x6c44198c4a475817]

/-- SHA-2 on words of 64 bits. -/
def family : Family UInt64 where
  width := 8
  zero := 0
  add := (· + ·)
  choose x y z := (x &&& y) ^^^ (~~~x &&& z)
  majority x y z := (x &&& y) ^^^ (x &&& z) ^^^ (y &&& z)
  bigSigma0 x := rotate x 28 ^^^ rotate x 34 ^^^ rotate x 39
  bigSigma1 x := rotate x 14 ^^^ rotate x 18 ^^^ rotate x 41
  smallSigma0 x := rotate x 1 ^^^ rotate x 8 ^^^ (x >>> 7)
  smallSigma1 x := rotate x 19 ^^^ rotate x 61 ^^^ (x >>> 6)
  constants := constants
  read b := b.foldl (fun x o => (x <<< 8) ||| o.toUInt64) 0
  write := write

/-- The first 64 bits of the fractional parts of the square roots of the first eight primes. -/
def start : Chain UInt64 :=
  ⟨0x6a09e667f3bcc908, 0xbb67ae8584caa73b, 0x3c6ef372fe94f82b, 0xa54ff53a5f1d36f1,
    0x510e527fade682d1, 0x9b05688c2b3e6c1f, 0x1f83d9abfb41bd6b, 0x5be0cd19137e2179⟩

/-- The SHA-512 hash: 64 octets. -/
def digest (message : Bytes) : Bytes := family.digest start message

/-- The first 64 bits of the fractional parts of the square roots of the ninth to sixteenth primes. -/
def start384 : Chain UInt64 :=
  ⟨0xcbbb9d5dc1059ed8, 0x629a292a367cd507, 0x9159015a3070dd17, 0x152fecd8f70e5939,
    0x67332667ffc00b31, 0x8eb44a8768581511, 0xdb0c2e0d64f98fa7, 0x47b5481dbefa4fa4⟩

/-- The SHA-384 hash: the first 48 octets of a run from its own start. -/
def digest384 (message : Bytes) : Bytes := (family.digest start384 message).take 48

end Sha512

end Tollgate
