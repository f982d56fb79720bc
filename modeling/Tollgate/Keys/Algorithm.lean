/-
The algorithms that tokens name in their headers, and the public keys that verify their signatures. A
key verifies only under an algorithm of its own family.
-/
import Tollgate.Crypto.Ecdsa
import Tollgate.Crypto.Ed25519
import Tollgate.Crypto.Rsa

namespace Tollgate

/-- A signature algorithm of a token. -/
inductive Algorithm where
  | hs256 | hs384 | hs512
  | es256 | es384
  | rs256 | rs384 | rs512
  | ps256 | ps384 | ps512
  | eddsa
deriving DecidableEq, Repr

namespace Algorithm

/-- The name in headers and key sets. -/
def name : Algorithm → String
  | hs256 => "HS256"
  | hs384 => "HS384"
  | hs512 => "HS512"
  | es256 => "ES256"
  | es384 => "ES384"
  | rs256 => "RS256"
  | rs384 => "RS384"
  | rs512 => "RS512"
  | ps256 => "PS256"
  | ps384 => "PS384"
  | ps512 => "PS512"
  | eddsa => "EdDSA"

/-- All algorithms. -/
def all : List Algorithm :=
  [hs256, hs384, hs512, es256, es384, rs256, rs384, rs512, ps256, ps384, ps512, eddsa]

/-- The algorithm of a name. -/
def ofName? (s : String) : Option Algorithm := all.find? (·.name == s)

/-- Whether signer and verifier share one secret. Such an algorithm is never accepted. -/
def isSymmetric : Algorithm → Bool
  | hs256 | hs384 | hs512 => true
  | _ => false

end Algorithm

/-- A public key by its octets. -/
inductive PublicKey where
  | elliptic (point : Bytes)
  | rsa (key : Rsa.Key)
  | edwards (point : Bytes)
deriving DecidableEq, Repr

/-- Whether a signature over a message verifies under an algorithm with a key. -/
def PublicKey.verifies (key : PublicKey) (algorithm : Algorithm) (message signature : Bytes) : Bool :=
  match key, algorithm with
  | .elliptic point, .es256 => Ecdsa.p256.verify point message signature
  | .elliptic point, .es384 => Ecdsa.p384.verify point message signature
  | .rsa key, .rs256 => Rsa.verifyFixed Rsa.sha256 key message signature
  | .rsa key, .rs384 => Rsa.verifyFixed Rsa.sha384 key message signature
  | .rsa key, .rs512 => Rsa.verifyFixed Rsa.sha512 key message signature
  | .rsa key, .ps256 => Rsa.verifySalted Rsa.sha256 key message signature
  | .rsa key, .ps384 => Rsa.verifySalted Rsa.sha384 key message signature
  | .rsa key, .ps512 => Rsa.verifySalted Rsa.sha512 key message signature
  | .edwards point, .eddsa => Ed25519.verify point message signature
  | _, _ => false

end Tollgate
