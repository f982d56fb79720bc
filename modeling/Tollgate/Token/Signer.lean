/-
Signers: who makes tokens, and what they publish of their keys. The text of a token is a header and
claims without blanks, each in base sixty-four.
-/
import Tollgate.Bytes.Base64url
import Tollgate.Json.Printer
import Tollgate.Keys.KeySet
import Tollgate.Token.Compact

namespace Tollgate

open Json

/-- A segment that holds a text. -/
def Compact.segment (s : List Char) : List Char := Base64url.encode (s.flatMap String.utf8EncodeChar)

/-- A token with any signature. -/
def Compact.craft (header claims : Value) (signature : Bytes) : Compact :=
  ⟨segment header.chars, segment claims.chars, Base64url.encode signature⟩

/-- A signer by the seed of its key, with the identifier that it publishes the key under. -/
structure Signer where
  seed : Bytes
  kid : Option String
deriving DecidableEq, Repr

namespace Signer

/-- The signer whose seed repeats one octet. -/
def ofOctet (x : UInt8) (kid : Option String) : Signer := ⟨List.replicate 32 x, kid⟩

/-- The public key. -/
def publicKey (s : Signer) : Bytes := Ed25519.publicKey s.seed

/-- The entry that the signer publishes. -/
def published (s : Signer) : PublishedKey :=
  ⟨s.kid, some (.signature .eddsa), .edwards (String.ofList (Base64url.encode s.publicKey))⟩

/-- The members of the published entry. -/
def publishedMembers (s : Signer) : List (String × String) :=
  [("kty", "OKP"), ("crv", "Ed25519"), ("x", String.ofList (Base64url.encode s.publicKey)),
    ("alg", Algorithm.eddsa.name), ("use", "sig")] ++ s.kid.toList.map fun kid => ("kid", kid)

/-- The header of the tokens it signs. -/
def header (s : Signer) : List Char :=
  printedObject ([("typ", printedText "JWT"), ("alg", printedText Algorithm.eddsa.name)] ++
    s.kid.toList.map fun kid => ("kid", printedText kid))

/-- The token of claims. -/
def sign (s : Signer) (claims : Value) : Compact :=
  let c : Compact := ⟨Compact.segment s.header, Compact.segment claims.chars, []⟩
  { c with signature := Base64url.encode (Ed25519.sign s.seed c.message) }

end Signer

end Tollgate
