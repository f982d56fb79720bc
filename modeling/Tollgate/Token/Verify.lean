/-
Verification of tokens: structure first, then the signature, then the time. The checks stop at the
first that fails, and the refusal names it.
-/
import Tollgate.Keys.KeySet
import Tollgate.Time.Instant
import Tollgate.Token.Claims
import Tollgate.Token.Compact
import Tollgate.Token.Header

namespace Tollgate

/-- Which part of a token cannot be read. -/
inductive Malformation where
  | header
  /-- there are not three of them -/
  | segments
  | claimsEncoding
  | claims
deriving DecidableEq, Repr

/-- The part by name. -/
def Malformation.stage : Malformation → String
  | .header => "header"
  | .segments => "expected three dot-separated segments"
  | .claimsEncoding => "claims encoding"
  | .claims => "claims"

/-- Why a token does not hold at an instant. -/
inductive WindowFault where
  | missing
  | expired
  | early
  | unrepresentable
deriving DecidableEq, Repr

/-- What is said of the time. -/
def WindowFault.message : WindowFault → String
  | .missing => "missing exp claim"
  | .expired => "token expired"
  | .early => "token not yet valid"
  | .unrepresentable => "exp out of range"

/-- Why a token is refused. -/
inductive TokenFault where
  | malformed (part : Malformation)
  | badSignature
  | outsideWindow (fault : WindowFault)
deriving DecidableEq, Repr

namespace TokenFault

/-- What is said of a part that cannot be read. -/
def malformedText (detail : String) : String := "malformed token: " ++ detail

/-- What is said of a token outside its window. -/
def windowText (detail : String) : String := "token is expired or not yet valid: " ++ detail

/-- What is said of a token that is refused. -/
def message : TokenFault → String
  | .malformed part => malformedText part.stage
  | .badSignature => "token signature does not verify against any trusted key"
  | .outsideWindow fault => windowText fault.message

end TokenFault

/-- A token that passed every check. -/
structure VerifiedToken where
  claims : Claims
  /-- identifier of the key that verified it -/
  keyId : Option String
  algorithm : Algorithm
  /-- seconds from the first of January 1970 -/
  expiresAt : Int

namespace VerifiedToken

/-- The identifier of the token; an empty one is none. -/
def jti (t : VerifiedToken) : Option String := t.claims.jti.filter (!·.isEmpty)

/-- Whether a scope is granted. -/
def hasScope (t : VerifiedToken) (scope : String) : Bool := t.claims.scopes.contains scope

end VerifiedToken

namespace Token

/-- Sums stop at the bounds of 64 signed bits. -/
def plus (a b : Int) : Int := Claims.clamped (a + b)

/-- The instant at which claims expire, if they hold now. The leeway widens the window on both
sides. -/
def window (c : Claims) (leeway : Nat) (now : Int) : Except WindowFault Int := do
  let skew : Int := min leeway (2 ^ 63 - 1)
  let some expires := c.expires | throw .missing
  if plus expires skew ≤ now then throw .expired
  if c.notBefore.any (plus now skew < ·) then throw .early
  if !Instant.representable expires then throw .unrepresentable
  return expires

/-- The header of a segment. -/
def header? (segment : List Char) : Option Header := do
  Header.ofTree? (← Json.Tree.ofBytes? (← Base64url.decode? segment))

/-- The claims of a segment. -/
def claims (segment : List Char) : Except Malformation Claims := do
  let some octets := Base64url.decode? segment | throw .claimsEncoding
  let some claims := Json.Tree.ofBytes? octets >>= Claims.ofTree? | throw .claims
  return claims

/-- What can be read off a token without trusting it: its segments from the end, its header and its
claims. -/
def read (token : String) : Except Malformation (Compact × Header × Claims) := do
  let some c := Compact.ofEnd? token | throw .header
  let some header := header? c.header | throw .header
  let some segments := Compact.ofText? token | throw .segments
  return (c, header, ← claims segments.claims)

/-- Whether a name occurs at most once in an object. -/
def occursOnce (name : String) : Json.Tree → Bool
  | .object members => (Json.membersNamed name members).length ≤ 1
  | _ => true

/-- Whether claims can be read once more beside their signature. A second audience is in the way. -/
def readsAgain (segment : List Char) : Bool :=
  (Base64url.decode? segment >>= Json.Tree.ofBytes?).any (occursOnce "aud")

/-- Whether a key verifies the signature of a token. -/
def verifiesWith (c : Compact) (algorithm : Algorithm) (k : VerificationKey) : Bool :=
  (Base64url.decode? c.signature).any (k.key.verifies algorithm c.message ·) && readsAgain c.claims

/-- The key that verifies the signature: the first candidate in the order of the set. -/
def signer? (c : Compact) (h : Header) (keys : KeySet) : Option VerificationKey :=
  if h.algorithm.isSymmetric then none
  else (keys.candidates h.kid h.algorithm).find? (verifiesWith c h.algorithm)

/-- Verifies a token at an instant in seconds. -/
def verify (token : String) (keys : KeySet) (leeway : Nat) (now : Int) :
    Except TokenFault VerifiedToken := do
  let (c, header, claims) ← (read token).mapError .malformed
  let some key := signer? c header keys | throw .badSignature
  let expiresAt ← (window claims leeway now).mapError .outsideWindow
  return ⟨claims, key.kid, header.algorithm, expiresAt⟩

end Token

end Tollgate
