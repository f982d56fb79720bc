/-
Key sets: the verification keys of one published document, in its order. Entries that cannot verify
signatures are left out; a document with no other entries makes no key set, so a key set is never
empty.
-/
import Tollgate.Bytes.Base64url
import Tollgate.Keys.Published

namespace Tollgate

/-- Why there is no key set. -/
inductive FetchFault where
  | transport (detail : String)
  | status (code : Nat)
  | decode (detail : String)
  | noUsableKeys
  | notInitialized
deriving DecidableEq, Repr

/-- What is said of a key set that could not be had. -/
def FetchFault.message : FetchFault → String
  | .transport detail => "key set request failed: " ++ detail
  | .status code => "key set endpoint returned status " ++ code.repr
  | .decode detail => "key set response is not a valid JWK set: " ++ detail
  | .noUsableKeys => "key set contains no usable signing keys"
  | .notInitialized => "key set has not been loaded"

/-- A key that verifies signatures, the identifier it is published under, and the one algorithm it is
restricted to, if it is. -/
structure VerificationKey where
  kid : Option String
  algorithm : Option Algorithm
  key : PublicKey
deriving DecidableEq, Repr

/-- The signature algorithm that a use restricts a key to. -/
def DeclaredUse.algorithm? : DeclaredUse → Option Algorithm
  | .signature a => if a.isSymmetric then none else some a
  | _ => none

/-- The public key of published numbers. -/
def KeyNumbers.publicKey? : KeyNumbers → Option PublicKey
  | .elliptic x y => do
    return .elliptic (4 :: (← Base64url.decode? x.toList) ++ (← Base64url.decode? y.toList))
  | .rsa n e => do return .rsa ⟨← Base64url.decode? n.toList, ← Base64url.decode? e.toList⟩
  | .edwards x => do return .edwards (← Base64url.decode? x.toList)
  | .symmetric _ => none

/-- The verification key of an entry. -/
def PublishedKey.verificationKey? (k : PublishedKey) : Option VerificationKey :=
  k.numbers.publicKey?.map fun key => ⟨k.kid, k.declared.bind DeclaredUse.algorithm?, key⟩

/-- Whether a key may have signed a token: it is not restricted to another algorithm, and identifiers
agree if key and token both have one. -/
def VerificationKey.fits (k : VerificationKey) (kid : Option String) (algorithm : Algorithm) : Bool :=
  k.algorithm.all (· == algorithm) &&
    match k.kid, kid with
    | some ours, some theirs => ours == theirs
    | _, _ => true

/-- The verification keys of a published document. -/
structure KeySet where
  keys : List VerificationKey
  keys_ne_nil : keys ≠ []

namespace KeySet

/-- The key set of published entries. -/
def ofPublished (entries : List PublishedKey) : Except FetchFault KeySet :=
  let keys := entries.filterMap PublishedKey.verificationKey?
  if h : keys = [] then .error .noUsableKeys else .ok ⟨keys, h⟩

/-- The published entries of a document. -/
def readPublished (document : Json.Tree) : Except FetchFault (List PublishedKey) :=
  match PublishedKey.setOfTree? document with
  | some entries => .ok entries
  | none => .error (.decode "not a key set")

/-- The keys that may have signed a token, in order. -/
def candidates (s : KeySet) (kid : Option String) (algorithm : Algorithm) : List VerificationKey :=
  s.keys.filter (·.fits kid algorithm)

/-- The identifiers of the keys that have one, in order. -/
def kids (s : KeySet) : List String := s.keys.filterMap (·.kid)

end KeySet

end Tollgate
