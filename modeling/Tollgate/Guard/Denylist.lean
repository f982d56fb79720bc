/-
The deny list of tokens that were revoked before they expire. The store holds a key for each; a store
that gives no answer never causes a refusal.
-/
import Tollgate.Store.Plan
import Tollgate.Token.Verify

namespace Tollgate

/-- What the deny list says of a token identifier. -/
inductive Listing where
  | unlisted
  | listed
  /-- nobody answered, so the token is let through -/
  | failOpen (fault : StoreFault)
deriving DecidableEq, Repr

/-- What is done with a request. -/
inductive Admission where
  /-- there was nothing to look up -/
  | passThrough
  | passThroughAfterCheck
  | reject (jti : String)
deriving DecidableEq, Repr

namespace Admission

/-- Whether the request is refused. -/
def isRejected : Admission → Bool
  | reject _ => true
  | _ => false

/-- What is said of a refused request. -/
def rejectionMessage : String := "token has been revoked"

end Admission

/-- A deny list by what its keys begin with. -/
structure Denylist where
  stem : String
deriving DecidableEq, Repr

namespace Denylist

/-- What keys begin with unless something else is asked for. -/
def defaultStem : String := "jwt:blacklist:"

/-- The key of a token identifier. -/
def key (d : Denylist) (jti : String) : String := d.stem ++ jti

/-- Whether a token identifier is listed. -/
def isRevoked (d : Denylist) (jti : String) : Query Bool := Query.ask (.contains (d.key jti))

/-- What the answer of the store means. -/
def listing : Except StoreFault Bool → Listing
  | .ok true => .listed
  | .ok false => .unlisted
  | .error fault => .failOpen fault

/-- What the deny list says of a token identifier. -/
def check (d : Denylist) (jti : String) : Plan Listing := do return listing (← d.isRevoked jti)

/-- What is done with a request that carries a verified token, or none. A token without an identifier
is not looked up. -/
def admission (d : Denylist) (token : Option VerifiedToken) : Plan Admission :=
  match token.bind (·.jti) with
  | none => return .passThrough
  | some jti => do
    match ← d.check jti with
    | .listed => return .reject jti
    | _ => return .passThroughAfterCheck

end Denylist

end Tollgate
