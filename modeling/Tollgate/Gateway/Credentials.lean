/-
What a request says of its sender: a bearer token, and the address it came from.
-/
import Tollgate.Gateway.Refusal

namespace Tollgate.Gateway

/-- Why credentials are not a bearer token. -/
inductive CredentialFault where
  | notAscii
  | malformed
  | otherScheme (scheme : String)
  | empty
deriving DecidableEq, Repr

/-- What is said of credentials. -/
def CredentialFault.message : CredentialFault → String
  | notAscii => "non-ASCII Authorization header"
  | malformed => "malformed Authorization header"
  | otherScheme scheme => "unsupported authorization scheme: " ++ scheme
  | empty => "empty bearer token"

namespace Credentials

/-- The token of a field value: what follows the scheme and a space. -/
def ofValue (value : Bytes) : Except CredentialFault String := do
  let some text := Headers.text? value | throw .notAscii
  let some (scheme, token) := Text.cutAt? (· == ' ') text.toList | throw .malformed
  if scheme.map Char.toLower ≠ "bearer".toList then throw (.otherScheme (String.ofList scheme))
  let token := Text.trimmed token
  if token.isEmpty then throw .empty
  return String.ofList token

/-- The bearer token of a request, if it carries credentials. Only the first field counts. -/
def bearer? (h : Headers) : Except CredentialFault (Option String) :=
  match h.first? "authorization" with
  | none => .ok none
  | some value => (ofValue value).map some

/-- The first address of a list of those that a request came through. -/
def forwardedFor? (h : Headers) : Option String := do
  let text ← Headers.text? (← h.first? "x-forwarded-for")
  let address := Text.trimmed (text.toList.takeWhile (· ≠ ','))
  if address.isEmpty then none else some (String.ofList address)

/-- The address of a client: the one that is forwarded, where that is trusted, or the peer's. -/
def clientAddress? (trustsForwarded : Bool) (r : Request) : Option String :=
  let forwarded := if trustsForwarded then forwardedFor? r.headers else none
  forwarded.or (r.peer.map PeerAddress.toText)

end Credentials

end Tollgate.Gateway
