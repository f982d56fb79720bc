/-
Why the gateway does not pass a request on. Clients are told a code and a fixed sentence; the cause
stays with the gateway, which logs it.
-/
import Tollgate.Keys.KeySet
import Tollgate.Net.Message
import Tollgate.Token.Verify

namespace Tollgate.Gateway

/-- Why a request is refused. The details are for the log. -/
inductive Refusal where
  | tokenMissing
  | tokenInvalid (detail : String)
  | tokenExpired (detail : String)
  | tokenRevoked
  | insufficientScope (scope : String)
  | addressBlocked (seconds : Nat)
  | invalidPath (detail : String)
  | keysUnavailable (detail : String)
  | relayFailed (detail : String)
  | internal (detail : String)
deriving DecidableEq, Repr

namespace Refusal

/-- The refusal of a request whose token does not verify. -/
def ofTokenFault : TokenFault → Refusal
  | .outsideWindow fault => tokenExpired fault.message
  | fault => tokenInvalid fault.message

/-- The refusal of a request when there are no keys to verify its token with. -/
def ofFetchFault (fault : FetchFault) : Refusal := keysUnavailable fault.message

/-- What the log says. -/
def message : Refusal → String
  | tokenMissing => "bearer token missing"
  | tokenInvalid detail => "invalid token: " ++ detail
  | tokenExpired detail => "token outside validity window: " ++ detail
  | tokenRevoked => "token has been revoked"
  | insufficientScope scope => "missing required scope " ++ scope
  | addressBlocked seconds => "client address blocked for " ++ seconds.repr ++ "s"
  | invalidPath detail => "invalid request path: " ++ detail
  | keysUnavailable detail => "signing keys unavailable: " ++ detail
  | relayFailed detail => "proxy error: " ++ detail
  | internal detail => "internal error: " ++ detail

/-- The code, which also labels the count of such refusals. -/
def code : Refusal → String
  | tokenMissing => "token_missing"
  | tokenInvalid _ => "token_invalid"
  | tokenExpired _ => "token_expired"
  | tokenRevoked => "token_revoked"
  | insufficientScope _ => "insufficient_scope"
  | addressBlocked _ => "ip_blocked"
  | invalidPath _ => "invalid_path"
  | keysUnavailable _ | internal _ => "internal_error"
  | relayFailed _ => "proxy_error"

/-- The status. -/
def status : Refusal → Nat
  | tokenMissing | tokenInvalid _ | tokenExpired _ | tokenRevoked => 401
  | insufficientScope _ | addressBlocked _ => 403
  | invalidPath _ => 400
  | relayFailed _ => 502
  | keysUnavailable _ | internal _ => 500

/-- What the client is told. -/
def clientMessage : Refusal → String
  | tokenMissing => "Bearer token required"
  | tokenInvalid _ => "Invalid token"
  | tokenExpired _ => "Token has expired or is not yet valid"
  | tokenRevoked => "Token has been revoked"
  | insufficientScope _ => "Token lacks the scope required for this resource"
  | addressBlocked _ => "Your IP address has been temporarily blocked due to suspicious activity"
  | invalidPath _ => "Invalid request path"
  | relayFailed _ => "Failed to reach upstream service"
  | keysUnavailable _ | internal _ => "An internal error occurred"

/-- The header fields of the response: which credentials are asked for, or when to come back. -/
def headers : Refusal → Headers
  | tokenMissing | tokenInvalid _ | tokenExpired _ | tokenRevoked =>
    [⟨"www-authenticate", Bytes.ofText "Bearer"⟩]
  | insufficientScope scope =>
    [⟨"www-authenticate", Bytes.ofText ("Bearer error=\"insufficient_scope\", scope=\"" ++ scope ++ "\"")⟩]
  | addressBlocked seconds => [⟨"retry-after", Bytes.ofText seconds.repr⟩]
  | _ => []

/-- What else the client is told. -/
def more : Refusal → List (String × Json.Value)
  | addressBlocked seconds => [("retry_after_seconds", .number (.natural seconds))]
  | _ => []

/-- The response. -/
def response (r : Refusal) : Response :=
  Response.json r.status r.headers (Response.errorDocument r.code r.clientMessage r.more)

end Refusal

end Tollgate.Gateway
