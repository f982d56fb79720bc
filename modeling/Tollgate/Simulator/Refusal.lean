/-
Why the payment simulator does not answer a payment request with success. Clients are told a code and
a fixed sentence.
-/
import Tollgate.Keys.KeySet
import Tollgate.Net.Message
import Tollgate.Payment.Delivery
import Tollgate.Token.Verify

namespace Tollgate.Simulator

/-- Why a payment request fails. The details are for the log. -/
inductive Refusal where
  | tokenMissing
  | tokenInvalid (detail : String)
  | tokenExpired (detail : String)
  | keysUnavailable (detail : String)
  | methodNotAllowed
  | invalidBody (detail : String)
  | callbackFailed (fault : Delivery.Fault)
deriving DecidableEq, Repr

namespace Refusal

/-- The refusal of a request whose token does not verify. -/
def ofTokenFault : TokenFault → Refusal
  | .outsideWindow fault => tokenExpired fault.message
  | fault => tokenInvalid fault.message

/-- The refusal of a request when there are no keys to verify its token with. -/
def ofFetchFault (fault : FetchFault) : Refusal := keysUnavailable fault.message

/-- What the log says. -/
def message : Refusal → String
  | tokenMissing => "bearer token missing"
  | tokenInvalid detail => "invalid token: " ++ detail
  | tokenExpired detail => "token outside validity window: " ++ detail
  | keysUnavailable detail => "signing keys unavailable: " ++ detail
  | methodNotAllowed => "method not allowed"
  | invalidBody detail => "invalid request body: " ++ detail
  | callbackFailed fault => "callback emission failed: " ++ fault.message

/-- The code. -/
def code : Refusal → String
  | tokenMissing => "token_missing"
  | tokenInvalid _ => "token_invalid"
  | tokenExpired _ => "token_expired"
  | keysUnavailable _ => "internal_error"
  | methodNotAllowed => "method_not_allowed"
  | invalidBody _ => "invalid_request"
  | callbackFailed _ => "callback_failed"

/-- The status. -/
def status : Refusal → Nat
  | tokenMissing | tokenInvalid _ | tokenExpired _ => 401
  | methodNotAllowed => 405
  | invalidBody _ => 400
  | keysUnavailable _ | callbackFailed _ => 500

/-- What the client is told. -/
def clientMessage : Refusal → String
  | tokenMissing => "Bearer token required"
  | tokenInvalid _ => "Invalid token"
  | tokenExpired _ => "Token has expired or is not yet valid"
  | keysUnavailable _ => "An internal error occurred"
  | methodNotAllowed => "Only POST is allowed"
  | invalidBody _ => "Invalid request body"
  | callbackFailed _ => "Failed to process payment callback"

/-- The header fields of the response: which credentials or which method are asked for. -/
def headers : Refusal → Headers
  | tokenMissing | tokenInvalid _ | tokenExpired _ => [⟨"www-authenticate", Bytes.ofText "Bearer"⟩]
  | methodNotAllowed => [⟨"allow", Bytes.ofText "POST"⟩]
  | _ => []

/-- The response. -/
def response (r : Refusal) : Response :=
  Response.json r.status r.headers (Response.errorDocument r.code r.clientMessage [])

end Refusal

end Tollgate.Simulator
