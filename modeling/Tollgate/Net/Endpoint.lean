/-
What both services have in common beside their work: how the body of a request is taken in, and reports
that only the holder of a token may see.
-/
import Tollgate.Crypto.Secret
import Tollgate.Net.Message
import Tollgate.Net.Percent
import Tollgate.Text.Integer

namespace Tollgate.Endpoint

/-- The longest body that a service takes in unless it sets a limit of its own. -/
def maxBody : Nat := 262144

/-- The response to a body that is longer than the limit. -/
def tooLong : Response := Response.plain 413 "text/plain; charset=utf-8" "payload reached size limit"

/-- The response to a body that cannot be read. -/
def unread (detail : String) : Response := Response.plain 400 "text/plain; charset=utf-8" detail

/-- The length that a request says its body has, if it says any. -/
def announced (r : Request) : Except Response (Option Nat) :=
  match r.headers.first? "content-length" with
  | none => .ok none
  | some value =>
    match (Headers.text? value).bind fun text => Text.unsigned? 64 text.toList with
    | none => .error (unread "payload length is unknown")
    | some n => .ok (some n)

/-- The body of a request, as a service takes it in that sets a limit. This comes before all that the
service does for the request itself. -/
def body (limit : Nat) (r : Request) : Except Response Bytes := do
  let announced ← announced r
  if announced.any (limit < ·) || limit < r.body.length then .error tooLong
  else match r.fault with
    | some detail => .error (unread detail)
    | none => .ok r.body

/-- Whether a request is for a path. Paths are compared as the octets they stand for, but a slash has
to be written as one. -/
def isFor (r : Request) (path : String) : Bool :=
  r.target.path.head? == some '/' && Percent.decode r.target.path == Bytes.ofText path

/-- Whether a request asks for the report at a path. -/
def asksFor (r : Request) (path : String) : Bool := r.method == "GET" && isFor r path

/-- Whether a request carries a token, spelled exactly. -/
def carries (r : Request) (token : String) : Bool :=
  match (r.headers.first? "authorization").bind Headers.text? with
  | some value =>
    "Bearer ".toList.isPrefixOf value.toList &&
      Secret.same (Bytes.ofText (String.ofList (value.toList.drop 7))) (Bytes.ofText token)
  | none => false

/-- The report of what was counted, for the holder of the token if there is one. -/
def metrics (token : Option String) (r : Request) (exposition : String) : Response :=
  if token.all (carries r) then Response.plain 200 "text/plain; version=0.0.4" exposition
  else
    Response.json 401 []
      (Response.errorDocument "unauthorized" "Valid Bearer token required for /metrics" [])

end Tollgate.Endpoint
