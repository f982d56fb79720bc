/-
The payment simulator as a whole: a payment that a verified caller reports is passed to the receiver as
a signed notice, together with the caller's token. Where reading an amount stops the simulator, a request
ends without an answer.
-/
import Tollgate.Net.Endpoint
import Tollgate.Payment.Emitter
import Tollgate.Simulator.Refusal
import Tollgate.Simulator.Settings

namespace Tollgate.Simulator

/-- What is counted. -/
inductive Event where
  | invalid
  | success
  | callbackFailed
deriving DecidableEq, Repr

/-- The series that grow by one. -/
def Event.series : Event → List String
  | invalid => [payments "invalid"]
  | success => [payments "success", latency "success"]
  | callbackFailed => [payments "callback_failed", latency "error"]
where
  /-- Payments by result. -/
  payments (result : String) : String :=
    "orange_paysim_payments_total\x7bresult=\"" ++ result ++ "\"\x7d"
  /-- Deliveries by result. -/
  latency (result : String) : String :=
    "orange_paysim_callback_duration_seconds_count\x7bresult=\"" ++ result ++ "\"\x7d"

/-- What the simulator goes by: the settings, the keys in service if there are any, and the instant. -/
structure Counter where
  settings : Settings
  keys : Option KeySet
  now : Instant

namespace Counter

/-- The emitter of notices. -/
def emitter (c : Counter) : Emitter :=
  ⟨c.settings.receiverUrl, Bytes.ofText c.settings.secret, c.settings.referenceStem,
    c.settings.deliveryTimeout⟩

/-- The token of a request. The scheme is spelled in one way only. -/
def bearer (h : Headers) : Except Refusal String :=
  match h.first? "authorization" with
  | none => .error .tokenMissing
  | some value =>
    match Headers.text? value with
    | none => .error (.tokenInvalid "non-ASCII Authorization header")
    | some text =>
      let token := Text.trimmed (text.toList.drop 7)
      if "Bearer ".toList.isPrefixOf text.toList && !token.isEmpty then .ok (String.ofList token)
      else .error (.tokenInvalid "Authorization header must be 'Bearer <token>'")

/-- The token of a request, once it is verified. -/
def authenticate (c : Counter) (h : Headers) : Except Refusal String := do
  let token ← bearer h
  let some keys := c.keys | throw (.ofFetchFault .notInitialized)
  let _ ← (Token.verify token keys (Duration.seconds c.settings.clockSkew) c.now.secs).mapError .ofTokenFault
  return token

/-- The payment in a body, unless reading it stops. -/
def payment (body : Bytes) : Option (Except Refusal Payment) :=
  if Payment.stops body then none
  else match (Json.Tree.ofBytes? body).bind Payment.ofTree? with
  | none => some (.error (.invalidBody "not a payment"))
  | some p =>
    if (Text.trimmed p.account.toList).isEmpty then some (.error (.invalidBody "va_number is required"))
    else some (.ok p)

/-- The response once the receiver has acknowledged a notice. -/
def accepted (receipt : Receipt) : Response :=
  Response.plain 200 "text/plain; charset=utf-8"
    ("Payment accepted. Callback delivered with reference " ++ receipt.reference ++ ".\n")

/-- The answer to what came of a delivery. -/
def delivered : Except Delivery.Fault Receipt → Response × List Event
  | .ok receipt => (accepted receipt, [.success])
  | .error fault => (Refusal.response (.callbackFailed fault), [.callbackFailed])

/-- A payment request of a known caller. -/
def payAs (c : Counter) (token identifier method : String) (body : Bytes) :
    Errand (Option (Response × List Event)) :=
  if method ≠ "POST" then .done (some (Refusal.methodNotAllowed.response, []))
  else match payment body with
  | none => .done none
  | some (.error refusal) => .done (some (refusal.response, [.invalid]))
  | some (.ok p) => (c.emitter.emit p token identifier c.now).map fun result => some (delivered result)

/-- A payment request by any method: once its body is taken in, first of all the caller has to be known. -/
def pay (c : Counter) (identifier : String) (r : Request) : Errand (Option (Response × List Event)) :=
  match Endpoint.body Endpoint.maxBody r with
  | .error response => .done (some (response, []))
  | .ok body =>
    match c.authenticate r.headers with
    | .error refusal => .done (some (refusal.response, []))
    | .ok token => c.payAs token identifier r.method body

/-- The report on the simulator itself. -/
def health (c : Counter) : Response :=
  let name := ("service", Json.Value.text "orange-paysim")
  match c.keys with
  | some keys =>
    Response.json 200 [] (.object
      [("callback_url", .text c.settings.receiverUrl), name,
        ("signing_keys", .number (.natural keys.keys.length)), ("status", .text "ok")])
  | none =>
    Response.json 503 [] (.object
      [("error", .text "signing keys not loaded"), name, ("status", .text "degraded")])

/-- The whole simulator: what it answers and counts, unless it stops. -/
def serve (c : Counter) (identifier exposition : String) (r : Request) : Errand (Option (Response × List Event)) :=
  if Endpoint.isFor r "/pay" then c.pay identifier r
  else if Endpoint.asksFor r "/health" then .done (some (c.health, []))
  else if Endpoint.asksFor r "/metrics" then
    .done (some (Endpoint.metrics c.settings.metricsToken r exposition, []))
  else .done (some (⟨404, [], []⟩, []))

end Counter

end Tollgate.Simulator
