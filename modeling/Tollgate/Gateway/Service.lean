/-
The gateway as a whole: the watch over addresses, the rate limiter, admission, and behind them the own
reports and the relay.
-/
import Tollgate.Gateway.Admission
import Tollgate.Gateway.Relay
import Tollgate.Gateway.Traffic
import Tollgate.Gateway.Backend
import Tollgate.Net.Endpoint

namespace Tollgate.Gateway.Service

/-- The surroundings of a gateway: two stores, the rate limiter and the other servers, given by how they
behave. -/
structure Surroundings (σ : Type) where
  denylist : σ → (c : Command) → c.Reply × σ
  blockList : σ → (c : Command) → c.Reply × σ
  limiter : Request → Option Ending
  respond : σ → Outgoing → Option Incoming × σ

/-- The report on the gateway itself: it can do its work once there are keys. -/
def health (g : Gate) (loadedAt : String) : Response :=
  let name := ("service", Json.Value.text "orange-gateway")
  match g.keys with
  | none =>
    Response.json 503 [] (.object [name, ("signing_keys", .number (.natural 0)), ("status", .text "degraded")])
  | some keys =>
    Response.json 200 [] (.object
      [("keys_loaded_at", .text loadedAt),
        ("keys_min_refresh_secs", .number (.natural (Duration.seconds g.settings.keysMinRefresh))), name,
        ("signing_keys", .number (.natural keys.keys.length)), ("status", .text "ok"),
        ("version", .text "0.1.0")])

/-- The longest body of a request that is passed on. The gateway sets this limit itself. -/
def maxBody : Nat := 10 * 1024 * 1024

/-- Passes a request on, and the response back. -/
def forward (g : Gate) (r : Request) : Errand (Response × List Event) :=
  match Endpoint.body maxBody r with
  | .error response => .done (response, [])
  | .ok _ =>
    match Backend.url g.settings.backendUrl r.target with
    | .error refusal => .done (refusal.response, [])
    | .ok url =>
      (Relay.relay r url).map fun
        | .ok response => (response, [.relayed])
        | .error refusal => (refusal.response, [.relayed])

/-- What lies behind admission: the reports of the gateway itself, and for all else some service. -/
def route {σ : Type} (g : Gate) (r : Request) (loadedAt exposition : String)
    (other : σ → (Ending × List Event) × σ) (s : σ) : (Ending × List Event) × σ :=
  if Endpoint.asksFor r "/health" then ((.response (health g loadedAt), []), s)
  else if Endpoint.asksFor r "/metrics" then
    ((.response (Endpoint.metrics g.settings.metricsToken r exposition), []), s)
  else other s

/-- The relay as what lies behind. -/
def relayed {σ : Type} (w : Surroundings σ) (g : Gate) (r : Request) (s : σ) : (Ending × List Event) × σ :=
  let ((response, events), s) := (forward g r).run w.respond s
  ((.response response, events), s)

/-- Admission in front of some service that is told the verified token. -/
def admitted {σ : Type} (w : Surroundings σ) (g : Gate) (r : Request)
    (behind : Option VerifiedToken → σ → (Ending × List Event) × σ) (s : σ) : (Ending × List Event) × σ :=
  (g.admission r).run w.denylist behind s

/-- The rate limiter in front of some service. -/
def limited {σ : Type} (w : Surroundings σ) (r : Request) (behind : σ → (Ending × List Event) × σ) (s : σ) :
    (Ending × List Event) × σ :=
  match w.limiter r with
  | some ending => ((ending, []), s)
  | none => behind s

/-- The watch over addresses in front of some service. -/
def watched {σ : Type} (w : Surroundings σ) (g : Gate) (mark : String) (r : Request)
    (behind : σ → (Ending × List Event) × σ) (s : σ) : (Ending × List Event) × σ :=
  (Traffic.watch g.settings.blockList g.settings.trustsForwarded mark r).run w.blockList (fun _ => behind) s

/-- The whole gateway. -/
def serve {σ : Type} (w : Surroundings σ) (g : Gate) (mark loadedAt exposition : String) (r : Request) :
    σ → (Ending × List Event) × σ :=
  watched w g mark r <| limited w r <| admitted w g r fun _ =>
    route g r loadedAt exposition (relayed w g r)

/-- The end of any request at a gateway that was not set up. -/
def unconfigured : Ending := .refusal (.internal "application state not configured")

end Tollgate.Gateway.Service
