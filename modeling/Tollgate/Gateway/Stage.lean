/-
The stages that a request goes through. A stage may look something up in its store, may count something,
and may hand the request on to what lies behind it; what lies behind is not the stage's business, only
how it ends.
-/
import Tollgate.Guard.BlockList
import Tollgate.Guard.Denylist
import Tollgate.Gateway.Refusal

namespace Tollgate.Gateway

/-- What is counted. -/
inductive Event where
  | admission (a : Admission)
  | refusal (code : String)
  | blocked
  | violation (outcome : Except StoreFault ViolationOutcome)
  | relayed
deriving Repr

namespace Event

/-- The outcome of an admission by name. -/
def admissionName : Admission → String
  | .passThrough => "pass_through"
  | .passThroughAfterCheck => "checked"
  | .reject _ => "rejected"

/-- The outcome of a violation by name. -/
def violationName : Except StoreFault ViolationOutcome → String
  | .ok .ignored => "ignored"
  | .ok (.counted _) => "counted"
  | .ok (.suspicious _) => "suspicious"
  | .ok (.blocked _) => "blocked"
  | .error _ => "error"

/-- A series with one label. -/
def labelled (name label value : String) : String :=
  name ++ "\x7b" ++ label ++ "=\"" ++ value ++ "\"\x7d"

/-- The series that grow by one. -/
def series : Event → List String
  | admission a => [labelled "gateway_admissions_total" "outcome" (admissionName a)]
  | refusal code => [labelled "gateway_auth_failures_total" "reason" code]
  | blocked => ["gateway_ip_blocked_requests_total"]
  | violation outcome => [labelled "gateway_ip_violations_total" "outcome" (violationName outcome)]
  | relayed => ["gateway_proxy_requests_total", "gateway_proxy_latency_seconds_count"]

end Event

/-- How the service of a request ends: with a response, or with an error that stands for one. -/
inductive Ending where
  | response (r : Response)
  | error (status : Nat)
deriving DecidableEq, Repr

namespace Ending

/-- The status that the client sees. -/
def status : Ending → Nat
  | response r => r.status
  | error status => status

/-- The end of a request that is refused. -/
def refusal (r : Refusal) : Ending := response r.response

end Ending

/-- A stage: it hands on something to what lies behind, and ends in a result. -/
inductive Stage (ι α : Type) where
  | done (result : α)
  | ask (c : Command) (next : c.Reply → Stage ι α)
  | note (e : Event) (rest : Stage ι α)
  | handOn (x : ι) (next : Ending → Stage ι α)

namespace Stage

/-- A plan, and what follows from its result. -/
def ofPlan {ι α β : Type} : Plan β → (β → Stage ι α) → Stage ι α
  | .done b, next => next b
  | .ask c rest, next => ask c fun reply => ofPlan (rest reply) next

/-- Runs a stage over a store and in front of something. What is counted is in order. -/
def run {σ ι α : Type} (serve : σ → (c : Command) → c.Reply × σ) (behind : ι → σ → (Ending × List Event) × σ) :
    Stage ι α → σ → (α × List Event) × σ
  | done a, s => ((a, []), s)
  | ask c next, s =>
    let (reply, s) := serve s c
    run serve behind (next reply) s
  | note e rest, s =>
    let ((a, events), s) := run serve behind rest s
    ((a, e :: events), s)
  | handOn x next, s =>
    let ((ending, before), s) := behind x s
    let ((a, after), s) := run serve behind (next ending) s
    ((a, before ++ after), s)

end Stage

end Tollgate.Gateway
