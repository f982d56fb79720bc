/-
The emitter of notices: it signs a notice, sends it to one receiver, once, and takes the receiver's
word for it.
-/
import Tollgate.Net.Errand
import Tollgate.Payment.Delivery
import Tollgate.Payment.Wire
import Tollgate.Settings.Report
import Tollgate.Time.Duration

namespace Tollgate

/-- Who notices are sent to, what they are signed with, and what their references begin with. -/
structure Emitter where
  url : String
  secret : Bytes
  referenceStem : String
  /-- nanoseconds that a delivery may take -/
  timeout : Nat
deriving DecidableEq, Repr

/-- What the receiver has acknowledged. -/
structure Receipt where
  status : Nat
  reference : String
  signature : String
deriving DecidableEq, Repr

namespace Emitter

/-- What references begin with unless something else is asked for. -/
def defaultStem : String := "mock-ref-"

/-- The time for a delivery unless another is asked for. -/
def defaultTimeout : Nat := Duration.ofSeconds 10

/-- The reference made of an identifier that occurs only once. -/
def reference (e : Emitter) (identifier : String) : String := e.referenceStem ++ identifier

/-- The request that carries a written notice and its signature, and passes a token on. -/
def request? (e : Emitter) (n : Notice) (body token : String) : Option Outgoing := do
  let o ← Outgoing.begin? "POST" e.url.toList
  let o ← o.add?
    [⟨"content-type", Bytes.ofText "application/json"⟩, ⟨"x-signature", Bytes.ofText (n.sign e.secret)⟩,
      ⟨"authorization", Bytes.ofText ("Bearer " ++ token)⟩]
  return { o with body := Bytes.ofText body }

/-- What the response to a notice means. Only the head counts, unless it is a refusal. -/
def receipt (e : Emitter) (n : Notice) : Option Incoming → Except Delivery.Fault Receipt
  | none => .error (.transport "no response")
  | some i =>
    if isSuccess i.status then .ok ⟨i.status, n.reference, n.sign e.secret⟩
    else .error (.refused i.status (Utf8.shown (i.body?.getD [])))

/-- Delivers a notice. -/
def deliver (e : Emitter) (n : Notice) (token : String) : Errand (Except Delivery.Fault Receipt) :=
  match n.write? with
  | none => .done (.error (.build (.unwritten "the amount is no number literal")))
  | some body =>
    match e.request? n body token with
    | some o => .send o fun reply => .done (e.receipt n reply)
    | none => .done (.error (.transport "cannot be sent"))

/-- Reports a payment at an instant, under a reference of its own. -/
def emit (e : Emitter) (p : Payment) (token identifier : String) (at_ : Instant) :
    Errand (Except Delivery.Fault Receipt) :=
  match Notice.ofPayment p (e.reference identifier) at_ with
  | .ok n => e.deliver n token
  | .error fault => .done (.error (.build fault))

/-- The emitter without its secret. -/
def report (e : Emitter) : String :=
  Report.record "CallbackEmitter"
    [("url", Text.quoted e.url), ("secret", Text.quoted Report.hidden),
      ("reference_prefix", Text.quoted e.referenceStem), ("timeout", Duration.shown e.timeout)]

end Emitter

end Tollgate
