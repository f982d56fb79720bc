/-
The watch over client addresses. It stands in front of everything, so that it sees the refusals of the
rate limiter: each of them is a violation by the client. A blocked address gets no further.
-/
import Tollgate.Gateway.Credentials
import Tollgate.Gateway.Stage
import Tollgate.Time.Duration

namespace Tollgate.Gateway.Traffic

/-- The status of a request that came too soon. -/
def tooMany : Nat := 429

/-- Counts a violation if a request came too soon, and leaves its end as it is. -/
def settle (b : BlockList) (mark address : String) (ending : Ending) : Stage Unit Ending :=
  if ending.status = tooMany then
    .ofPlan (b.recordViolation mark address).run fun outcome => .note (.violation outcome) (.done ending)
  else .done ending

/-- Hands on a request of a known client unless its address is blocked. -/
def watchAddress (b : BlockList) (mark address : String) : Stage Unit Ending :=
  .ofPlan (b.check address) fun
    | .blocked left =>
      .note .blocked (.done (.refusal (.addressBlocked (max 1 (Duration.seconds left)))))
    | .allow => .handOn () (settle b mark address)

/-- Hands on a request; a client whose address is not known is not watched. -/
def watch (b : BlockList) (trustsForwarded : Bool) (mark : String) (r : Request) : Stage Unit Ending :=
  match Credentials.clientAddress? trustsForwarded r with
  | some address => watchAddress b mark address
  | none => .handOn () .done

end Tollgate.Gateway.Traffic
