/-
Delivery of notices: why one did not reach its receiver.
-/
import Tollgate.Payment.Notice

namespace Tollgate.Delivery

/-- Why a notice is not delivered. -/
inductive Fault where
  | build (fault : Notice.Fault)
  | transport (detail : String)
  | refused (status : Nat) (body : String)
deriving DecidableEq, Repr

namespace Fault

/-- What is said of a notice that cannot be formed. -/
def buildText (detail : String) : String := "cannot build callback payload: " ++ detail

/-- What is said of a notice that is not delivered. -/
def message : Fault → String
  | .build fault => buildText fault.message
  | .transport detail => "callback delivery failed: " ++ detail
  | .refused status body => "callback receiver returned status " ++ status.repr ++ ": " ++ body

end Fault

end Tollgate.Delivery
