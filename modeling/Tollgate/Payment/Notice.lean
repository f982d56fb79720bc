/-
Payments and the notices that report them. A notice is signed over the account, the amount, the stamp
and the reference, one after the other with nothing between; its receiver forms the same message from
the fields it has read and checks the stamp against its own clock.
-/
import Tollgate.Crypto.Mac
import Tollgate.Decimal.Amount
import Tollgate.Time.Stamp

namespace Tollgate

/-- An amount paid into an account. -/
structure Payment where
  account : String
  amount : Amount
deriving DecidableEq, Repr

/-- The report of a payment: when it was sent, as a text, and under which reference. -/
structure Notice where
  account : String
  paid : Amount
  sentAt : String
  reference : String
deriving DecidableEq, Repr

namespace Notice

/-- Why a payment cannot be reported. -/
inductive Fault where
  | amount (fault : Amount.Fault)
  | blankAccount
  | unwritten (detail : String)
deriving DecidableEq, Repr

/-- What is said of a payment that cannot be reported. -/
def Fault.message : Fault → String
  | .amount fault => fault.message
  | .blankAccount => "va_number must not be empty"
  | .unwritten detail => "failed to serialize payload: " ++ detail

/-- The notice of a payment at an instant; the account must not be blank. -/
def ofPayment (p : Payment) (reference : String) (at_ : Instant) : Except Fault Notice :=
  if (Text.trimmed p.account.toList).isEmpty then .error .blankAccount
  else .ok ⟨p.account, p.amount, Stamp.ofInstant at_, reference⟩

/-- The message that is signed. -/
def message (n : Notice) : String := n.account ++ n.paid.toText ++ n.sentAt ++ n.reference

/-- The signature under a secret. -/
def sign (secret : Bytes) (n : Notice) : String := Mac.signature secret (Bytes.ofText n.message)

/-! ## The receiver's check -/

/-- What is wrong with a stamp. -/
inductive StampFault where
  | unreadable
  | distant (stamp : String) (minutes : Nat)
deriving DecidableEq, Repr

/-- What is said of a stamp. -/
def StampFault.message : StampFault → String
  | .unreadable => "not a timestamp"
  | .distant stamp minutes => stamp ++ " is " ++ minutes.repr ++ " minutes away from now"

/-- Why a notice is not accepted. -/
inductive Rejection where
  | missingSignature
  | invalidSignature
  | invalidStamp (fault : StampFault)
deriving DecidableEq, Repr

/-- What is said of a stamp that is not accepted. -/
def Rejection.stampText (detail : String) : String := "invalid timestamp: " ++ detail

/-- What is said of a notice that is not accepted. -/
def Rejection.message : Rejection → String
  | .missingSignature => "missing signature header"
  | .invalidSignature => "invalid signature"
  | .invalidStamp fault => stampText fault.message

/-- A stamp may be this many whole minutes away. -/
def maxMinutes : Nat := 5

/-- Accepts a notice that carries a signature, was sent within a few minutes of now, and whose
signature fits: looked at in this order. -/
def verify (n : Notice) (signature : Option String) (secret : Bytes) (now : Instant) :
    Except Rejection Unit := do
  let signature := signature.getD ""
  if (Text.trimmed signature.toList).isEmpty then throw .missingSignature
  let some sentAt := Stamp.read? n.sentAt | throw (.invalidStamp .unreadable)
  let minutes := now.minutesApart sentAt
  if maxMinutes < minutes then throw (.invalidStamp (.distant n.sentAt minutes))
  unless Mac.accepts secret (Bytes.ofText n.message) signature do throw .invalidSignature

end Notice

end Tollgate
