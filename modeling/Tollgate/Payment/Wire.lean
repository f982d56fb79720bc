/-
Payments and notices as JSON records. Amounts are written as the number literals they are; they are
read from the literal itself, a number or a string, never from a floating-point number. What is put into
a record as it stands must be a JSON text by itself, so a record with an amount might not be written.

Fields are read as soon as they have been passed, before the rest of the text. So a text whose amount has
an exponent that overflows has no answer whatever else is written in it.
-/
import Tollgate.Json.Printer
import Tollgate.Json.Record
import Tollgate.Payment.Notice

namespace Tollgate

open Json

/-- The text that an amount in a JSON text is read from. -/
def Amount.literal? : Tree → Option String
  | .number n => some n.toText
  | .text t => t
  | _ => none

/-- The amount that a literal spells. -/
def Amount.ofTree? (t : Tree) : Option Amount := do (Amount.parse (← Amount.literal? t)).toOption

/-- Whether the exponent of a literal overflows. -/
def Amount.overflows (t : Tree) : Bool :=
  (Amount.literal? t).any fun text =>
    match Amount.parse text with
    | .error .overflow => true
    | _ => false

/-- Whether the written form of an amount is a JSON text by itself. -/
def Amount.isLiteral (a : Amount) : Bool := (Tree.ofText? a.toText).isSome

/-! ## Where reading stops -/

namespace Amount

/-- Whether the last of some tokens, which stands first, is the amount of a record and overflows. -/
def stopsAt (names : List String) (field : String) : List Token → Bool
  | [] => false
  | last :: before =>
    (Tree.ofToken? last).any overflows &&
      (before.reverse.foldlM Tree.Builder.step ⟨[], .value⟩).any (·.awaits names field)

/-- Whether the amount of a record overflows once the reader has passed it. -/
def stopsFrom (names : List String) (field : String) (r : Token.Reader) : List (Option Char) → Bool
  | [] => r.settle.any fun q => stopsAt names field q.tokens
  | g :: rest =>
    (!r.goesOn g && r.settle.any fun q => stopsAt names field q.tokens) ||
      (r.step g).any (stopsFrom names field · rest)

/-- Whether reading a record stops at its amount, so that there is no answer. -/
def stops (names : List String) (field : String) (body : Bytes) : Bool :=
  stopsFrom names field ⟨[], .between⟩ (Utf8.scan body)

end Amount

/-! ## Records -/

namespace Payment

/-- The names of the fields. -/
def names : List String := ["va_number", "amount"]

/-- Whether reading a record stops at its amount. -/
def stops (body : Bytes) : Bool := Amount.stops names "amount" body

/-- Reads a record. -/
def ofTree? (t : Tree) : Option Payment := do
  match ← t.fields? names with
  | [account, amount] => return ⟨← account.text?, ← Amount.ofTree? amount⟩
  | _ => none

/-- The written form. -/
def toText (p : Payment) : String :=
  String.ofList (printedObject (names.zip [printedText p.account, p.amount.digits]))

end Payment

namespace Notice

/-- The names of the fields. -/
def names : List String := ["vaNumber", "paidAmount", "paymentTimestamp", "paymentReference"]

/-- Whether reading a record stops at its amount. -/
def stops (body : Bytes) : Bool := Amount.stops names "paidAmount" body

/-- Reads a record. -/
def ofTree? (t : Tree) : Option Notice := do
  match ← t.fields? names with
  | [account, paid, sentAt, reference] =>
    return ⟨← account.text?, ← Amount.ofTree? paid, ← sentAt.text?, ← reference.text?⟩
  | _ => none

/-- The written form. -/
def toText (n : Notice) : String :=
  String.ofList (printedObject (names.zip
    [printedText n.account, n.paid.digits, printedText n.sentAt, printedText n.reference]))

/-- The written form, unless the amount cannot be put into it. -/
def write? (n : Notice) : Option String := if n.paid.isLiteral then some n.toText else none

end Notice

end Tollgate
