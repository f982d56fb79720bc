/-
The claims of a token. Six are known by name, all others are kept as they are. Dates are whole seconds;
a fraction is cut off, and what lies beyond 64 bits stops at their bounds.
-/
import Tollgate.Json.Printer
import Tollgate.Json.Record
import Tollgate.Text.Blank

namespace Tollgate

open Json

/-- The claims of a token. -/
structure Claims where
  /-- identifier of the token -/
  jti : Option String
  issuer : Option String
  subject : Option String
  expires : Option Int
  notBefore : Option Int
  issuedAt : Option Int
  /-- all other claims, ascending by name -/
  extra : List (String × Value)

namespace Claims

/-- The names of the known claims. -/
def names : List String := ["jti", "iss", "sub", "exp", "nbf", "iat"]

/-- The bounds of 64 signed bits. -/
def clamped (n : Int) : Int := max (-(2 ^ 63)) (min (2 ^ 63 - 1) n)

/-- The whole seconds of a number. -/
def seconds : Number → Int
  | .natural n => clamped n
  | .negative n => clamped n
  | .float x => clamped (if x.negative then -(x.wholePart : Int) else x.wholePart)

/-- Reads a date. -/
def date? : Tree → Option Int
  | .number n => (Number.ofNumeral? n).map seconds
  | _ => none

/-- Reads claims: an object in which no known claim occurs twice. -/
def ofTree? (t : Tree) : Option Claims := do
  let .object members := t | none
  guard (wellNamed names members)
  let jti ← optional? Tree.text? (member? members "jti")
  let issuer ← optional? Tree.text? (member? members "iss")
  let subject ← optional? Tree.text? (member? members "sub")
  let expires ← optional? date? (member? members "exp")
  let notBefore ← optional? date? (member? members "nbf")
  let issuedAt ← optional? date? (member? members "iat")
  let others ← memberValues? (maxDepth - 1)
    (members.filter fun m => !m.1.any (names.contains ·))
  return ⟨jti, issuer, subject, expires, notBefore, issuedAt, sortMembers others⟩

/-- A date as a number. -/
def dateValue (n : Int) : Value := .number (if 0 ≤ n then .natural n.toNat else .negative n)

/-- The claims as an object: known ones that are present, and the others. -/
def toValue (c : Claims) : Value :=
  let text (name : String) (v : Option String) := v.toList.map fun s => (name, Value.text s)
  let date (name : String) (v : Option Int) := v.toList.map fun n => (name, dateValue n)
  .object (text "jti" c.jti ++ text "iss" c.issuer ++ text "sub" c.subject ++
    date "exp" c.expires ++ date "nbf" c.notBefore ++ date "iat" c.issuedAt ++ c.extra)

/-! ## Scopes -/

/-- The characters between the words of a scope list. -/
def isSeparator (c : Char) : Bool := c == ',' || Text.isBlank c

/-- The words of a scope list. -/
def scopeWords (s : String) : List String :=
  ((Text.splitBy isSeparator s.toList).filter (!·.isEmpty)).map String.ofList

/-- The text of a value that is one. -/
def text? : Value → Option String
  | .text s => some s
  | _ => none

/-- The scopes granted by a claim: the words of a text, or the texts of an array. -/
def scopesOf : Option Value → List String
  | some (.text s) => scopeWords s
  | some (.array items) => items.filterMap text?
  | _ => []

/-- The scopes that the claims grant. -/
def scopes (c : Claims) : List String := scopesOf (c.extra.lookup "scope")

end Claims

end Tollgate
