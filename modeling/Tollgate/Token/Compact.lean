/-
Tokens as they travel: three segments with a point between. The signature covers the text of the first
two. A token is read in two ways: from its end where the signature is checked, as a whole where the claims
are taken from it.
-/
import Tollgate.Bytes.Base64url
import Tollgate.Text.Blank

namespace Tollgate

/-- The segments of a token. -/
structure Compact where
  header : List Char
  claims : List Char
  signature : List Char
deriving DecidableEq, Repr

namespace Compact

/-- The segments of a text that has exactly three. -/
def ofText? (s : String) : Option Compact :=
  match Text.splitBy (· == '.') s.toList with
  | [header, claims, signature] => some ⟨header, claims, signature⟩
  | _ => none

/-- The segments by the last two points of a text. What stands before them is taken for the header,
points and all. -/
def ofEnd? (s : String) : Option Compact := do
  let (signed, signature) ← Text.cutAtLast? (· == '.') s.toList
  let (header, claims) ← Text.cutAtLast? (· == '.') signed
  return ⟨header, claims, signature⟩

/-- The part that is signed. -/
def signedChars (c : Compact) : List Char := c.header ++ '.' :: c.claims

/-- The octets that are signed. -/
def message (c : Compact) : Bytes := c.signedChars.flatMap String.utf8EncodeChar

/-- The whole token. -/
def toText (c : Compact) : String := String.ofList (c.signedChars ++ '.' :: c.signature)

end Compact

end Tollgate
