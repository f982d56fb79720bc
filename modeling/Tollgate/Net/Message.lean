/-
Requests and responses as they go over a connection: header fields in the order in which they came,
and a body of octets.
-/
import Tollgate.Bytes.Utf8
import Tollgate.Json.Printer
import Tollgate.Json.Value
import Tollgate.Net.Address
import Tollgate.Net.Target

namespace Tollgate

/-- A header field. Names are in lower case. -/
structure HeaderField where
  name : String
  value : Bytes
deriving DecidableEq, Repr

/-- The header fields of a message, in order; a name may occur more than once. -/
abbrev Headers := List HeaderField

namespace Headers

/-- A field with a name in any case. -/
def field (name : String) (value : Bytes) : HeaderField := ⟨Text.lowered name, value⟩

/-- The values of a name, in order. -/
def values (h : Headers) (name : String) : List Bytes := (h.filter (·.name == name)).map (·.value)

/-- The first value of a name. -/
def first? (h : Headers) (name : String) : Option Bytes := (h.values name).head?

/-- The fields with one value for a name in place of all it had. -/
def set (h : Headers) (name : String) (value : Bytes) : Headers :=
  h.filter (·.name != name) ++ [⟨name, value⟩]

/-- Whether an octet is a visible character of ASCII, a space or a tab. -/
def isPlain (b : UInt8) : Bool := (0x20 ≤ b && b < 0x7f) || b == 0x09

/-- The text of a value that consists of plain octets. -/
def text? (value : Bytes) : Option String :=
  if value.all isPlain then some (String.ofList (value.map fun b => Char.ofNat b.toNat)) else none

/-- Whether octets may be a value: no control characters but the tab. -/
def isValue (value : Bytes) : Bool := value.all fun b => (0x20 ≤ b && b != 0x7f) || b == 0x09

end Headers

/-- A request; its peer is unknown if it did not come over a connection. The body is what could be read of
it, with its encoding undone; the fault tells why that is not all of it. -/
structure Request where
  method : String
  target : Target
  headers : Headers
  peer : Option PeerAddress
  body : Bytes
  fault : Option String := none
deriving DecidableEq, Repr

/-- A response. -/
structure Response where
  status : Nat
  headers : Headers
  body : Bytes
deriving DecidableEq, Repr

namespace Response

/-- A response with a text. -/
def plain (status : Nat) (contentType text : String) : Response :=
  ⟨status, [⟨"content-type", Bytes.ofText contentType⟩], Bytes.ofText text⟩

/-- A response with a JSON document, and further fields before the one that names its kind. A field
that cannot be sent takes the place of the whole response. -/
def json (status : Nat) (headers : Headers) (document : Json.Value) : Response :=
  if headers.all fun f => Headers.isValue f.value then
    ⟨status, headers ++ [⟨"content-type", Bytes.ofText "application/json"⟩], Bytes.ofText document.toText⟩
  else plain 500 "text/plain; charset=utf-8" "failed to parse header value"

/-- The document that tells of an error: its code, what is said of it, and what else there is to say.
Members are ascending by name. -/
def errorDocument (code message : String) (more : List (String × Json.Value)) : Json.Value :=
  .object ([("error", .text code), ("message", .text message)] ++ more)

end Response

end Tollgate
