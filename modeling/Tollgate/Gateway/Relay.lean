/-
The relay to the server behind the gateway. Header fields that concern only the connection to the client
are not passed on, and of the response only some fields are.
-/
import Tollgate.Gateway.Refusal
import Tollgate.Net.Errand

namespace Tollgate.Gateway.Relay

/-- The names of fields that concern only one connection. -/
def hopNames : List String :=
  ["host", "connection", "keep-alive", "proxy-connection", "proxy-authorization", "te", "trailer",
    "transfer-encoding", "upgrade", "content-length"]

/-- The names of fields of a response that clients may see. -/
def relayedNames : List String :=
  ["content-type", "content-encoding", "content-disposition", "cache-control", "etag", "last-modified",
    "location", "date", "vary", "x-request-id"]

/-- The longest body that is relayed. -/
def maxBody : Nat := 10 * 1024 * 1024

/-- A text without white space and then quotes around it. -/
def unquoted (s : List Char) : List Char :=
  Text.trimmedRight (· == '"') (Text.trimmedLeft (· == '"') (Text.trimmed s))

/-- The scheme that a `Forwarded` field tells of first. -/
def forwardedScheme? (h : Headers) : Option (List Char) :=
  let pairs := ((h.values "forwarded").filterMap Headers.text?).flatMap fun text =>
    ((Text.splitBy (fun c => c == ';' || c == ',') text.toList).filterMap fun pair =>
      Text.cutAt? (· == '=') (Text.trimmed pair))
  (pairs.find? fun p => (Text.trimmed p.1).map Char.toLower == "proto".toList).map fun p => unquoted p.2

/-- The scheme that an `X-Forwarded-Proto` field tells of first. -/
def forwardedProto? (h : Headers) : Option (List Char) := do
  let text ← Headers.text? (← h.first? "x-forwarded-proto")
  return Text.trimmed (text.toList.takeWhile (· ≠ ','))

/-- The scheme by which the client came. -/
def scheme (r : Request) : String :=
  String.ofList (((forwardedScheme? r.headers).or ((forwardedProto? r.headers).or r.target.scheme)).getD
    "http".toList)

/-- The header fields that are passed on: the client's, and where it came from. -/
def headers (r : Request) : Headers :=
  r.headers.filter (fun f => !hopNames.contains f.name) ++
    (match r.peer with
      | some peer => [⟨"x-forwarded-for", Bytes.ofText peer.toText⟩]
      | none => []) ++
    [⟨"x-forwarded-proto", Bytes.ofText (scheme r)⟩]

/-- The request that is passed on. -/
def request? (r : Request) (url : List Char) : Option Outgoing := do
  let o ← (← Outgoing.begin? r.method url).add? (headers r)
  return { o with body := r.body }

/-- What is said of a body that cannot be relayed. -/
def bodyMessage : BodyFault → String
  | .tooLong => "upstream body exceeds limit"
  | .broken => "reading upstream body"

/-- The fields of a response that are relayed. Only one field of a name is, the last that is a text. -/
def relayedHeaders (h : Headers) : Headers :=
  (h.filter fun f => relayedNames.contains f.name && (Headers.text? f.value).isSome).foldl
    (fun out f => out.set f.name f.value) []

/-- What is relayed of a response. -/
def response : Option Incoming → Except Refusal Response
  | none => .error (.relayFailed "upstream unreachable")
  | some i =>
    match Body.read maxBody i with
    | .ok body => .ok ⟨i.status, relayedHeaders i.headers, body⟩
    | .error fault => .error (.relayFailed (bodyMessage fault))

/-- Relays a request to a URL. -/
def relay (r : Request) (url : List Char) : Errand (Except Refusal Response) :=
  match request? r url with
  | some o => .send o fun reply => .done (response reply)
  | none => .done (response none)

end Tollgate.Gateway.Relay
