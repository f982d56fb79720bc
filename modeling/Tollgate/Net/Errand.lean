/-
Requests to other servers, and what comes back. An errand is a course of such requests: it says what is
sent and what is done with each response, and nothing of the servers.
-/
import Tollgate.Bytes.Base64url
import Tollgate.Net.Message
import Tollgate.Net.Url

namespace Tollgate

/-- A request to another server. -/
structure Outgoing where
  method : String
  url : Url
  headers : Headers
  body : Bytes
deriving DecidableEq, Repr

/-- A piece of a body as it arrives; the last one may be that the connection breaks off. -/
inductive Chunk where
  | octets (b : Bytes)
  | broken
deriving DecidableEq, Repr

/-- What comes back: the head at once, the body piece by piece. -/
structure Incoming where
  status : Nat
  headers : Headers
  /-- the length that the head tells of -/
  announced : Option Nat
  chunks : List Chunk
deriving DecidableEq, Repr

/-- Whether a status tells of success. -/
def isSuccess (status : Nat) : Bool := 200 ≤ status && status < 300

namespace Outgoing

/-- The credentials of a user name and a password, in base sixty-four with padding. -/
def basic (name : String) (password : Option String) : String :=
  let digits := (Base64url.encode (Bytes.ofText (name ++ ":" ++ password.getD ""))).map fun c =>
    if c = '-' then '+' else if c = '_' then '/' else c
  "Basic " ++ String.ofList (digits ++ List.replicate ((4 - digits.length % 4) % 4) '=')

/-- The credentials in a URL. -/
def credentials? (url : Url) : Option String := do
  let name ← Percent.decodeText? url.username
  let password := url.password.bind Percent.decodeText?
  if name.isEmpty && password.isNone then none else some (basic name password)

/-- A request without a body. Credentials in the URL become a header field. Only two schemes can be
used. -/
def begin? (method : String) (url : List Char) : Option Outgoing := do
  let url ← Url.ofChars? url
  guard (url.scheme = "http".toList ∨ url.scheme = "https".toList)
  return match credentials? url with
    | some value =>
      ⟨method, { url with username := [], password := none },
        [⟨"authorization", Bytes.ofText value⟩], []⟩
    | none => ⟨method, url, [], []⟩

/-- The request with more header fields, if their values can be sent. -/
def add? (o : Outgoing) (fields : Headers) : Option Outgoing :=
  if fields.all fun f => Headers.isValue f.value then some { o with headers := o.headers ++ fields } else none

/-- The header fields as they are sent: a request that does not say what it accepts accepts all. -/
def sentHeaders (o : Outgoing) : Headers :=
  if (o.headers.first? "accept").isSome then o.headers
  else o.headers ++ [⟨"accept", Bytes.ofText "*/*"⟩]

end Outgoing

namespace Incoming

/-- The whole body, unless it breaks off. -/
def body? (i : Incoming) : Option Bytes :=
  i.chunks.foldr (fun chunk rest =>
    match chunk with
    | .octets b => rest.map (b ++ ·)
    | .broken => none) (some [])

end Incoming

/-! ## Bodies of limited length -/

/-- Why there is no body. -/
inductive BodyFault where
  | tooLong
  | broken
deriving DecidableEq, Repr

namespace Body

/-- Adds pieces to what has arrived, as long as it does not get too long. -/
def gather (limit : Nat) (got : Bytes) : List Chunk → Except BodyFault Bytes
  | [] => .ok got
  | .broken :: _ => .error .broken
  | .octets b :: rest =>
    if limit < got.length + b.length then .error .tooLong else gather limit (got ++ b) rest

/-- The body, unless it is too long or is said to be. -/
def read (limit : Nat) (i : Incoming) : Except BodyFault Bytes :=
  if i.announced.any (limit < ·) then .error .tooLong else gather limit [] i.chunks

end Body

/-! ## Errands -/

/-- A course of requests that ends in a result. There may be no response at all. -/
inductive Errand (α : Type) where
  | done (result : α)
  | send (o : Outgoing) (next : Option Incoming → Errand α)

namespace Errand

/-- Another result in place of the one that an errand ends in. -/
def map {α β : Type} (f : α → β) : Errand α → Errand β
  | done a => done (f a)
  | send o next => send o fun reply => (next reply).map f

/-- Runs an errand among servers that are given by how they respond. -/
def run {σ α : Type} (respond : σ → Outgoing → Option Incoming × σ) : σ → Errand α → α × σ
  | s, done a => (a, s)
  | s, send o next =>
    let (reply, s') := respond s o
    run respond s' (next reply)

/-- What an errand sends, if these are the responses in turn. -/
def sent {α : Type} : Errand α → List (Option Incoming) → List Outgoing
  | done _, _ => []
  | send o _, [] => [o]
  | send o next, reply :: replies => o :: (next reply).sent replies

end Errand

end Tollgate
