/-
The URL that a request is passed on to: the base, the path as it is written, and the query. A URL that
does not read back with that path is refused.
-/
import Tollgate.Gateway.Path
import Tollgate.Gateway.Refusal
import Tollgate.Net.Url

namespace Tollgate.Gateway.Backend

/-- A text without slashes at its end. -/
def withoutSlashes (s : List Char) : List Char := Text.trimmedRight (· == '/') s

/-- The query as it is passed on: without what follows a number sign, and without controls. -/
def query (q : List Char) : Except PathFault (List Char) :=
  let q := q.takeWhile (· ≠ '#')
  if q.any fun c => c == '\r' || c == '\n' || c == '\x00' then .error .queryControl else .ok q

/-- The URL for a path and query, read back to see that its path is the base's and then the
request's. -/
def join (base : List Char) (basePath path : List Char) (q : Option (List Char)) :
    Except PathFault (List Char) := do
  let q ← query (q.getD [])
  let url := withoutSlashes base ++ path ++ (if q.isEmpty then [] else '?' :: q)
  let expected := withoutSlashes basePath ++ path
  let some parsed := Url.ofChars? url | throw .unreadable
  if parsed.pathChars ≠ expected then
    throw (.changed (String.ofList parsed.pathChars) (String.ofList expected))
  return url

/-- The URL that a request is passed on to. -/
def url (base : String) (target : Target) : Except Refusal (List Char) := do
  let refuse (fault : PathFault) : Refusal := .invalidPath fault.message
  let path ← (Path.check target.path).mapError refuse
  let some parsed := Url.ofText? base | throw (.internal "invalid upstream URL")
  (join base.toList parsed.pathChars path target.query).mapError refuse

end Tollgate.Gateway.Backend
