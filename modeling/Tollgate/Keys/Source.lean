/-
Where published keys come from: a document that is asked for over a connection.
-/
import Tollgate.Keys.Cache
import Tollgate.Net.Errand

namespace Tollgate.KeySource

/-- The published keys in a response. -/
def read : Option Incoming → FetchOutcome
  | none => .error (.transport "no response")
  | some i =>
    if !isSuccess i.status then .error (.status i.status)
    else match i.body?.bind Json.Tree.ofBytes? with
    | some document => KeySet.readPublished document
    | none => .error (.decode "not a document")

/-- Fetches the published keys; redirections are not followed. -/
def fetch (url : String) : Errand FetchOutcome :=
  match (Outgoing.begin? "GET" url.toList).bind (·.add? [⟨"accept", Bytes.ofText "application/json"⟩]) with
  | some o => .send o fun reply => .done (read reply)
  | none => .done (read none)

end Tollgate.KeySource
