/-
Which request paths the gateway lets pass. Rules match a path as it is written, so a path whose meaning
could change when it is read as part of a URL is refused, and is never changed.
-/
import Tollgate.Net.Percent
import Tollgate.Text.Blank

namespace Tollgate.Gateway

/-- Why a path or query is refused. -/
inductive PathFault where
  | encoding
  | traversal
  | backslash
  | authority
  | control
  | queryControl
  /-- no URL can be made with it -/
  | unreadable
  /-- a URL made with it has another path -/
  | changed (actual expected : String)
deriving DecidableEq, Repr

/-- What is said of a path. -/
def PathFault.message : PathFault → String
  | encoding => "invalid URL encoding"
  | traversal => "path traversal"
  | backslash => "backslash in path"
  | authority => "path would change the upstream authority"
  | control => "control character in path"
  | queryControl => "query string must not contain control characters"
  | unreadable => "invalid target URL"
  | changed actual expected => "path normalises to " ++ actual ++ " instead of " ++ expected

namespace Path

/-- Whether two points stand side by side. -/
def hasTwoDots : List Char → Bool
  | '.' :: '.' :: _ => true
  | _ :: rest => hasTwoDots rest
  | [] => false

/-- A control character: C0, the one after the tilde, or C1. -/
def isControl (c : Char) : Bool := c.toNat < 0x20 || (0x7f ≤ c.toNat && c.toNat < 0xa0)

/-- What is wrong with the decoded form of a path, of several things the first. -/
def fault? (decoded : List Char) : Option PathFault :=
  if hasTwoDots decoded then some .traversal
  else if decoded.contains '\\' then some .backslash
  else if ['/', '/'].isPrefixOf decoded || decoded.contains '@' then some .authority
  else if decoded.any isControl then some .control
  else none

/-- The path as it is written, if nothing is wrong with its decoded form. -/
def check (path : List Char) : Except PathFault (List Char) :=
  match Percent.decodeText? path with
  | none => .error .encoding
  | some decoded =>
    match fault? decoded.toList with
    | some fault => .error fault
    | none => .ok path

end Path

end Tollgate.Gateway
