/-
Settings as they are shown in reports, in which secrets have no place.
-/
import Tollgate.Net.Url
import Tollgate.Text.Quoted

namespace Tollgate.Report

/-- What stands in place of a secret. -/
def hidden : String := "[REDACTED]"

/-- The form of values in a list. -/
def list (values : List String) : String := "[" ++ ", ".intercalate values ++ "]"

/-- The form of a value that may be missing. -/
def optional : Option String → String
  | some value => "Some(" ++ value ++ ")"
  | none => "None"

/-- The form of named values. -/
def record (name : String) (fields : List (String × String)) : String :=
  name ++ " \x7b " ++ ", ".intercalate (fields.map fun f => f.1 ++ ": " ++ f.2) ++ " \x7d"

/-- Yes or no. -/
def flag (b : Bool) : String := if b then "true" else "false"

/-- An address of a service, with its password hidden if it has one. -/
def endpoint (s : String) : String :=
  match Url.ofText? s with
  | some url => if url.password.isSome then String.ofList (url.withPassword hidden.toList).chars else s
  | none => s

/-- A secret that may be missing. -/
def secret (s : Option String) : String := optional (s.map fun _ => Text.quoted hidden)

end Tollgate.Report
