/-
Records in JSON texts. A record is written as an object whose known names occur at most once and whose
other members are passed over, or as an array of its fields in order.
-/
import Tollgate.Json.Value

namespace Tollgate.Json

/-- The trees of the members of a name, in order. -/
def membersNamed (name : String) (members : List (Option String × Tree)) : List Tree :=
  members.filterMap fun m => if m.1 = some name then some m.2 else none

/-- Whether every name denotes a text and none of the known ones occurs twice. -/
def wellNamed (known : List String) (members : List (Option String × Tree)) : Bool :=
  members.all (·.1.isSome) && known.all fun name => (membersNamed name members).length ≤ 1

/-- The member of a name in an object, if there is one. -/
def member? (members : List (Option String × Tree)) (name : String) : Option Tree :=
  (membersNamed name members).head?

/-- The fields of a record whose fields are all required, in the order of their names. -/
def Tree.fields? (names : List String) : Tree → Option (List Tree)
  | .object members => if wellNamed names members then names.mapM (member? members) else none
  | .array items => if items.length = names.length then some items else none
  | _ => none

/-- The text of a string literal. -/
def Tree.text? : Tree → Option String
  | .text t => t
  | _ => none

/-- Whether what comes next is the value of one field of a record whose other fields are texts. So far the
names are those of a record, and the fields are texts. -/
def Tree.Builder.awaits (names : List String) (field : String) : Builder → Bool
  | ⟨[.member before (some name)], .value⟩ =>
    name == field && wellNamed names before && (membersNamed field before).isEmpty &&
      before.all fun m => !m.1.any names.contains || m.2.text?.isSome
  | ⟨[.array before], .value⟩ => before.length == names.idxOf field && before.all (·.text?.isSome)
  | _ => false

/-- Reads a field that may be absent or null: the outer `none` refuses it. -/
def optional? {α : Type} (read : Tree → Option α) : Option Tree → Option (Option α)
  | none => some none
  | some .null => some none
  | some t => (read t).map some

/-- The texts of an array of string literals. -/
def Tree.texts? : Tree → Option (List String)
  | .array items => items.mapM Tree.text?
  | _ => none

/-- The name of one of several alternatives: a string literal, or an object with that one name and a
null. -/
def Tree.choice? : Tree → Option String
  | .text t => t
  | .object [(name, .null)] => name
  | _ => none

end Tollgate.Json
