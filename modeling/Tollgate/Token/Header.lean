/-
The header of a token: the algorithm it was signed with, and the identifier of the key. The other
members that a header may have must be of their kinds, but have no effect.
-/
import Tollgate.Keys.Published

namespace Tollgate

open Json

/-- What a header says about the signature. -/
structure Header where
  algorithm : Algorithm
  kid : Option String
deriving DecidableEq, Repr

namespace Header

/-- The names of the members, in the order of the array form. -/
def names : List String :=
  ["typ", "alg", "cty", "jku", "jwk", "kid", "x5u", "x5c", "x5t", "x5t#S256"]

/-- The members by name, from an object or from an array that has all of them. -/
def members? : Tree → Option (String → Option Tree)
  | .object members => if wellNamed names members then some (member? members) else none
  | .array items =>
    if items.length = names.length then some fun name => (names.zip items).lookup name else none
  | _ => none

/-- Reads a header. -/
def ofTree? (t : Tree) : Option Header := do
  let field ← members? t
  let algorithm ← Algorithm.ofName? (← (← field "alg").choice?)
  for name in ["typ", "cty", "jku", "x5u", "x5t", "x5t#S256"] do
    let _ ← optional? Tree.text? (field name)
  let _ ← optional? Tree.texts? (field "x5c")
  let _ ← optional? (PublishedKey.ofTree? (maxDepth - 1)) (field "jwk")
  let kid ← optional? Tree.text? (field "kid")
  return ⟨algorithm, kid⟩

end Header

end Tollgate
