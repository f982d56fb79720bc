/-
Published keys: the entries of a key set as its document has them. Some members are common to all
entries; the rest must fit one of four kinds of key, tried in a fixed order. An entry that fits none,
or that names an algorithm nobody knows, makes the whole document unreadable.
-/
import Tollgate.Json.Record
import Tollgate.Keys.Algorithm

namespace Tollgate

open Json

/-- What a key may be declared for: a signature algorithm of tokens, or the encryption of keys. -/
inductive DeclaredUse where
  | signature (a : Algorithm)
  | rsa15
  | rsaOaep
  | rsaOaep256
deriving DecidableEq, Repr

namespace DeclaredUse

/-- The use of a name. -/
def ofName? (s : String) : Option DeclaredUse :=
  if s = "RSA1_5" then some rsa15
  else if s = "RSA-OAEP" then some rsaOaep
  else if s = "RSA-OAEP-256" then some rsaOaep256
  else (Algorithm.ofName? s).map signature

end DeclaredUse

/-- The numbers of a key, in the base-sixty-four form in which they are published. -/
inductive KeyNumbers where
  | elliptic (x y : String)
  | rsa (n e : String)
  | symmetric (k : String)
  | edwards (x : String)
deriving DecidableEq, Repr

/-- An entry of a published key set. -/
structure PublishedKey where
  kid : Option String
  declared : Option DeclaredUse
  numbers : KeyNumbers
deriving DecidableEq, Repr

namespace PublishedKey

/-- The names of the members that every kind of key may have. -/
def commonNames : List String := ["use", "key_ops", "alg", "kid", "x5u", "x5c", "x5t", "x5t#S256"]

/-- The names of curves. -/
def curveNames : List String := ["P-256", "P-384", "P-521", "Ed25519"]

/-- The declared use: a name, or an object with that one name and a null or an empty object. -/
def declared? : Tree → Option DeclaredUse
  | .object [(name, .object [])] => do DeclaredUse.ofName? (← name)
  | t => do DeclaredUse.ofName? (← t.choice?)

/-- Reads the members of one kind of key: all required, and no known one twice. -/
def kind? (members : List (Option String × Tree)) (type : String) (names : List String) :
    Option (List String) := do
  let ts ← (Tree.object members).fields? ("kty" :: names)
  match ts with
  | kty :: rest =>
    guard ((← kty.choice?) = type)
    (names.zip rest).mapM fun (name, t) =>
      if name = "crv" then do
        let curve ← t.choice?
        if curve ∈ curveNames then some curve else none
      else t.text?
  | [] => none

/-- The first kind of key that the members fit. -/
def numbers? (members : List (Option String × Tree)) : Option KeyNumbers :=
  match kind? members "EC" ["crv", "x", "y"] with
  | some [_, x, y] => some (.elliptic x y)
  | _ =>
    match kind? members "RSA" ["n", "e"] with
    | some [n, e] => some (.rsa n e)
    | _ =>
      match kind? members "oct" ["k"] with
      | some [k] => some (.symmetric k)
      | _ =>
        match kind? members "OKP" ["crv", "x"] with
        | some [_, x] => some (.edwards x)
        | _ => none

/-- Reads an entry that stands `depth` levels below the limit of nesting. -/
def ofTree? (depth : Nat) (t : Tree) : Option PublishedKey := do
  let .object members := t | none
  -- all of it must have a value, also what is not looked at
  let _ ← t.value? depth
  guard (wellNamed commonNames members)
  let _ ← optional? Tree.text? (member? members "use")
  let _ ← optional? Tree.texts? (member? members "key_ops")
  let declared ← optional? declared? (member? members "alg")
  let kid ← optional? Tree.text? (member? members "kid")
  let _ ← optional? Tree.text? (member? members "x5u")
  let _ ← optional? Tree.texts? (member? members "x5c")
  let _ ← optional? Tree.text? (member? members "x5t")
  let _ ← optional? Tree.text? (member? members "x5t#S256")
  let rest := members.filter fun m => !m.1.any (commonNames.contains ·)
  return ⟨kid, declared, ← numbers? rest⟩

/-- Reads the document of a key set. -/
def setOfTree? (t : Tree) : Option (List PublishedKey) := do
  match ← t.fields? ["keys"] with
  | [.array entries] => entries.mapM (ofTree? (maxDepth - 2))
  | _ => none

end PublishedKey

end Tollgate
