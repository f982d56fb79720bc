/-
The tree of a JSON text: what was written, with members in order and repeated as often as they were
written. A tree is built from tokens by a stack of the arrays and objects that are still open.
-/
import Tollgate.Json.Token

namespace Tollgate.Json

/-- A JSON text as it was written. A string literal or a name that denotes no text is `none`. -/
inductive Tree where
  | null
  | bool (b : Bool)
  | number (n : Numeral)
  | text (t : Option String)
  | array (items : List Tree)
  | object (members : List (Option String × Tree))

namespace Tree

/-- What is still open around a value: an array, an object between members, an object within one. What
came before stands last first. -/
inductive Frame where
  | array (before : List Tree)
  | object (before : List (Option String × Tree))
  | member (before : List (Option String × Tree)) (name : Option String)

/-- What may come next. -/
inductive Expected where
  | value
  | valueOrClose
  | name
  | nameOrClose
  | colon (name : Option String)
  | afterValue (t : Tree)

/-- The open frames, innermost first, and what may come next. -/
structure Builder where
  stack : List Frame
  expected : Expected

/-- The tree of a token that stands for a value by itself. -/
def ofToken? : Token → Option Tree
  | .null => some .null
  | .bool b => some (.bool b)
  | .number n => some (.number n)
  | .text t => some (.text t)
  | _ => none

/-- A value begins. -/
def Builder.openValue (stack : List Frame) : Token → Option Builder
  | .openArray => some ⟨.array [] :: stack, .valueOrClose⟩
  | .openObject => some ⟨.object [] :: stack, .nameOrClose⟩
  | token => (ofToken? token).map fun t => ⟨stack, .afterValue t⟩

/-- One token further. -/
def Builder.step (b : Builder) (token : Token) : Option Builder :=
  match b.expected, b.stack, token with
  | .value, stack, token => openValue stack token
  | .valueOrClose, .array before :: stack, .closeArray => some ⟨stack, .afterValue (.array before.reverse)⟩
  | .valueOrClose, stack, token => openValue stack token
  | .nameOrClose, .object before :: stack, .closeObject =>
    some ⟨stack, .afterValue (.object before.reverse)⟩
  | .nameOrClose, stack, .text name => some ⟨stack, .colon name⟩
  | .name, stack, .text name => some ⟨stack, .colon name⟩
  | .colon name, .object before :: stack, .colon => some ⟨.member before name :: stack, .value⟩
  | .afterValue t, .array before :: stack, .comma => some ⟨.array (t :: before) :: stack, .value⟩
  | .afterValue t, .array before :: stack, .closeArray =>
    some ⟨stack, .afterValue (.array (t :: before).reverse)⟩
  | .afterValue t, .member before name :: stack, .comma =>
    some ⟨.object ((name, t) :: before) :: stack, .name⟩
  | .afterValue t, .member before name :: stack, .closeObject =>
    some ⟨stack, .afterValue (.object ((name, t) :: before).reverse)⟩
  | _, _, _ => none

/-- The tree of a list of tokens that are one whole value. -/
def ofTokens? (tokens : List Token) : Option Tree := do
  let b ← tokens.foldlM Builder.step ⟨[], .value⟩
  match b.stack, b.expected with
  | [], .afterValue t => some t
  | _, _ => none

/-- The tree of a text whose literals may hold stray bytes. -/
def ofGlyphs? (s : List (Option Char)) : Option Tree := do ofTokens? (← Token.scan s)

/-- The tree of a text. -/
def ofText? (s : String) : Option Tree := ofGlyphs? (s.toList.map some)

/-- The tree of a byte string. -/
def ofBytes? (b : Bytes) : Option Tree := ofGlyphs? (Utf8.scan b)

end Tree

end Tollgate.Json
