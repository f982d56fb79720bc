/-
Request targets: the path and query that a request asks for. A target begins with a slash, names a
whole URL, or is an authority alone; a fragment is dropped unread.
-/
import Tollgate.Text.Blank

namespace Tollgate

/-- What a request asks for; the scheme is known if the target names a whole URL. -/
structure Target where
  scheme : Option (List Char)
  path : List Char
  query : Option (List Char)
deriving DecidableEq, Repr

namespace Target

/-- The characters of paths. -/
def inPath (c : Char) : Bool :=
  0x21 ≤ c.toNat && c.toNat ≤ 0x7e && !(c == '#' || c == '<' || c == '>' || c == '?' || c.toNat == 0x60)

/-- The characters of queries. -/
def inQuery (c : Char) : Bool :=
  0x21 ≤ c.toNat && c.toNat ≤ 0x7e && !(c == '"' || c == '#' || c == '<' || c == '>')

/-- The characters of schemes. -/
def inScheme (c : Char) : Bool := c.isAlphanum || c == '+' || c == '-' || c == '.'

/-- The characters of authorities. -/
def inAuthority (c : Char) : Bool :=
  c.isAlphanum || "!$&'()*+,-.:;=@[]_~%".toList.contains c

/-- The longest target. -/
def maxLength : Nat := 65534

/-- The two schemes that are known in any case are in lower case. -/
def knownScheme (s : List Char) : List Char :=
  let t := s.map Char.toLower
  if t = "http".toList ∨ t = "https".toList then t else s

/-- Path and query. An empty path is a slash. -/
def ofPathAndQuery? (scheme : Option (List Char)) (s : List Char) : Option Target := do
  let s := s.takeWhile (· ≠ '#')
  let (path, query) := match Text.cutAt? (· == '?') s with
    | some (path, query) => (path, some query)
    | none => (s, none)
  guard (path.all inPath && query.all (·.all inQuery))
  return ⟨scheme, if path.isEmpty then ['/'] else path, query⟩

/-- What an authority has shown so far. Brackets enclose an address; colons and percent signs count
only after the last at sign and bracket. -/
structure AuthorityState where
  colons : Nat
  opened : Bool
  closed : Bool
  percent : Bool
  /-- an at sign was the last character -/
  atEnd : Bool

/-- One character further. -/
def AuthorityState.step (s : AuthorityState) (c : Char) : Option AuthorityState :=
  let s := { s with atEnd := false }
  if c = ':' then if 8 ≤ s.colons then none else some { s with colons := s.colons + 1 }
  else if c = '[' then if s.percent || s.opened then none else some { s with opened := true }
  else if c = ']' then
    if !s.opened || s.closed then none else some { s with closed := true, colons := 0, percent := false }
  else if c = '@' then some { s with colons := 0, percent := false, atEnd := true }
  else if c = '%' then some { s with percent := true }
  else if inAuthority c then some s
  else none

/-- Whether a text is an authority. -/
def isAuthority (s : List Char) : Bool :=
  match s.foldlM AuthorityState.step ⟨0, false, false, false, false⟩ with
  | some t => t.opened == t.closed && t.colons ≤ 1 && !t.percent && !t.atEnd
  | none => false

/-- What follows a scheme and its colon and two slashes, if the target has one. -/
def afterScheme? (s : List Char) : Option (Nat × List Char) :=
  let scheme := s.takeWhile inScheme
  match s.drop scheme.length with
  | ':' :: '/' :: '/' :: rest => some (scheme.length, rest)
  | _ => none

/-- The target of a text. -/
def ofChars? (s : List Char) : Option Target :=
  if s.isEmpty || maxLength < (s.flatMap String.utf8EncodeChar).length then none
  else if s = ['*'] then some ⟨none, s, none⟩
  else if s.head? = some '/' then ofPathAndQuery? none s
  else
    let isEnd (c : Char) : Bool := c == '/' || c == '?' || c == '#'
    match afterScheme? s with
    | some (schemeLength, rest) =>
      let authority := rest.takeWhile fun c => !isEnd c
      if 64 < schemeLength || authority.isEmpty || !isAuthority authority then none
      else ofPathAndQuery? (some (knownScheme (s.take schemeLength))) (rest.drop authority.length)
    | none => if s.all (fun c => !isEnd c) && isAuthority s then some ⟨none, [], none⟩ else none

/-- The target of a text. -/
def ofText? (s : String) : Option Target := ofChars? s.toList

end Target

end Tollgate
