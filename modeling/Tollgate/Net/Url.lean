/-
URLs: reading them as browsers do, and their written form. Some schemes are special: they always have a
host and a path, and read a backslash as a slash. Dot segments are resolved while a path is read.
-/
import Tollgate.Net.Host

namespace Tollgate

/-- The path of a URL: segments, or for some schemes a text that is not looked into. -/
inductive UrlPath where
  | segments (ss : List (List Char))
  | opaqueText (s : List Char)
deriving DecidableEq, Repr

/-- A URL. A URL without an authority has no host. -/
structure Url where
  scheme : List Char
  username : List Char
  password : Option (List Char)
  host : Option Host
  /-- the number after the host, unless it goes without saying -/
  portNumber : Option Nat
  path : UrlPath
  query : Option (List Char)
  fragment : Option (List Char)
deriving DecidableEq, Repr

namespace Url

/-! ## What stands for itself -/

/-- In opaque paths. -/
def plain (c : Char) : Bool := !Host.isControl c && c.toNat < 0x80

/-- In fragments. -/
def inFragment (c : Char) : Bool :=
  plain c && !(c == ' ' || c == '"' || c == '<' || c == '>' || c.toNat == 0x60)

/-- In paths. -/
def inPath (c : Char) : Bool :=
  inFragment c && !(c == '#' || c == '?' || c == '\x7b' || c == '\x7d')

/-- In user names and passwords. -/
def inUserInfo (c : Char) : Bool :=
  inPath c && !(c == '/' || c == ':' || c == ';' || c == '=' || c == '@' || c == '[' || c == '\\' ||
    c == ']' || c == '^' || c == '|')

/-- In queries, of special schemes or of others. -/
def inQuery (special : Bool) (c : Char) : Bool :=
  plain c && !(c == ' ' || c == '"' || c == '#' || c == '<' || c == '>' || (special && c == '\''))

/-! ## Schemes -/

/-- The number that a special scheme uses if none is given. -/
def defaultPort? (scheme : List Char) : Option Nat :=
  if scheme = "http".toList ∨ scheme = "ws".toList then some 80
  else if scheme = "https".toList ∨ scheme = "wss".toList then some 443
  else if scheme = "ftp".toList then some 21
  else none

/-- Whether a scheme is the one of local files. -/
def isFile (scheme : List Char) : Bool := scheme == "file".toList

/-- Whether a scheme is special. -/
def isSpecial (scheme : List Char) : Bool := isFile scheme || (defaultPort? scheme).isSome

/-- The scheme before the first colon, in lower case, and the rest. -/
def scheme? (s : List Char) : Option (List Char × List Char) := do
  let (scheme, rest) ← Text.cutAt? (· == ':') s
  guard (scheme.head?.any Char.isAlpha)
  guard (scheme.all fun c => c.isAlphanum || c == '+' || c == '-' || c == '.')
  return (scheme.map Char.toLower, rest)

/-! ## Paths -/

/-- The characters that divide paths. -/
def isSlash (special : Bool) (c : Char) : Bool := c == '/' || (special && c == '\\')

/-- Whether a segment stands for the one that it is in. -/
def isSingleDot (s : List Char) : Bool :=
  let t := s.map Char.toLower
  t == ['.'] || t == ['%', '2', 'e']

/-- Whether a segment stands for the one above. -/
def isDoubleDot (s : List Char) : Bool :=
  let t := s.map Char.toLower
  t == ['.', '.'] || t == ['.', '%', '2', 'e'] || t == ['%', '2', 'e', '.'] ||
    t == ['%', '2', 'e', '%', '2', 'e']

/-- Adds a segment to the ones before. A dot segment at the end leaves an empty one. -/
def addSegment (ss : List (List Char)) (segment : List Char) (last : Bool) : List (List Char) :=
  if isDoubleDot segment then ss.dropLast ++ (if last then [[]] else [])
  else if isSingleDot segment then ss ++ (if last then [[]] else [])
  else ss ++ [Percent.encode inPath segment]

/-- Adds all segments. -/
def addSegments (ss : List (List Char)) : List (List Char) → List (List Char)
  | [] => ss
  | [segment] => addSegment ss segment true
  | segment :: rest => addSegments (addSegment ss segment false) rest

/-- The segments of a path; a slash at its start begins the first one. -/
def readPath (special : Bool) (s : List Char) : List (List Char) :=
  let s := match s with
    | c :: rest => if isSlash special c then rest else s
    | [] => s
  addSegments [] (Text.splitBy (isSlash special) s)

/-! ## The parts of a URL -/

/-- What stands before, between and after the marks of query and fragment. -/
def cutTail (s : List Char) : List Char × Option (List Char) × Option (List Char) :=
  let (s, fragment) := match Text.cutAt? (· == '#') s with
    | some (before, after) => (before, some after)
    | none => (s, none)
  match Text.cutAt? (· == '?') s with
  | some (before, after) => (before, some after, fragment)
  | none => (s, none, fragment)

/-- A URL with its query and fragment. -/
def withTail (url : Url) (query fragment : Option (List Char)) : Url :=
  { url with
    query := query.map (Percent.encode (inQuery (isSpecial url.scheme)))
    fragment := fragment.map (Percent.encode inFragment) }

/-- The last at sign divides user from host. -/
def cutUser (s : List Char) : Option (List Char) × List Char :=
  match Text.cutAt? (· == '@') s.reverse with
  | some (host, user) => (some user.reverse, host.reverse)
  | none => (none, s)

/-- User name and password; an empty password is none. -/
def readUser (s : List Char) : List Char × Option (List Char) :=
  match Text.cutAt? (· == ':') s with
  | some (name, password) =>
    (Percent.encode inUserInfo name,
      if password.isEmpty then none else some (Percent.encode inUserInfo password))
  | none => (Percent.encode inUserInfo s, none)

/-- The first colon outside brackets divides the host from its number. -/
def cutPort : Bool → List Char → List Char × Option (List Char)
  | _, [] => ([], none)
  | inside, c :: rest =>
    if c = ':' ∧ !inside then ([], some rest)
    else
      let (host, number) := cutPort (if c = '[' then true else if c = ']' then false else inside) rest
      (c :: host, number)

/-- The number after a host: nothing, or sixteen bits. The one that goes without saying is left out. -/
def readPort (scheme s : List Char) : Option (Option Nat) :=
  if s.isEmpty then some none
  else do
    let n ← Text.natural? s
    if 65536 ≤ n then none else if defaultPort? scheme = some n then some none else some (some n)

/-- A URL after its two slashes: user, host and number up to the path. -/
def readAuthority (scheme s : List Char) : Option Url := do
  let special := isSpecial scheme
  let authority := s.takeWhile fun c => !(isSlash special c || c == '?' || c == '#')
  let (path, query, fragment) := cutTail (s.drop authority.length)
  let (user, rest) := cutUser authority
  let (username, password) := (user.map readUser).getD ([], none)
  -- a user needs a host
  guard (!(user.isSome && rest.isEmpty))
  let (name, digits) := cutPort false rest
  let host ← if special then Host.ofName? name else Host.ofOpaque? name
  guard (!(host.isEmpty && digits.isSome))
  let number ← readPort scheme (digits.getD [])
  let segments := if path.isEmpty && !special then [] else readPath special path
  return withTail ⟨scheme, username, password, some host, number, .segments segments, none, none⟩ query fragment

/-- Whether a text names a drive. -/
def isDrive (s : List Char) : Bool :=
  match s with
  | [c, mark] => c.isAlpha && (mark == ':' || mark == '|')
  | _ => false

/-- A URL of a local file. Its host may be left out, and the own host is; a drive is part of the path. -/
def readFile (s : List Char) : Option Url := do
  let make (host : Host) (rest : List Char) : Url :=
    let (path, query, fragment) := cutTail rest
    withTail ⟨"file".toList, [], none, some host, none, .segments (readPath true path), none, none⟩ query fragment
  match s with
  | a :: b :: rest =>
    if isSlash true a && isSlash true b then
      let name := rest.takeWhile fun c => !(isSlash true c || c == '?' || c == '#')
      if name.isEmpty || isDrive name then return make (.name []) rest
      let rest := rest.drop name.length
      let host ← Host.ofName? name
      return make (if host = .name "localhost".toList then .name [] else host) rest
    else return make (.name []) s
  | _ => return make (.name []) s

/-- A URL of a scheme that is not special and has no authority. -/
def readPlain (scheme s : List Char) : Url :=
  let (path, query, fragment) := cutTail s
  let path := match path with
    | '/' :: _ => UrlPath.segments (readPath false path)
    | _ => UrlPath.opaqueText (Percent.encode plain path)
  withTail ⟨scheme, [], none, none, none, path, none, none⟩ query fragment

/-- Reads a URL. Blanks and control characters around it do not count, nor do tabs and line ends
within. -/
def ofChars? (s : List Char) : Option Url := do
  let outside (c : Char) : Bool := c.toNat ≤ 0x20
  let s := Text.trimmedRight outside (Text.trimmedLeft outside s)
  let s := s.filter fun c => !(c == '\t' || c == '\n' || c == '\r')
  let (scheme, rest) ← scheme? s
  if isFile scheme then readFile rest
  else if isSpecial scheme then readAuthority scheme (rest.dropWhile (isSlash true))
  else match rest with
  | '/' :: '/' :: rest => readAuthority scheme rest
  | _ => return readPlain scheme rest

/-- Reads a URL. -/
def ofText? (s : String) : Option Url := ofChars? s.toList

/-! ## Writing -/

/-- The written form of a path. -/
def pathChars (url : Url) : List Char :=
  match url.path with
  | .segments ss => ss.flatMap ('/' :: ·)
  | .opaqueText s => s

/-- The written form of user name and password, with an at sign if there is one of them. -/
def userChars (url : Url) : List Char :=
  let password := match url.password with
    | some p => ':' :: p
    | none => []
  let user := url.username ++ password
  if user.isEmpty then [] else user ++ ['@']

/-- The written form of user, host and number. -/
def authorityChars (url : Url) : List Char :=
  match url.host with
  | none => []
  | some host =>
    let number := match url.portNumber with
      | some n => ':' :: Nat.toDigits 10 n
      | none => []
    ['/', '/'] ++ userChars url ++ host.chars ++ number

/-- The written form. -/
def chars (url : Url) : List Char :=
  let mark (c : Char) : Option (List Char) → List Char
    | some s => c :: s
    | none => []
  url.scheme ++ ':' :: authorityChars url ++ pathChars url ++ mark '?' url.query ++ mark '#' url.fragment

/-- The URL with another password, if it has a host that can have one. -/
def withPassword (url : Url) (password : List Char) : Url :=
  if url.host.any (!·.isEmpty) && !isFile url.scheme then
    { url with password := some (Percent.encode inUserInfo password) }
  else url

end Url

end Tollgate
