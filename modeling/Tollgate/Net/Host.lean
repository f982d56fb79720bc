/-
Hosts in URLs: names and addresses. A name that ends in a number is an address of four octets, in any
of the ways that numbers are written there.
-/
import Tollgate.Net.Address
import Tollgate.Net.Percent
import Tollgate.Text.Unseen

namespace Tollgate

/-- A host. -/
inductive Host where
  | name (s : List Char)
  | v4 (a : Ipv4)
  | v6 (a : Ipv6)
deriving DecidableEq, Repr

namespace Host

/-- The written form. -/
def chars : Host → List Char
  | name s => s
  | v4 a => a.chars
  | v6 a => '[' :: a.compressed ++ [']']

/-- Whether a host is a name without characters. -/
def isEmpty : Host → Bool
  | name s => s.isEmpty
  | _ => false

/-- A control character: below the space, or the one after the tilde. -/
def isControl (c : Char) : Bool := c.toNat < 0x20 || c.toNat = 0x7f

/-- The characters that no host may contain. -/
def isForbidden (c : Char) : Bool :=
  c == '\x00' || c == '\t' || c == '\n' || c == '\r' || c == ' ' || c == '#' || c == '/' || c == ':' ||
    c == '<' || c == '>' || c == '?' || c == '@' || c == '[' || c == '\\' || c == ']' || c == '^' || c == '|'

/-- The characters that no domain name may contain. -/
def isForbiddenInName (c : Char) : Bool := isForbidden c || isControl c || c == '%'

/-- A number in an address: hex after `0x`, octal after another zero, else decimal. -/
def number? (s : List Char) : Option Nat :=
  let value (base : Nat) (p : Char → Bool) (ds : List Char) : Option Nat :=
    if ds.all p then some (ds.foldl (fun n c => base * n + (Hex.value? c).getD 0) 0) else none
  match s with
  | [] => none
  | '0' :: 'x' :: ds => value 16 (fun c => (Hex.value? c).isSome) ds
  | '0' :: 'X' :: ds => value 16 (fun c => (Hex.value? c).isSome) ds
  | '0' :: d :: ds => value 8 (fun c => '0' ≤ c && c ≤ '7') (d :: ds)
  | ds => value 10 Char.isDigit ds

/-- The parts of a name between points, without an empty one at the end. -/
def labels (s : List Char) : List (List Char) :=
  let parts := Text.splitBy (· == '.') s
  if parts.getLast? = some [] then parts.dropLast else parts

/-- Whether the last part of a name is a number. -/
def endsInNumber (s : List Char) : Bool :=
  match (labels s).getLast? with
  | some last => (!last.isEmpty && last.all Char.isDigit) || (number? last).isSome
  | none => false

/-- The address of a name that ends in a number: up to four parts, of which the last fills up what the
others leave. -/
def address? (s : List Char) : Option Ipv4 := do
  let parts := labels s
  guard (parts.length ≤ 4)
  let ns ← parts.mapM number?
  let last ← ns.getLast?
  let front := ns.dropLast
  guard (front.all (· < 256) ∧ last < 256 ^ (4 - front.length))
  return ⟨front ++ (List.range (4 - front.length)).reverse.map fun i => last / 256 ^ i % 256⟩

/-- An address in brackets. -/
def bracketed? (s : List Char) : Option Host :=
  if s.getLast? = some ']' then (Ipv6.ofChars? s.dropLast).map v6 else none

/-- The host of a special scheme. Names are in lower case; one outside ASCII is kept as it is, if all
of it can be seen. -/
def ofName? (s : List Char) : Option Host :=
  match s with
  | '[' :: rest => bracketed? rest
  | _ => do
    let decoded := (← Percent.decodeText? s).toList.map Char.toLower
    guard (!decoded.isEmpty)
    guard (!decoded.any isForbiddenInName)
    guard (!decoded.any fun c => 0x80 ≤ c.toNat && (Text.isUnseen c || Text.isBlank c))
    if endsInNumber decoded then (address? decoded).map v4 else some (name decoded)

/-- The host of any other scheme, which is not looked into. -/
def ofOpaque? (s : List Char) : Option Host :=
  match s with
  | '[' :: rest => bracketed? rest
  | _ =>
    if s.any isForbidden then none
    else some (name (Percent.encode (fun c => !isControl c && c.toNat < 0x80) s))

end Host

end Tollgate
