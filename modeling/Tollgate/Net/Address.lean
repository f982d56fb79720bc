/-
Internet addresses of both sizes. The long ones have many spellings; each has one usual form.
-/
import Tollgate.Text.Integer
import Tollgate.Bytes.Hex

namespace Tollgate

/-- An address of four octets. -/
structure Ipv4 where
  octets : List Nat
deriving DecidableEq, Repr

/-- An address of eight pieces of sixteen bits. -/
structure Ipv6 where
  pieces : List Nat
deriving DecidableEq, Repr

namespace Ipv4

/-- An octet in at most three decimal digits without a zero in front. -/
def octet? (s : List Char) : Option Nat := do
  let n ← Text.natural? s
  if n < 256 ∧ s.length ≤ 3 ∧ (s.length = 1 ∨ s.head? ≠ some '0') then some n else none

/-- The address of a text in dotted form. -/
def ofChars? (s : List Char) : Option Ipv4 := do
  let octets ← (Text.splitBy (· == '.') s).mapM octet?
  if octets.length = 4 then some ⟨octets⟩ else none

/-- The dotted form. -/
def chars (a : Ipv4) : List Char := ['.'].intercalate (a.octets.map (Nat.toDigits 10))

end Ipv4

namespace Ipv6

/-- A piece in one to four hex digits. -/
def piece? (s : List Char) : Option Nat :=
  if s.isEmpty ∨ 4 < s.length then none
  else s.foldlM (fun n c => (Hex.value? c).map (16 * n + ·)) 0

/-- The pieces between colons. The last two may be written as an address of four octets. -/
def pieces? (dotted : Bool) (s : List Char) : Option (List Nat) := do
  let parts := Text.splitBy (· == ':') s
  match parts.getLast?, dotted with
  | some last, true =>
    match Ipv4.ofChars? last with
    | some ⟨[a, b, c, d]⟩ => return (← parts.dropLast.mapM piece?) ++ [256 * a + b, 256 * c + d]
    | _ => parts.mapM piece?
  | _, _ => parts.mapM piece?

/-- What stands before and after the first two colons in a row. -/
def cutAtGap? : List Char → Option (List Char × List Char)
  | ':' :: ':' :: rest => some ([], rest)
  | c :: rest => (cutAtGap? rest).map fun (a, b) => (c :: a, b)
  | [] => none

/-- The address of a text: eight pieces, or fewer around two colons that stand for at least one zero
piece. -/
def ofChars? (s : List Char) : Option Ipv6 :=
  match cutAtGap? s with
  | none => do
    let pieces ← pieces? true s
    if pieces.length = 8 then some ⟨pieces⟩ else none
  | some (before, after) => do
    let front ← if before.isEmpty then some [] else pieces? false before
    let back ← if after.isEmpty then some [] else pieces? true after
    if front.length + back.length ≤ 7 then
      some ⟨front ++ List.replicate (8 - front.length - back.length) 0 ++ back⟩
    else none

/-- Start and length of the longest run of zeros; of several the first. -/
def longestRun (pieces : List Nat) : Nat × Nat :=
  (List.range pieces.length).foldl (fun best i =>
    let n := ((pieces.drop i).takeWhile (· == 0)).length
    if best.2 < n then (i, n) else best) (0, 0)

/-- Pieces with colons between. -/
def joined (pieces : List Nat) : List Char := [':'].intercalate (pieces.map (Nat.toDigits 16))

/-- The form in which the longest run of two or more zeros is left out. -/
def compressed (a : Ipv6) : List Char :=
  let (start, n) := longestRun a.pieces
  if 2 ≤ n then joined (a.pieces.take start) ++ [':', ':'] ++ joined (a.pieces.drop (start + n))
  else joined a.pieces

/-- The usual form. An address that stands for one of four octets ends in dotted form. -/
def chars (a : Ipv6) : List Char :=
  match a.pieces with
  | [0, 0, 0, 0, 0, 0xffff, g, h] =>
    "::ffff:".toList ++ (Ipv4.mk [g / 256, g % 256, h / 256, h % 256]).chars
  | _ => a.compressed

end Ipv6

/-- The address of one end of a connection. -/
inductive PeerAddress where
  | v4 (a : Ipv4)
  | v6 (a : Ipv6)
deriving DecidableEq, Repr

namespace PeerAddress

/-- The usual form. -/
def toText : PeerAddress → String
  | v4 a => String.ofList a.chars
  | v6 a => String.ofList a.chars

/-- The address in `address:number` or `[address]:number`. -/
def ofEndpoint? (s : String) : Option PeerAddress := do
  let cs := s.toList
  let number := (cs.reverse.takeWhile (· ≠ ':')).reverse
  let address := cs.take (cs.length - number.length - 1)
  let _ ← Text.natural? number
  match address with
  | '[' :: rest => if rest.getLast? = some ']' then (Ipv6.ofChars? rest.dropLast).map v6 else none
  | _ => (Ipv4.ofChars? address).map v4

end PeerAddress

end Tollgate
