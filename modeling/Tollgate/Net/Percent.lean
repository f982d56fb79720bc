/-
Percent signs before two hex digits, which stand for one octet.
-/
import Tollgate.Bytes.Hex

namespace Tollgate.Percent

/-- The upper-case digit of a value below sixteen. -/
def digit (n : Nat) : Char := if n < 10 then Char.ofNat (48 + n) else Char.ofNat (55 + n)

/-- An octet by its number. -/
def escape (x : UInt8) : List Char := ['%', digit (x.toNat / 16), digit (x.toNat % 16)]

/-- A text in which the characters that are to be kept stand for themselves and all others for their
octets. -/
def encode (keep : Char → Bool) (s : List Char) : List Char :=
  s.flatMap fun c => if keep c then [c] else (String.utf8EncodeChar c).flatMap escape

/-- The octets of a text. A percent sign without two hex digits stands for itself. -/
def decode : List Char → Bytes
  | '%' :: h :: l :: rest =>
    match Hex.value? h, Hex.value? l with
    | some x, some y => UInt8.ofNat (16 * x + y) :: decode rest
    | _, _ => 0x25 :: decode (h :: l :: rest)
  | c :: rest => String.utf8EncodeChar c ++ decode rest
  | [] => []

/-- The text of the octets, if they are one. -/
def decodeText? (s : List Char) : Option String := Utf8.text? (decode s)

end Tollgate.Percent
