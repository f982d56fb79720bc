/-
Texts shown between quotes, as error messages and settings reports show them: a quote and a backslash
are escaped, and so is every character that could not be seen.
-/
import Tollgate.Bytes.Hex
import Tollgate.Text.Unseen

namespace Tollgate.Text

/-- A character by its number, in hex digits without leading zeros. -/
def numbered (c : Char) : List Char := ['\\', 'u', '\x7b'] ++ Nat.toDigits 16 c.toNat ++ ['\x7d']

/-- The form of a character between quotes. -/
def quotedChar (c : Char) : List Char :=
  match c with
  | '\x00' => ['\\', '0']
  | '\t' => ['\\', 't']
  | '\n' => ['\\', 'n']
  | '\r' => ['\\', 'r']
  | '"' => ['\\', '"']
  | '\\' => ['\\', '\\']
  | c => if isUnseen c then numbered c else [c]

/-- The text between quotes. -/
def quoted (s : String) : String :=
  String.ofList ('"' :: s.toList.flatMap quotedChar ++ ['"'])

end Tollgate.Text
