/-
JSON texts written without blanks: names in the order they are given, the short escapes where there
are any, and control characters by number.
-/
import Tollgate.Bytes.Hex
import Tollgate.Json.Value

namespace Tollgate.Json

/-- The form of a character in a string literal. -/
def printedChar (c : Char) : List Char :=
  match c with
  | '"' => ['\\', '"']
  | '\\' => ['\\', '\\']
  | '\x08' => ['\\', 'b']
  | '\x0c' => ['\\', 'f']
  | '\n' => ['\\', 'n']
  | '\r' => ['\\', 'r']
  | '\t' => ['\\', 't']
  | c =>
    if c.toNat < 0x20 then ['\\', 'u', '0', '0', Hex.digit (c.toNat / 16), Hex.digit (c.toNat % 16)]
    else [c]

/-- A string literal. -/
def printedText (s : String) : List Char := '"' :: s.toList.flatMap printedChar ++ ['"']

/-- Members that are written already, between braces. -/
def printedObject (members : List (String × List Char)) : List Char :=
  '\x7b' :: [','].intercalate (members.map fun m => printedText m.1 ++ ':' :: m.2) ++ ['\x7d']

mutual
/-- The written form of a value. -/
def Value.chars : Value → List Char
  | .null => "null".toList
  | .bool true => "true".toList
  | .bool false => "false".toList
  | .number n => n.chars
  | .text s => printedText s
  | .array items => '[' :: [','].intercalate (itemChars items) ++ [']']
  | .object members => printedObject (memberChars members)
/-- The written forms of items. -/
def itemChars : List Value → List (List Char)
  | [] => []
  | v :: rest => v.chars :: itemChars rest
/-- The written forms of members, by name. -/
def memberChars : List (String × Value) → List (String × List Char)
  | [] => []
  | (name, v) :: rest => (name, v.chars) :: memberChars rest
end

/-- The written form of a value as a text. -/
def Value.toText (v : Value) : String := String.ofList v.chars

end Tollgate.Json
