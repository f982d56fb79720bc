/-
The tokens of a JSON text. Reading is one pass over the characters with a small state, so that a text
is read as far as its characters go and no further. String literals may hold what denotes no text
(half of a surrogate pair, a byte that is not UTF-8): such a literal is a token with no text.
-/
import Tollgate.Bytes.Utf8

namespace Tollgate.Json

/-- A number as it was written: the digits before and after the point, and the exponent with its sign. -/
structure Numeral where
  negative : Bool
  whole : List Char
  fraction : List Char
  exponent : Option (List Char)
deriving DecidableEq, Repr

namespace Numeral

/-- The written form. -/
def chars (n : Numeral) : List Char :=
  (if n.negative then ['-'] else []) ++ n.whole ++
    (if n.fraction.isEmpty then [] else '.' :: n.fraction) ++
    match n.exponent with
    | none => []
    | some e => 'e' :: e

/-- The written form as a text. -/
def toText (n : Numeral) : String := String.ofList n.chars

/-- The digits at the start, and the rest. -/
def spanDigits (s : List Char) : List Char × List Char := (s.takeWhile Char.isDigit, s.dropWhile Char.isDigit)

/-- Reads `[-]digits[.digits][(e|E)[+|-]digits]`, without zeros in front. -/
def ofChars? (s : List Char) : Option Numeral := do
  let (negative, s) := match s with
    | '-' :: rest => (true, rest)
    | _ => (false, s)
  let (whole, s) := spanDigits s
  guard (!whole.isEmpty && (whole.length = 1 || whole.head? ≠ some '0'))
  let (fraction, s) ← match s with
    | '.' :: rest =>
      let (digits, rest) := spanDigits rest
      if digits.isEmpty then none else some (digits, rest)
    | _ => some ([], s)
  let exponent ← match s with
    | [] => some none
    | mark :: rest =>
      if mark = 'e' ∨ mark = 'E' then
        let digits := match rest with
          | '+' :: digits => digits
          | '-' :: digits => digits
          | digits => digits
        if digits.isEmpty || !digits.all Char.isDigit then none else some (some rest)
      else none
  return { negative, whole, fraction, exponent }

end Numeral

/-- What a string literal is made of: characters, 16-bit units given by number, stray bytes. -/
inductive Piece where
  | char (c : Char)
  | unit (n : Nat)
  | stray
deriving DecidableEq, Repr

/-- The text that the pieces denote: units of a surrogate pair must stand together. -/
def Piece.join : List Piece → Option (List Char)
  | [] => some []
  | .char c :: rest => (join rest).map (c :: ·)
  | .stray :: _ => none
  | .unit high :: .unit low :: rest =>
    if 0xD800 ≤ high ∧ high < 0xDC00 then
      if 0xDC00 ≤ low ∧ low < 0xE000 then
        (join rest).map (Char.ofNat (0x10000 + (high - 0xD800) * 0x400 + (low - 0xDC00)) :: ·)
      else none
    else if 0xDC00 ≤ high ∧ high < 0xE000 then none
    else (join (.unit low :: rest)).map (Char.ofNat high :: ·)
  | .unit n :: rest =>
    if 0xD800 ≤ n ∧ n < 0xE000 then none else (join rest).map (Char.ofNat n :: ·)

/-- A token; a string literal that denotes no text has `none`. -/
inductive Token where
  | openArray
  | closeArray
  | openObject
  | closeObject
  | comma
  | colon
  | null
  | bool (b : Bool)
  | number (n : Numeral)
  | text (t : Option String)
deriving DecidableEq, Repr

namespace Token

/-- What is being read: nothing, a word, a number, a string literal, an escape in it, or the digits of
a unit. What was read so far stands last first. -/
inductive Mode where
  | between
  | word (letters : List Char)
  | numeral (chars : List Char)
  | literal (pieces : List Piece)
  | escape (pieces : List Piece)
  | unit (pieces : List Piece) (missing : Nat) (value : Nat)

/-- The tokens read so far, last first, and what is being read. -/
structure Reader where
  tokens : List Token
  mode : Mode

/-- White space between tokens. -/
def isSpace (c : Char) : Bool := c == ' ' || c == '\n' || c == '\t' || c == '\r'

/-- The characters that a number is made of. -/
def isNumeric (c : Char) : Bool := c.isDigit || c == '-' || c == '+' || c == '.' || c == 'e' || c == 'E'

/-- The value of a hex digit. -/
def hexValue? (c : Char) : Option Nat :=
  if c.isDigit then some (c.toNat - 48)
  else if 'a' ≤ c ∧ c ≤ 'f' then some (c.toNat - 87)
  else if 'A' ≤ c ∧ c ≤ 'F' then some (c.toNat - 55)
  else none

/-- The character that a letter after a backslash stands for. -/
def unescaped? : Char → Option Char
  | '"' => some '"'
  | '\\' => some '\\'
  | '/' => some '/'
  | 'b' => some '\x08'
  | 'f' => some '\x0c'
  | 'n' => some '\n'
  | 'r' => some '\r'
  | 't' => some '\t'
  | _ => none

/-- The token of a word. -/
def ofWord? (s : List Char) : Option Token :=
  if s = ['n', 'u', 'l', 'l'] then some .null
  else if s = ['t', 'r', 'u', 'e'] then some (.bool true)
  else if s = ['f', 'a', 'l', 's', 'e'] then some (.bool false)
  else none

/-- A word or a number ends where something else begins. -/
def Reader.settle (r : Reader) : Option Reader :=
  match r.mode with
  | .word letters => (ofWord? letters.reverse).map fun t => ⟨t :: r.tokens, .between⟩
  | .numeral chars => (Numeral.ofChars? chars.reverse).map fun n => ⟨.number n :: r.tokens, .between⟩
  | _ => some r

/-- A character between tokens. -/
def Reader.begin (r : Reader) (c : Char) : Option Reader :=
  if isSpace c then some { r with mode := .between }
  else match c with
  | '[' => some ⟨.openArray :: r.tokens, .between⟩
  | ']' => some ⟨.closeArray :: r.tokens, .between⟩
  | '\x7b' => some ⟨.openObject :: r.tokens, .between⟩
  | '\x7d' => some ⟨.closeObject :: r.tokens, .between⟩
  | ',' => some ⟨.comma :: r.tokens, .between⟩
  | ':' => some ⟨.colon :: r.tokens, .between⟩
  | '"' => some { r with mode := .literal [] }
  | c =>
    if c.isDigit || c == '-' then some { r with mode := .numeral [c] }
    else if c.isLower then some { r with mode := .word [c] }
    else none

/-- One character further. -/
def Reader.step (r : Reader) (g : Option Char) : Option Reader :=
  match r.mode, g with
  | .literal pieces, none => some { r with mode := .literal (.stray :: pieces) }
  | _, none => none
  | .literal pieces, some c =>
    if c = '"' then
      some ⟨.text ((Piece.join pieces.reverse).map String.ofList) :: r.tokens, .between⟩
    else if c = '\\' then some { r with mode := .escape pieces }
    else if c.toNat < 0x20 then none
    else some { r with mode := .literal (.char c :: pieces) }
  | .escape pieces, some c =>
    if c = 'u' then some { r with mode := .unit pieces 4 0 }
    else (unescaped? c).map fun d => { r with mode := .literal (.char d :: pieces) }
  | .unit pieces missing value, some c => do
    let d ← hexValue? c
    let value := 16 * value + d
    if missing ≤ 1 then some { r with mode := .literal (.unit value :: pieces) }
    else some { r with mode := .unit pieces (missing - 1) value }
  | .word letters, some c =>
    if c.isLower then some { r with mode := .word (c :: letters) }
    else do (← r.settle).begin c
  | .numeral chars, some c =>
    if isNumeric c then some { r with mode := .numeral (c :: chars) }
    else do (← r.settle).begin c
  | .between, some c => r.begin c

/-- Whether a number that is being read goes on with what stands next. -/
def Reader.goesOn (r : Reader) (g : Option Char) : Bool :=
  match r.mode, g with
  | .numeral _, some c => c.isDigit
  | _, _ => false

/-- The tokens of a text whose literals may hold stray bytes. -/
def scan (s : List (Option Char)) : Option (List Token) := do
  let r ← (← s.foldlM Reader.step ⟨[], .between⟩).settle
  match r.mode with
  | .between => some r.tokens.reverse
  | _ => none

end Token

end Tollgate.Json
