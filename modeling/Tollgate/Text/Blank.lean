/-
White space as the Unicode property of that name has it, and the trimming of texts by it.
-/
namespace Tollgate.Text

/-- The ranges of the property White_Space, ascending and apart. -/
def blankRanges : List (Nat × Nat) :=
  [(0x09, 0x0D), (0x20, 0x20), (0x85, 0x85), (0xA0, 0xA0), (0x1680, 0x1680), (0x2000, 0x200A),
    (0x2028, 0x2029), (0x202F, 0x202F), (0x205F, 0x205F), (0x3000, 0x3000)]

/-- Whether a code point lies in one of the ranges. -/
def inRanges (ranges : List (Nat × Nat)) (n : Nat) : Bool :=
  ranges.any fun r => r.1 ≤ n && n ≤ r.2

/-- Whether a character is white space. -/
def isBlank (c : Char) : Bool := inRanges blankRanges c.toNat

/-- A text without the characters of a kind at its start. -/
def trimmedLeft (p : Char → Bool) (s : List Char) : List Char := s.dropWhile p

/-- A text without the characters of a kind at its end. -/
def trimmedRight (p : Char → Bool) (s : List Char) : List Char := (s.reverse.dropWhile p).reverse

/-- A text without the white space around it. -/
def trimmed (s : List Char) : List Char := trimmedRight isBlank (trimmedLeft isBlank s)

/-- A text without the white space around it. -/
def trim (s : String) : String := String.ofList (trimmed s.toList)

/-- The pieces between the characters of a kind, one more than there are such characters. -/
def splitBy (p : Char → Bool) : List Char → List (List Char)
  | [] => [[]]
  | c :: rest =>
    if p c then [] :: splitBy p rest
    else match splitBy p rest with
      | [] => [[c]]
      | piece :: more => (c :: piece) :: more

/-- What stands before and after the first character of a kind. -/
def cutAt? (p : Char → Bool) : List Char → Option (List Char × List Char)
  | [] => none
  | c :: rest => if p c then some ([], rest) else (cutAt? p rest).map fun (a, b) => (c :: a, b)

/-- What stands before and after the last character of a kind. -/
def cutAtLast? (p : Char → Bool) (s : List Char) : Option (List Char × List Char) :=
  (cutAt? p s.reverse).map fun (after, before) => (before.reverse, after.reverse)

/-- Whether every character is ASCII. -/
def isAscii (s : List Char) : Bool := s.all fun c => c.toNat < 128

/-- The text in lower case as far as ASCII letters go. -/
def lowered (s : String) : String := String.ofList (s.toList.map Char.toLower)

end Tollgate.Text
