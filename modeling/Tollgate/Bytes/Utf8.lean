/-
Octet strings and their reading as UTF-8. A byte that belongs to no character is kept as `none`, so
that a reader further on decides whether it matters.
-/
namespace Tollgate

/-- A string of octets. -/
abbrev Bytes := List UInt8

/-- The UTF-8 form of a text. -/
def Bytes.ofText (s : String) : Bytes := s.toList.flatMap String.utf8EncodeChar

namespace Utf8

/-- The bytes that follow the first one carry six bits each. -/
def tail? (b : UInt8) : Option Nat :=
  if 0x80 ≤ b ∧ b < 0xC0 then some (b.toNat - 0x80) else none

/-- The character of a code point that needs this many bytes: the code point is not below `least`
and no surrogate. -/
def scalar? (least n : Nat) : Option Char :=
  if least ≤ n ∧ n.isValidChar then some (Char.ofNat n) else none

/-- The first character of a byte string, and how many bytes it takes beyond the first. -/
def first? : Bytes → Option (Char × Nat)
  | [] => none
  | b :: rest =>
    if b < 0x80 then (scalar? 0 b.toNat).map (·, 0)
    else if b < 0xC0 then none
    else if b < 0xE0 then
      match rest with
      | c :: _ => do
        let x ← tail? c
        (scalar? 0x80 ((b.toNat - 0xC0) * 0x40 + x)).map (·, 1)
      | _ => none
    else if b < 0xF0 then
      match rest with
      | c :: d :: _ => do
        let x ← tail? c
        let y ← tail? d
        (scalar? 0x800 (((b.toNat - 0xE0) * 0x40 + x) * 0x40 + y)).map (·, 2)
      | _ => none
    else if b < 0xF8 then
      match rest with
      | c :: d :: e :: _ => do
        let x ← tail? c
        let y ← tail? d
        let z ← tail? e
        (scalar? 0x10000 ((((b.toNat - 0xF0) * 0x40 + x) * 0x40 + y) * 0x40 + z)).map (·, 3)
      | _ => none
    else none

/-- Every character in turn; a byte that starts none stands alone as `none`. -/
def scan : Bytes → List (Option Char)
  | [] => []
  | b :: rest =>
    match first? (b :: rest) with
    | some (c, n) => some c :: scan (rest.drop n)
    | none => none :: scan rest
termination_by b => b.length
decreasing_by
  · simp only [List.length_cons, List.length_drop]; omega
  · simp

/-- The text of a byte string that is UTF-8 throughout. -/
def text? (b : Bytes) : Option String :=
  ((scan b).mapM id).map String.ofList

/-- The text of any byte string, in which a replacement character stands for each stray byte. -/
def shown (b : Bytes) : String := String.ofList ((scan b).map (·.getD '\ufffd'))

end Utf8

end Tollgate
