/-
Written tags. A tag is written in digits that are read back to it and that no trimming takes off, so the
receiver's check compares tags, not the texts that spell them: a text is accepted exactly if its digits are those of
the signature but for their case, unless the tag is the one that a text without digits stands for.
-/
import Tollgate.Crypto.Mac
import Tollgate.Proofs.Bytes.Hex

namespace Tollgate

namespace Mac

/-! ## Signatures -/

theorem toList_signature (key message : Bytes) : (signature key message).toList = Hex.encode (tag key message) :=
  String.toList_ofList

theorem trimmed_signature (key message : Bytes) :
    Text.trimmed (signature key message).toList = Hex.encode (tag key message) := by
  rw [toList_signature, Text.trimmed_of_visible (Hex.isVisible_encode _)]

/-- A signature is never blank. -/
theorem signature_ne_blank (key message : Bytes) :
    (Text.trimmed (signature key message).toList).isEmpty = false := by
  have hl := length_tag key message
  rw [trimmed_signature]
  cases ht : tag key message with
  | nil => rw [ht] at hl; cases hl
  | cons x b => rfl

/-- The signature of one message is accepted for another exactly when the two have the same tag. -/
theorem accepts_signature_iff (key sent received : Bytes) :
    accepts key received (signature key sent) = true ↔ tag key sent = tag key received := by
  rw [accepts, trimmed_signature, Hex.decode?_encode, Option.getD_some, beq_iff_eq]

/-! ## Texts that are accepted -/

/-- A text spells the signature, in either case of its letters, exactly if it is read as the tag. -/
theorem lowered_eq_iff (key message : Bytes) (s : List Char) :
    Text.lowered (String.ofList s) = Text.lowered (signature key message) ↔
      Hex.decode? s = some (tag key message) := by
  have hlower : (Hex.encode (tag key message)).map Char.toLower = Hex.encode (tag key message) :=
    Hex.decode?_eq_some_iff.1 (Hex.decode?_encode _)
  rw [Text.lowered, Text.lowered, String.toList_ofList, toList_signature, hlower, String.ofList_inj,
    Hex.decode?_eq_some_iff]

/-- A text is accepted exactly if, without the blanks around it, it is the signature but for the case of letters, or
if the tag is 32 zeros and the text is no string of pairs of digits. A signature is 64 digits in lower case. -/
theorem accepts_iff_spells (key message : Bytes) (text : String) :
    (accepts key message text = true ↔
      Text.lowered (Text.trim text) = Text.lowered (signature key message) ∨
        (tag key message = List.replicate 32 0 ∧ ¬ Hex.IsPairs (Text.trimmed text.toList))) ∧
    (signature key message).length = 64 ∧ (signature key message).toList.all Hex.isLowerDigit = true := by
  refine ⟨?_, ?_, ?_⟩
  · rw [Text.trim, lowered_eq_iff, accepts, beq_iff_eq, ← Hex.isSome_decode?_iff]
    cases h : Hex.decode? (Text.trimmed text.toList) with
    | none => simp [eq_comm]
    | some b => simp
  · rw [← String.length_toList, toList_signature, Hex.length_encode, length_tag]
  · rw [toList_signature]
    exact Hex.all_encode Hex.isLowerDigit_digit _

end Mac

end Tollgate
