/-
Amounts as JSON literals. The written form of an amount is a number literal that JSON allows, which is read as the
amount again, by itself and in a record; so is a string literal of the same text.
-/
import Tollgate.Payment.Wire
import Tollgate.Proofs.Decimal.Amount
import Tollgate.Proofs.Json.Reading

namespace Tollgate

open Json

namespace Amount

/-- A written amount begins with a digit and has only characters of numbers. -/
theorem digits_eq_cons (a : Amount) :
    ∃ d ds, a.digits = d :: ds ∧ d.isDigit = true ∧ ds.all Token.isNumeric = true := by
  obtain ⟨whole, fraction, h⟩ := a.exists_spelled
  have hnumeric : a.digits.all Token.isNumeric = true := by
    refine List.all_eq_true.2 fun c hc => ?_
    rcases mem_digits hc with hd | rfl
    · exact Token.isNumeric_of_isDigit hd
    · rfl
  obtain ⟨d, ds, hw⟩ := List.exists_cons_of_ne_nil h.whole_ne_nil
  have hdigits := h.whole_digits
  rw [h.chars, hw, List.cons_append] at hnumeric ⊢
  rw [hw, List.all_cons, Bool.and_eq_true] at hdigits
  rw [List.all_cons, Bool.and_eq_true] at hnumeric
  exact ⟨d, _, rfl, hdigits.1, hnumeric.2⟩

theorem numeral_of_digits (a : Amount) : ∃ n, Numeral.ofChars? a.digits = some n ∧ n.toText = a.toText := by
  obtain ⟨whole, fraction, h⟩ := a.exists_spelled
  refine ⟨⟨false, whole, fraction, none⟩, ?_, ?_⟩
  · rw [h.chars]
    exact Numeral.ofChars?_digits h.whole_ne_nil h.whole_digits h.fraction_digits h.no_zero_in_front
  · unfold Numeral.toText toText Numeral.chars
    rw [h.chars]
    cases fraction <;> simp

/-- An amount is written as a number, by itself and in a record, and read from that number. -/
theorem exists_number (a : Amount) : ∃ n, n.toText = a.toText ∧ Tree.ofText? a.toText = some (.number n) ∧
    Writes a.digits (.number n) ∧ ofTree? (.number n) = some a := by
  obtain ⟨d, ds, hcons, hd, hds⟩ := a.digits_eq_cons
  obtain ⟨n, hn, htext⟩ := a.numeral_of_digits
  refine ⟨n, htext, ?_, ?_, ?_⟩
  · rw [hcons] at hn
    rw [toText, hcons]
    exact ofText?_number hd hds hn
  · rw [hcons] at hn ⊢
    exact writes_number hd hds hn
  · show (parse n.toText).toOption = some a
    rw [htext, parse_toText]
    rfl

theorem isLiteral_eq_true (a : Amount) : a.isLiteral = true := by
  obtain ⟨n, -, hn, -⟩ := a.exists_number
  rw [isLiteral, hn]
  rfl

/-- A string literal of a written amount is read as the amount. -/
theorem ofTree?_text (a : Amount) : ofTree? (.text (some a.toText)) = some a := by
  show (parse a.toText).toOption = some a
  rw [parse_toText]
  rfl

theorem Spelled.whole_eq_zero_or {a : Amount} {whole fraction : List Char} (h : a.Spelled whole fraction) :
    whole = ['0'] ∨ whole.head? ≠ some '0' := by
  rcases h.no_zero_in_front with hlen | hne
  · obtain ⟨c, rfl⟩ := List.length_eq_one_iff.1 hlen
    exact (em (c = '0')).imp (congrArg (· :: [])) fun hc h0 => hc (Option.some.inj h0)
  · exact .inr hne

/-- An amount is written as digits without a zero in front, with a point and more digits if it has a fraction. What is
written is read as the amount, by itself, as the number that it is in a JSON text, and from a string literal. -/
theorem written_canonical (a : Amount) :
    (∃ whole fraction, Plain a.toText.toList whole fraction ∧ (whole = ['0'] ∨ whole.head? ≠ some '0')) ∧
    parse a.toText = .ok a ∧
    (a.isLiteral = true ∧ ∃ n, n.toText = a.toText ∧ Tree.ofText? a.toText = some (.number n) ∧
      Writes a.digits (.number n) ∧ ofTree? (.number n) = some a) ∧
    Tree.ofText? (String.ofList (printedText a.toText)) = some (.text (some a.toText)) ∧
    ofTree? (.text (some a.toText)) = some a := by
  obtain ⟨whole, fraction, h⟩ := a.exists_spelled
  refine ⟨⟨whole, fraction, ?_, h.whole_eq_zero_or⟩, a.parse_toText, ⟨a.isLiteral_eq_true, a.exists_number⟩,
    ofText?_printedText _, a.ofTree?_text⟩
  rw [toText, String.toList_ofList]
  exact h.plain

end Amount

end Tollgate
