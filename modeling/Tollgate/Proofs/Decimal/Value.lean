/-
What a number is worth. An amount is worth what the text is that it was read from, and is written without an exponent
and with the fractional digits that the exponent leaves.
-/
import Tollgate.Proofs.Decimal.Amount

namespace Tollgate.Amount

open Text

/-- What a number is worth: the digits before the point, and those after it as a fraction. -/
def worth (whole fraction : List Char) : ℚ :=
  Nat.ofDigitChars 10 whole 0 + Nat.ofDigitChars 10 fraction 0 / 10 ^ fraction.length

/-- The digits on both sides of the point are the numerator. -/
theorem worth_eq_div (whole fraction : List Char) :
    worth whole fraction = Nat.ofDigitChars 10 (whole ++ fraction) 0 / 10 ^ fraction.length := by
  have hpow : (10 : ℚ) ^ fraction.length ≠ 0 := pow_ne_zero _ (by norm_num)
  have hdigits : Nat.ofDigitChars 10 fraction (Nat.ofDigitChars 10 whole 0) =
      10 ^ fraction.length * Nat.ofDigitChars 10 whole 0 + Nat.ofDigitChars 10 fraction 0 :=
    Nat.ofDigitChars_eq_ofDigitChars_zero
  rw [worth, Nat.ofDigitChars_append, hdigits]
  push_cast
  rw [add_div, mul_div_cancel_left₀ _ hpow]

theorem Spelled.worth_eq {a : Amount} {whole fraction : List Char} (h : a.Spelled whole fraction) :
    worth whole fraction = a.units / 10 ^ a.scale := by
  rw [worth_eq_div, h.units, h.scale]

/-- Moving the point is multiplying by a power of ten, whichever way it is moved. -/
theorem ofParts_worth (whole fraction : List Char) (e : Int) :
    ((ofParts whole fraction e).units : ℚ) / 10 ^ (ofParts whole fraction e).scale = worth whole fraction * 10 ^ e := by
  have hten : (10 : ℚ) ≠ 0 := by norm_num
  have hmove : (10 : ℚ) ^ (e - fraction.length).toNat / 10 ^ ((fraction.length : Int) - e).toNat =
      10 ^ e / 10 ^ fraction.length := by
    rw [← zpow_natCast, ← zpow_natCast, ← zpow_natCast, ← zpow_sub₀ hten, ← zpow_sub₀ hten]
    congr 1; omega
  unfold ofParts
  rw [worth_eq_div, Nat.cast_mul, Nat.cast_pow, Nat.cast_ofNat, mul_div_assoc, hmove]
  ring

/-- A text that is a number with an exponent of at most 64 is read as an amount that is written as a number without
an exponent: it is worth the same, and has as many fractional digits as the exponent leaves. No other text is read,
and one that is no number is refused as such. -/
theorem parse_scientific (text : String) :
    (∀ whole fraction e, Scientific (trimmed text.toList) whole fraction e → e.natAbs ≤ 64 →
      ∃ a w f, parse text = .ok a ∧ Plain a.toText.toList w f ∧ worth w f = worth whole fraction * 10 ^ e ∧
        (f.length : Int) = max 0 (fraction.length - e)) ∧
    ((∀ whole fraction e, ¬ Scientific (trimmed text.toList) whole fraction e) →
      parse text = .error (if (trimmed text.toList).head? = some '-' then .negative else .invalid text)) ∧
    ((∃ a, parse text = .ok a) →
      ∃ whole fraction e, Scientific (trimmed text.toList) whole fraction e ∧ e.natAbs ≤ 64) := by
  refine ⟨fun whole fraction e h he => ?_, parse_of_not_scientific, ?_⟩
  · obtain ⟨w, f, hs⟩ := (ofParts whole fraction e).exists_spelled
    refine ⟨_, w, f, parse_eq_ok_iff.2 ⟨whole, fraction, e, h, he, rfl⟩, ?_, ?_, ?_⟩
    · rw [toText, String.toList_ofList]
      exact hs.plain
    · rw [hs.worth_eq, ofParts_worth]
    · rw [hs.scale]
      show ((((fraction.length : Int) - e).toNat : Nat) : Int) = _
      omega
  · rintro ⟨a, ha⟩
    obtain ⟨whole, fraction, e, h, he, -⟩ := parse_eq_ok_iff.1 ha
    exact ⟨whole, fraction, e, h, he⟩

/-- The point is moved by one place and a zero at the end is kept; a point with nothing after it is refused. -/
theorem parse_scientific_moved :
    (∃ a w f, parse " 12.50E-01 " = .ok a ∧ Plain a.toText.toList w f ∧
      worth w f = worth "12".toList "50".toList * 10 ^ (-1 : Int) ∧
      (f.length : Int) = max 0 (("50".toList.length : Int) - -1)) ∧
    parse "1." = .error (.invalid "1.") ∧
    ∃ whole fraction e, Scientific (trimmed "007e64".toList) whole fraction e ∧ e.natAbs ≤ 64 := by
  have hnumber : Scientific (trimmed " 12.50E-01 ".toList) "12".toList "50".toList (-1) :=
    parts?_eq_some_iff.1 (by decide +kernel)
  have hnone : parts? (trimmed "1.".toList) = none := by decide +kernel
  obtain ⟨hread, -, -⟩ := parse_scientific " 12.50E-01 "
  obtain ⟨-, hrefused, -⟩ := parse_scientific "1."
  obtain ⟨-, -, honly⟩ := parse_scientific "007e64"
  refine ⟨hread _ _ _ hnumber (by decide), (hrefused fun whole fraction e h => ?_).trans (by decide +kernel),
    honly ⟨⟨7 * 10 ^ 64, 0⟩, by decide +kernel⟩⟩
  rw [parts?_eq_some_iff.2 h] at hnone
  cases hnone

end Tollgate.Amount
