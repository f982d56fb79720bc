/-
The written form of an amount: a whole part without a zero in front, and as many fractional digits as its
scale says. It is read back as the same amount, so amounts written alike are the same.
-/
import Tollgate.Proofs.Decimal.Reading
import Tollgate.Proofs.Text.Visible

namespace Tollgate

theorem isVisible_of_isDigit {c : Char} (h : c.isDigit = true) : isVisible c = true := by
  have hb := Char.isDigit_iff_toNat.1 h
  have h0 : '0'.toNat = 48 := rfl
  have h9 : '9'.toNat = 57 := rfl
  rw [isVisible_iff]
  omega

namespace Amount

/-! ## Whole part and fraction -/

/-- The two parts of a written amount. -/
structure Spelled (a : Amount) (whole fraction : List Char) : Prop where
  chars : a.digits = whole ++ if fraction = [] then [] else '.' :: fraction
  whole_ne_nil : whole ≠ []
  whole_digits : whole.all Char.isDigit = true
  fraction_digits : fraction.all Char.isDigit = true
  units : Nat.ofDigitChars 10 (whole ++ fraction) 0 = a.units
  scale : fraction.length = a.scale
  no_zero_in_front : whole.length = 1 ∨ whole.head? ≠ some '0'

/-- Digits filled up with zeros are cut where as many are left as the scale says. -/
theorem spelled_of_padded {a : Amount} (h0 : a.scale ≠ 0) {padded : List Char}
    (hp : padded = List.replicate (a.scale + 1 - (Nat.toDigits 10 a.units).length) '0' ++ Nat.toDigits 10 a.units) :
    a.Spelled (padded.take (padded.length - a.scale)) (padded.drop (padded.length - a.scale)) := by
  have hl : padded.length = max (a.scale + 1) (Nat.toDigits 10 a.units).length := by
    rw [hp, List.length_append, List.length_replicate]; omega
  have hall : padded.all Char.isDigit = true := by
    rw [hp, List.all_append, Text.all_isDigit_replicate, Text.all_isDigit_toDigits]; rfl
  have hcut := List.take_append_drop (padded.length - a.scale) padded
  have hscale : (padded.drop (padded.length - a.scale)).length = a.scale := by
    rw [List.length_drop]; omega
  have hsplit : (padded.take (padded.length - a.scale)).all Char.isDigit = true ∧
      (padded.drop (padded.length - a.scale)).all Char.isDigit = true := by
    rw [← Bool.and_eq_true, ← List.all_append, hcut]; exact hall
  refine ⟨?_, ?_, hsplit.1, hsplit.2, ?_, hscale, ?_⟩
  · rw [if_neg (fun h => h0 (by rw [← hscale, h]; rfl)), hp]
    unfold digits
    rw [if_neg h0]
  · intro h
    have := congrArg List.length h
    rw [List.length_take] at this
    simp only [List.length_nil] at this
    omega
  · rw [hcut, hp, Text.ofDigitChars_zeros_append, Nat.ofDigitChars_ten_toDigits]
  · -- with a zero put in front, the whole part is that zero alone
    by_cases hlong : a.scale + 1 < (Nat.toDigits 10 a.units).length
    · right
      have hz : a.scale + 1 - (Nat.toDigits 10 a.units).length = 0 := by omega
      rw [hz, List.replicate_zero, List.nil_append] at hp
      have hne : a.units ≠ 0 := by
        intro h
        rw [h, Nat.toDigits_zero] at hlong
        simp at hlong
      rw [List.head?_take, if_neg (by omega), hp]
      exact Text.head?_toDigits_ne_zero hne
    · left
      rw [List.length_take]; omega

theorem exists_spelled (a : Amount) : ∃ whole fraction, a.Spelled whole fraction := by
  by_cases h0 : a.scale = 0
  · refine ⟨Nat.toDigits 10 a.units, [], ?_, Nat.toDigits_ne_nil, Text.all_isDigit_toDigits _, rfl, ?_, h0.symm, ?_⟩
    · unfold digits
      rw [if_pos h0, if_pos rfl, List.append_nil]
    · rw [List.append_nil, Nat.ofDigitChars_ten_toDigits]
    · exact Text.toDigits_front a.units
  · exact ⟨_, _, spelled_of_padded h0 rfl⟩

/-- A whole part without a zero in front is no longer than another one of a number that is worth the same. -/
theorem length_whole_le {whole fraction whole' fraction' : List Char} (hne : whole' ≠ [])
    (hall : (whole ++ fraction).all Char.isDigit = true) (hall' : (whole' ++ fraction').all Char.isDigit = true)
    (hfront : whole.length = 1 ∨ whole.head? ≠ some '0') (hscale : fraction.length = fraction'.length)
    (h : Nat.ofDigitChars 10 (whole ++ fraction) 0 = Nat.ofDigitChars 10 (whole' ++ fraction') 0) :
    whole.length ≤ whole'.length := by
  have hpos := List.length_pos_iff.2 hne
  by_contra hlt
  obtain ⟨c, rest, rfl⟩ : ∃ c rest, whole = c :: rest := by
    cases whole with
    | nil => exact absurd (Nat.zero_le _) hlt
    | cons c rest => exact ⟨c, rest, rfl⟩
  rw [List.length_cons] at hlt hfront
  have hc : c ≠ '0' := by
    rintro rfl
    rcases hfront with h1 | h0
    · omega
    · exact h0 rfl
  rw [List.cons_append, List.all_cons, Bool.and_eq_true] at hall
  have hmany : (whole' ++ fraction').length ≤ (rest ++ fraction).length := by
    rw [List.length_append, List.length_append]; omega
  have hge : 10 ^ (rest ++ fraction).length ≤ Nat.ofDigitChars 10 (c :: rest ++ fraction) 0 :=
    Text.le_ofDigitChars hall.1 hc
  exact absurd (hge.trans_lt (h ▸ Text.ofDigitChars_lt hall')) (Nat.not_lt.2 (Nat.pow_le_pow_right (by decide) hmany))

/-- There is one way only to write an amount: digits of its worth and scale without a zero in front. -/
theorem digits_eq {a : Amount} {whole fraction : List Char} (hne : whole ≠ [])
    (hall : (whole ++ fraction).all Char.isDigit = true)
    (hunits : Nat.ofDigitChars 10 (whole ++ fraction) 0 = a.units) (hscale : fraction.length = a.scale)
    (hfront : whole.length = 1 ∨ whole.head? ≠ some '0') :
    a.digits = whole ++ if fraction = [] then [] else '.' :: fraction := by
  obtain ⟨whole', fraction', hs⟩ := a.exists_spelled
  have hall' : (whole' ++ fraction').all Char.isDigit = true := by
    rw [List.all_append, hs.whole_digits, hs.fraction_digits]; rfl
  have hworth := hunits.trans hs.units.symm
  have hlen := hscale.trans hs.scale.symm
  have hwhole : whole.length = whole'.length :=
    Nat.le_antisymm (length_whole_le hs.whole_ne_nil hall hall' hfront hlen hworth)
      (length_whole_le hne hall' hall hs.no_zero_in_front hlen.symm hworth.symm)
  have hsame : whole ++ fraction = whole' ++ fraction' :=
    Text.ofDigitChars_inj hall hall' (by rw [List.length_append, List.length_append, hwhole, hlen]) hworth
  obtain ⟨rfl, rfl⟩ := List.append_inj hsame hwhole
  exact hs.chars

/-- A written amount is a number without an exponent. -/
theorem Spelled.plain {a : Amount} {whole fraction : List Char} (h : a.Spelled whole fraction) :
    Plain a.digits whole fraction := by
  refine ⟨⟨h.whole_ne_nil, h.whole_digits⟩, _, h.chars, ?_⟩
  split
  · rename_i hf
    rw [hf]; exact .absent
  · rename_i hf
    exact .digits ⟨hf, h.fraction_digits⟩

/-- A written amount is made of digits and points. -/
theorem mem_digits {a : Amount} {c : Char} (h : c ∈ a.digits) : c.isDigit = true ∨ c = '.' := by
  obtain ⟨whole, fraction, hs⟩ := a.exists_spelled
  exact hs.plain.isDigit_or h

/-! ## Reading what was written -/

/-- No character of a kind that has neither digits nor the point is in a written amount. -/
theorem free_digits {p : Char → Bool} (hd : ∀ c, c.isDigit = true → p c = false) (hp : p '.' = false)
    (a : Amount) : Text.Free p a.digits := by
  intro c hc
  rcases mem_digits hc with h | rfl
  · exact hd c h
  · exact hp

theorem trimmed_digits (a : Amount) : Text.trimmed a.digits = a.digits := by
  refine Text.trimmed_of_visible (List.all_eq_true.2 fun c hc => ?_)
  rcases mem_digits hc with h | rfl
  · exact isVisible_of_isDigit h
  · rfl

theorem ofParts_zero {a : Amount} {whole fraction : List Char} (h : a.Spelled whole fraction) :
    ofParts whole fraction 0 = a := by
  unfold ofParts
  rw [h.units, h.scale]
  obtain ⟨units, scale⟩ := a
  simp

/-- A written amount is read as the amount that was written. -/
theorem parse_toText (a : Amount) : parse a.toText = .ok a := by
  obtain ⟨whole, fraction, h⟩ := a.exists_spelled
  have htrimmed : Text.trimmed a.toText.toList = a.digits := by
    rw [toText, String.toList_ofList, trimmed_digits]
  refine parse_eq_ok_iff.2 ⟨whole, fraction, 0, ?_, Nat.zero_le _, ofParts_zero h⟩
  rw [htrimmed]
  exact ⟨a.digits, [], (List.append_nil _).symm, h.plain, .absent⟩

theorem digits_injective {a b : Amount} (h : a.digits = b.digits) : a = b := by
  have := parse_toText a
  unfold toText at this
  rw [h] at this
  exact (Except.ok.inj ((parse_toText b).symm.trans this)).symm

end Amount

end Tollgate
