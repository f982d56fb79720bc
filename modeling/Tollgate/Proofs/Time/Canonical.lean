/-
The written stamp of an instant is its only one. It is what is left of the stamp in thousandths, millionths or
billionths of a second once the zeros at its end are taken away, so it has a fraction exactly if there is something to
tell, and no digit of it can be spared; and since it is read back, no two instants share a stamp that clocks show.
-/
import Tollgate.Proofs.Time.Stamp

namespace Tollgate

/-- The nanoseconds since the second began that a stamp shows. A leap second is a second of its own. -/
def Instant.subsecond (t : Instant) : Nat := t.nanos % nanosPerSecond

namespace Stamp

/-! ## Stamps of a fixed precision -/

/-- What a stamp shows of the whole seconds. -/
def whole (t : Instant) : List Char :=
  let d := t.date
  let s := t.secondOfDay.toNat
  yearDigits d.year ++ '-' :: padded 2 d.month ++ '-' :: padded 2 d.day ++
    'T' :: padded 2 (s / 3600) ++ ':' :: padded 2 (s / 60 % 60) ++
    ':' :: padded 2 (s % 60 + t.nanos / Instant.nanosPerSecond)

/-- A fraction in thousandths, millionths or billionths, the first of them that suffice. -/
def groupedFraction (nanos : Nat) : List Char :=
  if nanos = 0 then []
  else if nanos % 1000000 = 0 then '.' :: padded 3 (nanos / 1000000)
  else if nanos % 1000 = 0 then '.' :: padded 6 (nanos / 1000)
  else '.' :: padded 9 nanos

/-- The stamp of an instant in as many groups of three digits as it needs. -/
def grouped (t : Instant) : List Char := whole t ++ groupedFraction t.subsecond ++ ['Z']

/-- A stamp without the zeros at the end of its fraction, and without the point if nothing else is left of it. -/
def shortened (s : List Char) : List Char :=
  if s.getLast? = some 'Z' then
    match Text.cutAt? (· == '.') s.dropLast with
    | none => s
    | some (whole, fraction) =>
      let kept := Text.trimmedRight (· == '0') fraction
      if kept.isEmpty then whole ++ ['Z'] else whole ++ '.' :: kept ++ ['Z']
  else s

theorem chars_eq (t : Instant) : chars t = whole t ++ fraction t.subsecond ++ ['Z'] := rfl

theorem subsecond_lt (t : Instant) : t.subsecond < Instant.nanosPerSecond := Nat.mod_lt _ (by decide)

/-! ## No point before the fraction -/

theorem all_isDigit_padded (width n : Nat) : (padded width n).all Char.isDigit = true := by
  unfold padded
  rw [List.all_append, Text.all_isDigit_replicate, Text.all_isDigit_toDigits]
  rfl

theorem free_of_digits {s : List Char} (h : s.all Char.isDigit = true) : Text.Free (· == '.') s := by
  rw [Text.free_beq_iff]
  intro hmem
  have := List.all_eq_true.1 h '.' hmem
  exact absurd this (by decide)

theorem free_append {p : Char → Bool} {s t : List Char} (hs : Text.Free p s) (ht : Text.Free p t) :
    Text.Free p (s ++ t) := fun c hc => (List.mem_append.1 hc).elim (hs c) (ht c)

theorem free_yearDigits (year : Int) : Text.Free (· == '.') (yearDigits year) := by
  unfold yearDigits
  split
  · exact free_of_digits (all_isDigit_padded _ _)
  · refine Text.free_cons.2 ⟨?_, free_of_digits (all_isDigit_padded _ _)⟩
    split <;> rfl

theorem free_whole (t : Instant) : Text.Free (· == '.') (whole t) := by
  have hpart (c : Char) (hc : (c == '.') = false) (n : Nat) : Text.Free (· == '.') (c :: padded 2 n) :=
    Text.free_cons.2 ⟨hc, free_of_digits (all_isDigit_padded 2 n)⟩
  unfold whole
  refine free_append (free_append (free_append (free_append (free_append (free_yearDigits _) ?_) ?_) ?_) ?_) ?_
  all_goals exact hpart _ rfl _

/-! ## Zeros at the end -/

theorem length_padded {width n : Nat} (hw : 0 < width) (h : n < 10 ^ width) : (padded width n).length = width := by
  obtain ⟨ds, hds, hl, -, -⟩ := digits?_eq_some_iff.1 (digits?_padded hw h [])
  rw [List.append_nil, List.append_nil] at hds
  rw [hds, hl]

theorem ofDigitChars_padded (width n : Nat) : Nat.ofDigitChars 10 (padded width n) 0 = n := by
  unfold padded
  rw [Text.ofDigitChars_zeros_append, Nat.ofDigitChars_toDigits (by decide) (by decide)]

/-- A number with zeros behind it, in so many more digits. -/
theorem padded_mul_pow {width k n : Nat} (hw : 0 < width) (h : n < 10 ^ width) :
    padded (width + k) (n * 10 ^ k) = padded width n ++ List.replicate k '0' := by
  have hlt : n * 10 ^ k < 10 ^ (width + k) := by
    rw [Nat.pow_add]
    exact Nat.mul_lt_mul_of_pos_right h (Nat.pow_pos (by decide))
  refine Text.ofDigitChars_inj (all_isDigit_padded _ _) ?_ ?_ ?_
  · rw [List.all_append, all_isDigit_padded, Text.all_isDigit_replicate]; rfl
  · rw [length_padded (by omega) hlt, List.length_append, length_padded hw h, List.length_replicate]
  · rw [Text.ofDigitChars_append_zeros, ofDigitChars_padded, ofDigitChars_padded]

theorem trimmedRight_append_zeros (s : List Char) (k : Nat) :
    Text.trimmedRight (· == '0') (s ++ List.replicate k '0') = Text.trimmedRight (· == '0') s := by
  unfold Text.trimmedRight
  rw [List.reverse_append, List.reverse_replicate,
    List.dropWhile_append_of_pos fun c hc => by rw [List.eq_of_mem_replicate hc]; rfl]

/-- The digits of a fraction: all of them count, and they do not end in a zero. -/
theorem fraction_eq {nanos : Nat} (h : nanos < Instant.nanosPerSecond) (h0 : nanos ≠ 0) :
    ∃ kept, fraction nanos = '.' :: kept ∧ kept = Text.trimmedRight (· == '0') (padded 9 nanos) ∧ kept ≠ [] ∧
      kept.length ≤ 9 ∧ kept.all Char.isDigit = true ∧ kept.getLast? ≠ some '0' := by
  refine ⟨_, by rw [fraction, if_neg h0], rfl, ?_, ?_, ?_, ?_⟩
  all_goals obtain ⟨k, hk⟩ := Text.trimmedRight_zeros (padded 9 nanos)
  · intro hnil
    have hvalue := congrArg (Nat.ofDigitChars 10 · 0) hk
    simp only [hnil, ofDigitChars_padded, Text.ofDigitChars_append_zeros, Nat.ofDigitChars_nil, Nat.zero_mul] at hvalue
    exact h0 hvalue
  · have hl := congrArg List.length hk
    rw [length_padded (by decide) h, List.length_append] at hl
    omega
  · have hall := all_isDigit_padded 9 nanos
    rw [hk, List.all_append, Bool.and_eq_true] at hall
    exact hall.1
  · exact Text.getLast?_trimmedRight_ne (by decide) _

/-- Whatever the group, the same digits are left once its zeros are taken away. -/
theorem groupedFraction_eq {nanos : Nat} (h : nanos < Instant.nanosPerSecond) (h0 : nanos ≠ 0) :
    ∃ digits, groupedFraction nanos = '.' :: digits ∧
      '.' :: Text.trimmedRight (· == '0') digits = fraction nanos := by
  unfold Instant.nanosPerSecond at h
  have hgroup {width k n : Nat} (hw : 0 < width) (hn : n < 10 ^ width) (h9 : width + k = 9) (hnanos : n * 10 ^ k = nanos) :
      '.' :: Text.trimmedRight (· == '0') (padded width n) = fraction nanos := by
    rw [fraction, if_neg h0, ← hnanos, ← h9, padded_mul_pow hw hn, trimmedRight_append_zeros]
  unfold groupedFraction
  rw [if_neg h0]
  split
  · exact ⟨_, rfl, hgroup (k := 6) (by decide) (by omega) rfl (by omega)⟩
  split
  · exact ⟨_, rfl, hgroup (k := 3) (by decide) (by omega) rfl (by omega)⟩
  · exact ⟨_, rfl, hgroup (k := 0) (by decide) h rfl (by omega)⟩

/-- The stamp of an instant is what is left of the grouped one. -/
theorem shortened_grouped (t : Instant) : shortened (grouped t) = chars t := by
  have hlast : (grouped t).getLast? = some 'Z' := List.getLast?_concat
  have hbody : (grouped t).dropLast = whole t ++ groupedFraction t.subsecond := List.dropLast_concat
  unfold shortened
  rw [if_pos hlast, hbody, chars_eq, grouped]
  by_cases h0 : t.subsecond = 0
  · have hnone : Text.cutAt? (· == '.') (whole t ++ []) = none := by
      rw [List.append_nil]
      exact Text.cutAt?_eq_none_iff.2 (free_whole t)
    rw [groupedFraction, if_pos h0, hnone, fraction, if_pos h0]
  · obtain ⟨digits, hgrouped, hdigits⟩ := groupedFraction_eq (subsecond_lt t) h0
    obtain ⟨kept, hfraction, -, hne, -⟩ := fraction_eq (subsecond_lt t) h0
    rw [hfraction, List.cons.injEq] at hdigits
    have hcut : Text.cutAt? (· == '.') (whole t ++ '.' :: digits) = some (whole t, digits) :=
      Text.cutAt?_eq_some_iff.2 ⟨'.', rfl, rfl, free_whole t⟩
    rw [hgrouped, hcut, hfraction]
    simp only [hdigits.2, List.isEmpty_iff, hne, if_false]

/-! ## The only stamp -/

/-- An instant of a year that four digits suffice for. -/
def Fits (t : Instant) : Prop := t.isValid = true ∧ 0 ≤ t.date.year ∧ t.date.year ≤ 9999

instance (t : Instant) : Decidable (Fits t) := inferInstanceAs (Decidable (_ ∧ _))

/-- The stamp of an instant of such a year is read back as the instant that a clock shows then, so it is the stamp of
those instants only that show as the same one. That is the instant itself, leap seconds included, unless a leap second
does not end a minute. The stamp ends in `Z`; it has a fraction exactly if there are nanoseconds to tell, of nine digits
at most that do not end in a zero; and it is what is left of the grouped stamp without such zeros. -/
theorem ofInstant_canonical {t : Instant} (h : Fits t) :
    read? (ofInstant t) = some t.shown ∧ (t.shown = t ↔ t.isRegular = true) ∧
    (∀ u, Fits u → (ofInstant u = ofInstant t ↔ u.shown = t.shown)) ∧
    (ofInstant t).toList.getLast? = some 'Z' ∧ ('.' ∈ (ofInstant t).toList ↔ t.subsecond ≠ 0) ∧
    (∀ before digits, (ofInstant t).toList = before ++ '.' :: digits ++ ['Z'] →
      digits ≠ [] ∧ digits.length ≤ 9 ∧ digits.all Char.isDigit = true ∧ digits.getLast? ≠ some '0') ∧
    (ofInstant t).toList = shortened (grouped t) := by
  have htext : (ofInstant t).toList = whole t ++ fraction t.subsecond ++ ['Z'] := String.toList_ofList
  refine ⟨read?_ofInstant h.1 h.2, Instant.shown_eq_self_iff h.1, fun u hu => ⟨fun he => ?_, fun he => ?_⟩, ?_, ?_,
    fun before digits hdigits => ?_, ?_⟩
  · have hread := read?_ofInstant hu.1 hu.2
    rw [he, read?_ofInstant h.1 h.2] at hread
    exact (Option.some.inj hread).symm
  · rw [← ofInstant_shown hu.1, he, ofInstant_shown h.1]
  · rw [htext]
    exact List.getLast?_concat
  · have hwhole := Text.free_beq_iff.1 (free_whole t)
    rw [htext, List.mem_append, List.mem_append, or_iff_right hwhole]
    by_cases h0 : t.subsecond = 0
    · simp [h0, fraction]
    · obtain ⟨kept, hfraction, -⟩ := fraction_eq (subsecond_lt t) h0
      simp [h0, hfraction]
  · rw [htext] at hdigits
    have hbody := List.append_cancel_right hdigits
    by_cases h0 : t.subsecond = 0
    · -- without a fraction there is no point to be found
      rw [h0, show fraction 0 = [] from rfl, List.append_nil] at hbody
      exact absurd (hbody ▸ by simp) (Text.free_beq_iff.1 (free_whole t))
    · obtain ⟨kept, hfraction, -, hne, hl, hall, hlast⟩ := fraction_eq (subsecond_lt t) h0
      have hkept := Text.free_beq_iff.1 (free_of_digits hall)
      rw [hfraction, List.append_cons_inj_of_notMem (Text.free_beq_iff.1 (free_whole t)) hkept] at hbody
      rw [← hbody.2.2]
      exact ⟨hne, hl, hall, hlast⟩
  · rw [shortened_grouped]
    exact String.toList_ofList

/-- The middle of the leap second at the end of 2016. -/
def leapSecond : Instant := ⟨1483228799, 1500000000⟩

/-- Its stamp, and that of the second before it, which shows the same fraction. -/
theorem ofInstant_canonical_leapSecond : Fits leapSecond ∧ Fits ⟨1483228799, 500000000⟩ ∧
    ofInstant leapSecond = "2016-12-31T23:59:60.5Z" ∧ read? "2016-12-31T23:59:60.5Z" = some leapSecond ∧
    ofInstant ⟨1483228799, 500000000⟩ ≠ ofInstant leapSecond ∧ leapSecond.subsecond = 500000000 := by
  have hleap : Fits leapSecond := by decide +kernel
  have hbefore : Fits ⟨1483228799, 500000000⟩ := by decide +kernel
  have htext : ofInstant leapSecond = "2016-12-31T23:59:60.5Z" := by decide +kernel
  obtain ⟨hread, -, honly, -⟩ := ofInstant_canonical hleap
  exact ⟨hleap, hbefore, htext, htext ▸ hread, fun he => absurd ((honly _ hbefore).1 he) (by decide), by decide⟩

/-- The middle of a leap second after the thirtieth second of a minute. -/
def oddSecond : Instant := ⟨1704067230, 1500000000⟩

/-- The stamp of such an instant is that of the next second, and is not read back. -/
theorem oddSecond_not_read : Fits oddSecond ∧ ofInstant oddSecond = "2024-01-01T00:00:31.5Z" ∧
    ofInstant ⟨1704067231, 500000000⟩ = "2024-01-01T00:00:31.5Z" ∧
    read? (ofInstant oddSecond) = some ⟨1704067231, 500000000⟩ ∧ oddSecond ≠ ⟨1704067231, 500000000⟩ := by
  have htext : ofInstant oddSecond = "2024-01-01T00:00:31.5Z" := by decide +kernel
  exact ⟨by decide +kernel, htext, by decide +kernel, by rw [htext]; decide +kernel, by decide⟩

end Stamp

end Tollgate
