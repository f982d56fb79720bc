/-
Stamps, written and read. A written stamp is read back as the instant that it was written for, leap seconds
included, unless no clock shows that instant; then it is read as the one that is shown in its place. Whatever is read
is laid out from left to right, so a stamp knows where it ends: no stamp goes on after another one.
-/
import Tollgate.Proofs.Text.Cut
import Tollgate.Proofs.Text.Digits
import Tollgate.Proofs.Time.Calendar
import Tollgate.Time.Stamp

namespace Tollgate

/-! ## What a clock shows -/

namespace Instant

/-- The instant that a clock shows: a leap second after a second that does not end a minute shows as the next
second. -/
def shown (t : Instant) : Instant :=
  if nanosPerSecond ≤ t.nanos ∧ t.secs % 60 ≠ 59 then ⟨t.secs + 1, t.nanos - nanosPerSecond⟩ else t

variable {t : Instant}

theorem isRegular_iff : t.isRegular = true ↔ t.isValid = true ∧ (nanosPerSecond ≤ t.nanos → t.secs % 60 = 59) := by
  unfold isRegular isValid
  simp only [Bool.and_eq_true, Bool.or_eq_true, decide_eq_true_eq, and_assoc]
  refine and_congr_right fun _ => ?_
  omega

theorem shown_of_isRegular (h : t.isRegular = true) : t.shown = t :=
  if_neg fun hodd => hodd.2 ((isRegular_iff.1 h).2 hodd.1)

/-- Only an instant that no clock shows is not the one that is shown. -/
theorem shown_eq_self_iff (hv : t.isValid = true) : t.shown = t ↔ t.isRegular = true := by
  refine ⟨fun h => isRegular_iff.2 ⟨hv, fun hleap => ?_⟩, shown_of_isRegular⟩
  by_contra hodd
  unfold shown at h
  rw [if_pos ⟨hleap, hodd⟩] at h
  have := congrArg secs h
  dsimp only at this
  omega

/-- The second that is shown lies on the same day. -/
theorem date_shown (t : Instant) : t.shown.date = t.date := by
  unfold shown
  split
  · unfold date
    rw [show (t.secs + 1) / 86400 = t.secs / 86400 by omega]
  · rfl

theorem isRegular_shown (hv : t.isValid = true) : t.shown.isRegular = true := by
  by_cases h : t.isRegular = true
  · rwa [shown_of_isRegular h]
  · have hodd : nanosPerSecond ≤ t.nanos ∧ t.secs % 60 ≠ 59 := by
      simpa only [isRegular_iff, hv, true_and, Classical.not_imp] using h
    -- the last second of all ends a minute
    have hlast : lastSecond % 60 = 59 := by decide +kernel
    unfold shown
    rw [if_pos hodd]
    unfold isValid at hv
    unfold isRegular
    unfold representable at hv ⊢
    simp only [Bool.and_eq_true, Bool.or_eq_true, decide_eq_true_eq] at hv ⊢
    omega

end Instant

namespace Stamp

/-! ## Readers of a part -/

theorem digits?_eq_some_iff {width n : Nat} {s rest : List Char} : digits? width s = some (n, rest) ↔
    ∃ ds, s = ds ++ rest ∧ ds.length = width ∧ ds.all Char.isDigit = true ∧ Nat.ofDigitChars 10 ds 0 = n := by
  constructor
  · intro h
    simp only [digits?] at h
    split at h
    · rename_i hd
      cases h
      exact ⟨s.take width, (List.take_append_drop width s).symm, hd.1, hd.2, rfl⟩
    · cases h
  · rintro ⟨ds, rfl, rfl, hd, rfl⟩
    simp only [digits?, List.take_left, List.drop_left]
    exact if_pos ⟨trivial, hd⟩

theorem one?_eq_some_iff {p : Char → Bool} {s rest : List Char} {c : Char} :
    one? p s = some (c, rest) ↔ s = c :: rest ∧ p c = true := by
  cases s with
  | nil => simp [one?]
  | cons d s =>
    constructor
    · intro h
      simp only [one?] at h
      split at h
      · rename_i hd
        cases h; exact ⟨rfl, hd⟩
      · cases h
    · rintro ⟨h, hc⟩
      cases h
      simp only [one?, hc, if_true]

/-- A fraction is absent, or a point and digits as far as they go. -/
theorem fraction?_eq_some_iff {s rest : List Char} {n : Nat} : fraction? s = some (n, rest) ↔
    (s.head? ≠ some '.' ∧ s = rest ∧ n = 0) ∨
      ∃ ds, s = '.' :: (ds ++ rest) ∧ ds ≠ [] ∧ ds.all Char.isDigit = true ∧
        (∀ c, rest.head? = some c → c.isDigit = false) ∧
        n = Nat.ofDigitChars 10 (ds.take 9) 0 * 10 ^ (9 - (ds.take 9).length) := by
  constructor
  · intro h
    unfold fraction? at h
    split at h
    · rename_i s'
      simp only at h
      split at h
      · cases h
      · rename_i hne
        cases h
        refine .inr ⟨s'.takeWhile Char.isDigit, ?_, ?_, List.all_takeWhile, fun c hc => ?_, rfl⟩
        · rw [List.takeWhile_append_dropWhile]
        · simpa using hne
        · have := List.head?_dropWhile_not Char.isDigit s'
          rw [hc] at this
          simpa using this
    · rename_i hno
      cases h
      refine .inl ⟨fun hd => ?_, rfl, rfl⟩
      obtain ⟨s', rfl⟩ := List.head?_eq_some_iff.1 hd
      exact hno s' rfl
  · rintro (⟨hd, rfl, rfl⟩ | ⟨ds, rfl, hne, hall, hrest, rfl⟩)
    · unfold fraction?
      split
      · exact absurd rfl hd
      · rfl
    · have hstop : rest.takeWhile Char.isDigit = [] ∧ rest.dropWhile Char.isDigit = rest := by
        cases rest with
        | nil => exact ⟨rfl, rfl⟩
        | cons c rest =>
          have hc := hrest c rfl
          exact ⟨List.takeWhile_cons_of_neg (by simp [hc]), List.dropWhile_cons_of_neg (by simp [hc])⟩
      have hall' := List.all_eq_true.1 hall
      unfold fraction?
      simp only [List.takeWhile_append_of_pos hall', List.dropWhile_append_of_pos hall', hstop.1, hstop.2,
        List.append_nil, List.isEmpty_iff, if_neg hne]

/-- An offset is one letter, or a sign and five characters; its first character says which. -/
theorem length_of_offset? {s : List Char} {o : Int} (h : offset? s = some o) :
    ∃ c rest, s = c :: rest ∧ s.length = if c = 'Z' ∨ c = 'z' then 1 else 6 := by
  unfold offset? at h
  simp only [Option.bind_eq_bind, Option.bind_eq_some_iff, Prod.exists] at h
  obtain ⟨sign, rest, h1, h⟩ := h
  obtain ⟨rfl, -⟩ := one?_eq_some_iff.1 h1
  refine ⟨sign, rest, rfl, ?_⟩
  split at h
  · rename_i hz
    split at h
    · rename_i he
      rw [List.isEmpty_iff.1 he, if_pos hz]; rfl
    · cases h
  · rename_i hz
    simp only [Option.bind_eq_some_iff, Prod.exists] at h
    obtain ⟨hours, s1, h2, colon, s2, h3, minutes, s3, h4, _, hg, -⟩ := h
    have he : s3.isEmpty = true := by
      by_contra hn
      simp [guard, hn] at hg
    obtain ⟨ds, rfl, hl, -, -⟩ := digits?_eq_some_iff.1 h2
    obtain ⟨rfl, -⟩ := one?_eq_some_iff.1 h3
    obtain ⟨ds', rfl, hl', -, -⟩ := digits?_eq_some_iff.1 h4
    rw [if_neg hz, List.isEmpty_iff.1 he]
    simp only [List.length_cons, List.length_append, List.length_nil]
    omega

theorem ne_nil_of_offset? {s : List Char} {o : Int} (h : offset? s = some o) : s ≠ [] := by
  obtain ⟨c, rest, rfl, -⟩ := length_of_offset? h
  exact List.cons_ne_nil c rest

/-! ## Where a stamp ends -/

theorem digits?_append {width n : Nat} {s u : List Char} (h : digits? width s = some (n, u)) (r : List Char) :
    digits? width (s ++ r) = some (n, u ++ r) := by
  obtain ⟨ds, rfl, hl, hd, hn⟩ := digits?_eq_some_iff.1 h
  exact digits?_eq_some_iff.2 ⟨ds, List.append_assoc .., hl, hd, hn⟩

theorem one?_append {p : Char → Bool} {s u : List Char} {c : Char} (h : one? p s = some (c, u)) (r : List Char) :
    one? p (s ++ r) = some (c, u ++ r) := by
  obtain ⟨rfl, hc⟩ := one?_eq_some_iff.1 h
  exact one?_eq_some_iff.2 ⟨rfl, hc⟩

/-- What follows a fraction decides where it ends, so something has to follow. -/
theorem fraction?_append {n : Nat} {s u : List Char} (h : fraction? s = some (n, u)) (hu : u ≠ [])
    (r : List Char) : fraction? (s ++ r) = some (n, u ++ r) := by
  rw [fraction?_eq_some_iff] at h ⊢
  rcases h with ⟨hd, rfl, rfl⟩ | ⟨ds, rfl, hne, hall, hrest, rfl⟩
  · refine .inl ⟨?_, rfl, rfl⟩
    rwa [List.head?_append_of_ne_nil _ hu]
  · refine .inr ⟨ds, by simp, hne, hall, fun c hc => hrest c ?_, rfl⟩
    rwa [List.head?_append_of_ne_nil _ hu] at hc

/-- A reader that does not look beyond what it takes. -/
def Local {α : Type} (read : List Char → Option (α × List Char)) : Prop :=
  ∀ {s u : List Char} {a : α}, read s = some (a, u) → ∀ r, read (s ++ r) = some (a, u ++ r)

/-- Such a reader takes the same from two texts that go on to be the same. -/
theorem Local.rest_eq {α : Type} {read : List Char → Option (α × List Char)} (hread : Local read)
    {s s' u u' r r' : List Char} {a a' : α} (h : read s = some (a, u)) (h' : read s' = some (a', u'))
    (e : s ++ r = s' ++ r') : u ++ r = u' ++ r' := by
  have := hread h r
  rw [e, hread h' r'] at this
  exact (Prod.mk.inj (Option.some.inj this)).2.symm

/-- The rest of a stamp after one part, for two stamps side by side. -/
theorem Local.bind {α β : Type} {read : List Char → Option (α × List Char)} (hread : Local read)
    {next next' : α × List Char → Option β} {s s' r r' : List Char} {b b' : β}
    (h : read s >>= next = some b) (h' : read s' >>= next' = some b') (e : s ++ r = s' ++ r') :
    ∃ a u a' u', next (a, u) = some b ∧ next' (a', u') = some b' ∧ u ++ r = u' ++ r' := by
  obtain ⟨⟨a, u⟩, h1, h2⟩ := Option.bind_eq_some_iff.1 h
  obtain ⟨⟨a', u'⟩, h1', h2'⟩ := Option.bind_eq_some_iff.1 h'
  exact ⟨a, u, a', u', h2, h2', hread.rest_eq h1 h1' e⟩

/-- Two offsets that begin alike are the same. -/
theorem offset?_inj {s s' r r' : List Char} {o o' : Int} (h : offset? s = some o) (h' : offset? s' = some o')
    (e : s ++ r = s' ++ r') : r = r' := by
  obtain ⟨c, s, rfl, hl⟩ := length_of_offset? h
  obtain ⟨c', s', rfl, hl'⟩ := length_of_offset? h'
  have hcc : c = c' := (List.cons.inj e).1
  exact (List.append_inj e (by rw [hl, hl', hcc])).2

/-- No stamp goes on after another one: texts that begin with stamps and are the same begin with the same
stamp. -/
theorem eq_of_append_eq {s s' r r' : List Char} {t t' : Instant} (h : chars? s = some t)
    (h' : chars? s' = some t') (e : s ++ r = s' ++ r') : s = s' ∧ r = r' := by
  have hr : r = r' := by
    unfold chars? at h h'
    obtain ⟨_, _, _, _, h1, h1', e1⟩ := Local.bind digits?_append h h' e
    obtain ⟨_, _, _, _, h2, h2', e2⟩ := Local.bind one?_append h1 h1' e1
    obtain ⟨_, _, _, _, h3, h3', e3⟩ := Local.bind digits?_append h2 h2' e2
    obtain ⟨_, _, _, _, h4, h4', e4⟩ := Local.bind one?_append h3 h3' e3
    obtain ⟨_, _, _, _, h5, h5', e5⟩ := Local.bind digits?_append h4 h4' e4
    obtain ⟨_, _, _, _, h6, h6', e6⟩ := Local.bind one?_append h5 h5' e5
    obtain ⟨_, _, _, _, h7, h7', e7⟩ := Local.bind digits?_append h6 h6' e6
    obtain ⟨_, _, _, _, h8, h8', e8⟩ := Local.bind one?_append h7 h7' e7
    obtain ⟨_, _, _, _, h9, h9', e9⟩ := Local.bind digits?_append h8 h8' e8
    obtain ⟨_, _, _, _, h10, h10', e10⟩ := Local.bind one?_append h9 h9' e9
    obtain ⟨_, _, _, _, h11, h11', e11⟩ := Local.bind digits?_append h10 h10' e10
    -- the fraction is told from the offset by what follows it
    obtain ⟨⟨_, u⟩, h12, h13⟩ := Option.bind_eq_some_iff.1 h11
    obtain ⟨⟨_, u'⟩, h12', h13'⟩ := Option.bind_eq_some_iff.1 h11'
    obtain ⟨_, h14, -⟩ := Option.bind_eq_some_iff.1 h13
    obtain ⟨_, h14', -⟩ := Option.bind_eq_some_iff.1 h13'
    have e12 := fraction?_append h12 (ne_nil_of_offset? h14) r
    rw [e11, fraction?_append h12' (ne_nil_of_offset? h14') r'] at e12
    exact offset?_inj h14 h14' (Prod.mk.inj (Option.some.inj e12)).2.symm
  subst hr
  exact ⟨List.append_cancel_right e, rfl⟩

/-- A stamp begins with the four digits of a year and a hyphen. -/
theorem year_of_chars? {s : List Char} {t : Instant} (h : chars? s = some t) :
    ∃ year rest, s = year ++ '-' :: rest ∧ year.length = 4 ∧ year.all Char.isDigit = true := by
  unfold chars? at h
  obtain ⟨⟨_, _⟩, h1, h⟩ := Option.bind_eq_some_iff.1 h
  obtain ⟨⟨_, _⟩, h2, -⟩ := Option.bind_eq_some_iff.1 h
  obtain ⟨year, rfl, hl, hd, -⟩ := digits?_eq_some_iff.1 h1
  obtain ⟨rfl, hc⟩ := one?_eq_some_iff.1 h2
  rw [beq_iff_eq] at hc
  exact ⟨year, _, by rw [hc], hl, hd⟩

/-! ## Reading what was written -/

theorem digits?_padded {width n : Nat} (hw : 0 < width) (h : n < 10 ^ width) (rest : List Char) :
    digits? width (padded width n ++ rest) = some (n, rest) := by
  have hl := (Nat.length_toDigits_le_iff (by decide) hw).2 h
  refine digits?_eq_some_iff.2 ⟨padded width n, rfl, ?_, ?_, ?_⟩
  · unfold padded
    rw [List.length_append, List.length_replicate]
    omega
  · unfold padded
    rw [List.all_append, Text.all_isDigit_replicate, Text.all_isDigit_toDigits]; rfl
  · unfold padded
    rw [Text.ofDigitChars_zeros_append, Nat.ofDigitChars_ten_toDigits]

/-- An offset begins with a sign or a letter, so no fraction goes on into it. -/
theorem head?_of_offset? {s : List Char} {o : Int} (h : offset? s = some o) :
    ∃ c, s.head? = some c ∧ c ≠ '.' ∧ c.isDigit = false := by
  unfold offset? at h
  obtain ⟨⟨c, rest⟩, h1, -⟩ := Option.bind_eq_some_iff.1 h
  obtain ⟨rfl, hc⟩ := one?_eq_some_iff.1 h1
  simp only [Bool.or_eq_true, beq_iff_eq] at hc
  refine ⟨c, rfl, ?_⟩
  rcases hc with (((rfl | rfl) | rfl) | rfl) | rfl <;> decide

theorem fraction?_fraction {nanos : Nat} (h : nanos < Instant.nanosPerSecond) {zone : List Char} {o : Int}
    (hzone : offset? zone = some o) : fraction? (fraction nanos ++ zone) = some (nanos, zone) := by
  obtain ⟨c, hc, hpoint, hdigit⟩ := head?_of_offset? hzone
  unfold fraction
  split
  · rename_i h0
    refine fraction?_eq_some_iff.2 (.inl ⟨?_, rfl, h0⟩)
    rw [List.nil_append, hc]
    exact fun he => hpoint (Option.some.inj he)
  · rename_i h0
    have hread := digits?_padded (show 0 < 9 by decide) h []
    rw [List.append_nil] at hread
    obtain ⟨ds, hds, hl, hall, hn⟩ := digits?_eq_some_iff.1 hread
    rw [List.append_nil] at hds
    rw [hds]
    obtain ⟨k, hk⟩ := Text.trimmedRight_zeros ds
    generalize Text.trimmedRight (· == '0') ds = kept at hk ⊢
    have hsize : kept.length + k = 9 := by
      rw [← hl, hk, List.length_append, List.length_replicate]
    have hvalue : Nat.ofDigitChars 10 kept 0 * 10 ^ k = nanos := by
      rw [← Text.ofDigitChars_append_zeros, ← hk, hn]
    rw [hk, List.all_append, Bool.and_eq_true] at hall
    refine fraction?_eq_some_iff.2 (.inr ⟨kept, rfl, ?_, hall.1, ?_, ?_⟩)
    · rintro rfl
      rw [Nat.ofDigitChars_nil, Nat.zero_mul] at hvalue
      exact h0 hvalue.symm
    · intro c' hc'
      rw [hc, Option.some.injEq] at hc'
      rw [← hc', hdigit]
    · rw [List.take_of_length_le (by omega), show 9 - kept.length = k by omega, hvalue]

theorem one?_cons {p : Char → Bool} {c : Char} (h : p c = true) (rest : List Char) :
    one? p (c :: rest) = some (c, rest) :=
  one?_eq_some_iff.2 ⟨rfl, h⟩

/-- Reading a day and a time of day in some zone. -/
theorem chars?_layout {d : Date} {hour minute second nanos : Nat} (hd : d.isValid = true)
    (hy : 0 ≤ d.year ∧ d.year ≤ 9999) (hh : hour < 24) (hm : minute < 60) (hs : second ≤ 60)
    (hn : nanos < Instant.nanosPerSecond) {zone : List Char} {o : Int} (hzone : offset? zone = some o) :
    chars? (yearDigits d.year ++ '-' :: padded 2 d.month ++ '-' :: padded 2 d.day ++ 'T' :: padded 2 hour ++
      ':' :: padded 2 minute ++ ':' :: padded 2 second ++ fraction nanos ++ zone) =
    some ⟨d.toDays * 86400 + hour * 3600 + minute * 60 + min second 59 - o * 60,
      if second = 60 then nanos + Instant.nanosPerSecond else nanos⟩ := by
  obtain ⟨hmonth, hday⟩ : d.month < 10 ^ 2 ∧ d.day < 10 ^ 2 := by
    have hmax : Date.daysInMonth d.year d.month ≤ 31 := by
      unfold Date.daysInMonth; split_ifs <;> decide
    simp only [Date.isValid, Bool.and_eq_true, decide_eq_true_eq] at hd
    omega
  have hyear : (⟨(d.year.toNat : Int), d.month, d.day⟩ : Date) = d := by
    obtain ⟨year, month, day⟩ := d
    simp only [Date.mk.injEq, and_true]
    exact Int.toNat_of_nonneg hy.1
  simp only [yearDigits, if_pos hy, List.append_assoc, List.cons_append]
  refine Option.bind_eq_some_iff.2 ⟨_, digits?_padded (by decide) (by omega) _, ?_⟩
  refine Option.bind_eq_some_iff.2 ⟨_, one?_cons rfl _, ?_⟩
  refine Option.bind_eq_some_iff.2 ⟨_, digits?_padded (by decide) hmonth _, ?_⟩
  refine Option.bind_eq_some_iff.2 ⟨_, one?_cons rfl _, ?_⟩
  refine Option.bind_eq_some_iff.2 ⟨_, digits?_padded (by decide) hday _, ?_⟩
  refine Option.bind_eq_some_iff.2 ⟨_, one?_cons rfl _, ?_⟩
  refine Option.bind_eq_some_iff.2 ⟨_, digits?_padded (by decide) (by omega) _, ?_⟩
  refine Option.bind_eq_some_iff.2 ⟨_, one?_cons rfl _, ?_⟩
  refine Option.bind_eq_some_iff.2 ⟨_, digits?_padded (by decide) (by omega) _, ?_⟩
  refine Option.bind_eq_some_iff.2 ⟨_, one?_cons rfl _, ?_⟩
  refine Option.bind_eq_some_iff.2 ⟨_, digits?_padded (by decide) (by omega) _, ?_⟩
  refine Option.bind_eq_some_iff.2 ⟨_, fraction?_fraction hn hzone, ?_⟩
  refine Option.bind_eq_some_iff.2 ⟨o, hzone, ?_⟩
  simp only [hyear]
  refine Option.bind_eq_some_iff.2 ⟨(), if_pos ⟨hd, hh, hm, hs⟩, ?_⟩
  simp

/-- The parts of an instant are within the bounds of their digits. -/
theorem bounds {t : Instant} (hv : t.isRegular = true) : 0 ≤ t.secondOfDay ∧ t.secondOfDay < 86400 ∧
    (t.nanos < Instant.nanosPerSecond ∨
      t.secondOfDay.toNat % 60 = 59 ∧ Instant.nanosPerSecond ≤ t.nanos ∧ t.nanos < 2 * Instant.nanosPerSecond) := by
  unfold Instant.isRegular at hv
  unfold Instant.secondOfDay
  simp only [Bool.and_eq_true, Bool.or_eq_true, decide_eq_true_eq] at hv
  refine ⟨by omega, by omega, ?_⟩
  omega

/-- The clock of a zone whose offset is so many minutes, at an instant. -/
def clockAt (t : Instant) (o : Int) : Instant := ⟨t.secs + o * 60, t.nanos⟩

/-- The stamp of an instant as a zone has it: its clock is written, and then the zone in place of the last
letter. -/
def zoned (t : Instant) (o : Int) (zone : List Char) : List Char := (chars (clockAt t o)).dropLast ++ zone

/-- A stamp in any zone is read as the instant that it was written for, also in a leap second. -/
theorem chars?_zoned {t : Instant} {o : Int} {zone : List Char} (hzone : offset? zone = some o)
    (hv : (clockAt t o).isRegular = true)
    (hy : 0 ≤ (clockAt t o).date.year ∧ (clockAt t o).date.year ≤ 9999) : chars? (zoned t o zone) = some t := by
  unfold zoned
  have hclock : t = ⟨(clockAt t o).secs - o * 60, (clockAt t o).nanos⟩ := by
    show t = ⟨t.secs + o * 60 - o * 60, t.nanos⟩
    rw [Int.add_sub_cancel]
  generalize clockAt t o = clock at hv hy hclock ⊢
  obtain ⟨hs0, hs1, hn⟩ := bounds hv
  have hdays : clock.date.toDays = clock.secs / 86400 := Date.toDays_ofDays (clock.secs / 86400)
  have hsecs : clock.secs = clock.secs / 86400 * 86400 + clock.secondOfDay := by
    unfold Instant.secondOfDay; omega
  unfold Instant.nanosPerSecond at hn
  unfold chars
  rw [List.dropLast_concat]
  refine (chars?_layout (Date.isValid_ofDays _) hy (by omega) (by omega)
    (by unfold Instant.nanosPerSecond; omega) (Nat.mod_lt _ (by decide)) hzone).trans ?_
  show some (Instant.mk (clock.date.toDays * 86400 + _ + _ + _ - _) _) = some t
  rw [hclock, hdays, Option.some.injEq, Instant.mk.injEq]
  unfold Instant.nanosPerSecond
  -- in a leap second the seconds are 60, and the billion of nanoseconds goes there
  rcases hn with hn | ⟨h59, hn1, hn2⟩
  · constructor
    · omega
    · rw [if_neg (by omega)]; omega
  · constructor
    · omega
    · rw [if_pos (by omega)]; omega

/-- A written stamp is read as the instant that it was written for. -/
theorem chars?_chars {t : Instant} (hv : t.isRegular = true) (hy : 0 ≤ t.date.year ∧ t.date.year ≤ 9999) :
    chars? (chars t) = some t := by
  have hclock : clockAt t 0 = t := by rw [clockAt, Int.zero_mul, Int.add_zero]
  have hzoned : zoned t 0 ['Z'] = chars t := by
    rw [zoned, hclock]
    unfold chars
    rw [List.dropLast_concat]
  rw [← hzoned]
  exact chars?_zoned rfl (by rwa [hclock]) (by rwa [hclock])

/-! ## What a stamp shows -/

theorem chars_shown {t : Instant} (hv : t.isValid = true) : chars t.shown = chars t := by
  unfold Instant.isValid at hv
  simp only [Bool.and_eq_true, decide_eq_true_eq] at hv
  have hdate := t.date_shown
  unfold Instant.shown at hdate ⊢
  split
  · rename_i hodd
    rw [if_pos hodd] at hdate
    have hsecond : (t.secs + 1) % 86400 = t.secs % 86400 + 1 := by omega
    have hnanos : t.nanos / Instant.nanosPerSecond = 1 ∧ (t.nanos - Instant.nanosPerSecond) / Instant.nanosPerSecond = 0 ∧
        (t.nanos - Instant.nanosPerSecond) % Instant.nanosPerSecond = t.nanos % Instant.nanosPerSecond := by
      unfold Instant.nanosPerSecond at hv hodd ⊢
      omega
    -- the minute does not end here, so only the seconds change
    have hclock : ((t.secs % 86400 + 1).toNat / 3600 = (t.secs % 86400).toNat / 3600) ∧
        (t.secs % 86400 + 1).toNat / 60 % 60 = (t.secs % 86400).toNat / 60 % 60 ∧
        (t.secs % 86400 + 1).toNat % 60 = (t.secs % 86400).toNat % 60 + 1 := by omega
    unfold chars
    rw [hdate]
    simp only [Instant.secondOfDay, hsecond, hnanos, hclock, Nat.add_zero]
  · rfl

theorem ofInstant_shown {t : Instant} (hv : t.isValid = true) : ofInstant t.shown = ofInstant t := by
  rw [ofInstant, ofInstant, chars_shown hv]

/-- A stamp is read as the instant that it shows. -/
theorem read?_ofInstant {t : Instant} (hv : t.isValid = true) (hy : 0 ≤ t.date.year ∧ t.date.year ≤ 9999) :
    read? (ofInstant t) = some t.shown := by
  rw [← ofInstant_shown hv, read?, ofInstant, String.toList_ofList]
  exact chars?_chars (Instant.isRegular_shown hv) (by rwa [t.date_shown])

end Stamp

end Tollgate
