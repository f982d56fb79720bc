/-
Which texts are read as amounts. A text is a number if it is digits, a point and digits if there is a fraction, and
after a letter the exponent of a power of ten. It is read exactly if the exponent is not too large, and what is no
number is refused as such.
-/
import Tollgate.Decimal.Amount
import Tollgate.Proofs.Text.Cut
import Tollgate.Proofs.Text.Digits

namespace Tollgate.Amount

open Text

/-! ## Numbers as they are written -/

/-- The fraction of a number, if there is one: a point and digits. -/
inductive Point : List Char → List Char → Prop where
  | absent : Point [] []
  | digits {fraction : List Char} (h : IsDigits fraction) : Point ('.' :: fraction) fraction

/-- A number without an exponent. -/
def Plain (s whole fraction : List Char) : Prop :=
  IsDigits whole ∧ ∃ point, s = whole ++ point ∧ Point point fraction

/-- The power of ten of a number, if there is one: a letter and the exponent. -/
inductive Power : List Char → Int → Prop where
  | absent : Power [] 0
  | marked {mark : Char} {s : List Char} {e : Int} (hm : mark = 'e' ∨ mark = 'E') (h : Signed s e) :
    Power (mark :: s) e

/-- A number: `whole.fraction · 10^e`. -/
def Scientific (s whole fraction : List Char) (e : Int) : Prop :=
  ∃ mantissa power, s = mantissa ++ power ∧ Plain mantissa whole fraction ∧ Power power e

/-! ## Its parts -/

/-- Whether an exponent follows. -/
def isMark (c : Char) : Bool := c == 'e' || c == 'E'

/-- What stands before the power of ten, and its exponent. -/
def power? (s : List Char) : Option (List Char × Int) :=
  (cutAt? isMark s).elim (some (s, 0)) fun cut => (signed? cut.2).map (cut.1, ·)

/-- What stands before the point and after it. -/
def point? (s : List Char) : Option (List Char × List Char) :=
  (cutAt? (· == '.') s).elim (some (s, [])) fun cut => if cut.2.isEmpty then none else some cut

/-- The whole part and the fraction. -/
def plain? (s : List Char) : Option (List Char × List Char) :=
  (point? s).filter fun parts =>
    !(parts.1.isEmpty || !parts.1.all Char.isDigit || !parts.2.all Char.isDigit)

/-- The parts of a number. -/
def parts? (s : List Char) : Option (List Char × List Char × Int) :=
  (power? s).bind fun m => (plain? m.1).map fun parts => (parts.1, parts.2, m.2)

theorem power?_eq_some_iff {s mantissa : List Char} {e : Int} :
    power? s = some (mantissa, e) ↔ Free isMark mantissa ∧ ∃ power, s = mantissa ++ power ∧ Power power e := by
  unfold power?
  constructor
  · intro h
    cases hcut : cutAt? isMark s with
    | none =>
      rw [hcut] at h
      cases h
      exact ⟨cutAt?_eq_none_iff.1 hcut, [], (List.append_nil s).symm, .absent⟩
    | some cut =>
      obtain ⟨before, after⟩ := cut
      obtain ⟨c, hc, rfl, hfree⟩ := cutAt?_eq_some_iff.1 hcut
      rw [hcut] at h
      obtain ⟨n, hn, h⟩ := Option.map_eq_some_iff.1 h
      cases h
      have hmark : c = 'e' ∨ c = 'E' := by simpa [isMark] using hc
      exact ⟨hfree, c :: after, rfl, .marked hmark (signed?_eq_some_iff.1 hn)⟩
  · rintro ⟨hfree, power, rfl, h⟩
    cases h with
    | absent => rw [List.append_nil, cutAt?_eq_none_iff.2 hfree]; rfl
    | @marked mark _ _ hm h =>
      have hc : isMark mark = true := by simpa [isMark] using hm
      rw [cutAt?_eq_some_iff.2 ⟨_, hc, rfl, hfree⟩, Option.elim_some, signed?_eq_some_iff.2 h]
      rfl

theorem ne_of_isDigit {c d : Char} (h : c.isDigit = true) (hd : d.isDigit = false) : (c == d) = false := by
  rw [beq_eq_false_iff_ne]
  rintro rfl
  rw [h] at hd; cases hd

theorem point?_eq_some_iff {s whole fraction : List Char} : point? s = some (whole, fraction) ↔
    Free (· == '.') whole ∧ (s = whole ∧ fraction = [] ∨ s = whole ++ '.' :: fraction ∧ fraction ≠ []) := by
  unfold point?
  constructor
  · intro h
    cases hcut : cutAt? (· == '.') s with
    | none =>
      rw [hcut] at h
      cases h
      exact ⟨cutAt?_eq_none_iff.1 hcut, .inl ⟨rfl, rfl⟩⟩
    | some cut =>
      obtain ⟨c, hc, hs, hfree⟩ := cutAt?_eq_some_iff.1 hcut
      rw [hcut, Option.elim_some] at h
      split at h
      · cases h
      · rename_i hne
        cases h
        cases beq_iff_eq.1 hc
        exact ⟨hfree, .inr ⟨hs, by simpa using hne⟩⟩
  · rintro ⟨hfree, ⟨rfl, rfl⟩ | ⟨rfl, hne⟩⟩
    · rw [cutAt?_eq_none_iff.2 hfree]; rfl
    · rw [cutAt?_eq_some_iff.2 ⟨'.', rfl, rfl, hfree⟩, Option.elim_some, if_neg (by simpa using hne)]

theorem plain?_eq_some_iff {s whole fraction : List Char} :
    plain? s = some (whole, fraction) ↔ Plain s whole fraction := by
  unfold plain? Plain
  rw [Option.filter_eq_some_iff, point?_eq_some_iff]
  simp only [Bool.not_or, Bool.not_not, Bool.and_eq_true, Bool.not_eq_true', List.isEmpty_eq_false_iff]
  constructor
  · rintro ⟨⟨-, h⟩, ⟨hne, hw⟩, hf⟩
    refine ⟨⟨hne, hw⟩, ?_⟩
    rcases h with ⟨rfl, rfl⟩ | ⟨rfl, hf0⟩
    · exact ⟨[], (List.append_nil _).symm, .absent⟩
    · exact ⟨_, rfl, .digits ⟨hf0, hf⟩⟩
  · rintro ⟨hw, point, rfl, hpoint⟩
    have hfree : Free (· == '.') whole := fun c hc => ne_of_isDigit (List.all_eq_true.1 hw.2 c hc) rfl
    cases hpoint with
    | absent => exact ⟨⟨hfree, .inl ⟨List.append_nil _, rfl⟩⟩, hw, rfl⟩
    | digits hf => exact ⟨⟨hfree, .inr ⟨rfl, hf.1⟩⟩, hw, hf.2⟩

theorem Plain.isDigit_or {s whole fraction : List Char} (h : Plain s whole fraction) {c : Char} (hc : c ∈ s) :
    c.isDigit = true ∨ c = '.' := by
  obtain ⟨hw, point, rfl, hpoint⟩ := h
  rcases List.mem_append.1 hc with hc | hc
  · exact .inl (List.all_eq_true.1 hw.2 c hc)
  · cases hpoint with
    | absent => cases hc
    | digits hf =>
      rcases List.mem_cons.1 hc with rfl | hc
      · exact .inr rfl
      · exact .inl (List.all_eq_true.1 hf.2 c hc)

theorem parts?_eq_some_iff {s whole fraction : List Char} {e : Int} :
    parts? s = some (whole, fraction, e) ↔ Scientific s whole fraction e := by
  unfold parts? Scientific
  rw [Option.bind_eq_some_iff]
  constructor
  · rintro ⟨⟨mantissa, n⟩, hm, h⟩
    obtain ⟨⟨w, f⟩, hp, h⟩ := Option.map_eq_some_iff.1 h
    cases h
    obtain ⟨-, power, rfl, hpower⟩ := power?_eq_some_iff.1 hm
    exact ⟨mantissa, power, rfl, plain?_eq_some_iff.1 hp, hpower⟩
  · rintro ⟨mantissa, power, rfl, hplain, hpower⟩
    have hfree : Free isMark mantissa := fun c hc => by
      rcases hplain.isDigit_or hc with hd | rfl
      · rw [isMark, ne_of_isDigit hd rfl, ne_of_isDigit hd rfl]; rfl
      · rfl
    refine ⟨(mantissa, e), power?_eq_some_iff.2 ⟨hfree, power, rfl, hpower⟩, ?_⟩
    rw [plain?_eq_some_iff.2 hplain]
    rfl

theorem parts?_eq_none_iff {s : List Char} : parts? s = none ↔ ∀ whole fraction e, ¬ Scientific s whole fraction e := by
  rw [Option.eq_none_iff_forall_ne_some]
  constructor
  · exact fun h whole fraction e hn => h _ (parts?_eq_some_iff.2 hn)
  · exact fun h parts hp => h _ _ _ (parts?_eq_some_iff.1 hp)

/-- A text is a number in one way only. -/
theorem Scientific.unique {s whole fraction whole' fraction' : List Char} {e e' : Int}
    (h : Scientific s whole fraction e) (h' : Scientific s whole' fraction' e') :
    whole' = whole ∧ fraction' = fraction ∧ e' = e := by
  have hparts := (parts?_eq_some_iff.2 h').symm.trans (parts?_eq_some_iff.2 h)
  simpa only [Option.some.injEq, Prod.mk.injEq] using hparts

theorem Scientific.digits {s whole fraction : List Char} {e : Int} (h : Scientific s whole fraction e) :
    IsDigits whole ∧ fraction.all Char.isDigit = true := by
  obtain ⟨mantissa, power, -, ⟨hw, point, -, hpoint⟩, -⟩ := h
  refine ⟨hw, ?_⟩
  cases hpoint with
  | absent => rfl
  | digits hf => exact hf.2

/-! ## What is read -/

/-- What becomes of a number of these parts. -/
def ofNumber (text : String) (parts : List Char × List Char × Int) : Except Fault Amount :=
  if ¬ fits64 parts.2.2 then .error (.invalid text)
  else if parts.2.2 = -2 ^ 63 then .error .overflow
  else if parts.2.2.natAbs > maxExponent then .error (.exponent text)
  else .ok (ofParts parts.1 parts.2.1 parts.2.2)

theorem ofNumber_of_parts (text : String) {e : Int} (he : fits64 e = true) (parts : List Char × List Char) :
    (((some parts).filter fun parts =>
        !(parts.1.isEmpty || !parts.1.all Char.isDigit || !parts.2.all Char.isDigit)).map fun parts =>
          (parts.1, parts.2, e)).elim (.error (.invalid text)) (ofNumber text) =
      if (parts.1.isEmpty || !parts.1.all Char.isDigit || !parts.2.all Char.isDigit) = true then
        .error (.invalid text)
      else if e = -2 ^ 63 then .error .overflow
      else if e.natAbs > maxExponent then .error (.exponent text)
      else .ok (ofParts parts.1 parts.2 e) := by
  rw [Option.filter_some]
  cases parts.1.isEmpty || !parts.1.all Char.isDigit || !parts.2.all Char.isDigit with
  | true => rfl
  | false =>
    show ofNumber text (parts.1, parts.2, e) = _
    rw [ofNumber, if_neg (not_not.2 he)]
    rfl

/-- A text is read by the parts of the number it is. -/
theorem parse_eq (text : String) : parse text =
    if (trimmed text.toList).head? = some '-' then .error .negative
    else (parts? (trimmed text.toList)).elim (.error (.invalid text)) (ofNumber text) := by
  unfold parse
  extract_lets s rest begun
  -- once the power of ten is cut off, the same happens whether there was one or not
  have hrest : ∀ m : List Char × Int, fits64 m.2 = true → rest m =
      ((plain? m.1).map fun parts => (parts.1, parts.2, m.2)).elim (.error (.invalid text)) (ofNumber text) := by
    intro m he
    simp only [rest, plain?, point?, pure, Except.pure, bind, Except.bind, throw, throwThe, MonadExceptOf.throw]
    cases cutAt? (· == '.') m.1 with
    | none =>
      rw [Option.elim_none, ofNumber_of_parts text he]
    | some cut =>
      obtain ⟨whole, fraction⟩ := cut
      cases fraction with
      | nil => rfl
      | cons c fraction => exact (ofNumber_of_parts text he (whole, c :: fraction)).symm
  split
  · rfl
  show begun () = _
  unfold parts? power?
  simp only [begun]
  have hmark : cutAt? (fun c => c == 'e' || c == 'E') s = cutAt? isMark s := rfl
  rw [hmark]
  cases cutAt? isMark s with
  | none => exact hrest (s, 0) rfl
  | some cut =>
    simp only [int64?_eq, Option.elim_some]
    cases signed? cut.2 with
    | none => rfl
    | some e =>
      rw [Option.filter_some]
      cases he : fits64 e with
      | true => exact hrest (cut.1, e) he
      | false =>
        -- an exponent out of bounds is refused whatever stands before it
        rw [Option.map_some, Option.bind_some]
        cases plain? cut.1 with
        | none => rfl
        | some parts =>
          show Except.error (Fault.invalid text) = ofNumber text (parts.1, parts.2, e)
          rw [ofNumber, if_pos (by rw [he]; exact Bool.false_ne_true)]

variable {text : String} {whole fraction : List Char} {e : Int}

theorem Scientific.head?_ne_hyphen {s : List Char} (h : Scientific s whole fraction e) : s.head? ≠ some '-' := by
  obtain ⟨mantissa, power, rfl, ⟨⟨hne, hdigits⟩, point, rfl, -⟩, -⟩ := h
  obtain ⟨c, cs, rfl⟩ := List.exists_cons_of_ne_nil hne
  rw [List.cons_append, List.cons_append, List.head?_cons]
  rintro ⟨rfl⟩
  cases hdigits

theorem parse_of_scientific (h : Scientific (trimmed text.toList) whole fraction e) :
    parse text = ofNumber text (whole, fraction, e) := by
  rw [parse_eq, if_neg h.head?_ne_hyphen, parts?_eq_some_iff.2 h]; rfl

/-- A number is not longer than the text that it is read from. -/
theorem Scientific.length_le (h : Scientific (trimmed text.toList) whole fraction e) :
    whole.length + fraction.length ≤ text.length := by
  obtain ⟨mantissa, power, hs, ⟨-, point, rfl, hpoint⟩, -⟩ := h
  have htrim := length_trimmed_le text.toList
  rw [hs, List.length_append, List.length_append, String.length_toList] at htrim
  have : fraction.length ≤ point.length := by
    cases hpoint with
    | absent => exact Nat.le_refl _
    | digits => exact Nat.le_succ _
  omega

theorem ofNumber_eq_ok_iff {parts : List Char × List Char × Int} {a : Amount} :
    ofNumber text parts = .ok a ↔ parts.2.2.natAbs ≤ maxExponent ∧ ofParts parts.1 parts.2.1 parts.2.2 = a := by
  have hsmall : parts.2.2.natAbs ≤ maxExponent → fits64 parts.2.2 = true ∧ parts.2.2 ≠ -2 ^ 63 := by
    intro h
    unfold maxExponent at h
    rw [fits64_iff]
    omega
  unfold ofNumber
  by_cases he : parts.2.2.natAbs ≤ maxExponent
  · obtain ⟨hfits, hmin⟩ := hsmall he
    rw [if_neg (not_not.2 hfits), if_neg hmin, if_neg (Nat.not_lt.2 he), Except.ok.injEq, and_iff_right he]
  · rw [if_pos (Nat.lt_of_not_le he)]
    refine iff_of_false ?_ fun h => he h.1
    split <;> [skip; split] <;> exact nofun

/-- What is read is a number, and its exponent is not too large. -/
theorem parse_eq_ok_iff {a : Amount} : parse text = .ok a ↔ ∃ whole fraction e,
    Scientific (trimmed text.toList) whole fraction e ∧ e.natAbs ≤ maxExponent ∧ ofParts whole fraction e = a := by
  constructor
  · intro h
    rw [parse_eq] at h
    split at h
    · cases h
    · cases hparts : parts? (trimmed text.toList) with
      | none => rw [hparts] at h; cases h
      | some parts =>
        rw [hparts] at h
        exact ⟨_, _, _, parts?_eq_some_iff.1 hparts, ofNumber_eq_ok_iff.1 h⟩
  · rintro ⟨whole, fraction, e, h, he⟩
    rw [parse_of_scientific h]
    exact ofNumber_eq_ok_iff.2 he

/-- What is no number is refused as such. -/
theorem parse_of_not_scientific (h : ∀ whole fraction e, ¬ Scientific (trimmed text.toList) whole fraction e) :
    parse text = .error (if (trimmed text.toList).head? = some '-' then .negative else .invalid text) := by
  rw [parse_eq, parts?_eq_none_iff.2 h]
  split <;> rfl

end Tollgate.Amount
