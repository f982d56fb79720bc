/-
Amounts read in words of 64 bits. The digits are moved as they stand in the text: zeros are put in where there are
none, those in front are taken away, and every number on the way has to fit a word. Unless one does not, what comes
out is the written form of the amount that is read without such bounds; the ways in which one does not are named.
-/
import Tollgate.Proofs.Decimal.Amount

namespace Tollgate.Amount

open Text

/-! ## Words -/

/-- A word with a sign. -/
def signed64 (n : Int) : Except Fault Int := if fits64 n then .ok n else .error .overflow

/-- A word without a sign. -/
def unsigned64 (n : Int) : Except Fault Nat := if 0 ≤ n ∧ n < 2 ^ 64 then .ok n.toNat else .error .overflow

theorem signed64_of_fits {n : Int} (h : -2 ^ 63 ≤ n ∧ n < 2 ^ 63) : signed64 n = .ok n :=
  if_pos ((fits64_iff n).2 h)

theorem signed64_of_le {n : Int} (h : 2 ^ 63 ≤ n) : signed64 n = .error .overflow := by
  refine if_neg fun hfits => ?_
  have := (fits64_iff n).1 hfits
  omega

theorem unsigned64_of_fits {n : Nat} (h : n < 2 ^ 64) : unsigned64 n = .ok n := by
  refine if_pos ⟨Int.natCast_nonneg n, ?_⟩
  exact_mod_cast h

/-! ## Reading -/

/-- Digits with a point among them, before them or behind them, and zeros where there are no digits up to it. -/
def placed (digits : List Char) (point : Int) : Except Fault (List Char) := do
  if point ≤ 0 then
    let zeros ← unsigned64 (-point)
    return '0' :: '.' :: (List.replicate zeros '0' ++ digits)
  else
    let place ← unsigned64 point
    -- digits that are at hand have a count that is a word
    if digits.length ≤ place then
      let zeros ← unsigned64 (place - digits.length)
      return digits ++ List.replicate zeros '0'
    else return digits.take place ++ '.' :: digits.drop place

/-- The digits on both sides of the point once it is moved. -/
def moved (whole fraction : List Char) (e : Int) : Except Fault (List Char) := do
  let length ← signed64 whole.length
  let point ← signed64 (length + e)
  placed (whole ++ fraction) point

/-- A whole part without zeros in front. -/
def bare (whole : List Char) : List Char :=
  let rest := whole.dropWhile (· == '0')
  if rest.isEmpty then ['0'] else rest

/-- A number without zeros in front. -/
def stripped (s : List Char) : List Char :=
  match cutAt? (· == '.') s with
  | some (whole, fraction) => bare whole ++ '.' :: fraction
  | none => bare s

/-- Reads an amount and writes it. -/
def read64 (text : String) : Except Fault String := do
  let s := trimmed text.toList
  if s.head? = some '-' then throw .negative
  let some (whole, fraction, e) := parts? s | throw (.invalid text)
  if ¬ fits64 e then throw (.invalid text)
  let size ← signed64 e.natAbs
  if size > maxExponent then throw (.exponent text)
  return String.ofList (stripped (← moved whole fraction e))

/-! ## Zeros in front -/

/-- A number as its digits on both sides of the point. -/
def joined (whole fraction : List Char) : List Char := whole ++ if fraction = [] then [] else '.' :: fraction

theorem length_joined_le (whole fraction : List Char) :
    (joined whole fraction).length ≤ whole.length + fraction.length + 1 := by
  unfold joined
  split
  · rw [List.append_nil]; omega
  · rw [List.length_append, List.length_cons]; omega

/-- Nothing but zeros is taken away. -/
theorem exists_zeros (whole : List Char) :
    ∃ k, whole = List.replicate k '0' ++ whole.dropWhile (· == '0') := by
  refine ⟨(whole.takeWhile (· == '0')).length, ?_⟩
  have hzeros : whole.takeWhile (· == '0') = List.replicate (whole.takeWhile (· == '0')).length '0' :=
    List.eq_replicate_of_mem fun c hc => by simpa using List.mem_takeWhile_imp hc
  rw [← hzeros, List.takeWhile_append_dropWhile]

theorem bare_cases (whole : List Char) :
    (whole.dropWhile (· == '0') = [] ∧ bare whole = ['0']) ∨
      (whole.dropWhile (· == '0') ≠ [] ∧ bare whole = whole.dropWhile (· == '0')) := by
  unfold bare
  dsimp only
  split
  · rename_i h
    exact .inl ⟨List.isEmpty_iff.1 h, rfl⟩
  · rename_i h
    exact .inr ⟨fun hnil => h (List.isEmpty_iff.2 hnil), rfl⟩

theorem bare_ne_nil (whole : List Char) : bare whole ≠ [] := by
  rcases bare_cases whole with ⟨-, hbare⟩ | ⟨hne, hbare⟩
  · rw [hbare]; exact List.cons_ne_nil _ _
  · rwa [hbare]

theorem bare_front (whole : List Char) : (bare whole).length = 1 ∨ (bare whole).head? ≠ some '0' := by
  rcases bare_cases whole with ⟨-, hbare⟩ | ⟨-, hbare⟩
  · left; rw [hbare]; rfl
  · right
    intro h
    have := List.head?_dropWhile_not (· == '0') whole
    rw [hbare] at h
    rw [h] at this
    cases this

theorem length_bare_le {whole : List Char} (h : whole ≠ []) : (bare whole).length ≤ whole.length := by
  rcases bare_cases whole with ⟨-, hbare⟩ | ⟨-, hbare⟩
  · rw [hbare]; exact List.length_pos_iff.2 h
  · rw [hbare]; exact (List.dropWhile_sublist _).length_le

theorem all_isDigit_bare {whole : List Char} (h : whole.all Char.isDigit = true) :
    (bare whole).all Char.isDigit = true := by
  rcases bare_cases whole with ⟨-, hbare⟩ | ⟨-, hbare⟩
  · rw [hbare]; rfl
  · rw [hbare]
    exact List.all_eq_true.2 fun c hc => List.all_eq_true.1 h c ((List.dropWhile_sublist _).subset hc)

/-- A zero in front is worth nothing. -/
theorem ofDigitChars_bare (whole fraction : List Char) :
    Nat.ofDigitChars 10 (bare whole ++ fraction) 0 = Nat.ofDigitChars 10 (whole ++ fraction) 0 := by
  obtain ⟨k, hk⟩ := exists_zeros whole
  have hrest : Nat.ofDigitChars 10 (whole ++ fraction) 0 =
      Nat.ofDigitChars 10 (whole.dropWhile (· == '0') ++ fraction) 0 := by
    conv_lhs => rw [hk]
    rw [List.append_assoc, ofDigitChars_zeros_append]
  rw [hrest]
  rcases bare_cases whole with ⟨hnil, hbare⟩ | ⟨-, hbare⟩
  · rw [hbare, hnil]
    exact ofDigitChars_zeros_append 1 fraction
  · rw [hbare]

theorem stripped_joined {whole fraction : List Char} (hw : whole.all Char.isDigit = true) :
    stripped (joined whole fraction) = joined (bare whole) fraction := by
  have hfree : Free (· == '.') whole := fun c hc => ne_of_isDigit (List.all_eq_true.1 hw c hc) rfl
  unfold stripped joined
  by_cases hf : fraction = []
  · rw [if_pos hf, List.append_nil, List.append_nil, cutAt?_eq_none_iff.2 hfree]
  · rw [if_neg hf, cutAt?_eq_some_iff.2 ⟨'.', rfl, rfl, hfree⟩]

/-- Digits of the worth and the scale of an amount are, once the zeros in front are away, how it is written. -/
theorem stripped_joined_eq {a : Amount} {whole fraction : List Char} (hw : whole.all Char.isDigit = true)
    (hf : fraction.all Char.isDigit = true) (hunits : Nat.ofDigitChars 10 (whole ++ fraction) 0 = a.units)
    (hscale : fraction.length = a.scale) : stripped (joined whole fraction) = a.digits := by
  rw [stripped_joined hw]
  refine (digits_eq (bare_ne_nil whole) ?_ ?_ hscale (bare_front whole)).symm
  · rw [List.all_append, all_isDigit_bare hw, hf]; rfl
  · rw [ofDigitChars_bare, hunits]

/-! ## The point is moved -/

variable {whole fraction : List Char} {e : Int}

/-- What the digits and the place of the point have to be: written as the amount is, and not many more than there
were. -/
structure Moved (whole fraction : List Char) (e : Int) (s : List Char) : Prop where
  written : stripped s = (ofParts whole fraction e).digits
  length_le : (stripped s).length ≤ whole.length + fraction.length + 65

theorem Moved.of_joined {w f : List Char} (hne : w ≠ []) (hall : (w ++ f).all Char.isDigit = true)
    (hunits : Nat.ofDigitChars 10 (w ++ f) 0 = (ofParts whole fraction e).units)
    (hscale : f.length = (ofParts whole fraction e).scale)
    (hlen : w.length + f.length ≤ whole.length + fraction.length + 64) : Moved whole fraction e (joined w f) := by
  rw [List.all_append, Bool.and_eq_true] at hall
  refine ⟨stripped_joined_eq hall.1 hall.2 hunits hscale, ?_⟩
  rw [stripped_joined hall.1]
  have := length_joined_le (bare w) f
  have := length_bare_le hne
  omega

/-- The point comes to stand before all digits. -/
theorem moved_before (hall : (whole ++ fraction).all Char.isDigit = true) (hne : whole ≠ [])
    (he : -64 ≤ e) {zeros : Nat} (hzeros : (whole.length : Int) + e = -zeros) :
    Moved whole fraction e ('0' :: '.' :: (List.replicate zeros '0' ++ (whole ++ fraction))) := by
  have hpos := List.length_pos_iff.2 hne
  have hfraction : List.replicate zeros '0' ++ (whole ++ fraction) ≠ [] := fun h =>
    hne (List.append_eq_nil_iff.1 (List.append_eq_nil_iff.1 h).2).1
  have hjoined : joined ['0'] (List.replicate zeros '0' ++ (whole ++ fraction)) =
      '0' :: '.' :: (List.replicate zeros '0' ++ (whole ++ fraction)) := by
    rw [joined, if_neg hfraction]; rfl
  have hlen : (List.replicate zeros '0' ++ (whole ++ fraction)).length = zeros + (whole.length + fraction.length) := by
    rw [List.length_append, List.length_replicate, List.length_append]
  rw [← hjoined]
  apply Moved.of_joined
  · exact List.cons_ne_nil _ _
  · rw [List.all_append, List.all_append, all_isDigit_replicate, hall]; rfl
  · have hpow : (e - fraction.length).toNat = 0 := by omega
    show Nat.ofDigitChars 10 (List.replicate 1 '0' ++ _) 0 = Nat.ofDigitChars 10 (whole ++ fraction) 0 * 10 ^ _
    rw [hpow, Nat.pow_zero, Nat.mul_one, ofDigitChars_zeros_append, ofDigitChars_zeros_append]
  · show _ = ((fraction.length : Int) - e).toNat
    rw [hlen]; omega
  · rw [hlen, List.length_singleton]; omega

/-- The point comes to stand behind all digits. -/
theorem moved_behind (hall : (whole ++ fraction).all Char.isDigit = true) (hne : whole ≠ [])
    (he : e ≤ 64) {zeros : Nat} (hzeros : (fraction.length : Int) + zeros = e) :
    Moved whole fraction e (whole ++ fraction ++ List.replicate zeros '0') := by
  have hjoined : joined (whole ++ fraction ++ List.replicate zeros '0') [] =
      whole ++ fraction ++ List.replicate zeros '0' := by
    rw [joined, if_pos rfl, List.append_nil]
  rw [← hjoined]
  apply Moved.of_joined
  · exact fun h => hne (List.append_eq_nil_iff.1 (List.append_eq_nil_iff.1 h).1).1
  · rw [List.append_nil, List.all_append, all_isDigit_replicate, hall]; rfl
  · have hpow : (e - fraction.length).toNat = zeros := by omega
    show _ = Nat.ofDigitChars 10 (whole ++ fraction) 0 * 10 ^ _
    rw [hpow, List.append_nil, ofDigitChars_append_zeros]
  · show 0 = ((fraction.length : Int) - e).toNat
    omega
  · rw [List.length_append, List.length_append, List.length_replicate, List.length_nil]; omega

/-- The point comes to stand among the digits. -/
theorem moved_among (hall : (whole ++ fraction).all Char.isDigit = true) {place : Nat} (h0 : 0 < place)
    (hplace : (whole.length : Int) + e = place) (h : place < (whole ++ fraction).length) :
    Moved whole fraction e ((whole ++ fraction).take place ++ '.' :: (whole ++ fraction).drop place) := by
  have hcut := List.take_append_drop place (whole ++ fraction)
  have hlen : (whole ++ fraction).length = whole.length + fraction.length := List.length_append
  have hjoined : joined ((whole ++ fraction).take place) ((whole ++ fraction).drop place) =
      (whole ++ fraction).take place ++ '.' :: (whole ++ fraction).drop place := by
    rw [joined, if_neg (fun hnil => Nat.not_le.2 h (List.drop_eq_nil_iff.1 hnil))]
  rw [← hjoined]
  apply Moved.of_joined
  · intro hnil
    have := congrArg List.length hnil
    rw [List.length_take, List.length_nil] at this
    omega
  · rw [hcut, hall]
  · have hpow : (e - fraction.length).toNat = 0 := by omega
    show _ = Nat.ofDigitChars 10 (whole ++ fraction) 0 * 10 ^ _
    rw [hpow, Nat.pow_zero, Nat.mul_one, hcut]
  · show _ = ((fraction.length : Int) - e).toNat
    rw [List.length_drop]; omega
  · rw [← List.length_append, hcut]; omega

theorem moved_eq (he : e.natAbs ≤ maxExponent) (hsize : whole.length + max e 0 < 2 ^ 63) :
    moved whole fraction e = placed (whole ++ fraction) (whole.length + e) := by
  unfold maxExponent at he
  have hlength : signed64 whole.length = .ok (whole.length : Int) := signed64_of_fits (by omega)
  have hpoint : signed64 (whole.length + e) = .ok ((whole.length : Int) + e) := signed64_of_fits (by omega)
  unfold moved
  rw [hlength]
  show (signed64 (whole.length + e) >>= _) = _
  rw [hpoint]
  rfl

/-- There is a place for the point, and whenever the numbers on the way are words it is moved there. -/
theorem exists_moved (hw : IsDigits whole) (hf : fraction.all Char.isDigit = true) (he : e.natAbs ≤ maxExponent) :
    ∃ s, Moved whole fraction e s ∧ (whole.length + max e 0 < 2 ^ 63 → moved whole fraction e = .ok s) := by
  have hall : (whole ++ fraction).all Char.isDigit = true := by
    rw [List.all_append, hw.2, hf]; rfl
  have hlen : (whole ++ fraction).length = whole.length + fraction.length := List.length_append
  have hbounds : -64 ≤ e ∧ e ≤ 64 := by
    unfold maxExponent at he; omega
  by_cases hbefore : (whole.length : Int) + e ≤ 0
  · obtain ⟨zeros, hzeros⟩ : ∃ zeros : Nat, -((whole.length : Int) + e) = zeros := Int.eq_ofNat_of_zero_le (by omega)
    have hplace : (whole.length : Int) + e = -zeros := by omega
    refine ⟨_, moved_before hall hw.1 hbounds.1 hplace, fun hsize => ?_⟩
    rw [moved_eq he hsize, placed, if_pos hbefore, hzeros, unsigned64_of_fits (by omega)]; rfl
  · obtain ⟨place, hplace⟩ : ∃ place : Nat, (whole.length : Int) + e = place := Int.eq_ofNat_of_zero_le (by omega)
    by_cases hbehind : (whole ++ fraction).length ≤ place
    · obtain ⟨zeros, hzeros⟩ : ∃ zeros : Nat, (place : Int) - ((whole ++ fraction).length : Nat) = zeros :=
        Int.eq_ofNat_of_zero_le (by omega)
      have hend : (fraction.length : Int) + zeros = e := by omega
      refine ⟨_, moved_behind hall hw.1 hbounds.2 hend, fun hsize => ?_⟩
      rw [moved_eq he hsize, placed, if_neg hbefore, hplace, unsigned64_of_fits (by omega)]
      show (if (whole ++ fraction).length ≤ place then _ else _) = _
      rw [if_pos hbehind, hzeros, unsigned64_of_fits (by omega)]; rfl
    · refine ⟨_, moved_among hall (by omega) hplace (Nat.lt_of_not_le hbehind), fun hsize => ?_⟩
      rw [moved_eq he hsize, placed, if_neg hbefore, hplace, unsigned64_of_fits (by omega)]
      show (if (whole ++ fraction).length ≤ place then _ else _) = _
      rw [if_neg hbehind]; rfl

/-- So many digits stand before the point that their count is no word. -/
theorem moved_of_long (hsize : 2 ^ 63 ≤ whole.length + max e 0) :
    moved whole fraction e = .error .overflow := by
  unfold moved
  by_cases hlong : 2 ^ 63 ≤ (whole.length : Int)
  · rw [signed64_of_le hlong]; rfl
  · have hlength : signed64 whole.length = .ok (whole.length : Int) := signed64_of_fits (by omega)
    have hpoint : signed64 (whole.length + e) = .error .overflow := signed64_of_le (by omega)
    rw [hlength]
    show (signed64 (whole.length + e) >>= _) = _
    rw [hpoint]; rfl

/-! ## What is read -/

variable {text : String}

theorem read64_of_not_scientific (h : ∀ whole fraction e, ¬ Scientific (trimmed text.toList) whole fraction e) :
    read64 text = .error (if (trimmed text.toList).head? = some '-' then .negative else .invalid text) := by
  unfold read64
  dsimp only
  rw [parts?_eq_none_iff.2 h]
  split <;> rfl

theorem read64_of_scientific (h : Scientific (trimmed text.toList) whole fraction e) :
    read64 text = if ¬ fits64 e then .error (.invalid text) else do
      let size ← signed64 e.natAbs
      if size > maxExponent then throw (.exponent text)
      return String.ofList (stripped (← moved whole fraction e)) := by
  unfold read64
  dsimp only
  rw [if_neg h.head?_ne_hyphen, parts?_eq_some_iff.2 h]
  show (if ¬ fits64 e then _ else _) = _
  split <;> rfl

/-- The least exponent of all has no magnitude that is a word. -/
theorem read64_of_least (h : Scientific (trimmed text.toList) whole fraction (-2 ^ 63)) :
    read64 text = .error .overflow := by
  have hsize : signed64 ((-2 ^ 63 : Int).natAbs) = .error .overflow := signed64_of_le (by decide)
  rw [read64_of_scientific h, if_neg (by decide), hsize]
  rfl

/-- Any other exponent that is too large is refused. -/
theorem read64_of_large (h : Scientific (trimmed text.toList) whole fraction e) (hne : e ≠ -2 ^ 63)
    (he : maxExponent < e.natAbs) :
    read64 text = .error (if fits64 e = true then .exponent text else .invalid text) := by
  rw [read64_of_scientific h]
  by_cases hfits : fits64 e = true
  · have hbounds := (fits64_iff e).1 hfits
    have hsize : signed64 e.natAbs = .ok (e.natAbs : Int) := signed64_of_fits (by omega)
    rw [if_neg (not_not.2 hfits), if_pos hfits, hsize]
    show (if (e.natAbs : Int) > maxExponent then _ else _) = _
    rw [if_pos (by exact_mod_cast he)]
    rfl
  · rw [if_pos hfits, if_neg hfits]

theorem read64_of_small (h : Scientific (trimmed text.toList) whole fraction e) (he : e.natAbs ≤ maxExponent) :
    read64 text = do return String.ofList (stripped (← moved whole fraction e)) := by
  unfold maxExponent at he
  have hfits : fits64 e = true := (fits64_iff e).2 (by omega)
  have hsize : signed64 e.natAbs = .ok (e.natAbs : Int) := signed64_of_fits (by omega)
  rw [read64_of_scientific h, if_neg (not_not.2 hfits), hsize]
  show (if (e.natAbs : Int) > maxExponent then _ else _) = _
  rw [if_neg (by unfold maxExponent; omega)]

/-! ## Numbers that are no words -/

/-- Whether a number on the way is no word: the magnitude of the exponent, or the place of the point. -/
def Overflows (text : String) : Prop := ∃ whole fraction e, Scientific (trimmed text.toList) whole fraction e ∧
  (e = -2 ^ 63 ∨ e.natAbs ≤ maxExponent ∧ 2 ^ 63 ≤ whole.length + max e 0)

theorem overflows_iff (h : Scientific (trimmed text.toList) whole fraction e) :
    Overflows text ↔ e = -2 ^ 63 ∨ e.natAbs ≤ maxExponent ∧ 2 ^ 63 ≤ whole.length + max e 0 := by
  constructor
  · rintro ⟨w, f, e', h', hover⟩
    obtain ⟨rfl, rfl, rfl⟩ := h.unique h'
    exact hover
  · exact fun hover => ⟨whole, fraction, e, h, hover⟩

theorem read64_of_overflows (h : Overflows text) : read64 text = .error .overflow := by
  obtain ⟨whole, fraction, e, hnumber, rfl | ⟨he, hsize⟩⟩ := h
  · exact read64_of_least hnumber
  · rw [read64_of_small hnumber he, moved_of_long hsize]; rfl

/-- Without such a number it is no matter that there are bounds. -/
theorem read64_of_not_overflows (h : ¬ Overflows text) : read64 text = (parse text).map toText := by
  by_cases hnumber : ∃ whole fraction e, Scientific (trimmed text.toList) whole fraction e
  · obtain ⟨whole, fraction, e, hnumber⟩ := hnumber
    rw [overflows_iff hnumber, not_or, not_and, Int.not_le] at h
    obtain ⟨hleast, hshort⟩ := h
    rw [parse_of_scientific hnumber]
    by_cases he : e.natAbs ≤ maxExponent
    · obtain ⟨s, hmoved, hs⟩ := exists_moved hnumber.digits.1 hnumber.digits.2 he
      rw [read64_of_small hnumber he, hs (hshort he), ofNumber_eq_ok_iff.2 ⟨he, rfl⟩]
      show Except.ok (String.ofList (stripped s)) = _
      rw [hmoved.written]; rfl
    · rw [read64_of_large hnumber hleast (Nat.lt_of_not_le he)]
      unfold ofNumber
      by_cases hfits : fits64 e = true
      · rw [if_pos hfits, if_neg (not_not.2 hfits), if_neg hleast, if_pos (Nat.lt_of_not_le he)]; rfl
      · rw [if_neg hfits, if_pos hfits]; rfl
  · have hnone : ∀ whole fraction e, ¬ Scientific (trimmed text.toList) whole fraction e :=
      fun whole fraction e hn => hnumber ⟨whole, fraction, e, hn⟩
    rw [read64_of_not_scientific hnone, parse_of_not_scientific hnone]; rfl

/-- Reading without bounds gives no answer to the least exponent either. -/
theorem parse_eq_overflow_iff : parse text = .error .overflow ↔
    ∃ whole fraction, Scientific (trimmed text.toList) whole fraction (-2 ^ 63) := by
  constructor
  · intro h
    by_cases hnumber : ∃ whole fraction e, Scientific (trimmed text.toList) whole fraction e
    · obtain ⟨whole, fraction, e, hnumber⟩ := hnumber
      rw [parse_of_scientific hnumber] at h
      unfold ofNumber at h
      dsimp only at h
      split_ifs at h with hfits hleast
      · exact ⟨whole, fraction, hleast ▸ hnumber⟩
      · cases h
      · cases h
    · rw [parse_of_not_scientific fun whole fraction e hn => hnumber ⟨whole, fraction, e, hn⟩] at h
      split at h <;> cases h
  · rintro ⟨whole, fraction, h⟩
    rw [parse_of_scientific h]; rfl

theorem read64_eq_overflow_iff : read64 text = .error .overflow ↔ Overflows text := by
  refine ⟨fun h => ?_, read64_of_overflows⟩
  by_contra hover
  rw [read64_of_not_overflows hover] at h
  have hparse : parse text = .error .overflow := by
    cases hp : parse text with
    | ok a => rw [hp] at h; cases h
    | error fault => rw [hp] at h; cases h; rfl
  obtain ⟨whole, fraction, hleast⟩ := parse_eq_overflow_iff.1 hparse
  exact hover ⟨whole, fraction, _, hleast, .inl rfl⟩

/-- Sixty-five characters more at most: a zero, a point and as many zeros as move it. -/
theorem length_toText_le {a : Amount} (h : parse text = .ok a) : a.toText.length ≤ text.length + 65 := by
  obtain ⟨whole, fraction, e, hnumber, he, rfl⟩ := parse_eq_ok_iff.1 h
  obtain ⟨s, hmoved, -⟩ := exists_moved hnumber.digits.1 hnumber.digits.2 he
  have hlen := hmoved.length_le
  have := hnumber.length_le
  rw [hmoved.written] at hlen
  rw [toText, String.length_ofList]
  omega

end Tollgate.Amount
