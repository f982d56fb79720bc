/-
Laws of decimal digits. Zeros before a number leave it as it is and zeros after it shift it, so a number of a
given size is written with a given count of digits and read back from them. A number with a sign is read within
the bounds of a machine integer.
-/
import Tollgate.Bytes.Number
import Tollgate.Proofs.Text.Trim
import Tollgate.Text.Integer

namespace Tollgate.Text

theorem all_isDigit_toDigits (n : Nat) : (Nat.toDigits 10 n).all Char.isDigit = true :=
  List.all_eq_true.2 fun _ h => Nat.isDigit_of_mem_toDigits (by decide) (by decide) h

/-- The digits of numbers, up to those in base sixteen. -/
def hexDigits : List Char := ['0', '1', '2', '3', '4', '5', '6', '7', '8', '9', 'a', 'b', 'c', 'd', 'e', 'f']

section Base

variable {base : Nat} (hb : 1 < base) (hle : base ≤ 16)

include hb hle

theorem mem_hexDigits_of_mem_toDigits {c : Char} {n : Nat} (h : c ∈ Nat.toDigits base n) : c ∈ hexDigits := by
  have hdigit : ∀ k < 16, Nat.digitChar k ∈ hexDigits := by decide
  induction n using Nat.strong_induction_on with
  | _ n ih =>
    rcases Nat.lt_or_ge n base with hn | hn
    · rw [Nat.toDigits_of_lt_base hn, List.mem_singleton] at h
      rw [h]
      exact hdigit n (by omega)
    · rw [Nat.toDigits_of_base_le hb hn, List.mem_append, List.mem_singleton] at h
      rcases h with h | h
      · exact ih (n / base) (Nat.div_lt_self (by omega) hb) h
      · rw [h]
        exact hdigit _ (Nat.lt_of_lt_of_le (Nat.mod_lt _ (by omega)) hle)

theorem not_mem_toDigits {c : Char} (hc : c ∉ hexDigits) (n : Nat) : c ∉ Nat.toDigits base n := fun h =>
  hc (mem_hexDigits_of_mem_toDigits hb hle h)

end Base

theorem all_isDigit_replicate (k : Nat) : (List.replicate k '0').all Char.isDigit = true := by
  rw [List.all_eq_true]
  intro c hc
  rw [List.eq_of_mem_replicate hc]; rfl

theorem ofDigitChars_zeros_append (k : Nat) (s : List Char) :
    Nat.ofDigitChars 10 (List.replicate k '0' ++ s) 0 = Nat.ofDigitChars 10 s 0 := by
  rw [Nat.ofDigitChars_append, Nat.ofDigitChars_replicate_zero, Nat.mul_zero]

theorem ofDigitChars_append_zeros (s : List Char) (k : Nat) :
    Nat.ofDigitChars 10 (s ++ List.replicate k '0') 0 = Nat.ofDigitChars 10 s 0 * 10 ^ k := by
  rw [Nat.ofDigitChars_append, Nat.ofDigitChars_replicate_zero, Nat.mul_comm]

/-- The first digit counts as many times as the rest of the digits can tell apart. -/
theorem ofDigitChars_cons (c : Char) (s : List Char) :
    Nat.ofDigitChars 10 (c :: s) 0 = 10 ^ s.length * (c.toNat - '0'.toNat) + Nat.ofDigitChars 10 s 0 := by
  rw [Nat.ofDigitChars_cons, Nat.mul_zero, Nat.zero_add]
  exact Nat.ofDigitChars_eq_ofDigitChars_zero

theorem digit_lt {c : Char} (h : c.isDigit = true) : c.toNat - '0'.toNat < 10 := by
  have hc := Char.isDigit_iff_toNat.1 h
  have h0 : '0'.toNat = 48 := rfl
  have h9 : '9'.toNat = 57 := rfl
  omega

theorem ofDigitChars_lt {s : List Char} (h : s.all Char.isDigit = true) : Nat.ofDigitChars 10 s 0 < 10 ^ s.length := by
  induction s with
  | nil => rw [Nat.ofDigitChars_nil]; decide
  | cons c s ih =>
    rw [List.all_cons, Bool.and_eq_true] at h
    rw [ofDigitChars_cons, List.length_cons, Nat.pow_succ]
    calc 10 ^ s.length * (c.toNat - '0'.toNat) + Nat.ofDigitChars 10 s 0
        < 10 ^ s.length * (c.toNat - '0'.toNat) + 10 ^ s.length := Nat.add_lt_add_left (ih h.2) _
      _ = 10 ^ s.length * (c.toNat - '0'.toNat + 1) := rfl
      _ ≤ 10 ^ s.length * 10 := Nat.mul_le_mul_left _ (digit_lt h.1)

/-- Digits without a zero in front are worth at least the power of ten that has as many. -/
theorem le_ofDigitChars {c : Char} {s : List Char} (h : c.isDigit = true) (h0 : c ≠ '0') :
    10 ^ s.length ≤ Nat.ofDigitChars 10 (c :: s) 0 := by
  have hc := Char.isDigit_iff_toNat.1 h
  have hne : c.toNat ≠ '0'.toNat := fun he => h0 (Char.toNat_inj.1 he)
  have hpos : 1 ≤ c.toNat - '0'.toNat := by omega
  rw [ofDigitChars_cons]
  calc 10 ^ s.length ≤ 10 ^ s.length * (c.toNat - '0'.toNat) := Nat.le_mul_of_pos_right _ hpos
    _ ≤ _ := Nat.le_add_right _ _

/-- As many digits that are worth the same are the same. -/
theorem ofDigitChars_inj {s t : List Char} (hs : s.all Char.isDigit = true) (ht : t.all Char.isDigit = true)
    (hlen : s.length = t.length) (h : Nat.ofDigitChars 10 s 0 = Nat.ofDigitChars 10 t 0) : s = t := by
  induction s generalizing t with
  | nil => exact (List.length_eq_zero_iff.1 hlen.symm).symm
  | cons c s ih =>
    cases t with
    | nil => cases hlen
    | cons d t =>
      rw [List.all_cons, Bool.and_eq_true] at hs ht
      have hlen' : s.length = t.length := Nat.succ.inj hlen
      rw [ofDigitChars_cons, ofDigitChars_cons, ← hlen'] at h
      have hrest : Nat.ofDigitChars 10 s 0 = Nat.ofDigitChars 10 t 0 := by
        have hlt := ofDigitChars_lt ht.2
        rw [← hlen'] at hlt
        have := congrArg (· % 10 ^ s.length) h
        simpa only [Nat.mul_add_mod, Nat.mod_eq_of_lt (ofDigitChars_lt hs.2), Nat.mod_eq_of_lt hlt] using this
      have hfirst : c.toNat - '0'.toNat = d.toNat - '0'.toNat := by
        rw [hrest] at h
        exact Nat.eq_of_mul_eq_mul_left (Nat.pow_pos (by decide)) (Nat.add_right_cancel h)
      have hc := Char.isDigit_iff_toNat.1 hs.1
      have hd := Char.isDigit_iff_toNat.1 ht.1
      rw [ih hs.2 ht.2 hlen' hrest, Char.toNat_inj.1 (show c.toNat = d.toNat by omega)]

/-- The first digit of a number other than zero is not zero. -/
theorem head?_toDigits_ne_zero {n : Nat} (h : n ≠ 0) : (Nat.toDigits 10 n).head? ≠ some '0' := by
  induction n using Nat.strong_induction_on with
  | _ n ih =>
    by_cases hn : n < 10
    · rw [Nat.toDigits_of_lt_base hn]
      interval_cases n <;> simp_all [Nat.digitChar]
    · rw [Nat.toDigits_of_base_le (by decide) (by omega), List.head?_append_of_ne_nil _ Nat.toDigits_ne_nil]
      exact ih (n / 10) (by omega) (by omega)

/-- The digits of a number begin with a zero only if they are that zero. -/
theorem toDigits_front (n : Nat) : (Nat.toDigits 10 n).length = 1 ∨ (Nat.toDigits 10 n).head? ≠ some '0' := by
  by_cases h : n = 0
  · subst h; left; rfl
  · right; exact head?_toDigits_ne_zero h

/-- Trimming zeros at the end takes away a power of ten. -/
theorem trimmedRight_zeros (s : List Char) :
    ∃ k, s = trimmedRight (· == '0') s ++ List.replicate k '0' := by
  obtain ⟨tail, hs, ht⟩ := trimmedRight_append (· == '0') s
  refine ⟨tail.length, ?_⟩
  rw [← List.eq_replicate_of_mem fun c hc => by simpa using ht c hc]
  exact hs

/-! ## Numbers with a sign -/

/-- One or more digits. -/
def IsDigits (s : List Char) : Prop := s ≠ [] ∧ s.all Char.isDigit = true

theorem natural?_eq_some_iff {s : List Char} {n : Nat} :
    natural? s = some n ↔ IsDigits s ∧ Nat.ofDigitChars 10 s 0 = n := by
  unfold natural? IsDigits
  split
  · rename_i h
    rw [Bool.or_eq_true, List.isEmpty_iff, Bool.not_eq_true', ← Bool.not_eq_true] at h
    simp only [reduceCtorEq, false_iff, not_and]
    exact fun hs => absurd hs.2 (h.resolve_left hs.1)
  · rename_i h
    rw [Bool.or_eq_true, List.isEmpty_iff, Bool.not_eq_true', ← Bool.not_eq_true, not_or, not_not] at h
    rw [Option.some.injEq, and_iff_right h]

/-- A whole number as it is written: digits after a sign or none. -/
inductive Signed : List Char → Int → Prop where
  | plain {s : List Char} (h : IsDigits s) : Signed s (Nat.ofDigitChars 10 s 0)
  | plus {s : List Char} (h : IsDigits s) : Signed ('+' :: s) (Nat.ofDigitChars 10 s 0)
  | minus {s : List Char} (h : IsDigits s) : Signed ('-' :: s) (-(Nat.ofDigitChars 10 s 0 : Int))

/-- The number that is written with a sign or none, however large it is. -/
def signed? : List Char → Option Int
  | '+' :: s => (natural? s).map fun n : Nat => (n : Int)
  | '-' :: s => (natural? s).map fun n : Nat => -(n : Int)
  | s => (natural? s).map fun n : Nat => (n : Int)

theorem signed?_eq_some_iff {s : List Char} {e : Int} : signed? s = some e ↔ Signed s e := by
  constructor
  · intro h
    unfold signed? at h
    split at h <;> obtain ⟨n, hn, rfl⟩ := Option.map_eq_some_iff.1 h <;>
      obtain ⟨hd, rfl⟩ := natural?_eq_some_iff.1 hn
    · exact .plus hd
    · exact .minus hd
    · exact .plain hd
  · intro h
    cases h with
    | plain h =>
      unfold signed?
      split
      · cases h.2
      · cases h.2
      · rw [natural?_eq_some_iff.2 ⟨h, rfl⟩]; rfl
    | plus h => rw [signed?, natural?_eq_some_iff.2 ⟨h, rfl⟩]; rfl
    | minus h => rw [signed?, natural?_eq_some_iff.2 ⟨h, rfl⟩]; rfl

/-- Whether a number is a machine integer. -/
def fits64 (e : Int) : Bool := -2 ^ 63 ≤ e && e < 2 ^ 63

theorem fits64_iff (e : Int) : fits64 e = true ↔ -2 ^ 63 ≤ e ∧ e < 2 ^ 63 := by
  unfold fits64
  rw [Bool.and_eq_true, decide_eq_true_eq, decide_eq_true_eq]

theorem fits64_natural_iff (n : Nat) : fits64 n = true ↔ n < 2 ^ 63 := by
  rw [fits64_iff]; omega

theorem fits64_neg_iff (n : Nat) : fits64 (-n) = true ↔ n ≤ 2 ^ 63 := by
  rw [fits64_iff]; omega

theorem filter_fits64 {f : Nat → Int} {p : Nat → Prop} [DecidablePred p] (h : ∀ n, fits64 (f n) = true ↔ p n)
    (o : Option Nat) : (o.map f).filter fits64 = o.bind fun n => if p n then some (f n) else none := by
  cases o with
  | none => rfl
  | some n => rw [Option.map_some, Option.filter_some, Option.bind_some, if_congr (h n) rfl rfl]

/-- A machine integer is read like any number with a sign, unless it is out of bounds. -/
theorem int64?_eq (s : List Char) : int64? s = (signed? s).filter fits64 := by
  unfold int64?
  split
  rename_i negative digits hsplit
  split at hsplit
  · cases hsplit
    rw [signed?, filter_fits64 fits64_natural_iff]; rfl
  · cases hsplit
    rw [signed?, filter_fits64 fits64_neg_iff]; rfl
  · rename_i hplus hminus
    cases hsplit
    rw [signed?, filter_fits64 fits64_natural_iff]
    · rfl
    · exact hplus
    · exact hminus

end Tollgate.Text
