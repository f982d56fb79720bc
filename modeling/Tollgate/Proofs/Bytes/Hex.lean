/-
Octets and numbers in base sixteen. They are read back as they were written, octets from the same digits in either
case; a text is read as octets at all exactly if it is made of pairs of digits.
-/
import Tollgate.Bytes.Hex
import Tollgate.Bytes.Number
import Tollgate.Proofs.Text.Visible

namespace Tollgate

/-- In lower case the capital letters of ASCII are moved, and nothing else is. -/
theorem Text.toNat_toLower (c : Char) :
    c.toLower.toNat = if 65 ≤ c.toNat ∧ c.toNat ≤ 90 then c.toNat + 32 else c.toNat := by
  have hcapital : c.val ≥ 'A'.val ∧ c.val ≤ 'Z'.val ↔ 65 ≤ c.toNat ∧ c.toNat ≤ 90 := Iff.rfl
  unfold Char.toLower
  split
  · rename_i h
    rw [if_pos (hcapital.1 h)]
    have hc := (hcapital.1 h).2
    show (c.val + ('a'.val - 'A'.val)).toNat = c.toNat + 32
    rw [UInt32.toNat_add, show ('a'.val - 'A'.val).toNat = 32 from rfl, show c.val.toNat = c.toNat from rfl]
    omega
  · rename_i h
    rw [if_neg (mt hcapital.2 h)]

namespace Hex

/-! ## Digits -/

theorem value?_digit : ∀ k < 16, value? (digit k) = some k := by decide

theorem isVisible_digit : ∀ k < 16, isVisible (digit k) = true := by decide

theorem encode_cons (x : UInt8) (b : Bytes) :
    encode (x :: b) = digit (x.toNat / 16) :: digit (x.toNat % 16) :: encode b := rfl

/-- Octets are read as they were written. -/
theorem decode?_encode (b : Bytes) : decode? (encode b) = some b := by
  induction b with
  | nil => rfl
  | cons x b ih =>
    have hx : x.toNat < 256 := x.toNat_lt
    have hvalue : 16 * (x.toNat / 16) + x.toNat % 16 = x.toNat := by omega
    rw [encode_cons, decode?, value?_digit (x.toNat / 16) (by omega), value?_digit (x.toNat % 16) (by omega), ih]
    simp only [Option.bind_eq_bind, Option.bind_some, hvalue, UInt8.ofNat_toNat]
    rfl

/-- What holds of every digit holds of every character of what is written. -/
theorem all_encode {p : Char → Bool} (hp : ∀ k < 16, p (digit k) = true) (b : Bytes) : (encode b).all p = true := by
  induction b with
  | nil => rfl
  | cons x b ih =>
    have hx : x.toNat < 256 := x.toNat_lt
    rw [encode_cons, List.all_cons, List.all_cons, hp _ (by omega), hp _ (by omega), ih]
    rfl

theorem isVisible_encode (b : Bytes) : (encode b).all isVisible = true := all_encode isVisible_digit b

theorem length_encode (b : Bytes) : (encode b).length = 2 * b.length := by
  induction b with
  | nil => rfl
  | cons x b ih => rw [encode_cons, List.length_cons, List.length_cons, List.length_cons, ih, Nat.mul_succ]

/-! ## Digits in either case -/

def isLowerDigit (c : Char) : Bool := ('0' ≤ c && c ≤ '9') || ('a' ≤ c && c ≤ 'f')

def isDigit (c : Char) : Bool := isLowerDigit c || ('A' ≤ c && c ≤ 'F')

/-- A text of digits that can be taken in pairs. -/
def IsPairs (s : List Char) : Prop := Even s.length ∧ s.all isDigit = true

theorem isLowerDigit_digit : ∀ k < 16, isLowerDigit (digit k) = true := by decide

theorem toNat_digit : ∀ k < 16, (digit k).toNat = if k < 10 then 48 + k else 87 + k := by decide

/-- A digit has the value of the digit that it is in lower case. -/
theorem value?_eq_some_iff {c : Char} {n : Nat} : value? c = some n ↔ n < 16 ∧ c.toLower = digit n := by
  have hrange (a b : Char) : (a ≤ c ∧ c ≤ b) ↔ a.toNat ≤ c.toNat ∧ c.toNat ≤ b.toNat := Iff.rfl
  have hvalue : value? c = some n ↔
      (48 ≤ c.toNat ∧ c.toNat ≤ 57 ∧ n = c.toNat - 48) ∨ (97 ≤ c.toNat ∧ c.toNat ≤ 102 ∧ n = c.toNat - 87) ∨
        (65 ≤ c.toNat ∧ c.toNat ≤ 70 ∧ n = c.toNat - 55) := by
    unfold value?
    simp only [hrange, Char.reduceToNat]
    split_ifs <;> simp only [Option.some.injEq, false_iff] <;> omega
  rw [hvalue]
  by_cases hn : n < 16
  · rw [← Char.toNat_inj, Text.toNat_toLower, toNat_digit n hn]
    split_ifs <;> omega
  · omega

theorem isSome_value? (c : Char) : (value? c).isSome = isDigit c := by
  unfold value? isDigit isLowerDigit
  split_ifs <;> simp_all

/-- Two values below sixteen are those of an octet's digits exactly if the octet is made of them. -/
theorem ofNat_eq_iff {x : UInt8} {h l : Nat} (hh : h < 16) (hl : l < 16) :
    UInt8.ofNat (16 * h + l) = x ↔ h = x.toNat / 16 ∧ l = x.toNat % 16 := by
  have hx : x.toNat < 256 := x.toNat_lt
  rw [← UInt8.toNat_inj, UInt8.toNat_ofNat']
  omega

/-- A text is read as some octets exactly if it is in lower case what is written for them. -/
theorem decode?_eq_some_iff {s : List Char} {b : Bytes} : decode? s = some b ↔ s.map Char.toLower = encode b := by
  induction s using decode?.induct generalizing b with
  | case1 => cases b <;> simp [decode?, encode]
  | case2 c => cases b <;> simp [decode?, encode]
  | case3 h l rest ih =>
    cases b with
    | nil => simp [decode?, encode, Option.bind_eq_some_iff]
    | cons x b =>
      have hx : x.toNat < 256 := x.toNat_lt
      rw [encode_cons, List.map_cons, List.map_cons, List.cons.injEq, List.cons.injEq, ← ih, decode?]
      simp only [Option.bind_eq_bind, Option.bind_eq_some_iff, Option.pure_def, Option.some.injEq, List.cons.injEq]
      constructor
      · rintro ⟨n, hn, k, hk, rest', hrest, hoctet, rfl⟩
        obtain ⟨hn16, hn⟩ := value?_eq_some_iff.1 hn
        obtain ⟨hk16, hk⟩ := value?_eq_some_iff.1 hk
        obtain ⟨rfl, rfl⟩ := (ofNat_eq_iff hn16 hk16).1 hoctet
        exact ⟨hn, hk, hrest⟩
      · rintro ⟨hn, hk, hrest⟩
        have hn16 : x.toNat / 16 < 16 := by omega
        have hk16 : x.toNat % 16 < 16 := by omega
        exact ⟨_, value?_eq_some_iff.2 ⟨hn16, hn⟩, _, value?_eq_some_iff.2 ⟨hk16, hk⟩, b, hrest,
          (ofNat_eq_iff hn16 hk16).2 ⟨rfl, rfl⟩, rfl⟩

/-- A text is read as octets at all exactly if it is made of pairs of digits. -/
theorem isSome_decode?_iff {s : List Char} : (decode? s).isSome = true ↔ IsPairs s := by
  induction s using decode?.induct with
  | case1 => simp [decode?, IsPairs]
  | case2 c => simp [decode?, IsPairs]
  | case3 h l rest ih =>
    have hread : (decode? (h :: l :: rest)).isSome =
        ((value? h).isSome && (value? l).isSome && (decode? rest).isSome) := by
      rw [decode?]
      cases value? h <;> cases value? l <;> cases decode? rest <;> rfl
    rw [hread, Bool.and_eq_true, ih, isSome_value?, isSome_value?, IsPairs, IsPairs, List.length_cons,
      List.length_cons, List.all_cons, List.all_cons, Nat.even_add_one, Nat.even_add_one, not_not, Bool.and_eq_true,
      Bool.and_eq_true, Bool.and_eq_true]
    tauto

/-! ## Numbers -/

theorem foldlM_toDigits (n : Nat) :
    (Nat.toDigits 16 n).foldlM (fun n c => (value? c).map (16 * n + ·)) 0 = some n := by
  have hdigit : ∀ k < 16, value? (Nat.digitChar k) = some k := by decide
  induction n using Nat.strong_induction_on with
  | _ n ih =>
    rcases Nat.lt_or_ge n 16 with hn | hn
    · rw [Nat.toDigits_of_lt_base hn, List.foldlM_cons, hdigit n hn]
      simp
    · rw [Nat.toDigits_of_base_le (by decide) hn, List.foldlM_append, ih (n / 16) (by omega)]
      simp only [Option.bind_eq_bind, Option.bind_some, List.foldlM_cons, hdigit _ (Nat.mod_lt n (by decide)),
        Option.map_some, List.foldlM_nil, Option.pure_def, Option.some.injEq]
      omega

/-- Numbers with the same digits are the same, as they are read back. -/
theorem toDigits_inj {m n : Nat} (h : Nat.toDigits 16 m = Nat.toDigits 16 n) : m = n := by
  have hm := foldlM_toDigits m
  rw [h, foldlM_toDigits n] at hm
  exact (Option.some.inj hm).symm

end Hex

end Tollgate
