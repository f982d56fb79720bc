/-
What percent signs leave alone: at the end of a text a character of ASCII that is neither the percent sign nor a hex
digit stands for itself, whatever stands before it.
-/
import Tollgate.Net.Percent
import Tollgate.Proofs.Bytes.Utf8

namespace Tollgate

namespace Percent

/-- A character that stands for itself: one of ASCII that is not the percent sign. -/
def Literal (c : Char) : Prop := c ≠ '%' ∧ c.toNat < 0x80

theorem decode_cons_of_ne {c : Char} (h : c ≠ '%') (rest : List Char) :
    decode (c :: rest) = String.utf8EncodeChar c ++ decode rest := by
  rw [decode]
  intro _ _ _ hc; exact absurd hc h

/-- A percent sign stands for an octet with two hex digits behind it, or for itself. -/
theorem decode_percent_cons (s : List Char) :
    (∃ h l rest x y, s = h :: l :: rest ∧ Hex.value? h = some x ∧ Hex.value? l = some y ∧
      decode ('%' :: s) = UInt8.ofNat (16 * x + y) :: decode rest) ∨
    decode ('%' :: s) = 0x25 :: decode s := by
  have hone : String.utf8EncodeChar '%' = [0x25] := utf8EncodeChar_of_ascii (by decide)
  rcases s with _ | ⟨h, _ | ⟨l, rest⟩⟩
  · right; rw [decode, hone]; exacts [rfl, nofun]
  · right; rw [decode, hone]; exacts [rfl, nofun]
  · rw [decode]
    split
    · rename_i x y hx hy
      exact .inl ⟨h, l, rest, x, y, rfl, hx, hy, rfl⟩
    · exact .inr rfl

/-- A character at the end that is no hex digit is there when the text is decoded. -/
theorem mem_decode_concat {c : Char} (hc : Literal c) (hx : Hex.value? c = none) (s : List Char) :
    UInt8.ofNat c.toNat ∈ decode (s ++ [c]) := by
  have key (n : Nat) : ∀ s : List Char, s.length = n → UInt8.ofNat c.toNat ∈ decode (s ++ [c]) := by
    induction n using Nat.strong_induction_on with
    | _ n ih =>
      rintro (_ | ⟨d, s⟩) rfl
      · rw [List.nil_append, decode_cons_of_ne hc.1, utf8EncodeChar_of_ascii hc.2]
        exact List.mem_cons_self
      · have hs := ih s.length (by simp) s rfl
        by_cases hd : d = '%'
        · rw [hd, List.cons_append]
          rcases decode_percent_cons (s ++ [c]) with ⟨h, l, rest, x, y, he, -, hl, hdec⟩ | hdec
          · rw [hdec]
            rcases rest.eq_nil_or_concat' with rfl | ⟨front, e, rfl⟩
            · -- the second digit would be the character
              obtain ⟨-, hlast⟩ := List.append_inj' (he.trans (List.append_cons [h] l []) : s ++ [c] = [h] ++ [l]) rfl
              cases hlast
              rw [hx] at hl; cases hl
            · have hs' : s = h :: l :: front ∧ [c] = [e] := List.append_inj' (by simpa using he) rfl
              cases hs'.2
              exact List.mem_cons_of_mem _ (ih front.length (by rw [hs'.1]; simp; omega) front rfl)
          · rw [hdec]; exact List.mem_cons_of_mem _ hs
        · rw [List.cons_append, decode_cons_of_ne hd]
          exact List.mem_append_right _ hs
  exact key s.length s rfl

theorem mem_decodeText?_concat {c : Char} (hc : Literal c) (hx : Hex.value? c = none) {s : List Char} {t : String}
    (h : decodeText? (s ++ [c]) = some t) : c ∈ t.toList := by
  have hn := toNat_ofNat_of_ascii hc.2
  have := Utf8.mem_text? (UInt8.lt_iff_toNat_lt.2 (by rw [hn]; exact hc.2)) h (mem_decode_concat hc hx s)
  rwa [hn, Char.ofNat_toNat] at this

/-- An escape is made of a percent sign and two digits. -/
theorem mem_encode {keep : Char → Bool} {s : List Char} {c : Char} (h : c ∈ encode keep s) :
    keep c = true ∨ c = '%' ∨ ∃ n < 16, c = digit n := by
  obtain ⟨d, -, hd⟩ := List.mem_flatMap.1 h
  split at hd
  · rename_i hk
    rw [List.mem_singleton.1 hd]; exact .inl hk
  · obtain ⟨x, -, hx⟩ := List.mem_flatMap.1 hd
    have hlt : x.toNat < 256 := x.toNat_lt
    unfold escape at hx
    simp only [List.mem_cons, List.not_mem_nil, or_false] at hx
    rcases hx with hx | hx | hx
    · exact .inr (.inl hx)
    · exact .inr (.inr ⟨x.toNat / 16, by omega, hx⟩)
    · exact .inr (.inr ⟨x.toNat % 16, by omega, hx⟩)

end Percent

end Tollgate
