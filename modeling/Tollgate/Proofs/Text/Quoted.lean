/-
Texts are told apart by how they are shown. A character stands for itself unless it is shown behind a backslash, by
another character or by its number; so what is shown tells the characters one by one, and texts that are shown alike
are the same.
-/
import Tollgate.Proofs.Bytes.Hex
import Tollgate.Proofs.Text.Digits
import Tollgate.Text.Quoted

namespace Tollgate.Text

/-! ## Characters -/

/-- The character that is shown as another one behind a backslash. -/
def behindBackslash? : Char → Option Char
  | '0' => some '\x00'
  | 't' => some '\t'
  | 'n' => some '\n'
  | 'r' => some '\r'
  | '"' => some '"'
  | '\\' => some '\\'
  | _ => none

/-- The ways in which a character is shown. -/
theorem quotedChar_cases (c : Char) : (∃ m, behindBackslash? m = some c ∧ quotedChar c = ['\\', m]) ∨
    quotedChar c = numbered c ∨ (c ≠ '\\' ∧ quotedChar c = [c]) := by
  unfold quotedChar
  split
  · exact .inl ⟨'0', rfl, rfl⟩
  · exact .inl ⟨'t', rfl, rfl⟩
  · exact .inl ⟨'n', rfl, rfl⟩
  · exact .inl ⟨'r', rfl, rfl⟩
  · exact .inl ⟨'"', rfl, rfl⟩
  · exact .inl ⟨'\\', rfl, rfl⟩
  · rename_i hother
    split
    · exact .inr (.inl rfl)
    · exact .inr (.inr ⟨hother, rfl⟩)

theorem numbered_append_inj {c d : Char} {r r' : List Char} (h : numbered c ++ r = numbered d ++ r') :
    c = d ∧ r = r' := by
  have hfree : ∀ n, '\x7d' ∉ Nat.toDigits 16 n := not_mem_toDigits (by decide) (by decide) (by decide)
  simp only [numbered, List.append_assoc, List.cons_append, List.nil_append, List.cons.injEq, true_and] at h
  -- the brace ends the digits on both sides
  rcases List.append_eq_append_iff.1 h with ⟨m, hd, hr⟩ | ⟨m, hc, hr⟩
  · cases m with
    | nil =>
      rw [List.append_nil] at hd
      exact ⟨Char.toNat_inj.1 (Hex.toDigits_inj hd.symm), (List.cons.inj hr).2⟩
    | cons x m =>
      rw [← (List.cons.inj hr).1] at hd
      exact absurd (by rw [hd]; simp) (hfree d.toNat)
  · cases m with
    | nil =>
      rw [List.append_nil] at hc
      exact ⟨Char.toNat_inj.1 (Hex.toDigits_inj hc), (List.cons.inj hr).2.symm⟩
    | cons x m =>
      rw [← (List.cons.inj hr).1] at hc
      exact absurd (by rw [hc]; simp) (hfree c.toNat)

/-- What is shown tells its first character. -/
theorem quotedChar_append_inj {c d : Char} {r r' : List Char} (h : quotedChar c ++ r = quotedChar d ++ r') :
    c = d ∧ r = r' := by
  have hu : ∀ e, behindBackslash? 'u' ≠ some e := nofun
  rcases quotedChar_cases c with ⟨m, hm, hc⟩ | hc | ⟨hne, hc⟩ <;>
    rcases quotedChar_cases d with ⟨m', hm', hd⟩ | hd | ⟨hne', hd⟩ <;> rw [hc, hd] at h
  · simp only [List.cons_append, List.nil_append, List.cons.injEq, true_and] at h
    obtain ⟨rfl, hr⟩ := h
    exact ⟨Option.some.inj (hm.symm.trans hm'), hr⟩
  · simp only [numbered, List.cons_append, List.cons.injEq, true_and] at h
    rw [h.1] at hm
    exact absurd hm (hu c)
  · exact absurd (List.cons.inj h).1.symm hne'
  · simp only [numbered, List.cons_append, List.cons.injEq, true_and] at h
    rw [← h.1] at hm'
    exact absurd hm' (hu d)
  · exact numbered_append_inj h
  · exact absurd (List.cons.inj h).1.symm hne'
  · exact absurd (List.cons.inj h).1 hne
  · exact absurd (List.cons.inj h).1 hne
  · exact List.cons.inj h

/-! ## Texts -/

theorem flatMap_quotedChar_inj : ∀ {s t : List Char}, s.flatMap quotedChar = t.flatMap quotedChar → s = t
  | [], [], _ => rfl
  | c :: s, [], h | [], c :: s, h => by
    have hne : quotedChar c ≠ [] := by
      rcases quotedChar_cases c with ⟨m, -, hc⟩ | hc | ⟨-, hc⟩ <;> rw [hc] <;> simp [numbered]
    simp [hne] at h
  | c :: s, d :: t, h => by
    obtain ⟨rfl, hr⟩ := quotedChar_append_inj (by simpa only [List.flatMap_cons] using h)
    rw [flatMap_quotedChar_inj hr]

/-- Texts that are shown alike are the same. -/
theorem quoted_inj {s t : String} (h : quoted s = quoted t) : s = t := by
  unfold quoted at h
  have := congrArg String.toList h
  rw [String.toList_ofList, String.toList_ofList, List.cons_append, List.cons_append] at this
  exact String.toList_inj.1 (flatMap_quotedChar_inj (List.append_cancel_right (List.cons.inj this).2))

end Tollgate.Text
