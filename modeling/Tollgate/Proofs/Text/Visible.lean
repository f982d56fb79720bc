/-
Characters that can be seen are no white space, so trimming leaves a text of them as it is.
-/
import Mathlib
import Tollgate.Text.Blank

namespace Tollgate

/-- The characters of ASCII that can be seen. -/
def isVisible (c : Char) : Bool := 0x21 ≤ c.toNat && c.toNat < 0x7f

theorem isVisible_iff {c : Char} : isVisible c = true ↔ 0x21 ≤ c.toNat ∧ c.toNat < 0x7f := by
  unfold isVisible
  rw [Bool.and_eq_true, decide_eq_true_iff, decide_eq_true_iff]

theorem not_isBlank_of_isVisible {c : Char} (h : isVisible c = true) : Text.isBlank c = false := by
  obtain ⟨h1, h2⟩ := isVisible_iff.1 h
  simp only [Text.isBlank, Text.inRanges, Text.blankRanges, List.any_cons, List.any_nil, Bool.or_false,
    Bool.or_eq_false_iff, Bool.and_eq_false_iff, decide_eq_false_iff_not]
  omega

theorem Text.trimmedLeft_of_visible {s : List Char} (h : s.all isVisible = true) : trimmedLeft isBlank s = s := by
  unfold trimmedLeft
  cases s with
  | nil => rfl
  | cons c s =>
    rw [List.all_cons, Bool.and_eq_true] at h
    rw [List.dropWhile_cons_of_neg (by rw [not_isBlank_of_isVisible h.1]; simp)]

/-- Visible characters are not white space, so none is trimmed. -/
theorem Text.trimmed_of_visible {s : List Char} (h : s.all isVisible = true) : trimmed s = s := by
  unfold trimmed trimmedRight
  rw [trimmedLeft_of_visible h]
  show (trimmedLeft isBlank s.reverse).reverse = s
  rw [trimmedLeft_of_visible (by rw [List.all_reverse]; exact h), List.reverse_reverse]

end Tollgate
