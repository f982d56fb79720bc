/-
Laws of trimming. What is trimmed is a run of characters of the kind; a character of another kind keeps all
that stands before it, or behind it, from being trimmed.
-/
import Mathlib
import Tollgate.Text.Blank

namespace Tollgate.Text

variable {p : Char → Bool}

/-- What is trimmed at the end is a run of characters of the kind. -/
theorem trimmedRight_append (p : Char → Bool) (s : List Char) :
    ∃ tail, s = trimmedRight p s ++ tail ∧ ∀ c ∈ tail, p c = true := by
  refine ⟨(s.reverse.takeWhile p).reverse, ?_, fun c hc => ?_⟩
  · unfold trimmedRight
    rw [← List.reverse_append, List.takeWhile_append_dropWhile, List.reverse_reverse]
  · exact List.all_eq_true.1 (List.all_takeWhile (p := p) (l := s.reverse)) c (List.mem_reverse.1 hc)

theorem trimmedLeft_append (p : Char → Bool) (s : List Char) :
    ∃ lead, s = lead ++ trimmedLeft p s ∧ ∀ c ∈ lead, p c = true := by
  refine ⟨s.takeWhile p, List.takeWhile_append_dropWhile.symm, fun c hc => ?_⟩
  exact List.all_eq_true.1 (List.all_takeWhile (p := p) (l := s)) c hc

theorem trimmedLeft_append_cons {lead : List Char} {c : Char} (hl : ∀ x ∈ lead, p x = true) (hc : p c = false)
    (rest : List Char) : trimmedLeft p (lead ++ c :: rest) = c :: rest := by
  unfold trimmedLeft
  rw [List.dropWhile_append_of_pos hl, List.dropWhile_cons_of_neg (by simp [hc])]

/-- Nothing is trimmed before a character of another kind. -/
theorem trimmedRight_append_cons {c : Char} (hc : p c = false) (s rest : List Char) :
    trimmedRight p (s ++ c :: rest) = s ++ c :: trimmedRight p rest := by
  have hcut : (c :: s.reverse).dropWhile p = c :: s.reverse := List.dropWhile_cons_of_neg (by simp [hc])
  unfold trimmedRight
  rw [List.reverse_append, List.reverse_cons, List.append_assoc, List.singleton_append, List.dropWhile_append, hcut]
  split
  · -- all of the rest is trimmed, and the character itself is the end
    rename_i hn
    rw [List.isEmpty_iff] at hn
    simp [hn]
  · simp

/-- A text of characters of the kind is trimmed away. -/
theorem trimmedRight_eq_nil {s : List Char} (h : ∀ c ∈ s, p c = true) : trimmedRight p s = [] := by
  unfold trimmedRight
  rw [List.dropWhile_eq_nil_iff.2 fun c hc => h c (List.mem_reverse.1 hc), List.reverse_nil]

/-- What is left does not end in a character of the kind. -/
theorem getLast?_trimmedRight_ne {c : Char} (hc : p c = true) (s : List Char) :
    (trimmedRight p s).getLast? ≠ some c := by
  intro h
  have hlast := List.head?_dropWhile_not p s.reverse
  unfold trimmedRight at h
  rw [List.getLast?_reverse] at h
  rw [h] at hlast
  simp [hc] at hlast

/-! ## Trimming what is left of a text -/

/-- It does not matter whether characters that are trimmed anyway are left out before or after. -/
theorem trimmedLeft_filter {keep : Char → Bool} (h : ∀ c, keep c = false → p c = true) (s : List Char) :
    trimmedLeft p (s.filter keep) = (trimmedLeft p s).filter keep := by
  unfold trimmedLeft
  induction s with
  | nil => rfl
  | cons c s ih =>
    cases hp : p c with
    | true =>
      rw [List.dropWhile_cons_of_pos hp, ← ih]
      cases hk : keep c with
      | true => rw [List.filter_cons_of_pos hk, List.dropWhile_cons_of_pos hp]
      | false => rw [List.filter_cons_of_neg (by simp [hk])]
    | false =>
      have hk : keep c = true := Bool.of_not_eq_false fun hn => by rw [h c hn] at hp; cases hp
      rw [List.filter_cons_of_pos hk, List.dropWhile_cons_of_neg (by simp [hp]),
        List.dropWhile_cons_of_neg (by simp [hp]), List.filter_cons_of_pos hk]

theorem trimmedRight_filter {keep : Char → Bool} (h : ∀ c, keep c = false → p c = true) (s : List Char) :
    trimmedRight p (s.filter keep) = (trimmedRight p s).filter keep := by
  have := trimmedLeft_filter h s.reverse
  unfold trimmedLeft at this
  unfold trimmedRight
  rw [← List.filter_reverse, this, List.filter_reverse]

/-- A run of characters at the end of a text reaches back at most to the last character of another kind. -/
theorem exists_of_append_run {a run x y : List Char} (h : a ++ run = x ++ y) (hrun : ∀ c ∈ run, p c = true)
    (hx : ∀ c ∈ x.getLast?, p c = false) : ∃ m, a = x ++ m ∧ y = m ++ run := by
  rcases List.append_eq_append_iff.1 h with ⟨m, rfl, rfl⟩ | ⟨m, rfl, rfl⟩
  · rcases m.eq_nil_or_concat with rfl | ⟨m', c, rfl⟩
    · exact ⟨[], by simp, by simp⟩
    · -- the last character is both of the kind and not
      have hc := hx c (by simp)
      rw [hrun c (by simp)] at hc; cases hc
  · exact ⟨m, rfl, rfl⟩

/-- A text is what is left of it, with white space around. -/
theorem exists_around_trimmed (s : List Char) : ∃ lead tail, s = lead ++ trimmed s ++ tail ∧
    (∀ c ∈ lead, isBlank c = true) ∧ ∀ c ∈ tail, isBlank c = true := by
  obtain ⟨lead, hlead, hleadBlank⟩ := trimmedLeft_append isBlank s
  obtain ⟨tail, htail, htailBlank⟩ := trimmedRight_append isBlank (trimmedLeft isBlank s)
  refine ⟨lead, tail, ?_, hleadBlank, htailBlank⟩
  rw [List.append_assoc]
  exact hlead.trans (congrArg _ htail)

/-- Nothing is left of a text only if there is nothing but white space in it. -/
theorem isBlank_of_trimmed_eq_nil {s : List Char} (h : trimmed s = []) : ∀ c ∈ s, isBlank c = true := by
  obtain ⟨lead, tail, hs, hlead, htail⟩ := exists_around_trimmed s
  rw [h, List.append_nil] at hs
  intro c hc
  rw [hs, List.mem_append] at hc
  exact hc.elim (hlead c) (htail c)

/-- Trimming makes no text longer. -/
theorem length_trimmed_le (s : List Char) : (trimmed s).length ≤ s.length := by
  obtain ⟨lead, tail, hs, -⟩ := exists_around_trimmed s
  have hlen := congrArg List.length hs
  simp only [List.length_append] at hlen
  omega

theorem trimmedRight_append_run {tail : List Char} (ht : ∀ c ∈ tail, p c = true) (s : List Char) :
    trimmedRight p (s ++ tail) = trimmedRight p s := by
  unfold trimmedRight
  rw [List.reverse_append, List.dropWhile_append_of_pos fun c hc => ht c (List.mem_reverse.1 hc)]

/-- White space before a text changes nothing of what is left of it. -/
theorem trimmed_lead_append {lead : List Char} (hl : ∀ c ∈ lead, isBlank c = true) (s : List Char) :
    trimmed (lead ++ s) = trimmed s := by
  unfold trimmed trimmedLeft
  rw [List.dropWhile_append_of_pos hl]

/-- Nor does white space behind it. -/
theorem trimmed_append_tail {tail : List Char} (ht : ∀ c ∈ tail, isBlank c = true) (s : List Char) :
    trimmed (s ++ tail) = trimmed s := by
  unfold trimmed trimmedLeft
  rw [List.dropWhile_append]
  split
  · -- nothing but white space, before and behind
    rename_i hnone
    rw [List.isEmpty_iff] at hnone
    rw [hnone, List.dropWhile_eq_nil_iff.2 ht]
  · exact trimmedRight_append_run ht _

theorem mem_of_mem_trimmed {c : Char} {s : List Char} (h : c ∈ trimmed s) : c ∈ s := by
  obtain ⟨lead, hl, -⟩ := trimmedLeft_append isBlank s
  obtain ⟨tail, ht, -⟩ := trimmedRight_append isBlank (trimmedLeft isBlank s)
  rw [hl, ht]
  exact List.mem_append_right _ (List.mem_append_left _ h)

end Tollgate.Text
