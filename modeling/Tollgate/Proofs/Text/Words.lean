/-
Laws of the pieces of a text between the characters of a kind, and of its words, which are the pieces that are not
empty. Put together again the pieces are the text. A word is in the list exactly if it stands somewhere in the text
with such a character, or an end of the text, on both sides; and the list is in the order of the text, with a word as
often as it stands there.
-/
import Tollgate.Proofs.Text.Cut

namespace Tollgate.Text

variable {p : Char → Bool}

/-! ## Pieces -/

theorem splitBy_eq_splitOnP (p : Char → Bool) (s : List Char) : splitBy p s = s.splitOnP p := by
  induction s with
  | nil => rfl
  | cons c s ih =>
    rw [splitBy, List.splitOnP_cons_eq_if_modifyHead, ih]
    split
    · rfl
    · cases h : s.splitOnP p with
      | nil => exact absurd h (List.splitOnP_ne_nil p s)
      | cons piece more => rfl

/-- A text that is cut anywhere has the pieces before the cut and those after it. -/
theorem splitBy_append {c : Char} (hc : p c = true) (before after : List Char) :
    splitBy p (before ++ c :: after) = splitBy p before ++ splitBy p after := by
  rw [splitBy_eq_splitOnP, splitBy_eq_splitOnP, splitBy_eq_splitOnP, List.splitOnP_append_cons before after hc]

/-- No piece holds a character that the text is cut at. -/
theorem free_of_mem_splitBy {s piece : List Char} (h : piece ∈ splitBy p s) : Free p piece := by
  induction s generalizing piece with
  | nil =>
    rw [List.mem_singleton.1 h]
    exact free_nil
  | cons c s ih =>
    rw [splitBy] at h
    split at h
    · rcases List.mem_cons.1 h with rfl | h
      · exact free_nil
      · exact ih h
    · rename_i hc
      split at h
      · rename_i hnil
        exact absurd hnil (splitBy_ne_nil s)
      · rename_i first more hfirst
        rw [hfirst] at ih
        rcases List.mem_cons.1 h with rfl | h
        · exact free_cons.2 ⟨by simpa using hc, ih List.mem_cons_self⟩
        · exact ih (List.mem_cons_of_mem _ h)

/-- A text put together from pieces with one character between them, that none of them holds. -/
structure Joins (c : Char) (pieces : List (List Char)) (s : List Char) : Prop where
  ne_nil : pieces ≠ []
  free : ∀ piece ∈ pieces, c ∉ piece
  joined : s = [c].intercalate pieces

/-- Every text is put together from pieces, and from no others than it is cut into. -/
theorem joins_iff {c : Char} {pieces : List (List Char)} {s : List Char} :
    Joins c pieces s ↔ splitBy (· == c) s = pieces := by
  constructor
  · rintro ⟨hne, hfree, rfl⟩
    rw [splitBy_eq_splitOnP]
    exact List.splitOn_intercalate c hfree hne
  · rintro rfl
    refine ⟨splitBy_ne_nil s, fun piece hp => free_beq_iff.1 (free_of_mem_splitBy hp), ?_⟩
    rw [splitBy_eq_splitOnP]
    exact (List.intercalate_splitOn c).symm

/-! ## Words -/

/-- The pieces of a text that are not empty. -/
def words (p : Char → Bool) (s : List Char) : List (List Char) := (splitBy p s).filter (!·.isEmpty)

/-- One or more characters, none of them of the kind that stands between words. -/
def IsWord (p : Char → Bool) (w : List Char) : Prop := w ≠ [] ∧ Free p w

/-- A piece that stands in a text, on both sides a character of the kind or an end of the text. -/
def StandsIn (p : Char → Bool) (w s : List Char) : Prop :=
  ∃ before after, s = before ++ w ++ after ∧ (∀ c ∈ before.getLast?, p c = true) ∧ ∀ c ∈ after.head?, p c = true

/-- The words of a text in order, with characters of the kind before, between and after them. -/
inductive Words (p : Char → Bool) : List Char → List (List Char) → Prop where
  | nil : Words p [] []
  | gap {c : Char} {s : List Char} {ws : List (List Char)} (hc : p c = true) (h : Words p s ws) : Words p (c :: s) ws
  | last {w : List Char} (hw : IsWord p w) : Words p w [w]
  | word {w s : List Char} {c : Char} {ws : List (List Char)} (hw : IsWord p w) (hc : p c = true)
    (h : Words p s ws) : Words p (w ++ c :: s) (w :: ws)

theorem words_cons_of_gap {c : Char} (hc : p c = true) (s : List Char) : words p (c :: s) = words p s := by
  rw [words, show c :: s = [] ++ c :: s from rfl, splitBy_append hc, List.filter_append]
  rfl

theorem words_of_isWord {w : List Char} (hw : IsWord p w) : words p w = [w] := by
  rw [words, splitBy_of_free hw.2]
  simp [hw.1]

theorem words_append {c : Char} (hc : p c = true) (before after : List Char) :
    words p (before ++ c :: after) = words p before ++ words p after := by
  rw [words, splitBy_append hc, List.filter_append, words, words]

/-- Every text has its words. -/
theorem words_words (s : List Char) : Words p s (words p s) := by
  generalize hn : s.length = n
  induction n using Nat.strong_induction_on generalizing s with
  | _ n ih =>
    cases hcut : cutAt? p s with
    | none =>
      have hfree := cutAt?_eq_none_iff.1 hcut
      by_cases hs : s = []
      · subst hs; exact .nil
      · rw [words_of_isWord ⟨hs, hfree⟩]; exact .last ⟨hs, hfree⟩
    | some cut =>
      obtain ⟨w, rest⟩ := cut
      obtain ⟨c, hc, rfl, hfree⟩ := cutAt?_eq_some_iff.1 hcut
      have hrest := ih rest.length (by rw [← hn]; simp; omega) rest rfl
      by_cases hw : w = []
      · subst hw
        rw [List.nil_append, words_cons_of_gap hc]
        exact .gap hc hrest
      · rw [words_append hc, words_of_isWord ⟨hw, hfree⟩]
        exact .word ⟨hw, hfree⟩ hc hrest

/-- A text has no other words than its own, nor in another order. -/
theorem Words.eq {s : List Char} {ws : List (List Char)} (h : Words p s ws) : ws = words p s := by
  induction h with
  | nil => rfl
  | gap hc _ ih => rw [words_cons_of_gap hc, ih]
  | last hw => exact (words_of_isWord hw).symm
  | word hw hc _ ih => rw [words_append hc, words_of_isWord hw, ih]; rfl

/-! ## Where a word stands -/

theorem StandsIn.append {w after : List Char} (h : StandsIn p w after) (before : List Char) {c : Char}
    (hc : p c = true) : StandsIn p w (before ++ c :: after) := by
  obtain ⟨lead, tail, rfl, hlead, htail⟩ := h
  refine ⟨before ++ c :: lead, tail, by simp, ?_, htail⟩
  intro d hd
  rw [List.getLast?_append_cons] at hd
  cases lead with
  | nil => simp at hd; subst hd; exact hc
  | cons x lead => exact hlead d (by simpa using hd)

theorem isWord_of_mem_words {w s : List Char} (h : w ∈ words p s) : IsWord p w ∧ StandsIn p w s := by
  have hwords := words_words (p := p) s
  generalize words p s = ws at h hwords
  induction hwords with
  | nil => cases h
  | gap hc _ ih =>
    obtain ⟨hw, hs⟩ := ih h
    exact ⟨hw, hs.append [] hc⟩
  | last hw =>
    rw [List.mem_singleton.1 h]
    exact ⟨hw, [], [], by simp, nofun, nofun⟩
  | @word v s c ws hv hc _ ih =>
    rcases List.mem_cons.1 h with rfl | h
    · refine ⟨hv, [], c :: s, rfl, nofun, ?_⟩
      rintro d hd
      cases hd; exact hc
    · obtain ⟨hw, hs⟩ := ih h
      exact ⟨hw, hs.append _ hc⟩

/-- A text of words that is cut next to a word still has that word. -/
theorem mem_words_of_standsIn {w s : List Char} (hw : IsWord p w) (h : StandsIn p w s) : w ∈ words p s := by
  obtain ⟨before, after, rfl, hbefore, hafter⟩ := h
  have hback : w ∈ words p (w ++ after) := by
    cases after with
    | nil => rw [List.append_nil, words_of_isWord hw]; exact List.mem_singleton_self w
    | cons c after =>
      rw [words_append (hafter c rfl), words_of_isWord hw]
      exact List.mem_cons_self
  rcases before.eq_nil_or_concat with rfl | ⟨lead, c, rfl⟩
  · exact hback
  · rw [List.append_assoc, List.concat_eq_append, List.append_assoc, List.singleton_append,
      words_append (hbefore c (by simp))]
    exact List.mem_append_right _ hback

/-- The words of a text are those that stand in it. -/
theorem mem_words_iff {w s : List Char} : w ∈ words p s ↔ IsWord p w ∧ StandsIn p w s := by
  constructor
  · exact isWord_of_mem_words
  · rintro ⟨hw, hs⟩
    exact mem_words_of_standsIn hw hs

end Tollgate.Text
