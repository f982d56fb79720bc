/-
Lists in variables. The entries of a list are its pieces between commas, each as it is without the white space around
it, and blank pieces are left out. White space around the whole list makes no difference.
-/
import Tollgate.Proofs.Text.Trim
import Tollgate.Proofs.Text.Words
import Tollgate.Settings.Variables

namespace Tollgate

/-! ## White space around pieces -/

namespace Text

variable {p : Char → Bool} (hp : ∀ c, isBlank c = true → p c = false) {blanks : List Char}
  (hb : ∀ c ∈ blanks, isBlank c = true)

include hp hb

/-- White space before a text is white space before its first piece. -/
theorem map_trimmed_splitBy_lead (s : List Char) :
    (splitBy p (blanks ++ s)).map trimmed = (splitBy p s).map trimmed := by
  have hfree : Free p blanks := fun c hc => hp c (hb c hc)
  cases hcut : cutAt? p s with
  | none =>
    have hs := cutAt?_eq_none_iff.1 hcut
    rw [splitBy_of_free hs, splitBy_of_free (List.forall_mem_append.2 ⟨hfree, hs⟩), List.map_singleton,
      List.map_singleton, trimmed_lead_append hb]
  | some cut =>
    obtain ⟨first, rest⟩ := cut
    obtain ⟨c, hc, rfl, hfirst⟩ := cutAt?_eq_some_iff.1 hcut
    rw [← List.append_assoc, splitBy_append_cons hc rest (List.forall_mem_append.2 ⟨hfree, hfirst⟩),
      splitBy_append_cons hc rest hfirst, List.map_cons, List.map_cons,
      trimmed_lead_append hb]

/-- White space behind a text is white space behind its last piece. -/
theorem map_trimmed_splitBy_tail (s : List Char) :
    (splitBy p (s ++ blanks)).map trimmed = (splitBy p s).map trimmed := by
  have hfree : Free p blanks := fun c hc => hp c (hb c hc)
  have hlast : ∀ {x}, Free p x → (splitBy p (x ++ blanks)).map trimmed = (splitBy p x).map trimmed := by
    intro x hx
    rw [splitBy_of_free hx, splitBy_of_free (List.forall_mem_append.2 ⟨hx, hfree⟩), List.map_singleton,
      List.map_singleton, trimmed_append_tail hb]
  cases hcut : cutAtLast? p s with
  | none =>
    rw [cutAtLast?, Option.map_eq_none_iff, cutAt?_eq_none_iff, free_reverse] at hcut
    exact hlast hcut
  | some cut =>
    obtain ⟨front, last⟩ := cut
    obtain ⟨c, hc, rfl, hl⟩ := cutAtLast?_eq_some_iff.1 hcut
    rw [List.append_assoc, List.cons_append, splitBy_append hc, splitBy_append hc, List.map_append, List.map_append,
      hlast hl]

omit hb in
/-- White space around a text changes nothing of what is left of its pieces. -/
theorem map_trimmed_splitBy_trimmed (s : List Char) :
    (splitBy p (trimmed s)).map trimmed = (splitBy p s).map trimmed := by
  obtain ⟨lead, tail, hs, hl, ht⟩ := exists_around_trimmed s
  conv_rhs => rw [hs, map_trimmed_splitBy_tail hp ht, map_trimmed_splitBy_lead hp hl]

end Text

/-! ## Entries -/

namespace Variables

open Text

/-- The pieces that say something. -/
def spoken (pieces : List (List Char)) : List (List Char) := pieces.filter fun piece => !(trimmed piece).isEmpty

theorem entries_of_joins {text : String} {pieces : List (List Char)} (h : Joins ',' pieces text.toList) :
    entries text = (spoken pieces).map fun piece => String.ofList (trimmed piece) := by
  unfold entries spoken
  rw [joins_iff.1 h, List.filter_map, List.map_map]
  rfl

theorem entries_trim (text : String) : entries (trim text) = entries text := by
  have hcomma : ∀ c, isBlank c = true → (c == ',') = false := by
    intro c hc
    rw [beq_eq_false_iff_ne]
    rintro rfl
    exact absurd hc (by decide)
  unfold entries trim
  rw [String.toList_ofList, map_trimmed_splitBy_trimmed hcomma]

/-- A variable that is set holds the entries of its text, also if these are none. -/
theorem list_of_some {vars : Variables} {key text : String} (h : vars key = some text) :
    vars.list key [] = entries text := by
  unfold list value?
  rw [h, Option.map_some, Option.filter_some]
  split
  · rw [Option.map_some, Option.getD_some, entries_trim]
  · rename_i hblank
    have hempty : trim text = "" := by simpa using hblank
    rw [Option.map_none, Option.getD_none, ← entries_trim, hempty]
    decide

end Variables

end Tollgate
