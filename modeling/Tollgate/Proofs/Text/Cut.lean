/-
Laws of cutting texts: at the first character of a kind, at the last one, and at all of them. Each cut is
pinned down by what it puts together again and by where no such character is left.
-/
import Mathlib
import Tollgate.Text.Blank

namespace Tollgate.Text

variable {p : Char → Bool}

/-- Whether no character of a kind occurs in a text. -/
def Free (p : Char → Bool) (s : List Char) : Prop := ∀ x ∈ s, p x = false

theorem free_nil : Free p [] := fun _ h => nomatch h

theorem free_cons {c : Char} {s : List Char} : Free p (c :: s) ↔ p c = false ∧ Free p s := by
  unfold Free; exact List.forall_mem_cons

theorem free_reverse {s : List Char} : Free p s.reverse ↔ Free p s := by
  unfold Free; simp only [List.mem_reverse]

/-- A text is free of one character exactly if that character is not in it. -/
theorem free_beq_iff {c : Char} {s : List Char} : Free (· == c) s ↔ c ∉ s := by
  unfold Free
  constructor
  · intro h hc
    have := h c hc
    simp at this
  · rintro h x hx
    rw [beq_eq_false_iff_ne]
    rintro rfl; exact h hx

/-! ## One cut -/

theorem cutAt?_eq_none_iff : ∀ {s : List Char}, cutAt? p s = none ↔ Free p s
  | [] => by simp only [cutAt?, free_nil]
  | c :: s => by
    rw [free_cons, cutAt?]
    cases hc : p c
    · simp only [Bool.false_eq_true, if_false, Option.map_eq_none_iff, cutAt?_eq_none_iff, true_and]
    · simp

/-- The cut at the first character of a kind: none of that kind stands before it. -/
theorem cutAt?_eq_some_iff : ∀ {s before after : List Char}, cutAt? p s = some (before, after) ↔
    ∃ c, p c = true ∧ s = before ++ c :: after ∧ Free p before
  | [], before, after => by simp [cutAt?]
  | d :: s, before, after => by
    unfold cutAt?
    cases hd : p d with
    | true =>
      simp only [if_true, Option.some.injEq, Prod.mk.injEq]
      constructor
      · rintro ⟨rfl, rfl⟩; exact ⟨d, hd, rfl, free_nil⟩
      · rintro ⟨c, -, hs, hf⟩
        cases before with
        | nil => cases hs; exact ⟨rfl, rfl⟩
        | cons b before =>
          cases hs
          rw [(free_cons.1 hf).1] at hd; cases hd
    | false =>
      simp only [Bool.false_eq_true, if_false, Option.map_eq_some_iff]
      constructor
      · rintro ⟨⟨a, b⟩, h, he⟩
        obtain ⟨c, hc, rfl, hf⟩ := cutAt?_eq_some_iff.1 h
        cases he
        exact ⟨c, hc, rfl, free_cons.2 ⟨hd, hf⟩⟩
      · rintro ⟨c, hc, hs, hf⟩
        cases before with
        | nil => cases hs; rw [hd] at hc; cases hc
        | cons b before =>
          cases hs
          exact ⟨(before, after), cutAt?_eq_some_iff.2 ⟨c, hc, rfl, (free_cons.1 hf).2⟩, rfl⟩

/-- The cut at the last character of a kind: none of that kind stands after it. -/
theorem cutAtLast?_eq_some_iff {s before after : List Char} : cutAtLast? p s = some (before, after) ↔
    ∃ c, p c = true ∧ s = before ++ c :: after ∧ Free p after := by
  unfold cutAtLast?
  rw [Option.map_eq_some_iff]
  constructor
  · rintro ⟨⟨a, b⟩, h, he⟩
    obtain ⟨c, hc, hs, hf⟩ := cutAt?_eq_some_iff.1 h
    cases he
    refine ⟨c, hc, ?_, free_reverse.2 hf⟩
    rw [← List.reverse_reverse s, hs]; simp
  · rintro ⟨c, hc, rfl, hf⟩
    refine ⟨(after.reverse, before.reverse), cutAt?_eq_some_iff.2 ⟨c, hc, ?_, free_reverse.2 hf⟩, ?_⟩
    · simp
    · simp

/-! ## All cuts -/

theorem splitBy_ne_nil : ∀ s : List Char, splitBy p s ≠ []
  | [] => by simp [splitBy]
  | c :: s => by
    unfold splitBy
    split
    · simp
    · split <;> simp

theorem splitBy_of_free : ∀ {s : List Char}, Free p s → splitBy p s = [s]
  | [], _ => rfl
  | c :: s, h => by
    obtain ⟨hc, hs⟩ := free_cons.1 h
    unfold splitBy
    rw [splitBy_of_free hs, hc]; rfl

theorem splitBy_append_cons {c : Char} (hc : p c = true) (rest : List Char) :
    ∀ {s : List Char}, Free p s → splitBy p (s ++ c :: rest) = s :: splitBy p rest
  | [], _ => by simp only [List.nil_append, splitBy, hc, if_true]
  | d :: s, h => by
    obtain ⟨hd, hs⟩ := free_cons.1 h
    rw [List.cons_append, splitBy, splitBy_append_cons hc rest hs, hd]; rfl

/-- The first piece reaches to the first character of a kind, or to the end. -/
theorem splitBy_eq_cons_iff {s piece : List Char} {more : List (List Char)} : splitBy p s = piece :: more ↔
    Free p piece ∧ ((s = piece ∧ more = []) ∨
      ∃ c rest, p c = true ∧ s = piece ++ c :: rest ∧ splitBy p rest = more) := by
  cases h : cutAt? p s with
  | none =>
    have hs := cutAt?_eq_none_iff.1 h
    rw [splitBy_of_free hs]
    constructor
    · intro he; cases he; exact ⟨hs, .inl ⟨rfl, rfl⟩⟩
    · rintro ⟨-, ⟨rfl, rfl⟩ | ⟨c, rest, hc, rfl, -⟩⟩
      · rfl
      · have := hs c (by simp)
        rw [hc] at this; cases this
  | some cut =>
    obtain ⟨before, after⟩ := cut
    obtain ⟨c, hc, rfl, hf⟩ := cutAt?_eq_some_iff.1 h
    rw [splitBy_append_cons hc after hf]
    constructor
    · intro he; cases he; exact ⟨hf, .inr ⟨c, after, hc, rfl, rfl⟩⟩
    · rintro ⟨hp, ⟨rfl, -⟩ | ⟨d, rest, hd, hs, rfl⟩⟩
      · have := hp c (by simp)
        rw [hc] at this; cases this
      · -- both ways of cutting are the cut at the first character
        have := cutAt?_eq_some_iff.2 ⟨d, hd, hs, hp⟩
        rw [h] at this; cases this; rfl

end Tollgate.Text
