/-
Literals of JSON texts, written and scanned. Every text has a string literal that is scanned back to it,
whatever characters it is made of, and digits with a point and a fraction are scanned as the number they
spell.
-/
import Mathlib
import Tollgate.Bytes.Number
import Tollgate.Json.Printer
import Tollgate.Proofs.Text.Digits

namespace Tollgate.Json

namespace Token

/-! ## Scanning a stretch of characters -/

/-- The reader after some more characters. -/
def Reader.feed (r : Reader) (s : List Char) : Option Reader := (s.map some).foldlM Reader.step r

theorem Reader.feed_nil (r : Reader) : r.feed [] = some r := rfl

theorem Reader.feed_cons (r : Reader) (c : Char) (s : List Char) :
    r.feed (c :: s) = (r.step (some c)).bind (·.feed s) := rfl

theorem Reader.feed_append (r : Reader) (s t : List Char) : r.feed (s ++ t) = (r.feed s).bind (·.feed t) := by
  unfold feed
  rw [List.map_append, List.foldlM_append]
  rfl

/-- A character that is read takes the reader a step further. -/
theorem Reader.feed_cons_of_step {r q : Reader} {c : Char} (h : r.step (some c) = some q) (s : List Char) :
    r.feed (c :: s) = q.feed s := by
  rw [feed_cons, h, Option.bind_some]

theorem Reader.feed_append_of_feed {r q : Reader} {s : List Char} (h : r.feed s = some q) (t : List Char) :
    r.feed (s ++ t) = q.feed t := by
  rw [feed_append, h, Option.bind_some]

/-! ## Characters in a string literal -/

/-- A piece of a literal that stands for a character: the character itself, or its number if it is a control
character. -/
inductive Denotes : Piece → Char → Prop where
  | char (c : Char) : Denotes (.char c) c
  | unit (c : Char) (h : c.toNat < 0x20) : Denotes (.unit c.toNat) c

theorem Denotes.join_cons {p : Piece} {c : Char} (h : Denotes p c) (rest : List Piece) :
    Piece.join (p :: rest) = (Piece.join rest).map (c :: ·) := by
  cases h with
  | char => rfl
  | unit c hc =>
    have h1 : ¬ (0xD800 ≤ c.toNat ∧ c.toNat < 0xDC00) := by omega
    have h2 : ¬ (0xDC00 ≤ c.toNat ∧ c.toNat < 0xE000) := by omega
    have h3 : ¬ (0xD800 ≤ c.toNat ∧ c.toNat < 0xE000) := by omega
    -- only a unit after it could change what it stands for
    rcases rest with - | ⟨⟨d⟩ | ⟨n⟩ | -, rest⟩
    · simp only [Piece.join, h3, if_false, Char.ofNat_toNat]
    · simp only [Piece.join, h3, if_false, Char.ofNat_toNat]
    · simp only [Piece.join, h1, h2, if_false, Char.ofNat_toNat]
    · simp only [Piece.join, h3, if_false, Char.ofNat_toNat]

/-- Pieces that stand for the characters of a text denote it. -/
theorem join_of_denotes {pieces : List Piece} {s : List Char} (h : List.Forall₂ Denotes pieces s) :
    Piece.join pieces = some s := by
  induction h with
  | nil => rfl
  | cons hp _ ih => rw [hp.join_cons, ih]; rfl

theorem hexValue?_digit : ∀ k < 16, hexValue? (Hex.digit k) = some k := by decide

/-- A control character by its number. -/
theorem feed_numbered (ts : List Token) (ps : List Piece) {c : Char} (h : c.toNat < 0x20) :
    Reader.feed ⟨ts, .literal ps⟩ ['\\', 'u', '0', '0', Hex.digit (c.toNat / 16), Hex.digit (c.toNat % 16)] =
      some ⟨ts, .literal (.unit c.toNat :: ps)⟩ := by
  have hhigh := hexValue?_digit (c.toNat / 16) (by omega)
  have hlow := hexValue?_digit (c.toNat % 16) (by omega)
  have hvalue : 16 * (c.toNat / 16) + c.toNat % 16 = c.toNat := by omega
  rw [Reader.feed_cons_of_step (q := ⟨ts, .escape ps⟩) rfl, Reader.feed_cons_of_step (q := ⟨ts, .unit ps 4 0⟩) rfl,
    Reader.feed_cons_of_step (q := ⟨ts, .unit ps 3 0⟩) rfl, Reader.feed_cons_of_step (q := ⟨ts, .unit ps 2 0⟩) rfl,
    Reader.feed_cons_of_step (q := ⟨ts, .unit ps 1 (c.toNat / 16)⟩),
    Reader.feed_cons_of_step (q := ⟨ts, .literal (.unit c.toNat :: ps)⟩)]
  · rfl
  · simp [Reader.step, hlow, hvalue]
  · simp [Reader.step, hhigh]

/-- The written form of a character is read as a piece that stands for it. -/
theorem feed_printedChar (ts : List Token) (ps : List Piece) (c : Char) : ∃ p, Denotes p c ∧
    Reader.feed ⟨ts, .literal ps⟩ (printedChar c) = some ⟨ts, .literal (p :: ps)⟩ := by
  unfold printedChar
  split
  · exact ⟨_, .char _, rfl⟩
  · exact ⟨_, .char _, rfl⟩
  · exact ⟨_, .char _, rfl⟩
  · exact ⟨_, .char _, rfl⟩
  · exact ⟨_, .char _, rfl⟩
  · exact ⟨_, .char _, rfl⟩
  · exact ⟨_, .char _, rfl⟩
  · rename_i hquote hslash _ _ _ _ _
    split
    · rename_i hc
      exact ⟨_, .unit c hc, feed_numbered ts ps hc⟩
    · rename_i hc
      refine ⟨_, .char c, ?_⟩
      rw [Reader.feed_cons_of_step (q := ⟨ts, .literal (.char c :: ps)⟩)]
      · rfl
      · simp only [Reader.step, if_neg hquote, if_neg hslash, if_neg hc]

theorem feed_printedChars (ts : List Token) (s : List Char) : ∀ ps : List Piece,
    ∃ pieces, List.Forall₂ Denotes pieces s ∧
      Reader.feed ⟨ts, .literal ps⟩ (s.flatMap printedChar) = some ⟨ts, .literal (pieces.reverse ++ ps)⟩ := by
  induction s with
  | nil => exact fun ps => ⟨[], .nil, rfl⟩
  | cons c s ih =>
    intro ps
    obtain ⟨p, hp, hfeed⟩ := feed_printedChar ts ps c
    obtain ⟨pieces, hpieces, hrest⟩ := ih (p :: ps)
    refine ⟨p :: pieces, .cons hp hpieces, ?_⟩
    rw [List.flatMap_cons, Reader.feed_append_of_feed hfeed, hrest]
    simp

/-- A string literal is scanned as the text that it was written for. -/
theorem feed_printedText (ts : List Token) (s : String) :
    Reader.feed ⟨ts, .between⟩ (printedText s) = some ⟨.text (some s) :: ts, .between⟩ := by
  obtain ⟨pieces, hpieces, hfeed⟩ := feed_printedChars ts s.toList []
  unfold printedText
  rw [List.cons_append, Reader.feed_cons_of_step (q := ⟨ts, .literal []⟩) rfl, Reader.feed_append_of_feed hfeed,
    Reader.feed_cons_of_step (q := ⟨.text (some s) :: ts, .between⟩)]
  · rfl
  · simp only [Reader.step, if_true, List.append_nil, List.reverse_reverse, join_of_denotes hpieces,
      Option.map_some, String.ofList_toList]

/-! ## Numbers -/

theorem isNumeric_of_isDigit {c : Char} (h : c.isDigit = true) : isNumeric c = true := by
  unfold isNumeric
  rw [h]; rfl

/-- A digit between tokens begins a number. -/
theorem begin_of_isDigit {c : Char} (h : c.isDigit = true) (r : Reader) :
    r.begin c = some { r with mode := .numeral [c] } := by
  have hb := Char.isDigit_iff_toNat.1 h
  have hc : c = Char.ofNat c.toNat := (Char.ofNat_toNat c).symm
  have h0 : '0'.toNat = 48 := rfl
  have h9 : '9'.toNat = 57 := rfl
  rw [h0, h9] at hb
  generalize c.toNat = n at hb hc
  obtain ⟨hlow, hhigh⟩ := hb
  subst hc
  interval_cases n <;> rfl

theorem feed_numeric (ts : List Token) {s : List Char} (h : s.all isNumeric = true) : ∀ before : List Char,
    Reader.feed ⟨ts, .numeral before⟩ s = some ⟨ts, .numeral (s.reverse ++ before)⟩ := by
  induction s with
  | nil => exact fun before => rfl
  | cons c s ih =>
    intro before
    rw [List.all_cons, Bool.and_eq_true] at h
    rw [Reader.feed_cons_of_step (q := ⟨ts, .numeral (c :: before)⟩), ih h.2]
    · simp
    · simp only [Reader.step, h.1, if_true]

/-- Characters of a number that begin with a digit are taken into one number. -/
theorem feed_number (ts : List Token) {c : Char} {s : List Char} (hc : c.isDigit = true)
    (hs : s.all isNumeric = true) :
    Reader.feed ⟨ts, .between⟩ (c :: s) = some ⟨ts, .numeral (c :: s).reverse⟩ := by
  rw [Reader.feed_cons_of_step (q := ⟨ts, .numeral [c]⟩), feed_numeric ts hs, List.reverse_cons]
  exact begin_of_isDigit hc _

end Token

namespace Numeral

/-- Digits end where something else begins. -/
theorem spanDigits_append {ds r : List Char} (hd : ds.all Char.isDigit = true)
    (hr : ∀ c, r.head? = some c → c.isDigit = false) : spanDigits (ds ++ r) = (ds, r) := by
  have hd' := List.all_eq_true.1 hd
  unfold spanDigits
  rw [List.takeWhile_append_of_pos hd', List.dropWhile_append_of_pos hd']
  cases r with
  | nil => simp
  | cons c r =>
    have hc := hr c rfl
    rw [List.takeWhile_cons_of_neg (by simp [hc]), List.dropWhile_cons_of_neg (by simp [hc]), List.append_nil]

/-- Digits, with a point and more digits if there are any, spell a number. -/
theorem ofChars?_digits {whole fraction : List Char} (hne : whole ≠ []) (hw : whole.all Char.isDigit = true)
    (hf : fraction.all Char.isDigit = true) (hz : whole.length = 1 ∨ whole.head? ≠ some '0') :
    ofChars? (whole ++ if fraction = [] then [] else '.' :: fraction) = some ⟨false, whole, fraction, none⟩ := by
  obtain ⟨d, ds, rfl⟩ := List.exists_cons_of_ne_nil hne
  have hd : d.isDigit = true := by
    rw [List.all_cons, Bool.and_eq_true] at hw
    exact hw.1
  have hhyphen : d ≠ '-' := by rintro rfl; cases hd
  have hfront : ds = [] ∨ ¬ d = '0' := by simpa using hz
  have hspan : spanDigits (d :: ds ++ if fraction = [] then [] else '.' :: fraction) =
      (d :: ds, if fraction = [] then [] else '.' :: fraction) := by
    refine spanDigits_append hw fun c hc => ?_
    split at hc
    · cases hc
    · cases hc; rfl
  by_cases he : fraction = []
  · simp only [he, if_true, List.append_nil] at hspan ⊢
    simp [ofChars?, hhyphen, hspan, hfront, guard]
  · have hf' : spanDigits fraction = (fraction, []) := by
      have hspan := spanDigits_append (r := []) hf nofun
      rwa [List.append_nil] at hspan
    simp only [he, if_false, List.cons_append] at hspan ⊢
    simp [ofChars?, hhyphen, hspan, hfront, hf', he, guard]

end Numeral

end Tollgate.Json
