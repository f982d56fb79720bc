/-
How the parts of a URL of the web hang on its text. Scheme, user, host and number are read from what stands
before the first delimiter behind the slashes, path, query and fragment from what stands behind it.
-/
import Tollgate.Net.Url
import Tollgate.Proofs.Net.Percent
import Tollgate.Proofs.Text.Cut
import Tollgate.Proofs.Text.Trim

namespace Tollgate.Url

open Text (Free trimmedLeft trimmedRight)

/-! ## What is left out before a text is read -/

/-- The characters that do not count around a URL: the space and the controls before it. -/
def isOutside (c : Char) : Bool := c.toNat ≤ 0x20

/-- The characters that count within a URL: all but tabs and line ends. -/
def isKept (c : Char) : Bool := !(c == '\t' || c == '\n' || c == '\r')

/-- The part of a text that is read. -/
def cleaned (s : List Char) : List Char := (trimmedRight isOutside (trimmedLeft isOutside s)).filter isKept

theorem isOutside_of_not_kept (c : Char) (h : isKept c = false) : isOutside c = true := by
  unfold isKept at h
  simp only [Bool.not_eq_false', Bool.or_eq_true, beq_iff_eq] at h
  rcases h with (rfl | rfl) | rfl <;> decide

theorem cleaned_eq (s : List Char) :
    cleaned s = trimmedRight isOutside (trimmedLeft isOutside (s.filter isKept)) := by
  unfold cleaned
  rw [Text.trimmedLeft_filter isOutside_of_not_kept, Text.trimmedRight_filter isOutside_of_not_kept]

theorem exists_around (s : List Char) : ∃ lead tail, s.filter isKept = lead ++ (cleaned s ++ tail) ∧
    (∀ c ∈ lead, isOutside c = true) ∧ ∀ c ∈ tail, isOutside c = true := by
  obtain ⟨lead, hl, hlead⟩ := Text.trimmedLeft_append isOutside (s.filter isKept)
  obtain ⟨tail, ht, htail⟩ := Text.trimmedRight_append isOutside (trimmedLeft isOutside (s.filter isKept))
  refine ⟨lead, tail, ?_, hlead, htail⟩
  rw [cleaned_eq, ← ht]; exact hl

/-! ## Schemes -/

/-- A scheme as it can be written: a letter, and then letters, digits and three marks. -/
def IsName (s : List Char) : Prop :=
  s.head?.any Char.isAlpha = true ∧ s.all (fun c => c.isAlphanum || c == '+' || c == '-' || c == '.') = true

theorem IsName.of_mem {s : List Char} (h : IsName s) {c : Char} (hc : c ∈ s) :
    c.isAlphanum = true ∨ c = '+' ∨ c = '-' ∨ c = '.' := by
  simpa [or_assoc] using List.all_eq_true.1 h.2 c hc

theorem IsName.free_colon {s : List Char} (h : IsName s) : Free (· == ':') s := by
  intro c hc
  rw [beq_eq_false_iff_ne]
  rintro rfl
  rcases h.of_mem hc with h | h | h | h <;> revert h <;> decide

theorem IsName.exists_letter {s : List Char} (h : IsName s) : ∃ c rest, s = c :: rest ∧ isOutside c = false := by
  obtain ⟨hc, -⟩ := h
  cases s with
  | nil => cases hc
  | cons c rest =>
    refine ⟨c, rest, rfl, ?_⟩
    simp only [List.head?_cons, Option.any_some, Char.isAlpha, Char.isUpper, Char.isLower, Bool.or_eq_true,
      Bool.and_eq_true, decide_eq_true_eq, ge_iff_le, UInt32.le_iff_toNat_le] at hc
    have hn : c.toNat = c.val.toNat := rfl
    unfold isOutside
    rw [decide_eq_false_iff_not, hn]
    simp only [↓Char.isValue, Char.reduceVal, UInt32.reduceToNat, Char.toNat_val] at hc
    omega

theorem scheme?_eq_some_iff {s scheme rest : List Char} : scheme? s = some (scheme, rest) ↔
    ∃ name, s = name ++ ':' :: rest ∧ IsName name ∧ scheme = name.map Char.toLower := by
  unfold scheme?
  simp only [Option.bind_eq_bind, Option.bind_eq_some_iff, Option.pure_def, Option.some.injEq, Prod.mk.injEq,
    Prod.exists, Option.guard_eq_some']
  constructor
  · rintro ⟨name, rest', hcut, -, hletter, -, hall, rfl, rfl⟩
    obtain ⟨c, hc, rfl, -⟩ := Text.cutAt?_eq_some_iff.1 hcut
    rw [beq_iff_eq.1 hc]
    exact ⟨name, rfl, ⟨hletter, hall⟩, rfl⟩
  · rintro ⟨name, rfl, hname, rfl⟩
    exact ⟨name, rest, Text.cutAt?_eq_some_iff.2 ⟨':', rfl, rfl, hname.free_colon⟩, (), hname.1, (), hname.2, rfl, rfl⟩

/-! ## Servers -/

/-- The characters that end user, host and number. -/
def isDelimiter (c : Char) : Bool := isSlash true c || c == '?' || c == '#'

/-- The URL of a server without a path: user, host and number as they are read. -/
def server? (scheme authority : List Char) : Option Url := do
  let (user, rest) := cutUser authority
  let (username, password) := (user.map readUser).getD ([], none)
  guard (!(user.isSome && rest.isEmpty))
  let (name, digits) := cutPort false rest
  let host ← Host.ofName? name
  guard (!(host.isEmpty && digits.isSome))
  let number ← readPort scheme (digits.getD [])
  return ⟨scheme, username, password, some host, number, .segments [], none, none⟩

/-- A URL of a server with path, query and fragment. -/
def extended (server : Url) (rest : List Char) : Url :=
  withTail { server with path := .segments (readPath true (cutTail rest).1) } (cutTail rest).2.1 (cutTail rest).2.2

theorem readAuthority_eq {scheme : List Char} (h : isSpecial scheme = true) (s : List Char) :
    readAuthority scheme s =
      (server? scheme (s.takeWhile (!isDelimiter ·))).map (·.extended (s.dropWhile (!isDelimiter ·))) := by
  have hdrop : s.drop (s.takeWhile (!isDelimiter ·)).length = s.dropWhile (!isDelimiter ·) := by
    conv_lhs => arg 2; rw [← List.takeWhile_append_dropWhile (p := (!isDelimiter ·)) (l := s)]
    exact List.drop_left
  have hcut : (fun c => !(isSlash true c || c == '?' || c == '#')) = (!isDelimiter ·) := rfl
  unfold readAuthority server?
  simp only [h, hcut, hdrop, Bool.not_true, Bool.and_false, Bool.false_eq_true, if_false, if_true]
  simp only [Option.map_bind, Option.bind_eq_bind, Option.pure_def, Function.comp_def, Option.map_some]
  rfl

/-! ## The text before the first delimiter -/

/-- The schemes of the web, which are special and always have a host. -/
def IsWeb (scheme : List Char) : Prop := scheme = "http".toList ∨ scheme = "https".toList

theorem IsWeb.isSpecial {scheme : List Char} (h : IsWeb scheme) : isSpecial scheme = true := by
  rcases h with rfl | rfl <;> decide

theorem IsWeb.not_isFile {scheme : List Char} (h : IsWeb scheme) : isFile scheme = false := by
  rcases h with rfl | rfl <;> decide

/-- A text in the parts that a URL of a special scheme is read from. -/
structure Spells (s name slashes authority rest : List Char) : Prop where
  text : cleaned s = name ++ ':' :: (slashes ++ (authority ++ rest))
  isName : IsName name
  isSlash : ∀ c ∈ slashes, isSlash true c = true
  ne_nil : authority ≠ []
  free : Free isDelimiter authority
  ends : ∀ c ∈ rest.head?, isDelimiter c = true

variable {s name slashes authority rest : List Char} {u v : Url}

theorem not_isSlash_of_not_isDelimiter {c : Char} (h : isDelimiter c = false) : isSlash true c = false := by
  unfold isDelimiter at h
  simp only [Bool.or_eq_false_iff] at h
  exact h.1.1

theorem ofChars?_of_scheme? (hs : scheme? (cleaned s) = some (name, rest)) (hw : IsWeb name) :
    ofChars? s = readAuthority name (rest.dropWhile (isSlash true)) := by
  show (scheme? (cleaned s)).bind _ = _
  rw [hs, Option.bind_some]
  simp only [hw.not_isFile, hw.isSpecial, Bool.false_eq_true, if_false, if_true]

theorem Spells.read (h : Spells s name slashes authority rest) (hw : IsWeb (name.map Char.toLower)) :
    ofChars? s = (server? (name.map Char.toLower) authority).map (·.extended rest) := by
  have hfree : ∀ c ∈ authority, (!isDelimiter c) = true := fun c hc => by rw [h.free c hc]; rfl
  rw [ofChars?_of_scheme? (scheme?_eq_some_iff.2 ⟨name, h.text, h.isName, rfl⟩) hw, readAuthority_eq hw.isSpecial,
    List.dropWhile_append_of_pos h.isSlash]
  have hslash : (authority ++ rest).dropWhile (Url.isSlash true) = authority ++ rest := by
    obtain ⟨c, more, rfl⟩ := List.exists_cons_of_ne_nil h.ne_nil
    have := not_isSlash_of_not_isDelimiter (h.free c List.mem_cons_self)
    rw [List.cons_append, List.dropWhile_cons_of_neg (by simp [this])]
  have hends : rest.takeWhile (!isDelimiter ·) = [] ∧ rest.dropWhile (!isDelimiter ·) = rest := by
    cases rest with
    | nil => simp
    | cons c more => simp [h.ends c rfl]
  rw [hslash, List.takeWhile_append_of_pos hfree, List.dropWhile_append_of_pos hfree, hends.1, hends.2,
    List.append_nil]

theorem readAuthority_scheme {scheme : List Char} (h : readAuthority scheme s = some u) : u.scheme = scheme := by
  unfold readAuthority at h
  cases hsp : isSpecial scheme <;>
  · simp only [hsp, Bool.false_eq_true, if_false, if_true, Option.bind_eq_bind, Option.bind_eq_some_iff,
      Option.pure_def, Option.some.injEq] at h
    obtain ⟨-, -, host, -, -, -, number, -, rfl⟩ := h
    rfl

theorem readFile_scheme (h : readFile s = some u) : u.scheme = "file".toList := by
  unfold readFile at h
  split at h
  · split at h
    · simp only [] at h
      split at h
      · cases h; rfl
      · simp only [Option.bind_eq_bind, Option.bind_eq_some_iff, Option.pure_def, Option.some.injEq] at h
        obtain ⟨host, -, rfl⟩ := h
        rfl
    · cases h; rfl
  · cases h; rfl

/-- The scheme of a URL is the one that its text begins with. -/
theorem scheme?_of_ofChars? (h : ofChars? s = some u) : ∃ rest, scheme? (cleaned s) = some (u.scheme, rest) := by
  obtain ⟨⟨scheme, rest⟩, hs, h⟩ := Option.bind_eq_some_iff.1 (show (scheme? (cleaned s)).bind _ = some u from h)
  suffices u.scheme = scheme from ⟨rest, by rw [this]; exact hs⟩
  simp only [] at h
  split at h
  · rename_i hf
    rw [readFile_scheme h]
    exact (beq_iff_eq.1 hf).symm
  split at h
  · exact readAuthority_scheme h
  split at h
  · exact readAuthority_scheme h
  · cases h; rfl

theorem server?_nil (scheme : List Char) : server? scheme [] = none := by
  have : Host.ofName? [] = none := by decide +kernel
  simp [server?, cutUser, cutPort, Text.cutAt?, this]

/-- Every text of a URL of the web can be taken apart, and the URL is read from the parts. -/
theorem exists_spells (h : ofChars? s = some u) (hw : IsWeb u.scheme) :
    ∃ name slashes authority rest server, Spells s name slashes authority rest ∧ name.map Char.toLower = u.scheme ∧
      server? u.scheme authority = some server ∧ u = server.extended rest := by
  obtain ⟨behind, hs⟩ := scheme?_of_ofChars? h
  rw [ofChars?_of_scheme? hs hw, readAuthority_eq hw.isSpecial, Option.map_eq_some_iff] at h
  obtain ⟨server, hserver, hu⟩ := h
  obtain ⟨name, htext, hname, hscheme⟩ := scheme?_eq_some_iff.1 hs
  refine ⟨name, behind.takeWhile (Url.isSlash true), _, _, server, ⟨?_, hname, ?_, ?_, ?_, ?_⟩, hscheme.symm, hserver,
    hu.symm⟩
  · rw [htext, List.takeWhile_append_dropWhile, List.takeWhile_append_dropWhile]
  · exact List.all_eq_true.1 List.all_takeWhile
  · intro hnil
    rw [hnil, server?_nil] at hserver; cases hserver
  · intro c hc
    simpa using List.all_eq_true.1 List.all_takeWhile c hc
  · intro c hc
    have := List.head?_dropWhile_not (!isDelimiter ·) (behind.dropWhile (Url.isSlash true))
    rw [Option.mem_def.1 hc] at this
    simpa using this

/-! ## No server ends in a blank -/

/-- The number is what stands behind a colon; without one all is the host. -/
theorem append_of_cutPort (inside : Bool) (s : List Char) :
    (cutPort inside s).2 = none ∧ (cutPort inside s).1 = s ∨
    ∃ digits, (cutPort inside s).2 = some digits ∧ s = (cutPort inside s).1 ++ ':' :: digits := by
  induction s generalizing inside with
  | nil => exact .inl ⟨rfl, rfl⟩
  | cons c s ih =>
    rw [cutPort]
    split
    · rename_i hc
      exact .inr ⟨s, rfl, by rw [hc.1]; rfl⟩
    · rcases ih (if c = '[' then true else if c = ']' then false else inside) with ⟨hn, hs⟩ | ⟨digits, hd, hs⟩
      · exact .inl ⟨hn, by simp only [hs]⟩
      · exact .inr ⟨digits, hd, by simpa using hs⟩

/-- The user is what stands before the last at sign. -/
theorem append_of_cutUser (s : List Char) : ∃ lead, s = lead ++ (cutUser s).2 ∧ ∀ c ∈ lead.getLast?, c = '@' := by
  unfold cutUser
  split
  · rename_i host user h
    obtain ⟨c, hc, hs, -⟩ := Text.cutAt?_eq_some_iff.1 h
    rw [beq_iff_eq] at hc
    refine ⟨user.reverse ++ ['@'], ?_, by simp⟩
    rw [← List.reverse_reverse s, hs, hc]; simp
  · exact ⟨[], by simp, by simp⟩

theorem toNat_le_of_isOutside {c : Char} (h : isOutside c = true) : c.toNat ≤ 0x20 := by
  unfold isOutside at h
  exact of_decide_eq_true h

theorem ne_of_isOutside {c d : Char} (h : isOutside c = true) (hd : isOutside d = false) : c ≠ d := by
  rintro rfl; rw [h] at hd; cases hd

theorem isForbiddenInName_of_isOutside {c : Char} (h : isOutside c = true) : Host.isForbiddenInName c = true := by
  have hle := toNat_le_of_isOutside h
  unfold Host.isForbiddenInName Host.isControl
  by_cases hc : c.toNat = 0x20
  · have : c = ' ' := Char.toNat_inj.1 hc
    rw [this]; rfl
  · have : c.toNat < 0x20 := by omega
    simp [this]

theorem value?_of_isOutside {c : Char} (h : isOutside c = true) : Hex.value? c = none := by
  have hle := toNat_le_of_isOutside h
  have hge {d : Char} (hd : 0x20 < d.toNat) : ¬ d ≤ c := fun hdc => by
    have : d.toNat ≤ c.toNat := hdc
    omega
  unfold Hex.value?
  rw [if_neg fun hn => hge (by decide) hn.1, if_neg fun hn => hge (by decide) hn.1,
    if_neg fun hn => hge (by decide) hn.1]

theorem toLower_of_isOutside {c : Char} (h : isOutside c = true) : c.toLower = c := by
  have hle := toNat_le_of_isOutside h
  unfold Char.toLower
  rw [dif_neg]
  rintro ⟨hge, -⟩
  have : 65 ≤ c.toNat := hge
  omega

theorem isDigit_of_isOutside {c : Char} (h : isOutside c = true) : c.isDigit = false := by
  have hle := toNat_le_of_isOutside h
  rw [Bool.eq_false_iff]
  intro hd
  have : 48 ≤ c.toNat := by
    unfold Char.isDigit at hd
    rw [Bool.and_eq_true, decide_eq_true_eq] at hd
    exact hd.1
  omega

theorem ofName?_concat_of_isOutside {c : Char} (h : isOutside c = true) (s : List Char) :
    Host.ofName? (s ++ [c]) = none := by
  unfold Host.ofName?
  split
  · rename_i rest hs
    have hlast := congrArg List.getLast? hs
    rw [List.getLast?_concat, List.getLast?_cons] at hlast
    unfold Host.bracketed?
    rw [if_neg]
    intro hr
    rw [hr] at hlast
    exact ne_of_isOutside h (d := ']') (by decide) (Option.some.inj hlast)
  · cases hd : Percent.decodeText? (s ++ [c]) with
    | none => rfl
    | some t =>
      have hlit : Percent.Literal c := by
        have := toNat_le_of_isOutside h
        exact ⟨ne_of_isOutside h (by decide), by omega⟩
      have hc := Percent.mem_decodeText?_concat hlit (value?_of_isOutside h) hd
      have hforbidden : (t.toList.map Char.toLower).any Host.isForbiddenInName = true := by
        refine List.any_eq_true.2 ⟨c.toLower, List.mem_map_of_mem hc, ?_⟩
        rw [toLower_of_isOutside h]; exact isForbiddenInName_of_isOutside h
      simp only [Option.bind_eq_bind, Option.bind_some, hforbidden, Bool.not_true]
      exact Option.bind_eq_none_iff.2 fun _ _ => rfl

/-- A host or number that ends in a blank cannot be read. -/
theorem server?_concat_of_isOutside {c : Char} (h : isOutside c = true) (scheme s : List Char) :
    server? scheme (s ++ [c]) = none := by
  obtain ⟨lead, hs, hlead⟩ := append_of_cutUser (s ++ [c])
  -- the blank is not part of the user
  have hrest : ∃ front, (cutUser (s ++ [c])).2 = front ++ [c] := by
    rcases (cutUser (s ++ [c])).2.eq_nil_or_concat' with hn | ⟨front, d, hf⟩
    · rw [hn, List.append_nil] at hs
      exact absurd (hlead c (by rw [← hs]; simp)) (ne_of_isOutside h (by decide))
    · rw [hf, ← List.append_assoc] at hs
      rw [hf, List.singleton_inj.1 (List.append_inj' hs rfl).2]
      exact ⟨front, rfl⟩
  obtain ⟨front, hfront⟩ := hrest
  unfold server?
  simp only [hfront]
  rcases append_of_cutPort false (front ++ [c]) with ⟨hno, hall⟩ | ⟨digits, hsome, hall⟩
  · simp [hno, hall, ofName?_concat_of_isOutside h]
  · have hport : readPort scheme digits = none := by
      rcases digits.eq_nil_or_concat' with rfl | ⟨ds, d, rfl⟩
      · have := (List.append_inj' hall rfl).2
        exact absurd (List.singleton_inj.1 this) (ne_of_isOutside h (by decide))
      · rw [← List.cons_append, ← List.append_assoc] at hall
        rw [← List.singleton_inj.1 (List.append_inj' hall rfl).2]
        simp [readPort, Text.natural?, isDigit_of_isOutside h]
    simp [hsome, hport]

end Tollgate.Url
