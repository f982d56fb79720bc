/-
What has been read of a text stays read. The tokens that a reader has passed are the first of those that it ends with,
also a number with an exponent that it has not left yet, if no digit comes next; and what tokens have put into the
outermost array or object stays in it. So a field that is passed is the field of the whole record, if there is one.
-/
import Tollgate.Proofs.Json.Reading
import Tollgate.Proofs.Text.Cut

namespace Tollgate.Json

/-! ## Numbers -/

namespace Numeral

/-- The digits of an exponent. -/
def unsigned : List Char → List Char
  | '+' :: digits => digits
  | '-' :: digits => digits
  | digits => digits

/-- A sign, and the rest. -/
def sign (s : List Char) : Bool × List Char :=
  match s with
  | '-' :: rest => (true, rest)
  | _ => (false, s)

/-- The digits behind a point, and the rest. -/
def fraction? (s : List Char) : Option (List Char × List Char) :=
  match s with
  | '.' :: rest => if (spanDigits rest).1.isEmpty then none else some (spanDigits rest)
  | _ => some ([], s)

/-- An exponent that is all of the rest. -/
def exponent? (s : List Char) : Option (Option (List Char)) :=
  match s with
  | [] => some none
  | mark :: rest =>
    if mark = 'e' ∨ mark = 'E' then
      if (unsigned rest).isEmpty || !(unsigned rest).all Char.isDigit then none else some (some rest)
    else none

theorem ofChars?_eq (s : List Char) : ofChars? s =
    let (negative, s) := sign s
    let (whole, s) := spanDigits s
    if !whole.isEmpty && (whole.length = 1 || whole.head? ≠ some '0') then
      (fraction? s).bind fun f => (exponent? f.2).map fun e => ⟨negative, whole, f.1, e⟩
    else none := by
  unfold ofChars?
  split
  rename_i negative s1 hsign
  rw [show sign s = (negative, s1) from hsign]
  dsimp -zeta only
  rcases spanDigits s1 with ⟨whole, s2⟩
  dsimp -zeta only
  by_cases hwhole : (!whole.isEmpty && (whole.length = 1 || whole.head? ≠ some '0')) = true
  · rw [guard, if_pos hwhole, if_pos hwhole]
    extract_lets read
    have hread : ∀ f : List Char × List Char,
        read f = (exponent? f.2).map fun e => ⟨negative, whole, f.1, e⟩ := by
      rintro ⟨fraction, s3⟩
      simp only [read]
      rcases s3 with - | ⟨mark, rest⟩
      · rfl
      simp only [exponent?]
      split
      · show (if ((unsigned rest).isEmpty || !(unsigned rest).all Char.isDigit) = true then _ else _) = _
        split <;> rfl
      · rfl
    split
    · rename_i rest
      show _ = (if (spanDigits rest).1.isEmpty then none else some (spanDigits rest)).bind _
      by_cases he : (spanDigits rest).1.isEmpty = true
      · rw [if_pos he, if_pos he]; rfl
      · rw [if_neg he, if_neg he]
        exact hread _
    · rename_i hpoint
      have hnone : fraction? s2 = some ([], s2) := by
        unfold fraction?
        split
        · rename_i rest
          exact absurd rfl (hpoint rest)
        · rfl
      rw [hnone]
      exact hread _
  · rw [guard, if_neg hwhole, if_neg hwhole]
    rfl

theorem sign_append (s : List Char) : ∃ lead, s = lead ++ (sign s).2 ∧ (lead = [] ∨ lead = ['-']) := by
  unfold sign
  split
  · exact ⟨['-'], rfl, .inr rfl⟩
  · exact ⟨[], rfl, .inl rfl⟩

theorem spanDigits_append_self (s : List Char) : (spanDigits s).1 ++ (spanDigits s).2 = s :=
  List.takeWhile_append_dropWhile

theorem all_isDigit_spanDigits (s : List Char) : (spanDigits s).1.all Char.isDigit = true :=
  List.all_takeWhile

/-- The characters that begin an exponent. -/
def isMark (c : Char) : Bool := c == 'e' || c == 'E'

theorem isMark_eq_false_of_isDigit {c : Char} (h : c.isDigit = true) : isMark c = false := by
  rw [isMark, Bool.or_eq_false_iff, beq_eq_false_iff_ne, beq_eq_false_iff_ne]
  constructor
  · rintro rfl; cases h
  · rintro rfl; cases h

theorem free_of_digits {s : List Char} (h : s.all Char.isDigit = true) : Text.Free isMark s :=
  fun c hc => isMark_eq_false_of_isDigit (List.all_eq_true.1 h c hc)

theorem fraction?_eq_some {s fraction rest : List Char} (h : fraction? s = some (fraction, rest)) :
    fraction.all Char.isDigit = true ∧ s = (if fraction = [] then [] else '.' :: fraction) ++ rest := by
  unfold fraction? at h
  split at h
  · rename_i tail
    split at h
    · cases h
    · rename_i hne
      have hspan : spanDigits tail = (fraction, rest) := Option.some.inj h
      have hdigits := all_isDigit_spanDigits tail
      have htail := spanDigits_append_self tail
      rw [hspan] at hne hdigits htail
      refine ⟨hdigits, ?_⟩
      rw [if_neg fun hnil => hne (List.isEmpty_iff.2 hnil), List.cons_append, htail]
  · cases h
    exact ⟨rfl, rfl⟩

/-- What a numeral was read from: characters that do not begin an exponent, and the exponent if there is one. -/
theorem ofChars?_eq_some {s : List Char} {n : Numeral} (h : ofChars? s = some n) :
    n.whole.all Char.isDigit = true ∧ n.fraction.all Char.isDigit = true ∧
      ∃ front rest, s = front ++ rest ∧ Text.Free isMark front ∧ exponent? rest = some n.exponent := by
  rw [ofChars?_eq] at h
  dsimp only at h
  split at h
  · obtain ⟨⟨fraction, s3⟩, hfraction, h⟩ := Option.bind_eq_some_iff.1 h
    obtain ⟨exponent, hexponent, h⟩ := Option.map_eq_some_iff.1 h
    cases h
    have hwhole := all_isDigit_spanDigits (sign s).2
    obtain ⟨lead, hlead, hsign⟩ := sign_append s
    obtain ⟨hdigits, hs2⟩ := fraction?_eq_some hfraction
    refine ⟨hwhole, hdigits, lead ++ (spanDigits (sign s).2).1 ++ (if fraction = [] then [] else '.' :: fraction), s3,
      ?_, ?_, hexponent⟩
    · rw [List.append_assoc, List.append_assoc, ← hs2, spanDigits_append_self]
      exact hlead
    · intro c hc
      rw [List.mem_append, List.mem_append] at hc
      rcases hc with (hc | hc) | hc
      · rcases hsign with rfl | rfl
        · cases hc
        · cases List.mem_singleton.1 hc; rfl
      · exact free_of_digits hwhole c hc
      · split at hc
        · cases hc
        · rcases List.mem_cons.1 hc with rfl | hc
          · rfl
          · exact free_of_digits hdigits c hc
  · cases h

theorem exponent?_eq_some {s digits : List Char} (h : exponent? s = some (some digits)) :
    ∃ mark, isMark mark = true ∧ s = mark :: digits ∧ unsigned digits ≠ [] ∧
      (unsigned digits).all Char.isDigit = true := by
  unfold exponent? at h
  split at h
  · cases h
  · split at h
    · rename_i hmark
      split at h
      · cases h
      · rename_i hdigits
        cases h
        refine ⟨_, by simpa [isMark] using hmark, rfl, ?_⟩
        simpa using hdigits
    · cases h

theorem exponent?_eq_none_iff {s : List Char} : exponent? s = some none ↔ s = [] := by
  unfold exponent?
  split
  · exact iff_of_true rfl rfl
  · refine iff_of_false (fun h => ?_) (List.cons_ne_nil _ _)
    split at h
    · split at h <;> cases h
    · cases h

theorem unsigned_append {s : List Char} (h : unsigned s ≠ []) (t : List Char) :
    unsigned (s ++ t) = unsigned s ++ t := by
  cases s with
  | nil => exact absurd rfl h
  | cons c s =>
    unfold unsigned
    rw [List.cons_append]
    split <;> simp_all

theorem free_chars {n : Numeral} (hwhole : n.whole.all Char.isDigit = true)
    (hfraction : n.fraction.all Char.isDigit = true) (h : n.exponent = none) : Text.Free isMark n.chars := by
  have hpart (s : List Char) (hs : s.all Char.isDigit = true) (lead : Char) (hlead : isMark lead = false) :
      Text.Free isMark (lead :: s) := Text.free_cons.2 ⟨hlead, free_of_digits hs⟩
  unfold chars
  rw [h, List.append_nil]
  intro c hc
  rw [List.mem_append, List.mem_append] at hc
  rcases hc with (hc | hc) | hc
  · split at hc
    · exact hpart [] rfl '-' rfl c hc
    · cases hc
  · exact free_of_digits hwhole c hc
  · split at hc
    · cases hc
    · exact hpart _ hfraction '.' rfl c hc

/-- Nothing but digits can be put behind an exponent. -/
theorem isDigit_of_ofChars?_append {s rest : List Char} {c : Char} {n m : Numeral} (h : ofChars? s = some n)
    (he : ¬ Text.Free isMark n.chars) (h' : ofChars? (s ++ c :: rest) = some m) : c.isDigit = true := by
  obtain ⟨hwhole, hfraction, front, power, rfl, hfront, hpower⟩ := ofChars?_eq_some h
  obtain ⟨digits, hdigits⟩ := Option.ne_none_iff_exists'.1 fun hnone => he (free_chars hwhole hfraction hnone)
  obtain ⟨mark, hmark, rfl, hne, -⟩ := exponent?_eq_some (hdigits ▸ hpower)
  obtain ⟨-, -, front', power', happend, hfront', hpower'⟩ := ofChars?_eq_some h'
  have hcut : Text.cutAt? isMark (front ++ mark :: (digits ++ c :: rest)) = some (front, digits ++ c :: rest) :=
    Text.cutAt?_eq_some_iff.2 ⟨mark, hmark, rfl, hfront⟩
  rw [show front ++ mark :: (digits ++ c :: rest) = front' ++ power' by rw [← happend]; simp] at hcut
  -- the first character that begins an exponent is the same one
  cases hexponent : m.exponent with
  | none =>
    rw [hexponent, exponent?_eq_none_iff] at hpower'
    rw [hpower', List.append_nil, Text.cutAt?_eq_none_iff.2 hfront'] at hcut
    cases hcut
  | some digits' =>
    obtain ⟨mark', hmark', rfl, -, hall⟩ := exponent?_eq_some (hexponent ▸ hpower')
    have hcut' : Text.cutAt? isMark (front' ++ mark' :: digits') = some (front', digits') :=
      Text.cutAt?_eq_some_iff.2 ⟨mark', hmark', rfl, hfront'⟩
    cases hcut.symm.trans hcut'
    rw [unsigned_append hne, List.all_append, Bool.and_eq_true, List.all_cons, Bool.and_eq_true] at hall
    exact hall.2.1

end Numeral

/-! ## Tokens -/

namespace Token

/-- Whether a token is a text, or a number with an exponent. -/
def IsFixed : Token → Prop
  | .text _ => True
  | .number n => ¬ Text.Free Numeral.isMark n.chars
  | _ => False

namespace Reader

variable {r q : Reader}

theorem tokens_suffix_of_begin {c : Char} (h : r.begin c = some q) : r.tokens <:+ q.tokens := by
  unfold begin at h
  split at h
  · cases h; exact List.suffix_refl _
  · split at h
    case' h_8 =>
      split at h
      · cases h; exact List.suffix_refl _
      · split at h
        · cases h; exact List.suffix_refl _
        · cases h
    all_goals
      cases h
      first | exact List.suffix_cons _ _ | exact List.suffix_refl _

theorem tokens_suffix_of_settle (h : r.settle = some q) : r.tokens <:+ q.tokens := by
  unfold settle at h
  split at h
  · obtain ⟨t, -, rfl⟩ := Option.map_eq_some_iff.1 h
    exact List.suffix_cons _ _
  · obtain ⟨n, -, rfl⟩ := Option.map_eq_some_iff.1 h
    exact List.suffix_cons _ _
  · cases h; exact List.suffix_refl _

theorem tokens_suffix_of_settle_begin {c : Char} (h : r.settle.bind (·.begin c) = some q) : r.tokens <:+ q.tokens := by
  obtain ⟨p, hp, h⟩ := Option.bind_eq_some_iff.1 h
  exact (tokens_suffix_of_settle hp).trans (tokens_suffix_of_begin h)

theorem tokens_suffix_of_step {g : Option Char} (h : r.step g = some q) : r.tokens <:+ q.tokens := by
  unfold step at h
  split at h
  · cases h; exact List.suffix_refl _
  · cases h
  · split at h
    · cases h; exact List.suffix_cons _ _
    · split at h
      · cases h; exact List.suffix_refl _
      · split at h
        · cases h
        · cases h; exact List.suffix_refl _
  · split at h
    · cases h; exact List.suffix_refl _
    · obtain ⟨d, -, rfl⟩ := Option.map_eq_some_iff.1 h
      exact List.suffix_refl _
  · obtain ⟨d, -, h⟩ := Option.bind_eq_some_iff.1 h
    dsimp only at h
    split at h
    · cases h; exact List.suffix_refl _
    · cases h; exact List.suffix_refl _
  · split at h
    · cases h; exact List.suffix_refl _
    · exact tokens_suffix_of_settle_begin h
  · split at h
    · cases h; exact List.suffix_refl _
    · exact tokens_suffix_of_settle_begin h
  · exact tokens_suffix_of_begin h

theorem tokens_suffix_of_foldlM {s : List (Option Char)} (h : s.foldlM step r = some q) : r.tokens <:+ q.tokens := by
  induction s generalizing r with
  | nil => cases h; exact List.suffix_refl _
  | cons g s ih =>
    rw [List.foldlM_cons] at h
    obtain ⟨p, hp, h⟩ := Option.bind_eq_some_iff.1 h
    exact (tokens_suffix_of_step hp).trans (ih h)

/-- A number that is being read is the beginning of the number that is read in the end. -/
theorem exists_numeral_of_foldlM {s : List (Option Char)} {ts : List Token} {chars : List Char} {p : Reader}
    (h : s.foldlM step ⟨ts, .numeral chars⟩ = some q) (hp : q.settle = some p) :
    ∃ more n, Numeral.ofChars? (chars.reverse ++ more) = some n := by
  induction s generalizing chars with
  | nil =>
    cases h
    obtain ⟨n, hn, -⟩ := Option.map_eq_some_iff.1 hp
    exact ⟨[], n, by rw [List.append_nil]; exact hn⟩
  | cons g s ih =>
    rw [List.foldlM_cons] at h
    obtain ⟨a, ha, h⟩ := Option.bind_eq_some_iff.1 h
    cases g with
    | none => cases ha
    | some c =>
      simp only [step] at ha
      split at ha
      · cases ha
        obtain ⟨more, n, hn⟩ := ih h
        exact ⟨c :: more, n, by simpa using hn⟩
      · obtain ⟨b, hb, -⟩ := Option.bind_eq_some_iff.1 ha
        obtain ⟨n, hn, -⟩ := Option.map_eq_some_iff.1 hb
        exact ⟨[], n, by rw [List.append_nil]; exact hn⟩

/-- The tokens up to a text or a number with an exponent that does not go on are the first of those at the end. -/
theorem tokens_suffix_of_run {s : List (Option Char)} {a b : Reader} {last : Token} {before : List Token}
    (hq : r.settle = some q) (htokens : q.tokens = last :: before) (hlast : last.IsFixed)
    (hend : ∀ g ∈ s.head?, r.goesOn g = false) (hrun : s.foldlM step r = some a) (hb : a.settle = some b) :
    q.tokens <:+ b.tokens := by
  -- unless a word or a number is being read, nothing has to end
  have hsame : q = r → q.tokens <:+ b.tokens := by
    rintro rfl
    exact (tokens_suffix_of_foldlM hrun).trans (tokens_suffix_of_settle hb)
  obtain ⟨ts, mode⟩ := r
  cases mode with
  | between | literal | escape | unit => exact hsame (Option.some.inj hq).symm
  | word letters =>
    obtain ⟨t, ht, rfl⟩ := Option.map_eq_some_iff.1 hq
    cases (List.cons.inj htokens).1
    unfold ofWord? at ht
    split_ifs at ht <;> cases ht <;> exact hlast.elim
  | numeral chars =>
    obtain ⟨n, hn, rfl⟩ := Option.map_eq_some_iff.1 hq
    cases (List.cons.inj htokens).1
    cases s with
    | nil =>
      cases hrun
      cases hq.symm.trans hb
      exact List.suffix_refl _
    | cons g s =>
      rw [List.foldlM_cons] at hrun
      obtain ⟨p, hp, hrest⟩ := Option.bind_eq_some_iff.1 hrun
      cases g with
      | none => cases hp
      | some c =>
        have hdigit : c.isDigit = false := hend (some c) rfl
        simp only [step] at hp
        split at hp
        · -- the number would have to go on with a digit
          cases hp
          obtain ⟨more, m, hm⟩ := exists_numeral_of_foldlM hrest hb
          rw [List.reverse_cons, List.append_assoc, List.singleton_append] at hm
          have := Numeral.isDigit_of_ofChars?_append hn hlast hm
          rw [hdigit] at this
          cases this
        · rw [hq] at hp
          exact (tokens_suffix_of_begin hp).trans
            ((tokens_suffix_of_foldlM hrest).trans (tokens_suffix_of_settle hb))

end Reader

end Token

/-! ## Trees -/

namespace Tree

/-- A tree begins another one: both are arrays or both are objects, and the one has the first items or members of the
other. -/
inductive Begins : Tree → Tree → Prop where
  | array (items more : List Tree) : Begins (.array items) (.array (items ++ more))
  | object (members more : List (Option String × Tree)) : Begins (.object members) (.object (members ++ more))

theorem Begins.trans {t u v : Tree} (h : Begins t u) (h' : Begins u v) : Begins t v := by
  cases h with
  | array items more =>
    cases h' with
    | array _ more' => rw [List.append_assoc]; exact .array _ _
  | object members more =>
    cases h' with
    | object _ more' => rw [List.append_assoc]; exact .object _ _

theorem Begins.self {t u : Tree} (h : Begins t u) : Begins u u := by
  cases h with
  | array items more => simpa using Begins.array (items ++ more) []
  | object members more => simpa using Begins.object (members ++ more) []

/-- An array or an object as it is so far. -/
def Frame.tree : Frame → Tree
  | .array before => .array before.reverse
  | .object before => .object before.reverse
  | .member before _ => .object before.reverse

theorem Frame.begins_self (f : Frame) : Begins f.tree f.tree := by
  cases f with
  | array before => exact (Begins.array [] before.reverse).self
  | object before => exact (Begins.object [] before.reverse).self
  | member before => exact (Begins.object [] before.reverse).self

namespace Builder

/-- The outermost array or object as it is so far. -/
def outermost? (b : Builder) : Option Tree :=
  match b.stack.getLast?, b.expected with
  | some f, _ => some f.tree
  | none, .afterValue t => some t
  | none, _ => none

variable {b a : Builder} {stack : List Frame} {f g : Frame} {e e' : Expected} {t v : Tree}

/-- What comes next does not matter as long as something is open. -/
theorem outermost?_cons (e e' : Expected) : outermost? ⟨f :: stack, e⟩ = outermost? ⟨f :: stack, e'⟩ := by
  unfold outermost?
  rw [List.getLast?_eq_some_getLast (List.cons_ne_nil f stack)]

theorem outermost?_cons_cons (e : Expected) : outermost? ⟨f :: g :: stack, e⟩ = outermost? ⟨g :: stack, e⟩ := by
  unfold outermost?
  rw [List.getLast?_cons_cons]

theorem begins_self_of_outermost? (h : outermost? ⟨f :: stack, e⟩ = some t) : Begins t t := by
  induction stack generalizing f with
  | nil => cases h; exact f.begins_self
  | cons g stack ih => exact ih (outermost?_cons_cons e ▸ h)

/-- The innermost array or object goes on. -/
theorem outermost?_grow (hgrow : Begins f.tree g.tree) (h : outermost? ⟨f :: stack, e⟩ = some t) :
    ∃ u, outermost? ⟨g :: stack, e'⟩ = some u ∧ Begins t u := by
  cases stack with
  | nil => cases h; exact ⟨_, rfl, hgrow⟩
  | cons k stack =>
    refine ⟨t, ?_, begins_self_of_outermost? h⟩
    rwa [outermost?_cons_cons, outermost?_cons e' e, ← outermost?_cons_cons (f := f)]

/-- The innermost array or object is closed. -/
theorem outermost?_close (hclose : Begins f.tree v) (h : outermost? ⟨f :: stack, e⟩ = some t) :
    ∃ u, outermost? ⟨stack, .afterValue v⟩ = some u ∧ Begins t u := by
  cases stack with
  | nil => cases h; exact ⟨v, rfl, hclose⟩
  | cons k stack =>
    refine ⟨t, ?_, begins_self_of_outermost? h⟩
    rwa [outermost?_cons _ e, ← outermost?_cons_cons (f := f)]

/-- A value begins in the innermost array or object. -/
theorem outermost?_open {token : Token} (hopen : openValue (f :: stack) token = some a)
    (h : outermost? ⟨f :: stack, e⟩ = some t) : ∃ u, a.outermost? = some u ∧ Begins t u := by
  refine ⟨t, ?_, begins_self_of_outermost? h⟩
  unfold openValue at hopen
  split at hopen
  · cases hopen; rwa [outermost?_cons_cons, outermost?_cons _ e]
  · cases hopen; rwa [outermost?_cons_cons, outermost?_cons _ e]
  · obtain ⟨v, -, rfl⟩ := Option.map_eq_some_iff.1 hopen
    rwa [outermost?_cons _ e]

theorem begins_item (before : List Tree) (v : Tree) :
    Begins (Frame.array before).tree (.array (v :: before).reverse) := by
  rw [List.reverse_cons]; exact .array _ _

theorem begins_member (before : List (Option String × Tree)) (name : Option String) (v : Tree) :
    Begins (Frame.member before name).tree (.object ((name, v) :: before).reverse) := by
  rw [List.reverse_cons]; exact .object _ _

/-- A token adds to the outermost array or object, or leaves it as it is. -/
theorem begins_of_step {token : Token} (h : b.step token = some a) (ht : b.outermost? = some t) :
    ∃ u, a.outermost? = some u ∧ Begins t u := by
  obtain ⟨stack, expected⟩ := b
  cases stack with
  | nil =>
    -- a value that stands by itself is not gone on with
    cases expected <;> cases ht
    cases token <;> cases h
  | cons f stack =>
    unfold step at h
    split at h
    case h_1 => exact outermost?_open h ht
    case h_2 _ _ _ hstack => cases hstack; cases h; exact outermost?_close (Frame.begins_self _) ht
    case h_3 => exact outermost?_open h ht
    case h_4 _ _ _ hstack => cases hstack; cases h; exact outermost?_close (Frame.begins_self _) ht
    case h_5 => cases h; exact outermost?_grow f.begins_self ht
    case h_6 => cases h; exact outermost?_grow f.begins_self ht
    case h_7 _ _ _ _ hstack => cases hstack; cases h; exact outermost?_grow (Frame.begins_self (.object _)) ht
    case h_8 _ _ _ _ hstack => cases hstack; cases h; exact outermost?_grow (begins_item _ _) ht
    case h_9 _ _ _ _ hstack => cases hstack; cases h; exact outermost?_close (begins_item _ _) ht
    case h_10 _ _ _ _ _ hstack => cases hstack; cases h; exact outermost?_grow (begins_member _ _ _) ht
    case h_11 _ _ _ _ _ hstack => cases hstack; cases h; exact outermost?_close (begins_member _ _ _) ht
    case h_12 => cases h

theorem begins_of_foldlM {tokens : List Token} (h : tokens.foldlM step b = some a) (ht : b.outermost? = some t)
    (hself : Begins t t) : ∃ u, a.outermost? = some u ∧ Begins t u := by
  induction tokens generalizing b t with
  | nil => cases h; exact ⟨t, ht, hself⟩
  | cons token tokens ih =>
    rw [List.foldlM_cons] at h
    obtain ⟨c, hc, hrest⟩ := Option.bind_eq_some_iff.1 h
    obtain ⟨u, hu, htu⟩ := begins_of_step hc ht
    obtain ⟨v, hv, huv⟩ := ih hrest hu htu.self
    exact ⟨v, hv, htu.trans huv⟩

/-- After a value in the outermost array or object there is that value in it. -/
theorem begins_of_afterValue {f : Frame} {v : Tree} {rest : List Token}
    (h : rest.foldlM step ⟨[f], .afterValue v⟩ = some ⟨[], .afterValue t⟩) :
    match f with
    | .array before => Begins (.array (v :: before).reverse) t
    | .member before name => Begins (.object ((name, v) :: before).reverse) t
    | .object _ => False := by
  cases rest with
  | nil => cases h
  | cons token rest =>
    rw [List.foldlM_cons] at h
    obtain ⟨c, hc, hrest⟩ := Option.bind_eq_some_iff.1 h
    have hbegins {u : Tree} (hu : c.outermost? = some u) (hself : Begins u u) : Begins u t := by
      obtain ⟨w, hw, huw⟩ := begins_of_foldlM hrest hu hself
      cases hw
      exact huw
    cases f with
    | array before => cases token <;> cases hc <;> exact hbegins rfl (begins_item before v).self
    | object before => cases token <;> cases hc
    | member before name => cases token <;> cases hc <;> exact hbegins rfl (begins_member before name v).self

end Builder

theorem getElem?_of_mapM {α β : Type} {f : α → Option β} {as : List α} {bs : List β} (h : as.mapM f = some bs)
    {i : Nat} {a : α} (ha : as[i]? = some a) : bs[i]? = f a := by
  induction as generalizing bs i with
  | nil => cases ha
  | cons a' as ih =>
    rw [List.mapM_cons] at h
    obtain ⟨b, hb, h⟩ := Option.bind_eq_some_iff.1 h
    obtain ⟨bs', hbs, h⟩ := Option.bind_eq_some_iff.1 h
    cases h
    cases i with
    | zero => cases ha; exact hb.symm
    | succ i => exact ih hbs ha

/-- The value that a reader of a record awaits is a field of the whole record. -/
theorem getElem?_of_awaits {names : List String} {field : String} {b : Builder} {token : Token} {v t : Tree}
    {rest : List Token} {fields : List Tree} (hmem : field ∈ names) (hawaits : b.awaits names field = true)
    (hv : ofToken? token = some v) (h : (token :: rest).foldlM Builder.step b = some ⟨[], .afterValue t⟩)
    (hfields : t.fields? names = some fields) : fields[names.idxOf field]? = some v := by
  have hindex : names[names.idxOf field]? = some field := List.getElem?_idxOf hmem
  unfold Builder.awaits at hawaits
  split at hawaits
  · rename_i before name
    simp only [Bool.and_eq_true, beq_iff_eq, List.isEmpty_iff] at hawaits
    obtain ⟨⟨⟨rfl, -⟩, hnew⟩, -⟩ := hawaits
    have hbuild := (builds_token hv _ rest).symm.trans h
    cases Builder.begins_of_afterValue hbuild with
    | object _ more =>
      rw [fields?] at hfields
      split at hfields
      · rw [getElem?_of_mapM hfields hindex, member?, List.reverse_cons]
        have hbefore : membersNamed name before.reverse = [] := by
          unfold membersNamed at hnew ⊢
          rw [List.filterMap_reverse, hnew, List.reverse_nil]
        unfold membersNamed at hbefore ⊢
        rw [List.filterMap_append, List.filterMap_append, hbefore]
        simp
      · cases hfields
  · rename_i before
    simp only [Bool.and_eq_true, beq_iff_eq] at hawaits
    have hbuild := (builds_token hv _ rest).symm.trans h
    cases Builder.begins_of_afterValue hbuild with
    | array _ more =>
      rw [fields?] at hfields
      split at hfields
      · cases hfields
        rw [← hawaits.1, List.reverse_cons, List.append_assoc, List.getElem?_append_right (by simp)]
        simp
      · cases hfields
  · cases hawaits

end Tree

end Tollgate.Json
