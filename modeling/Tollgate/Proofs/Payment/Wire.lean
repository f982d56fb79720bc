/-
Where reading a payment or a notice stops. What has been read before the end of the text is a part of what is read in
the end, so a text that is read as a record whose amount does not overflow is one that reading does not stop at.
-/
import Tollgate.Payment.Wire
import Tollgate.Proofs.Decimal.Words
import Tollgate.Proofs.Json.Prefix
import Tollgate.Proofs.Text.Trim

namespace Tollgate

open Json

namespace Amount

variable {names : List String} {field : String}

theorem overflows_iff_literal {t : Tree} :
    overflows t = true ↔ ∃ text, literal? t = some text ∧ parse text = .error .overflow := by
  unfold overflows
  rw [Option.any_eq_true]
  refine exists_congr fun text => and_congr_right fun _ => ?_
  split <;> simp_all

/-- A text that overflows has an exponent. -/
theorem not_free_of_overflow {text : String} (h : parse text = .error .overflow) :
    ¬ Text.Free Numeral.isMark text.toList := by
  obtain ⟨whole, fraction, mantissa, power, hs, -, hpower⟩ := parse_eq_overflow_iff.1 h
  cases hpower with
  | @marked mark rest _ hmark =>
    have hmem : mark ∈ Text.trimmed text.toList := by
      rw [hs]
      exact List.mem_append_right _ List.mem_cons_self
    intro hfree
    have hnone := hfree mark (Text.mem_of_mem_trimmed hmem)
    rw [Numeral.isMark, Bool.or_eq_false_iff, beq_eq_false_iff_ne, beq_eq_false_iff_ne] at hnone
    exact hmark.elim hnone.1 hnone.2

theorem isFixed_of_overflows {token : Token} {t : Tree} (ht : Tree.ofToken? token = some t)
    (h : overflows t = true) : token.IsFixed := by
  obtain ⟨text, hliteral, hparse⟩ := overflows_iff_literal.1 h
  cases token <;> cases ht
  case number n =>
    cases hliteral
    have hmark := not_free_of_overflow hparse
    rwa [Numeral.toText, String.toList_ofList] at hmark
  case text => trivial
  all_goals cases hliteral

theorem stopsAt_iff {tokens : List Token} : stopsAt names field tokens = true ↔
    ∃ last before t b, tokens = last :: before ∧ Tree.ofToken? last = some t ∧ overflows t = true ∧
      before.reverse.foldlM Tree.Builder.step ⟨[], .value⟩ = some b ∧ b.awaits names field = true := by
  cases tokens with
  | nil => exact iff_of_false Bool.false_ne_true fun ⟨_, _, _, _, h, _⟩ => absurd h.symm (List.cons_ne_nil _ _)
  | cons last before =>
    rw [stopsAt, Bool.and_eq_true, Option.any_eq_true, Option.any_eq_true]
    constructor
    · rintro ⟨⟨t, ht, hover⟩, b, hb, hawaits⟩
      exact ⟨last, before, t, b, rfl, ht, hover, hb, hawaits⟩
    · rintro ⟨_, _, t, b, htokens, ht, hover, hb, hawaits⟩
      cases htokens
      exact ⟨⟨t, ht, hover⟩, b, hb, hawaits⟩

/-- Reading stops once the reader has passed an amount that overflows, whatever comes after it. -/
theorem stopsFrom_iff {s : List (Option Char)} {r : Token.Reader} : stopsFrom names field r s = true ↔
    ∃ before after q p, s = before ++ after ∧ before.foldlM Token.Reader.step r = some q ∧
      (∀ g ∈ after.head?, q.goesOn g = false) ∧ q.settle = some p ∧ stopsAt names field p.tokens = true := by
  induction s generalizing r with
  | nil =>
    rw [stopsFrom, Option.any_eq_true]
    constructor
    · rintro ⟨p, hp, hstops⟩
      exact ⟨[], [], r, p, rfl, rfl, nofun, hp, hstops⟩
    · rintro ⟨before, after, q, p, hs, hq, -, hp, hstops⟩
      obtain ⟨rfl, rfl⟩ := List.append_eq_nil_iff.1 hs.symm
      cases hq
      exact ⟨p, hp, hstops⟩
  | cons g rest ih =>
    rw [stopsFrom, Bool.or_eq_true, Bool.and_eq_true, Bool.not_eq_true', Option.any_eq_true, Option.any_eq_true]
    constructor
    · rintro (⟨hend, p, hp, hstops⟩ | ⟨a, ha, hstops⟩)
      · exact ⟨[], g :: rest, r, p, rfl, rfl, fun _ h => by cases h; exact hend, hp, hstops⟩
      · obtain ⟨before, after, q, p, rfl, hq, hend, hp, hstops⟩ := ih.1 hstops
        refine ⟨g :: before, after, q, p, rfl, ?_, hend, hp, hstops⟩
        rw [List.foldlM_cons, ha]
        exact hq
    · rintro ⟨before, after, q, p, hs, hq, hend, hp, hstops⟩
      cases before with
      | nil =>
        cases hq
        cases hs
        exact .inl ⟨hend g rfl, p, hp, hstops⟩
      | cons g' before =>
        cases hs
        rw [List.foldlM_cons] at hq
        obtain ⟨a, ha, hq⟩ := Option.bind_eq_some_iff.1 hq
        exact .inr ⟨a, ha, ih.2 ⟨before, after, q, p, rfl, hq, hend, hp, hstops⟩⟩

/-- A record that is read is one that reading does not stop at, unless its amount overflows. -/
theorem overflows_of_stops {body : Bytes} {t : Tree} {fields : List Tree} (hmem : field ∈ names)
    (ht : Tree.ofBytes? body = some t) (hfields : t.fields? names = some fields)
    (h : stops names field body = true) :
    ∃ amount, fields[names.idxOf field]? = some amount ∧ overflows amount = true := by
  obtain ⟨before, after, q, p, hs, hq, hend, hp, hstops⟩ := stopsFrom_iff.1 h
  obtain ⟨last, passed, amount, b, htokens, hamount, hover, hb, hawaits⟩ := stopsAt_iff.1 hstops
  refine ⟨amount, ?_, hover⟩
  -- the whole text is read beyond what has been passed, and built beyond it
  obtain ⟨tokens, hscan, hbuild⟩ := Option.bind_eq_some_iff.1 ht
  obtain ⟨d, hd, hbuild⟩ := Option.bind_eq_some_iff.1 hbuild
  obtain ⟨a, ha, hscan⟩ := Option.bind_eq_some_iff.1 hscan
  obtain ⟨e, he, hscan⟩ := Option.bind_eq_some_iff.1 hscan
  have hend' : tokens = e.tokens.reverse ∧ d = ⟨[], .afterValue t⟩ := by
    constructor
    · split at hscan
      · exact (Option.some.inj hscan).symm
      · cases hscan
    · obtain ⟨stack, expected⟩ := d
      split at hbuild
      · cases hbuild; simp_all
      · cases hbuild
  obtain ⟨rfl, rfl⟩ := hend'
  rw [hs, List.foldlM_append, hq] at ha
  obtain ⟨more, hmore⟩ :=
    Token.Reader.tokens_suffix_of_run hp htokens (isFixed_of_overflows hamount hover) hend ha he
  rw [← hmore, htokens, List.reverse_append, List.reverse_cons, List.append_assoc, List.foldlM_append, hb] at hd
  exact Tree.getElem?_of_awaits hmem hawaits hamount hd hfields

end Amount

namespace Payment

/-- A payment is read from the two fields of a record. -/
theorem ofTree?_eq_some_iff {t : Tree} {p : Payment} : ofTree? t = some p ↔
    ∃ account amount, t.fields? names = some [account, amount] ∧ account.text? = some p.account ∧
      Amount.ofTree? amount = some p.amount := by
  unfold ofTree?
  simp only [Option.bind_eq_bind, Option.bind_eq_some_iff]
  constructor
  · rintro ⟨fields, hfields, h⟩
    split at h
    · rename_i account amount
      obtain ⟨name, hname, h⟩ := Option.bind_eq_some_iff.1 h
      obtain ⟨a, ha, h⟩ := Option.bind_eq_some_iff.1 h
      cases h
      exact ⟨account, amount, hfields, hname, ha⟩
    · cases h
  · rintro ⟨account, amount, hfields, hname, ha⟩
    refine ⟨_, hfields, ?_⟩
    dsimp only
    rw [hname, ha]
    rfl

theorem stops_eq_false {body : Bytes} {t account amount : Tree} (ht : Tree.ofBytes? body = some t)
    (hfields : t.fields? names = some [account, amount]) (h : Amount.overflows amount = false) :
    stops body = false := by
  rw [Bool.eq_false_iff]
  intro hstops
  obtain ⟨amount', hindex, hover⟩ := Amount.overflows_of_stops (by decide) ht hfields hstops
  cases hindex
  rw [h] at hover
  cases hover

/-- A payment that is read is one that reading does not stop at. -/
theorem stops_eq_false_of_read {body : Bytes} {p : Payment} (h : (Tree.ofBytes? body).bind ofTree? = some p) :
    stops body = false := by
  obtain ⟨t, ht, hp⟩ := Option.bind_eq_some_iff.1 h
  obtain ⟨account, amount, hfields, -, hamount⟩ := ofTree?_eq_some_iff.1 hp
  refine stops_eq_false ht hfields (Bool.eq_false_iff.2 fun hover => ?_)
  obtain ⟨text, hliteral, hparse⟩ := Amount.overflows_iff_literal.1 hover
  rw [Amount.ofTree?, hliteral] at hamount
  simp only [Option.bind_eq_bind, Option.bind_some, hparse] at hamount
  cases hamount

end Payment

end Tollgate
