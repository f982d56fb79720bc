/-
How large an amount can become. Reading stays within words of 64 bits for every text but those that are named, also
for the literal in the body of a payment request; what is read is hardly longer than the text.
-/
import Tollgate.Proofs.Payment.Wire
import Tollgate.Simulator.Service

namespace Tollgate

open Json

namespace Amount

/-- Reading a text is bounded: every number on the way is a word, an exponent beyond 64 is not accepted, one that is
a word is refused for its size, and few characters are added to the text. -/
structure Bounded (text : String) : Prop where
  words : read64 text ≠ .error .overflow
  small : ∀ s, read64 text = .ok s →
    ∃ whole fraction e, Scientific (Text.trimmed text.toList) whole fraction e ∧ e.natAbs ≤ 64
  refused : ∀ whole fraction e, Scientific (Text.trimmed text.toList) whole fraction e → 64 < e.natAbs →
    Text.fits64 e = true → read64 text = .error (.exponent text)
  length_le : ∀ s, read64 text = .ok s → s.length ≤ text.length + 66

theorem exists_of_read64 {text s : String} (h : read64 text = .ok s) : ∃ a, parse text = .ok a ∧ a.toText = s := by
  have hover : ¬ Overflows text := by
    intro hover
    rw [read64_of_overflows hover] at h; cases h
  rw [read64_of_not_overflows hover] at h
  cases hp : parse text with
  | error fault => rw [hp] at h; cases h
  | ok a => rw [hp] at h; exact ⟨a, rfl, Except.ok.inj h⟩

theorem bounded_of_not_overflows {text : String} (h : ¬ Overflows text) : Bounded text where
  words := mt read64_eq_overflow_iff.1 h
  small s hs := by
    obtain ⟨a, ha, -⟩ := exists_of_read64 hs
    obtain ⟨whole, fraction, e, hnumber, he, -⟩ := parse_eq_ok_iff.1 ha
    exact ⟨whole, fraction, e, hnumber, he⟩
  refused whole fraction e hnumber he hfits := by
    have hleast : e ≠ -2 ^ 63 := fun hleast => h ((overflows_iff hnumber).2 (.inl hleast))
    rw [read64_of_large hnumber hleast he, if_pos hfits]
  length_le s hs := by
    obtain ⟨a, ha, rfl⟩ := exists_of_read64 hs
    exact (length_toText_le ha).trans (Nat.le_succ _)

theorem overflows_of_parse {text : String} (h : parse text = .error .overflow) : Overflows text := by
  obtain ⟨whole, fraction, hnumber⟩ := parse_eq_overflow_iff.1 h
  exact ⟨whole, fraction, _, hnumber, .inl rfl⟩

end Amount

namespace Payment

/-- The amount in a body is spelled by a text. -/
def Carries (body : Bytes) (text : String) : Prop := ∃ tree account amount,
  Tree.ofBytes? body = some tree ∧ tree.fields? names = some [account, amount] ∧ Amount.literal? amount = some text

theorem Carries.ofTree?_eq_some {body : Bytes} {text : String} (h : Carries body text) {p : Payment}
    (hp : (Tree.ofBytes? body).bind ofTree? = some p) : Amount.parse text = .ok p.amount := by
  obtain ⟨tree, account, amount, htree, hfields, hliteral⟩ := h
  rw [htree, Option.bind_some] at hp
  obtain ⟨account', amount', hfields', -, hamount⟩ := ofTree?_eq_some_iff.1 hp
  cases hfields.symm.trans hfields'
  rw [Amount.ofTree?, hliteral] at hamount
  simp only [Option.bind_eq_bind, Option.bind_some] at hamount
  cases hparse : Amount.parse text with
  | error fault => rw [hparse] at hamount; cases hamount
  | ok a => rw [hparse] at hamount; rw [Option.some.inj hamount]

/-- Reading a body does not stop at an amount that does not overflow. -/
theorem Carries.stops_eq_false {body : Bytes} {text : String} (h : Carries body text)
    (hover : ¬ Amount.Overflows text) : stops body = false := by
  obtain ⟨tree, account, amount, htree, hfields, hliteral⟩ := h
  refine Payment.stops_eq_false htree hfields (Bool.eq_false_iff.2 fun hstops => ?_)
  obtain ⟨text', hliteral', hparse⟩ := Amount.overflows_iff_literal.1 hstops
  cases hliteral.symm.trans hliteral'
  exact hover (Amount.overflows_of_parse hparse)

end Payment

namespace Simulator.Counter

theorem payment_eq_ok {body : Bytes} {p : Payment} (h : payment body = some (.ok p)) :
    (Tree.ofBytes? body).bind Payment.ofTree? = some p := by
  unfold payment at h
  split at h
  · cases h
  split at h
  · cases h
  · rename_i q hq
    split at h
    · cases h
    · cases h; exact hq

/-- Every payment that is accepted carries an amount, and it is hardly longer than what is carried. -/
theorem exists_carries {body : Bytes} {p : Payment} (h : payment body = some (.ok p)) :
    ∃ text, Payment.Carries body text ∧ p.amount.toText.length ≤ text.length + 66 := by
  have hp := payment_eq_ok h
  obtain ⟨tree, htree, ht⟩ := Option.bind_eq_some_iff.1 hp
  obtain ⟨account, amount, hfields, -, hamount⟩ := Payment.ofTree?_eq_some_iff.1 ht
  obtain ⟨text, hliteral, -⟩ := Option.bind_eq_some_iff.1 hamount
  have hcarries : Payment.Carries body text := ⟨tree, account, amount, htree, hfields, hliteral⟩
  exact ⟨text, hcarries, (Amount.length_toText_le (hcarries.ofTree?_eq_some hp)).trans (Nat.le_succ _)⟩

/-- What is read from the literal in a body is what is read from the text by itself: a payment has that amount, and
where the text is refused, so is the body. -/
theorem payment_of_carries {body : Bytes} {text : String} (h : Payment.Carries body text)
    (hover : ¬ Amount.Overflows text) :
    (∀ p, payment body = some (.ok p) → Amount.read64 text = .ok p.amount.toText) ∧
      ∀ fault, Amount.read64 text = .error fault → payment body = some (.error (.invalidBody "not a payment")) := by
  rw [Amount.read64_of_not_overflows hover]
  constructor
  · intro p hp
    rw [h.ofTree?_eq_some (payment_eq_ok hp)]
    rfl
  · intro fault hfault
    rw [payment, h.stops_eq_false hover, if_neg Bool.false_ne_true]
    cases hp : (Tree.ofBytes? body).bind Payment.ofTree? with
    | none => rfl
    | some p =>
      rw [h.ofTree?_eq_some hp] at hfault
      cases hfault

end Simulator.Counter

namespace Amount

open Simulator

/-- Reading a text is bounded unless its exponent is the least of all words, or its exponent is small but the whole
part has nearly as many digits as a word can count. Then it comes to the same as reading without bounds, and the
literal in a body is read no differently. -/
theorem bounded_iff (text : String) :
    (Bounded text ↔ ¬ ∃ whole fraction e, Scientific (Text.trimmed text.toList) whole fraction e ∧
      (e = -2 ^ 63 ∨ e.natAbs ≤ 64 ∧ 2 ^ 63 ≤ whole.length + max e 0)) ∧
    (Bounded text → read64 text = (parse text).map toText) ∧
    (∀ body, Payment.Carries body text → Bounded text →
      (∀ p, Counter.payment body = some (.ok p) → read64 text = .ok p.amount.toText) ∧
      ∀ fault, read64 text = .error fault → Counter.payment body = some (.error (.invalidBody "not a payment"))) ∧
    (∀ body p, Counter.payment body = some (.ok p) →
      ∃ carried, Payment.Carries body carried ∧ p.amount.toText.length ≤ carried.length + 66) := by
  have hiff : Bounded text ↔ ¬ Overflows text :=
    ⟨fun h hover => h.words (read64_of_overflows hover), bounded_of_not_overflows⟩
  refine ⟨hiff, fun h => read64_of_not_overflows (hiff.1 h), ?_, fun body p => Counter.exists_carries⟩
  exact fun body hcarries h => Counter.payment_of_carries hcarries (hiff.1 h)

/-- The largest exponent that is accepted, and the least word but one, which is refused. -/
theorem bounded_iff_largestExponents :
    (Bounded "12e64" ∧ read64 "12e64" = .ok ("12" ++ String.ofList (List.replicate 64 '0'))) ∧
    Bounded "1e-9223372036854775807" := by
  have hlarge : parts? (Text.trimmed "12e64".toList) = some ("12".toList, [], 64) := by decide +kernel
  have hleast : parts? (Text.trimmed "1e-9223372036854775807".toList) = some ("1".toList, [], -9223372036854775807) := by
    decide +kernel
  have hbounded : Bounded "12e64" := by
    rw [(bounded_iff "12e64").1]
    rintro ⟨whole, fraction, e, h, hover⟩
    cases hlarge.symm.trans (parts?_eq_some_iff.2 h)
    revert hover
    decide
  refine ⟨⟨hbounded, ((bounded_iff "12e64").2.1 hbounded).trans (by decide +kernel)⟩, ?_⟩
  rw [(bounded_iff "1e-9223372036854775807").1]
  rintro ⟨whole, fraction, e, h, hover⟩
  cases hleast.symm.trans (parts?_eq_some_iff.2 h)
  revert hover
  decide

/-- The order of a payment whose amount has the least exponent of all words. -/
def leastExponentOrder : Bytes := Bytes.ofText "\x7b\"va_number\":\"VA1\",\"amount\":1e-9223372036854775808\x7d"

/-- The least exponent of all words, by itself and in an order, is not refused for its size: no answer is given. -/
theorem leastExponent_not_bounded :
    Payment.Carries leastExponentOrder "1e-9223372036854775808" ∧ ¬ Bounded "1e-9223372036854775808" ∧
      Counter.payment leastExponentOrder = none := by
  refine ⟨?_, ?_, if_pos (by decide +kernel)⟩
  · have hliterals : ((Tree.ofBytes? leastExponentOrder).bind (·.fields? Payment.names)).map (·.map literal?) =
        some [some "VA1", some "1e-9223372036854775808"] := by
      decide +kernel
    obtain ⟨fields, hfields, hlist⟩ := Option.map_eq_some_iff.1 hliterals
    obtain ⟨tree, htree, hfields⟩ := Option.bind_eq_some_iff.1 hfields
    obtain ⟨account, rest, rfl, -, hrest⟩ := List.map_eq_cons_iff.1 hlist
    obtain ⟨amount, last, rfl, hamount, hlast⟩ := List.map_eq_cons_iff.1 hrest
    cases List.map_eq_nil_iff.1 hlast
    exact ⟨tree, account, amount, htree, hfields, hamount⟩
  · have hparts : parts? (Text.trimmed "1e-9223372036854775808".toList) = some ("1".toList, [], -2 ^ 63) := by
      decide +kernel
    exact fun h => h.words (read64_of_least (parts?_eq_some_iff.1 hparts))

end Amount

end Tollgate
