/-
From a payment to its acceptance. A notice is written whatever characters it is made of, its written form is
read as the same notice, and the receiver accepts what it has read exactly if less than six minutes lie between
its clock and the instant that the notice shows.
-/
import Tollgate.Proofs.Payment.Acceptance
import Tollgate.Proofs.Payment.Literal
import Tollgate.Proofs.Time.Stamp

namespace Tollgate

open Json

/-! ## Payments and notices as records -/

/-- A written payment is read as the payment that was written. -/
theorem Payment.ofText?_toText (p : Payment) : Tree.ofText? p.toText >>= ofTree? = some p := by
  obtain ⟨amount, -, -, hamount, hread⟩ := p.amount.exists_number
  have hwrites : ∀ m ∈ [(printedText p.account, .text (some p.account)), (p.amount.digits, .number amount)],
      Writes m.1 m.2 := by
    simp only [List.forall_mem_cons]
    exact ⟨writes_printedText _, hamount, nofun⟩
  refine (ofText?_printedObject_bind _ (show names.Nodup by decide) (by rfl) hwrites).trans ?_
  simp only [List.map_cons, List.map_nil, hread, Tree.text?, Option.bind_eq_bind, Option.bind_some]
  rfl

namespace Notice

theorem write?_eq (n : Notice) : n.write? = some n.toText := by
  rw [write?, if_pos n.paid.isLiteral_eq_true]

/-- A written notice is read as the notice that was written. -/
theorem ofText?_toText (n : Notice) : Tree.ofText? n.toText >>= ofTree? = some n := by
  obtain ⟨paid, -, -, hpaid, hread⟩ := n.paid.exists_number
  have hwrites : ∀ m ∈ [(printedText n.account, .text (some n.account)), (n.paid.digits, .number paid),
      (printedText n.sentAt, .text (some n.sentAt)), (printedText n.reference, .text (some n.reference))],
      Writes m.1 m.2 := by
    simp only [List.forall_mem_cons]
    exact ⟨writes_printedText _, hpaid, writes_printedText _, writes_printedText _, nofun⟩
  refine (ofText?_printedObject_bind _ (show names.Nodup by decide) (by rfl) hwrites).trans ?_
  simp only [List.map_cons, List.map_nil, hread, Tree.text?, Option.bind_eq_bind, Option.bind_some]
  rfl

/-! ## Acceptance of what was sent -/

theorem ofPayment_eq_ok {p : Payment} (h : (Text.trimmed p.account.toList).isEmpty = false) (reference : String)
    (at_ : Instant) :
    ofPayment p reference at_ = .ok ⟨p.account, p.amount, Stamp.ofInstant at_, reference⟩ := by
  unfold ofPayment
  rw [h]
  rfl

/-- The report of a payment reaches its receiver as it was made: it is made, it is written, and what was written is
read as what was made. The sender's signature fits what was read exactly as long as less than six minutes lie between
the instant that its stamp shows and the receiver's clock. The stamp shows the sender's instant, leap seconds included,
unless that is a leap second which does not end a minute. -/
theorem reported_accepted (secret : Bytes) {p : Payment} (reference : String) {at_ : Instant}
    (haccount : (Text.trimmed p.account.toList).isEmpty = false) (hvalid : at_.isValid = true)
    (hyear : 0 ≤ at_.date.year ∧ at_.date.year ≤ 9999) :
    ∃ sent text received, ofPayment p reference at_ = .ok sent ∧ sent.write? = some text ∧
      Tree.ofText? text >>= ofTree? = some received ∧ received = sent ∧
      (∀ now : Instant, received.verify (some (sent.sign secret)) secret now = .ok () ↔
        (now.nanosSince at_.shown).natAbs < 6 * 60 * Instant.nanosPerSecond) ∧
      (at_.shown = at_ ↔ at_.isRegular = true) := by
  obtain ⟨sent, hmade, hread⟩ : ∃ sent : Notice, ofPayment p reference at_ = .ok sent ∧
      Stamp.read? sent.sentAt = some at_.shown :=
    ⟨_, ofPayment_eq_ok haccount reference at_, Stamp.read?_ofInstant hvalid hyear⟩
  refine ⟨sent, sent.toText, sent, hmade, sent.write?_eq, sent.ofText?_toText, rfl, fun now => ?_,
    Instant.shown_eq_self_iff hvalid⟩
  have hminutes : now.minutesApart at_.shown ≤ maxMinutes ↔
      (now.nanosSince at_.shown).natAbs < 6 * 60 * Instant.nanosPerSecond := by
    rw [Instant.minutesApart_le_iff, maxMinutes, ← Nat.mul_assoc]
  rw [← hminutes]
  constructor
  · intro h
    obtain ⟨-, ⟨t, ht, hnear⟩, -⟩ := verify_eq_ok_iff.1 h
    cases hread.symm.trans ht
    exact hnear
  · exact fun hnear => (verify_sign_iff hread hnear).2 rfl

/-- A payment of 50000.10 reported in the middle of a leap second, for an account with a quotation mark and a line
break, and received almost six minutes later. -/
theorem reported_accepted_leapSecond :
    let secret := Bytes.ofText "secret-key-for-dev"
    let now : Instant := ⟨1483229158, 400000000⟩
    ∃ sent text received,
      ofPayment ⟨"VA\"1\n", ⟨5000010, 2⟩⟩ "mock-ref-1" ⟨1483228799, 1500000000⟩ = .ok sent ∧
        sent.write? = some text ∧ Tree.ofText? text >>= ofTree? = some received ∧ received = sent ∧
        received.verify (some (sent.sign secret)) secret now = .ok () := by
  intro secret now
  obtain ⟨sent, text, received, hmade, hwritten, hread, hsame, haccepted, hshown⟩ :=
    @reported_accepted secret ⟨"VA\"1\n", ⟨5000010, 2⟩⟩ "mock-ref-1" ⟨1483228799, 1500000000⟩
      (by decide +kernel) (by decide +kernel) (by decide +kernel)
  refine ⟨sent, text, received, hmade, hwritten, hread, hsame, (haccepted now).2 ?_⟩
  rw [hshown.2 (by decide +kernel)]
  decide +kernel

/-- A payment that is reported in the middle of a leap second after the thirtieth second of a minute, and received 359
and a half seconds before that: its stamp shows an instant that is a second further away. -/
theorem oddSecond_not_accepted :
    let secret := Bytes.ofText "secret-key-for-dev"
    let at_ : Instant := ⟨1704067230, 1500000000⟩
    let now : Instant := ⟨1704066871, 0⟩
    at_.isValid = true ∧ (0 ≤ at_.date.year ∧ at_.date.year ≤ 9999) ∧
      (now.nanosSince at_).natAbs < 6 * 60 * Instant.nanosPerSecond ∧
      ∃ sent, ofPayment ⟨"VA1", ⟨50000, 0⟩⟩ "mock-ref-1" at_ = .ok sent ∧
        sent.verify (some (sent.sign secret)) secret now ≠ .ok () := by
  intro secret at_ now
  refine ⟨by decide +kernel, by decide +kernel, by decide +kernel, _, ofPayment_eq_ok (by decide) _ _, fun h => ?_⟩
  obtain ⟨-, ⟨t, ht, hnear⟩, -⟩ := verify_eq_ok_iff.1 h
  have hstamp : Stamp.read? (Stamp.ofInstant at_) = some ⟨1704067231, 500000000⟩ := by decide +kernel
  cases hstamp.symm.trans ht
  revert hnear
  decide +kernel

end Notice

end Tollgate
