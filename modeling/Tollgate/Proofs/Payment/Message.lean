/-
What the signed message tells apart. Its fields stand one after the other with nothing between. For one
account the first hyphen shows where the amount ends, since a stamp begins with a year of four digits, and
the stamp shows by itself where it ends. Where the account ends nothing shows: digits can move from the amount
to the account.
-/
import Tollgate.Proofs.Decimal.Amount
import Tollgate.Proofs.Payment.Acceptance
import Tollgate.Proofs.Text.Cut
import Tollgate.Proofs.Time.Stamp

namespace Tollgate.Notice

theorem toList_message (n : Notice) :
    n.message.toList = n.account.toList ++ (n.paid.digits ++ (n.sentAt.toList ++ n.reference.toList)) := by
  unfold message Amount.toText
  simp only [String.toList_append, String.toList_ofList, List.append_assoc]

theorem message_eq_iff {n m : Notice} : n.message = m.message ↔
    n.account.toList ++ (n.paid.digits ++ (n.sentAt.toList ++ n.reference.toList)) =
      m.account.toList ++ (m.paid.digits ++ (m.sentAt.toList ++ m.reference.toList)) := by
  rw [← toList_message, ← toList_message, String.toList_inj]

/-! ## One account -/

theorem free_amount_year (a : Amount) {year : List Char} (h : year.all Char.isDigit = true) :
    Text.Free (· == '-') (a.digits ++ year) := by
  intro c hc
  rcases List.mem_append.1 hc with hc | hc
  · exact Amount.free_digits (p := (· == '-')) (fun d hd => Amount.ne_of_isDigit hd rfl) rfl a c hc
  · exact Amount.ne_of_isDigit (List.all_eq_true.1 h c hc) rfl

/-- The first hyphen after an amount is the one after the year of the stamp. -/
theorem cutAt?_amount_stamp (a : Amount) {s : List Char} {t : Instant} (h : Stamp.chars? s = some t)
    (r : List Char) : ∃ year rest, year.length = 4 ∧
      Text.cutAt? (· == '-') (a.digits ++ (s ++ r)) = some (a.digits ++ year, rest) := by
  obtain ⟨year, rest, rfl, hl, hd⟩ := Stamp.year_of_chars? h
  exact ⟨year, rest ++ r, hl, Text.cutAt?_eq_some_iff.2 ⟨'-', rfl, by simp, free_amount_year a hd⟩⟩

/-- An amount ends four digits before the first hyphen after it. -/
theorem paid_eq_of_append_eq {a b : Amount} {s s' r r' : List Char} {t t' : Instant}
    (hs : Stamp.chars? s = some t) (hs' : Stamp.chars? s' = some t')
    (h : a.digits ++ (s ++ r) = b.digits ++ (s' ++ r')) : a = b := by
  obtain ⟨year, rest, hl, hcut⟩ := cutAt?_amount_stamp a hs r
  obtain ⟨year', rest', hl', hcut'⟩ := cutAt?_amount_stamp b hs' r'
  rw [h, hcut'] at hcut
  have hfront : b.digits ++ year' = a.digits ++ year := (Prod.mk.inj (Option.some.inj hcut)).1
  have hdigits := (List.append_inj' hfront (hl'.trans hl.symm)).1
  exact Amount.digits_injective hdigits.symm

/-- Notices for one account that have the same message are the same notice, if their stamps can be read. -/
theorem fields_eq_of_message_eq {n m : Notice} (haccount : n.account = m.account)
    (hn : (Stamp.read? n.sentAt).isSome = true) (hm : (Stamp.read? m.sentAt).isSome = true)
    (h : n.message = m.message) : n.paid = m.paid ∧ n.sentAt = m.sentAt ∧ n.reference = m.reference := by
  obtain ⟨t, ht⟩ := Option.isSome_iff_exists.1 hn
  obtain ⟨t', ht'⟩ := Option.isSome_iff_exists.1 hm
  have htail := message_eq_iff.1 h
  -- field by field from the front: the account, then the amount, then the stamp
  rw [haccount, List.append_cancel_left_eq] at htail
  have hpaid : n.paid = m.paid := paid_eq_of_append_eq ht ht' htail
  rw [hpaid, List.append_cancel_left_eq] at htail
  obtain ⟨hstamp, hreference⟩ := Stamp.eq_of_append_eq ht ht' htail
  exact ⟨hpaid, String.toList_inj.1 hstamp, String.toList_inj.1 hreference⟩

/-- A fraction and an offset in the stamp, and digits at the start of the reference. -/
theorem fields_eq_of_message_eq_offsetStamp :
    let n : Notice := ⟨"VA1", ⟨23, 1⟩, "2024-01-01T02:00:00.5+02:00", "12"⟩
    n.paid = ⟨23, 1⟩ ∧ n.sentAt = "2024-01-01T02:00:00.5+02:00" ∧ n.reference = "12" :=
  fields_eq_of_message_eq (m := ⟨"VA1", ⟨23, 1⟩, "2024-01-01T02:00:00.5+02:00", "12"⟩) rfl (by decide +kernel)
    (by decide +kernel) rfl

/-! ## One stamp and one reference -/

/-- The amount of `n` begins with characters that the account of `m` has after the account of `n`; the rest of
it is the amount of `m`. -/
def Shifts (n m : Notice) : Prop :=
  ∃ moved, moved ≠ [] ∧ m.account.toList = n.account.toList ++ moved ∧ n.paid.digits = moved ++ m.paid.digits

theorem Shifts.length_lt {n m : Notice} (h : n.Shifts m) : n.account.length < m.account.length := by
  obtain ⟨moved, hne, haccount, -⟩ := h
  have hpos := List.length_pos_of_ne_nil hne
  rw [← String.length_toList, ← String.length_toList, haccount, List.length_append]
  omega

theorem same_or_shifts {n m : Notice} {moved : List Char}
    (haccount : m.account.toList = n.account.toList ++ moved) (hpaid : n.paid.digits = moved ++ m.paid.digits) :
    (n.account = m.account ∧ n.paid = m.paid) ∨ n.Shifts m := by
  by_cases hne : moved = []
  · rw [hne, List.append_nil] at haccount
    rw [hne, List.nil_append] at hpaid
    exact .inl ⟨(String.toList_inj.1 haccount).symm, Amount.digits_injective hpaid⟩
  · exact .inr ⟨moved, hne, haccount, hpaid⟩

/-- An account and an amount after it can be cut apart in as many ways as characters can be moved. -/
theorem account_append_eq_iff {n m : Notice} :
    n.account.toList ++ n.paid.digits = m.account.toList ++ m.paid.digits ↔
      (n.account = m.account ∧ n.paid = m.paid) ∨ n.Shifts m ∨ m.Shifts n := by
  constructor
  · intro h
    rcases List.append_eq_append_iff.1 h with ⟨moved, haccount, hpaid⟩ | ⟨moved, haccount, hpaid⟩
    · rcases same_or_shifts haccount hpaid with hsame | hshifts
      · exact .inl hsame
      · exact .inr (.inl hshifts)
    · rcases same_or_shifts haccount hpaid with ⟨ha, hp⟩ | hshifts
      · exact .inl ⟨ha.symm, hp.symm⟩
      · exact .inr (.inr hshifts)
  · rintro (⟨haccount, hpaid⟩ | ⟨moved, -, haccount, hpaid⟩ | ⟨moved, -, haccount, hpaid⟩)
    · rw [haccount, hpaid]
    · rw [haccount, hpaid, List.append_assoc]
    · rw [haccount, hpaid, List.append_assoc]

theorem message_eq_iff_append_eq {n m : Notice} (hstamp : n.sentAt = m.sentAt)
    (hreference : n.reference = m.reference) :
    n.message = m.message ↔ n.account.toList ++ n.paid.digits = m.account.toList ++ m.paid.digits := by
  rw [message_eq_iff, hstamp, hreference, ← List.append_assoc, ← List.append_assoc m.account.toList,
    List.append_cancel_right_eq]

/-- With stamps and references alike, a message binds account and amount up to characters that move from one to
the other, and a signature binds them as far as its tag belongs to one message only. -/
theorem message_eq_iff_shifts {sent received : Notice} (hstamp : sent.sentAt = received.sentAt)
    (hreference : sent.reference = received.reference) :
    (sent.message = received.message ↔
      (sent.account = received.account ∧ sent.paid = received.paid) ∨ sent.Shifts received ∨
        received.Shifts sent) ∧
    (sent.account.length = received.account.length → ¬ sent.Shifts received ∧ ¬ received.Shifts sent) ∧
    ∀ secret now, received.verify (some (sent.sign secret)) secret now = .ok () →
      (sent.account = received.account ∧ sent.paid = received.paid) ∨ sent.Shifts received ∨
        received.Shifts sent ∨ sent.message ≠ received.message ∧
          Mac.tag secret (Bytes.ofText sent.message) = Mac.tag secret (Bytes.ofText received.message) := by
  have hmessage := (message_eq_iff_append_eq hstamp hreference).trans account_append_eq_iff
  refine ⟨hmessage, fun h => ⟨fun hs => hs.length_lt.ne h, fun hs => hs.length_lt.ne' h⟩, fun secret now h => ?_⟩
  obtain ⟨-, -, haccepts⟩ := verify_eq_ok_iff.1 h
  have htag := (Mac.accepts_signature_iff _ _ _).1 haccepts
  by_cases hsame : sent.message = received.message
  · rcases hmessage.1 hsame with heq | hshifts | hshifts
    · exact .inl heq
    · exact .inr (.inl hshifts)
    · exact .inr (.inr (.inl hshifts))
  · exact .inr (.inr (.inr ⟨hsame, htag⟩))

/-! ## A digit that moves -/

/-- Twenty-three paid into an account. -/
def twentyThree : Notice := ⟨"VA1", ⟨23, 0⟩, "2024-01-01T00:00:00Z", "mock-ref-1"⟩

/-- Three paid into the account whose name has one digit more. -/
def three : Notice := ⟨"VA12", ⟨3, 0⟩, "2024-01-01T00:00:00Z", "mock-ref-1"⟩

theorem message_eq_iff_shifts_movedDigit :
    (twentyThree.account = three.account ∧ twentyThree.paid = three.paid) ∨ twentyThree.Shifts three ∨
      three.Shifts twentyThree :=
  (message_eq_iff_shifts (show twentyThree.sentAt = three.sentAt from rfl) rfl).1.1 (by decide +kernel)

/-- The two have one message, so the signature of the one is accepted with the other, under every secret. -/
theorem movedDigit_accepted : twentyThree.sentAt = three.sentAt ∧ twentyThree.reference = three.reference ∧
    twentyThree.message = three.message ∧ twentyThree.account ≠ three.account ∧ twentyThree.paid ≠ three.paid ∧
    ∀ secret, three.verify (some (twentyThree.sign secret)) secret ⟨1704067200, 0⟩ = .ok () := by
  have hmessage : twentyThree.message = three.message := by decide +kernel
  have hread : Stamp.read? three.sentAt = some ⟨1704067200, 0⟩ := by decide +kernel
  refine ⟨rfl, rfl, hmessage, by decide +kernel, by decide +kernel, fun secret => ?_⟩
  rw [verify_sign_iff hread (by decide +kernel), hmessage]

end Tollgate.Notice
