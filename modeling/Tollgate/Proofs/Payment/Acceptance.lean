/-
What the receiver accepts: the checks one after the other are all the conditions together, the first of
them that fails is the one that is named, and of a signature that some sender made only the tag counts.
Whether a stamp is timely is asked of its instant, in whatever zone it is written.
-/
import Tollgate.Payment.Notice
import Tollgate.Proofs.Crypto.Mac
import Tollgate.Proofs.Time.Stamp

namespace Tollgate

/-- Whole minutes are at most as many as are allowed when less than one minute more has passed. -/
theorem Instant.minutesApart_le_iff {t u : Instant} {minutes : Nat} :
    t.minutesApart u ≤ minutes ↔ (t.nanosSince u).natAbs < (minutes + 1) * (60 * nanosPerSecond) := by
  rw [minutesApart, ← Nat.lt_succ_iff, Nat.div_lt_iff_lt_mul (by decide)]

/-- Leap seconds are counted alike in both directions. -/
theorem Instant.nanosSince_swap (t u : Instant) : u.nanosSince t = -t.nanosSince u := by
  unfold nanosSince
  dsimp only
  -- at the same time of day neither counts, else the one that is earlier in the day
  rcases lt_trichotomy t.secondOfDay u.secondOfDay with h | h | h
  · rw [if_pos h, if_neg (Int.not_lt.2 h.le), if_pos h]
    cases t.inLeap
    · simp only [Bool.false_eq_true, if_false]; ring
    · simp only [if_true]; ring
  · simp only [h, Int.lt_irrefl, if_false]
    ring
  · rw [if_neg (Int.not_lt.2 h.le), if_pos h, if_pos h]
    cases u.inLeap
    · simp only [Bool.false_eq_true, if_false]; ring
    · simp only [if_true]; ring

theorem Instant.minutesApart_comm (t u : Instant) : t.minutesApart u = u.minutesApart t := by
  rw [minutesApart, minutesApart, t.nanosSince_swap u, Int.natAbs_neg]

namespace Notice

theorem verify_eq (n : Notice) (signature : Option String) (secret : Bytes) (now : Instant) :
    n.verify signature secret now =
      if (Text.trimmed (signature.getD "").toList).isEmpty = true then .error .missingSignature
      else match Stamp.read? n.sentAt with
        | none => .error (.invalidStamp .unreadable)
        | some t =>
          if maxMinutes < now.minutesApart t then
            .error (.invalidStamp (.distant n.sentAt (now.minutesApart t)))
          else if Mac.accepts secret (Bytes.ofText n.message) (signature.getD "") = true then .ok ()
          else .error .invalidSignature := by
  unfold verify
  dsimp only
  cases Stamp.read? n.sentAt with
  | none => split <;> rfl
  | some t =>
    by_cases hblank : (Text.trimmed (signature.getD "").toList).isEmpty = true
    · rw [if_pos hblank, if_pos hblank]; rfl
    · by_cases hfar : maxMinutes < now.minutesApart t
      · simp only [hblank, hfar, if_true]; rfl
      · simp only [hblank, hfar, if_false]
        split <;> rfl

/-- A notice is accepted when it carries a signature, its stamp is one of an instant nearby, and the
signature is the one of its message. -/
theorem verify_eq_ok_iff {n : Notice} {signature : Option String} {secret : Bytes} {now : Instant} :
    n.verify signature secret now = .ok () ↔
      (Text.trimmed (signature.getD "").toList).isEmpty = false ∧
        (∃ t, Stamp.read? n.sentAt = some t ∧ now.minutesApart t ≤ maxMinutes) ∧
        Mac.accepts secret (Bytes.ofText n.message) (signature.getD "") = true := by
  rw [verify_eq]
  -- one case for each check, in their order
  cases hblank : (Text.trimmed (signature.getD "").toList).isEmpty with
  | true => simp
  | false =>
    cases hread : Stamp.read? n.sentAt with
    | none => simp
    | some t =>
      by_cases hfar : maxMinutes < now.minutesApart t
      · simp [hfar]
      · have hnear : now.minutesApart t ≤ maxMinutes := by omega
        cases Mac.accepts secret (Bytes.ofText n.message) (signature.getD "") <;> simp [hfar, hnear]

/-- The signature of a notice that was sent is accepted with a notice that arrives nearby exactly when the
messages of the two have the same tag. -/
theorem verify_sign_iff {sent received : Notice} {secret : Bytes} {now t : Instant}
    (hread : Stamp.read? received.sentAt = some t) (hnear : now.minutesApart t ≤ maxMinutes) :
    received.verify (some (sent.sign secret)) secret now = .ok () ↔
      Mac.tag secret (Bytes.ofText sent.message) = Mac.tag secret (Bytes.ofText received.message) := by
  rw [verify_eq_ok_iff, Option.getD_some, sign, Mac.accepts_signature_iff]
  exact ⟨fun h => h.2.2, fun h => ⟨Mac.signature_ne_blank _ _, ⟨t, hread, hnear⟩, h⟩⟩

/-! ## Which check fails -/

/-- There is a signature, and not a blank one. -/
def IsSigned (signature : Option String) : Prop := ∃ s, signature = some s ∧ Text.trimmed s.toList ≠ []

/-- Less than six minutes lie between two instants, in either order. -/
def Near (now t : Instant) : Prop :=
  -(6 * 60 * Instant.nanosPerSecond : Int) < now.nanosSince t ∧
    now.nanosSince t < 6 * 60 * Instant.nanosPerSecond

/-- The stamp of a notice is that of an instant nearby. -/
def IsTimely (n : Notice) (now : Instant) : Prop := ∃ t, Stamp.read? n.sentAt = some t ∧ Near now t

/-- A signature is that of the message. -/
def Fits (n : Notice) (secret : Bytes) (signature : Option String) : Prop :=
  ∃ s, signature = some s ∧ Mac.accepts secret (Bytes.ofText n.message) s = true

theorem isSigned_iff (signature : Option String) :
    IsSigned signature ↔ (Text.trimmed (signature.getD "").toList).isEmpty = false := by
  cases signature with
  | none => simp [IsSigned, Text.trimmed, Text.trimmedLeft, Text.trimmedRight]
  | some s =>
    rw [Option.getD_some, List.isEmpty_eq_false_iff]
    constructor
    · rintro ⟨s', hs, hne⟩
      rwa [Option.some.inj hs]
    · exact fun hne => ⟨s, rfl, hne⟩

/-- Five whole minutes are allowed, so the sixth one is not reached. -/
theorem minutesApart_le_maxMinutes_iff (now t : Instant) : now.minutesApart t ≤ maxMinutes ↔ Near now t := by
  unfold Near
  rw [Instant.minutesApart_le_iff, maxMinutes, Instant.nanosPerSecond]
  omega

theorem Near.comm (now t : Instant) : Near now t ↔ Near t now := by
  rw [← minutesApart_le_maxMinutes_iff, Instant.minutesApart_comm, minutesApart_le_maxMinutes_iff]

theorem isTimely_iff_near {n : Notice} {now t : Instant} (hread : Stamp.read? n.sentAt = some t) :
    n.IsTimely now ↔ Near now t := by
  constructor
  · rintro ⟨u, hu, hnear⟩
    rw [hread] at hu
    cases hu; exact hnear
  · exact fun hnear => ⟨t, hread, hnear⟩

theorem not_isTimely {n : Notice} (hread : Stamp.read? n.sentAt = none) (now : Instant) : ¬n.IsTimely now := by
  rintro ⟨t, ht, -⟩
  rw [hread] at ht; cases ht

theorem fits_some_iff (n : Notice) (secret : Bytes) (s : String) :
    n.Fits secret (some s) ↔ Mac.accepts secret (Bytes.ofText n.message) s = true := by
  constructor
  · rintro ⟨s', hs, hfits⟩
    cases hs; exact hfits
  · exact fun hfits => ⟨s, rfl, hfits⟩

/-- The stamp of an instant is as timely in every zone. -/
theorem isTimely_zoned (n : Notice) (now : Instant) {t : Instant} {o : Int} {zone : List Char}
    (hzone : Stamp.offset? zone = some o) (hv : (Stamp.clockAt t o).isRegular = true)
    (hy : 0 ≤ (Stamp.clockAt t o).date.year ∧ (Stamp.clockAt t o).date.year ≤ 9999) :
    IsTimely { n with sentAt := String.ofList (Stamp.zoned t o zone) } now ↔ Near now t := by
  apply isTimely_iff_near
  rw [Stamp.read?, String.toList_ofList, Stamp.chars?_zoned hzone hv hy]

/-- The verdict on a notice, as its three conditions have it. -/
theorem verify_cases (n : Notice) (signature : Option String) (secret : Bytes) (now : Instant) :
    (¬IsSigned signature ∧ n.verify signature secret now = .error .missingSignature) ∨
    (IsSigned signature ∧ ¬n.IsTimely now ∧
      ∃ fault, n.verify signature secret now = .error (.invalidStamp fault)) ∨
    (IsSigned signature ∧ n.IsTimely now ∧ ¬n.Fits secret signature ∧
      n.verify signature secret now = .error .invalidSignature) ∨
    (IsSigned signature ∧ n.IsTimely now ∧ n.Fits secret signature ∧
      n.verify signature secret now = .ok ()) := by
  rw [verify_eq]
  by_cases hsigned : IsSigned signature
  · have hblank := (isSigned_iff signature).1 hsigned
    obtain ⟨s, rfl, -⟩ := id hsigned
    rw [hblank, if_neg Bool.false_ne_true]
    refine .inr ?_
    cases hread : Stamp.read? n.sentAt with
    | none => exact .inl ⟨hsigned, not_isTimely hread now, _, rfl⟩
    | some t =>
      rw [isTimely_iff_near hread, ← minutesApart_le_maxMinutes_iff, fits_some_iff]
      dsimp only
      by_cases hfar : maxMinutes < now.minutesApart t
      · rw [if_pos hfar]
        exact .inl ⟨hsigned, Nat.not_le.2 hfar, _, rfl⟩
      · rw [if_neg hfar]
        have hnear := Nat.not_lt.1 hfar
        by_cases hfits : Mac.accepts secret (Bytes.ofText n.message) s = true
        · exact .inr (.inr ⟨hsigned, hnear, hfits, if_pos hfits⟩)
        · exact .inr (.inl ⟨hsigned, hnear, hfits, if_neg hfits⟩)
  · have hblank := mt (isSigned_iff signature).2 hsigned
    rw [Bool.not_eq_false] at hblank
    exact .inl ⟨hsigned, if_pos hblank⟩

/-- A notice is accepted exactly when it is signed, its stamp is of an instant less than six minutes away in
either direction, and the signature is that of its message; else the first of these that fails is named.
The distance is symmetric, is within five whole minutes exactly when it is below six, and is that of the
instant, whichever zone the stamp is written in. -/
theorem judged_in_order (n : Notice) (signature : Option String) (secret : Bytes) (now : Instant) :
    (n.verify signature secret now = .ok () ↔
      IsSigned signature ∧ n.IsTimely now ∧ n.Fits secret signature) ∧
    (n.verify signature secret now = .error .missingSignature ↔ ¬IsSigned signature) ∧
    ((∃ fault, n.verify signature secret now = .error (.invalidStamp fault)) ↔
      IsSigned signature ∧ ¬n.IsTimely now) ∧
    (n.verify signature secret now = .error .invalidSignature ↔
      IsSigned signature ∧ n.IsTimely now ∧ ¬n.Fits secret signature) ∧
    (∀ t, (Near now t ↔ Near t now) ∧ (now.minutesApart t ≤ 5 ↔ Near now t)) ∧
    (∀ (t : Instant) (o : Int) (zone : List Char), Stamp.offset? zone = some o →
      (Stamp.clockAt t o).isRegular = true →
      0 ≤ (Stamp.clockAt t o).date.year ∧ (Stamp.clockAt t o).date.year ≤ 9999 →
      (IsTimely { n with sentAt := String.ofList (Stamp.zoned t o zone) } now ↔ Near now t)) := by
  have hnear : ∀ t, (Near now t ↔ Near t now) ∧ (now.minutesApart t ≤ 5 ↔ Near now t) :=
    fun t => ⟨Near.comm now t, minutesApart_le_maxMinutes_iff now t⟩
  rcases verify_cases n signature secret now with ⟨h1, hv⟩ | ⟨h1, h2, _, hv⟩ | ⟨h1, h2, h3, hv⟩ | ⟨h1, h2, h3, hv⟩
  · refine ⟨?_, ?_, ?_, ?_, hnear, fun t o zone => isTimely_zoned n now⟩ <;> simp [hv, h1]
  · refine ⟨?_, ?_, ?_, ?_, hnear, fun t o zone => isTimely_zoned n now⟩ <;> simp [hv, h1, h2]
  · refine ⟨?_, ?_, ?_, ?_, hnear, fun t o zone => isTimely_zoned n now⟩ <;> simp [hv, h1, h2, h3]
  · refine ⟨?_, ?_, ?_, ?_, hnear, fun t o zone => isTimely_zoned n now⟩ <;> simp [hv, h1, h2, h3]

/-- Sent at midnight from a zone one hour ahead, and judged a nanosecond before six minutes are over. -/
theorem judged_in_order_abroad :
    String.ofList (Stamp.zoned ⟨1704067200, 0⟩ 60 "+01:00".toList) = "2024-01-01T01:00:00+01:00" ∧
    IsTimely ⟨"VA12", ⟨3, 0⟩, "2024-01-01T01:00:00+01:00", "ref-1"⟩ ⟨1704067559, 999999999⟩ := by
  have htext : String.ofList (Stamp.zoned ⟨1704067200, 0⟩ 60 "+01:00".toList) = "2024-01-01T01:00:00+01:00" := by
    decide +kernel
  refine ⟨htext, ?_⟩
  rw [← htext]
  refine ((judged_in_order ⟨"VA12", ⟨3, 0⟩, "", "ref-1"⟩ none [] ⟨1704067559, 999999999⟩).2.2.2.2.2
    ⟨1704067200, 0⟩ 60 "+01:00".toList ?_ ?_ ?_).2 ?_
  · decide +kernel
  · decide +kernel
  · decide +kernel
  · unfold Near; decide

end Notice

end Tollgate
