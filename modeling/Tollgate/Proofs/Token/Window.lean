/-
The window of a token on the line of whole numbers. Sums stop at the bounds of 64 bits, but what they are compared
with lies within these bounds, so that the window is the one that exact sums give. It only grows with the leeway, and
the instants in it are one interval.
-/
import Tollgate.Proofs.Text.Digits
import Tollgate.Proofs.Token.Verification

namespace Tollgate

open Json (Tree optional?)
open Text (fits64 fits64_iff)

namespace Claims

/-! ## Dates -/

/-- Claims whose dates are machine integers. -/
structure Dated (c : Claims) : Prop where
  expires : ∀ e, c.expires = some e → fits64 e = true
  notBefore : ∀ start, c.notBefore = some start → fits64 start = true

theorem fits64_clamped (n : Int) : fits64 (clamped n) = true := by
  rw [fits64_iff, clamped]
  omega

theorem fits64_of_date? {t : Tree} {n : Int} (h : date? t = some n) : fits64 n = true := by
  unfold date? at h
  split at h
  · obtain ⟨number, -, rfl⟩ := Option.map_eq_some_iff.1 h
    cases number <;> exact fits64_clamped _
  · cases h

theorem fits64_of_optional? {t : Option Tree} {d : Option Int} (h : optional? date? t = some d) {n : Int}
    (hn : d = some n) : fits64 n = true := by
  subst hn
  unfold optional? at h
  split at h
  · cases h
  · cases h
  · obtain ⟨m, hm, hd⟩ := Option.map_eq_some_iff.1 h
    cases hd
    exact fits64_of_date? hm

/-- The dates of claims that were read are machine integers, whatever numbers stood in the text. -/
theorem dated_of_ofTree? {t : Tree} {c : Claims} (h : ofTree? t = some c) : c.Dated := by
  unfold ofTree? at h
  split at h
  · simp only [Option.bind_eq_bind, Option.bind_eq_some_iff] at h
    obtain ⟨_, -, _, -, _, -, _, -, expires, he, notBefore, hs, _, -, _, -, h⟩ := h
    cases h
    exact ⟨fun _ => fits64_of_optional? he, fun _ => fits64_of_optional? hs⟩
  · cases h

end Claims

namespace Token

/-! ## Sums that stop at the bounds -/

theorem plus_mono {a a' b b' : Int} (ha : a ≤ a') (hb : b ≤ b') : plus a b ≤ plus a' b' := by
  unfold plus Claims.clamped
  omega

/-- An instant before the last one is before a sum exactly if it is before the exact sum. -/
theorem lt_plus_iff {now e by_ : Int} (hnow : now < 2 ^ 63 - 1) (he : fits64 e = true) (hby : 0 ≤ by_) :
    now < plus e by_ ↔ now < e + by_ := by
  rw [fits64_iff] at he
  unfold plus Claims.clamped
  omega

/-- A machine integer is reached by a sum exactly if the exact sum reaches it. -/
theorem le_plus_iff {now start by_ : Int} (hnow : -2 ^ 63 ≤ now) (hs : fits64 start = true) (hby : 0 ≤ by_) :
    start ≤ plus now by_ ↔ start ≤ now + by_ := by
  rw [fits64_iff] at hs
  unfold plus Claims.clamped
  omega

theorem skew_of_lt {leeway : Nat} (h : leeway < 2 ^ 63) : skew leeway = leeway := by
  unfold skew
  omega

theorem skew_mono {leeway wider : Nat} (h : leeway ≤ wider) : skew leeway ≤ skew wider := by
  unfold skew
  omega

/-! ## The window -/

variable {c : Claims} {leeway wider : Nat} {now a b e : Int}

/-- Claims that hold at an instant until they expire, by exact sums. -/
structure Lasts (c : Claims) (leeway : Nat) (now expires : Int) : Prop where
  stated : c.expires = some expires
  running : now < expires + leeway
  begun : ∀ start, c.notBefore = some start → start ≤ now + leeway
  representable : Instant.representable expires = true

/-- No sum that matters comes to the bounds. -/
theorem window_eq_ok_iff_lasts (hc : c.Dated) (hl : leeway < 2 ^ 63) (hlow : -2 ^ 63 ≤ now) (hnow : now < 2 ^ 63 - 1) :
    window c leeway now = .ok e ↔ Lasts c leeway now e := by
  have hby : (0 : Int) ≤ leeway := Int.natCast_nonneg leeway
  rw [window_eq_ok_iff]
  constructor
  · rintro ⟨hstated, hrunning, hbegun, hrepresentable⟩
    rw [skew_of_lt hl] at hrunning hbegun
    refine ⟨hstated, (lt_plus_iff hnow (hc.expires e hstated) hby).1 hrunning, ?_, hrepresentable⟩
    intro start hs
    exact (le_plus_iff hlow (hc.notBefore start hs) hby).1 (hbegun start hs)
  · rintro ⟨hstated, hrunning, hbegun, hrepresentable⟩
    refine ⟨hstated, ?_, ?_, hrepresentable⟩
    · rw [skew_of_lt hl]
      exact (lt_plus_iff hnow (hc.expires e hstated) hby).2 hrunning
    · intro start hs
      rw [skew_of_lt hl]
      exact (le_plus_iff hlow (hc.notBefore start hs) hby).2 (hbegun start hs)

/-- A longer leeway lets the same claims hold. -/
theorem Current.mono (h : Current c leeway now e) (hw : leeway ≤ wider) : Current c wider now e where
  stated := h.stated
  running := lt_of_lt_of_le h.running (plus_mono le_rfl (skew_mono hw))
  begun start hs := le_trans (h.begun start hs) (plus_mono le_rfl (skew_mono hw))
  representable := h.representable

/-- Claims that hold at two instants hold at all between: they have begun at the first, and run until the second. -/
theorem Current.between (ha : Current c leeway a e) (hb : Current c leeway b e) (han : a ≤ now) (hnb : now ≤ b) :
    Current c leeway now e where
  stated := ha.stated
  running := lt_of_le_of_lt hnb hb.running
  begun start hs := le_trans (ha.begun start hs) (plus_mono han le_rfl)
  representable := ha.representable

theorem Current.unique {e' : Int} (h : Current c leeway a e) (h' : Current c wider b e') : e = e' :=
  Option.some.inj (h.stated.symm.trans h'.stated)

theorem ordConnected_window (c : Claims) (leeway : Nat) :
    {now | ∃ e, window c leeway now = .ok e}.OrdConnected := by
  refine ⟨?_⟩
  rintro a ⟨e, ha⟩ b ⟨e', hb⟩ now ⟨han, hnb⟩
  rw [window_eq_ok_iff] at ha hb
  obtain rfl := ha.unique hb
  exact ⟨e, window_eq_ok_iff.2 (ha.between hb han hnb)⟩

/-! ## Tokens -/

/-- Claims of a token that can be read and that a key of the set signed. -/
def Trusted (token : String) (keys : KeySet) (cl : Claims) : Prop :=
  ∃ c h k, read token = .ok (c, h, cl) ∧ signer? c h keys = some k

theorem Trusted.unique {token : String} {keys : KeySet} {cl cl' : Claims} (h : Trusted token keys cl)
    (h' : Trusted token keys cl') : cl = cl' := by
  obtain ⟨_, _, _, hread, -⟩ := h
  obtain ⟨_, _, _, hread', -⟩ := h'
  rw [hread] at hread'
  cases hread'
  rfl

/-- Trusted claims were read from a text. -/
theorem Trusted.dated {token : String} {keys : KeySet} {cl : Claims} (h : Trusted token keys cl) : cl.Dated := by
  obtain ⟨_, _, _, hread, -⟩ := h
  obtain ⟨_, -, hcl⟩ := (read_eq_ok_iff.1 hread).claims
  exact Claims.dated_of_ofTree? hcl

/-- A token is accepted as long as the window of its trusted claims is open. -/
theorem exists_verify_iff {token : String} {keys : KeySet} : (∃ t, verify token keys leeway now = .ok t) ↔
    ∃ cl, Trusted token keys cl ∧ ∃ e, window cl leeway now = .ok e := by
  unfold Trusted
  rw [verify_eq]
  rcases read token with part | ⟨c, h, cl⟩
  · simp
  · cases hs : signer? c h keys with
    | none => simp [hs]
    | some k => cases hw : window cl leeway now <;> simp [hs, hw]

theorem ordConnected_verify (token : String) (keys : KeySet) (leeway : Nat) :
    {now | ∃ t, verify token keys leeway now = .ok t}.OrdConnected := by
  refine ⟨?_⟩
  intro a ha b hb now hbetween
  obtain ⟨cl, htrusted, ha⟩ := exists_verify_iff.1 ha
  obtain ⟨cl', htrusted', hb⟩ := exists_verify_iff.1 hb
  obtain rfl := htrusted.unique htrusted'
  exact exists_verify_iff.2 ⟨cl, htrusted, (ordConnected_window cl leeway).out ha hb hbetween⟩

/-- Claims whose dates are machine integers hold exactly as exact sums say: from the leeway before they begin until the
leeway after they expire, if they expire at an instant that there is. A longer leeway never refuses what a shorter one
accepts, and the instants at which they hold are one interval. So it is with every token, whose claims have such dates
if they can be read. -/
theorem window_by_exact_sums (c : Claims) (leeway : Nat) :
    (∀ now e : Int, c.Dated → leeway < 2 ^ 63 → -2 ^ 63 ≤ now → now < 2 ^ 63 - 1 →
      (window c leeway now = .ok e ↔ Lasts c leeway now e)) ∧
    (∀ (wider : Nat) (now : Int), leeway ≤ wider →
      (∃ e, window c leeway now = .ok e) → ∃ e, window c wider now = .ok e) ∧
    {now | ∃ e, window c leeway now = .ok e}.OrdConnected ∧
    ∀ (token : String) (keys : KeySet),
      (∀ now : Int, leeway < 2 ^ 63 → -2 ^ 63 ≤ now → now < 2 ^ 63 - 1 →
        ((∃ t, verify token keys leeway now = .ok t) ↔ ∃ cl e, Trusted token keys cl ∧ Lasts cl leeway now e)) ∧
      {now | ∃ t, verify token keys leeway now = .ok t}.OrdConnected := by
  refine ⟨fun now e hc hl hlow hnow => window_eq_ok_iff_lasts hc hl hlow hnow, ?_, ordConnected_window c leeway,
    fun token keys => ⟨fun now hl hlow hnow => ?_, ordConnected_verify token keys leeway⟩⟩
  · rintro wider now hw ⟨e, he⟩
    exact ⟨e, window_eq_ok_iff.2 ((window_eq_ok_iff.1 he).mono hw)⟩
  · rw [exists_verify_iff]
    constructor
    · rintro ⟨cl, htrusted, e, he⟩
      exact ⟨cl, e, htrusted, (window_eq_ok_iff_lasts htrusted.dated hl hlow hnow).1 he⟩
    · rintro ⟨cl, e, htrusted, he⟩
      exact ⟨cl, htrusted, e, (window_eq_ok_iff_lasts htrusted.dated hl hlow hnow).2 he⟩

/-- Claims that begin at the last instant of 64 bits, and expire at the last second that there is. -/
def extremeClaims : Claims := ⟨none, none, none, some Instant.lastSecond, some (2 ^ 63 - 1), none, []⟩

theorem dated_extremeClaims : extremeClaims.Dated where
  expires _ h := by cases h; decide
  notBefore _ h := by cases h; decide

/-- The longest leeway reaches from the last instant back to zero and no further. -/
theorem window_by_exact_sums_extreme :
    window extremeClaims (2 ^ 63 - 1) 0 = .ok Instant.lastSecond ∧
    (¬ ∃ e, window extremeClaims (2 ^ 63 - 1) (-1) = .ok e) ∧
    (∃ e, window extremeClaims (2 ^ 64) 0 = .ok e) ∧
    ∃ e, window extremeClaims (2 ^ 63 - 1) 1800000000 = .ok e := by
  obtain ⟨hexact, hmono, hinterval, -⟩ := window_by_exact_sums extremeClaims (2 ^ 63 - 1)
  have hiff := fun now e => hexact now e dated_extremeClaims (by decide)
  have hbegun : ∀ now : Int, 0 ≤ now →
      ∀ start, extremeClaims.notBefore = some start → start ≤ now + ((2 ^ 63 - 1 : Nat) : Int) := by
    intro now hnow start hs
    cases hs
    omega
  have hzero := (hiff 0 _ (by decide) (by decide)).2 ⟨rfl, by decide, hbegun 0 le_rfl, by decide⟩
  have hlast := (hiff (2 ^ 63 - 2) _ (by decide) (by decide)).2 ⟨rfl, by decide, hbegun _ (by decide), by decide⟩
  refine ⟨hzero, ?_, hmono _ _ (by decide) ⟨_, hzero⟩,
    hinterval.out ⟨_, hzero⟩ ⟨_, hlast⟩ ⟨by decide, by decide⟩⟩
  rintro ⟨e, he⟩
  have hearly := ((hiff (-1) e (by decide) (by decide)).1 he).begun (2 ^ 63 - 1) rfl
  exact absurd hearly (by decide)

end Token

end Tollgate
