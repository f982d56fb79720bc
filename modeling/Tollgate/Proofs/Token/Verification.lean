/-
Verification of tokens, exactly: a token is accepted if and only if it holds a header and claims, a key of
the set signed it, and its window is open; a token that is refused is refused for the first of these three
that fails. What is returned are the claims under the signature, the identifier of the first key that
signed, and the end of the window.
-/
import Tollgate.Proofs.Token.Reading

namespace Tollgate

namespace Token

/-! ## Keys -/

/-- A key that signed a token: it is not published for another algorithm, its identifier is not another
one than the token's, and it verifies the signature over the first two segments. -/
structure Signs (c : Compact) (h : Header) (k : VerificationKey) : Prop where
  algorithm : ∀ a, k.algorithm = some a → a = h.algorithm
  kid : ∀ ours theirs, k.kid = some ours → h.kid = some theirs → ours = theirs
  signature : ∃ octets, Base64url.decode? c.signature = some octets ∧
    k.key.verifies h.algorithm c.message octets = true

/-- A token that can have been signed at all: its algorithm knows public keys, and its claims can be read
once more. -/
structure Signable (c : Compact) (h : Header) : Prop where
  algorithm : h.algorithm ≠ .hs256 ∧ h.algorithm ≠ .hs384 ∧ h.algorithm ≠ .hs512
  claims : readsAgain c.claims = true

/-- The first key of a set that signed a token. -/
def FirstSigner (keys : KeySet) (c : Compact) (h : Header) (k : VerificationKey) : Prop :=
  ∃ before after, keys.keys = before ++ k :: after ∧ Signs c h k ∧ ∀ other ∈ before, ¬ Signs c h other

theorem fits_iff {k : VerificationKey} {kid : Option String} {a : Algorithm} : k.fits kid a = true ↔
    (∀ b, k.algorithm = some b → b = a) ∧
      ∀ ours theirs, k.kid = some ours → kid = some theirs → ours = theirs := by
  unfold VerificationKey.fits
  rw [Bool.and_eq_true]
  refine and_congr ?_ ?_
  · cases k.algorithm <;> simp
  · cases k.kid <;> cases kid <;> simp

theorem isSymmetric_eq_false_iff {a : Algorithm} :
    a.isSymmetric = false ↔ a ≠ .hs256 ∧ a ≠ .hs384 ∧ a ≠ .hs512 := by
  cases a <;> simp [Algorithm.isSymmetric]

theorem verifiesWith_iff {c : Compact} {a : Algorithm} {k : VerificationKey} : verifiesWith c a k = true ↔
    (∃ octets, Base64url.decode? c.signature = some octets ∧ k.key.verifies a c.message octets = true) ∧
      readsAgain c.claims = true := by
  unfold verifiesWith
  rw [Bool.and_eq_true, Option.any_eq_true]

/-- A key that may have signed a token and verifies it is one that signed it. -/
theorem signs_iff {c : Compact} {h : Header} (hs : Signable c h) (k : VerificationKey) :
    (k.fits h.kid h.algorithm && verifiesWith c h.algorithm k) = true ↔ Signs c h k := by
  rw [Bool.and_eq_true, fits_iff, verifiesWith_iff]
  constructor
  · rintro ⟨⟨ha, hk⟩, hv, -⟩; exact ⟨ha, hk, hv⟩
  · rintro ⟨ha, hk, hv⟩; exact ⟨⟨ha, hk⟩, hv, hs.claims⟩

theorem signer?_of_not_signable {c : Compact} {h : Header} (hs : ¬ Signable c h) (keys : KeySet) :
    signer? c h keys = none := by
  unfold signer?
  split
  · rfl
  · rename_i hsym
    rw [List.find?_eq_none]
    intro k _ hv
    exact hs ⟨isSymmetric_eq_false_iff.1 (by simpa using hsym), (verifiesWith_iff.1 hv).2⟩

theorem signer?_of_signable {c : Compact} {h : Header} (hs : Signable c h) (keys : KeySet) :
    signer? c h keys = keys.keys.find? fun k => k.fits h.kid h.algorithm && verifiesWith c h.algorithm k := by
  unfold signer? KeySet.candidates
  rw [isSymmetric_eq_false_iff.2 hs.algorithm, if_neg (by simp), List.find?_filter]
  congr 1; funext k
  rw [Bool.decide_and, Bool.decide_eq_true, Bool.decide_eq_true]

/-- The key that is found is the first one that signed. -/
theorem signer?_eq_some_iff {c : Compact} {h : Header} {keys : KeySet} {k : VerificationKey} :
    signer? c h keys = some k ↔ Signable c h ∧ FirstSigner keys c h k := by
  by_cases hs : Signable c h
  · rw [signer?_of_signable hs, List.find?_eq_some_iff_append, signs_iff hs]
    simp only [Bool.not_eq_true', ← Bool.not_eq_true, signs_iff hs, hs, true_and]
    constructor
    · rintro ⟨hk, before, after, hkeys, hb⟩; exact ⟨before, after, hkeys, hk, hb⟩
    · rintro ⟨before, after, hkeys, hk, hb⟩; exact ⟨hk, before, after, hkeys, hb⟩
  · rw [signer?_of_not_signable hs]
    simp [hs]

/-- No key is found exactly if none signed. -/
theorem signer?_eq_none_iff {c : Compact} {h : Header} {keys : KeySet} :
    signer? c h keys = none ↔ ¬ (Signable c h ∧ ∃ k ∈ keys.keys, Signs c h k) := by
  by_cases hs : Signable c h
  · rw [signer?_of_signable hs, List.find?_eq_none]
    simp only [signs_iff hs, hs, true_and, not_exists, not_and]
  · rw [signer?_of_not_signable hs]
    simp [hs]

/-! ## The window -/

/-- The seconds by which a leeway widens the window, at most as many as 64 bits hold. -/
def skew (leeway : Nat) : Int := min (leeway : Int) (2 ^ 63 - 1)

/-- Claims that hold now, until they expire. -/
structure Current (cl : Claims) (leeway : Nat) (now expires : Int) : Prop where
  stated : cl.expires = some expires
  running : now < plus expires (skew leeway)
  begun : ∀ start, cl.notBefore = some start → start ≤ plus now (skew leeway)
  representable : Instant.representable expires = true

theorem window_eq_ok_iff {cl : Claims} {leeway : Nat} {now e : Int} :
    window cl leeway now = .ok e ↔ Current cl leeway now e := by
  unfold window
  simp only [bind, Except.bind, pure, Except.pure, throw, throwThe, MonadExceptOf.throw]
  cases hx : cl.expires with
  | none =>
    simp only [reduceCtorEq, false_iff]
    intro h; rw [h.stated] at hx; cases hx
  | some expires =>
    constructor
    · intro h
      simp only at h
      split at h
      · cases h
      · rename_i h1
        split at h
        · cases h
        · rename_i h2
          split at h
          · cases h
          · rename_i h3
            cases h
            refine ⟨hx, Int.not_le.1 h1, fun start hs => ?_, by simpa using h3⟩
            rw [hs] at h2
            simpa [skew] using h2
    · rintro ⟨hs, h1, h2, h3⟩
      rw [hx] at hs; cases hs
      have hb : cl.notBefore.any (plus now (skew leeway) < ·) = false := by
        cases hn : cl.notBefore with
        | none => rfl
        | some start => simpa using h2 start hn
      unfold skew at h1 hb
      simp only [if_neg (Int.not_le.2 h1), hb, h3, Bool.not_true, Bool.false_eq_true, if_false]

/-! ## Verification -/

/-- Verification asks for what can be read, who signed and whether the window is open, in this order. -/
theorem verify_eq (token : String) (keys : KeySet) (leeway : Nat) (now : Int) :
    verify token keys leeway now = match read token with
      | .error part => .error (.malformed part)
      | .ok (c, h, cl) => match signer? c h keys with
        | none => .error .badSignature
        | some k => match window cl leeway now with
          | .error fault => .error (.outsideWindow fault)
          | .ok e => .ok ⟨cl, k.kid, h.algorithm, e⟩ := by
  unfold verify
  rcases read token with part | ⟨c, h, cl⟩
  · rfl
  · simp only [Except.mapError, bind, Except.bind]
    cases signer? c h keys with
    | none => rfl
    | some k => cases window cl leeway now <;> rfl

/-- An accepted token holds a header and claims, and a first key of the set signed it. -/
theorem firstSigner_of_verify {token : String} {keys : KeySet} {leeway : Nat} {now : Int} {t : VerifiedToken}
    (h : verify token keys leeway now = .ok t) :
    ∃ c hd cl k, Holds token c hd cl ∧ FirstSigner keys c hd k := by
  rw [verify_eq] at h
  rcases hread : read token with part | ⟨c, hd, cl⟩
  · rw [hread] at h; cases h
  · rw [hread] at h
    cases hsigner : signer? c hd keys with
    | none => simp [hsigner] at h
    | some k => exact ⟨c, hd, cl, k, read_eq_ok_iff.1 hread, (signer?_eq_some_iff.1 hsigner).2⟩

/-- What a token holds is determined by its text. -/
theorem Holds.unique {token : String} {c c' : Compact} {h h' : Header} {cl cl' : Claims}
    (h1 : Holds token c h cl) (h2 : Holds token c' h' cl') : c = c' ∧ h = h' ∧ cl = cl' := by
  have := (read_eq_ok_iff.2 h1).symm.trans (read_eq_ok_iff.2 h2)
  simpa using this

theorem Holds.exists_iff {token : String} {c : Compact} {h : Header} {cl : Claims} (hh : Holds token c h cl)
    {P : Compact → Header → Claims → Prop} : (∃ c h cl, Holds token c h cl ∧ P c h cl) ↔ P c h cl := by
  constructor
  · rintro ⟨c', h', cl', hh', hP⟩
    obtain ⟨rfl, rfl, rfl⟩ := hh.unique hh'; exact hP
  · intro hP; exact ⟨c, h, cl, hh, hP⟩

/-- What is accepted of a token that holds these: whatever its first signer and its window allow. -/
theorem Holds.accepted_iff {token : String} {c : Compact} {h : Header} {cl : Claims} (hh : Holds token c h cl)
    (keys : KeySet) (leeway : Nat) (now : Int) (t : VerifiedToken) :
    (∃ c h cl k e, Holds token c h cl ∧ (Signable c h ∧ FirstSigner keys c h k) ∧
        Current cl leeway now e ∧ t = ⟨cl, k.kid, h.algorithm, e⟩) ↔
      ∃ k e, signer? c h keys = some k ∧ window cl leeway now = .ok e ∧ t = ⟨cl, k.kid, h.algorithm, e⟩ := by
  constructor
  · rintro ⟨c', h', cl', k, e, hh', hs, hc, rfl⟩
    obtain ⟨rfl, rfl, rfl⟩ := hh.unique hh'
    exact ⟨k, e, signer?_eq_some_iff.2 hs, window_eq_ok_iff.2 hc, rfl⟩
  · rintro ⟨k, e, hs, hc, rfl⟩
    exact ⟨c, h, cl, k, e, hh, signer?_eq_some_iff.1 hs, window_eq_ok_iff.1 hc, rfl⟩

/-- A token is accepted if and only if it holds a header and claims, some key of the set signed it, and the
window of its claims is open; the result has these claims, the identifier of the first such key and the
end of the window. Otherwise the token is malformed if it does not hold both, else its signature is bad if
no key signed it, else it is outside its window. -/
theorem verify_exact (token : String) (keys : KeySet) (leeway : Nat) (now : Int) :
    (∀ t, verify token keys leeway now = .ok t ↔ ∃ c h cl k e, Holds token c h cl ∧
      (Signable c h ∧ FirstSigner keys c h k) ∧ Current cl leeway now e ∧ t = ⟨cl, k.kid, h.algorithm, e⟩) ∧
    ((∃ part, verify token keys leeway now = .error (.malformed part)) ↔
      ¬ ∃ c h cl, Holds token c h cl) ∧
    (verify token keys leeway now = .error .badSignature ↔
      ∃ c h cl, Holds token c h cl ∧ ¬ (Signable c h ∧ ∃ k ∈ keys.keys, Signs c h k)) ∧
    ((∃ fault, verify token keys leeway now = .error (.outsideWindow fault)) ↔
      ∃ c h cl, Holds token c h cl ∧ (Signable c h ∧ ∃ k ∈ keys.keys, Signs c h k) ∧
        ¬ ∃ e, Current cl leeway now e) := by
  rw [verify_eq]
  rcases hr : read token with part | ⟨c, h, cl⟩
  · have hno : ¬ ∃ c h cl, Holds token c h cl := by
      rintro ⟨c, h, cl, hh⟩
      rw [read_eq_ok_iff.2 hh] at hr; cases hr
    refine ⟨fun t => ⟨nofun, ?_⟩, ⟨fun _ => hno, fun _ => ⟨part, rfl⟩⟩, ⟨nofun, ?_⟩, ⟨nofun, ?_⟩⟩
    · rintro ⟨c, h, cl, -, -, hh, -⟩; exact absurd ⟨c, h, cl, hh⟩ hno
    · rintro ⟨c, h, cl, hh, -⟩; exact absurd ⟨c, h, cl, hh⟩ hno
    · rintro ⟨c, h, cl, hh, -⟩; exact absurd ⟨c, h, cl, hh⟩ hno
  · have hh := read_eq_ok_iff.1 hr
    have hopen : (∃ e, Current cl leeway now e) ↔ ∃ e, window cl leeway now = .ok e := by
      simp only [window_eq_ok_iff]
    have hfound : (Signable c h ∧ ∃ k ∈ keys.keys, Signs c h k) ↔ signer? c h keys ≠ none := by
      rw [ne_eq, signer?_eq_none_iff, Classical.not_not]
    have hheld : ∃ c h cl, Holds token c h cl := ⟨c, h, cl, hh⟩
    simp only [hh.accepted_iff]
    rw [hh.exists_iff, hh.exists_iff, hopen, hfound]
    cases hs : signer? c h keys with
    | none => simp [hheld]
    | some k => cases hw : window cl leeway now <;> simp [hheld, eq_comm]

/-! ## A token that verifies -/

/-- A token that grants the administration of wallets and expires in the year 2033. -/
def sampleToken : String :=
  "eyJ0eXAiOiJKV1QiLCJhbGciOiJFZERTQSIsImtpZCI6ImsifQ" ++ "." ++
  "eyJleHAiOjIwMDAwMDAwMDAsImp0aSI6ImEiLCJzY29wZSI6IndhbGxldDphZG1pbiJ9" ++ "." ++
  "Y3b_V7DejTxnpunlSdhKAMLA4fasidU7lOZ7nmRMNodyCcPakrL0uw96YrqjLmkjC1a28X-P9PKwM38RujpcBw"

/-- The key that signed it. -/
def sampleKeys : KeySet :=
  ⟨[⟨some "k", some .eddsa,
    .edwards ((Base64url.decode? "6kpsY-KcUgq-9VB7Ey7F-ZVHdq6-vnuSQh7qaRRG0iw".toList).getD [])⟩], by simp⟩

theorem verify_sampleToken : ∃ t, verify sampleToken sampleKeys 0 1800000000 = .ok t ∧
    t.jti = some "a" ∧ t.claims.scopes = ["wallet:admin"] := by
  have h : (verify sampleToken sampleKeys 0 1800000000).toOption.map (fun t => (t.jti, t.claims.scopes)) =
      some (some "a", ["wallet:admin"]) := by decide +kernel
  cases hv : verify sampleToken sampleKeys 0 1800000000 with
  | error fault => rw [hv] at h; cases h
  | ok t =>
    rw [hv] at h
    simp only [Except.toOption, Option.map_some, Option.some.injEq, Prod.mk.injEq] at h
    exact ⟨t, rfl, h⟩

end Token

end Tollgate
