/-
What the deny list leads to: a token is refused exactly if it has an identifier that is not empty and the
store answers that there is a key for it. A store that fails, and a token without an identifier, refuse
nobody.
-/
import Tollgate.Guard.Denylist
import Tollgate.Proofs.Store.Plan

namespace Tollgate

/-! ## The deny list -/

theorem VerifiedToken.jti_eq_some_iff {t : VerifiedToken} {jti : String} :
    t.jti = some jti ↔ t.claims.jti = some jti ∧ jti ≠ "" := by
  unfold VerifiedToken.jti
  rw [Option.filter_eq_some_iff, Bool.not_eq_true', String.isEmpty_eq_false_iff]

namespace Denylist

variable {σ : Type} (serve : σ → (c : Command) → c.Reply × σ)

/-- The store holds the key of a token's identifier. -/
def Lists (d : Denylist) (s : σ) (t : VerifiedToken) : Prop :=
  ∃ jti, t.claims.jti = some jti ∧ jti ≠ "" ∧ (serve s (.contains (d.stem ++ jti))).1 = .ok true

theorem run_admission_of_jti_none (d : Denylist) (s : σ) {t : VerifiedToken} (h : t.jti = none) :
    (d.admission (some t)).run serve s = (.passThrough, s) := by
  unfold admission
  rw [Option.bind_some, h]
  rfl

/-- One question to the store, and its answer decides. -/
theorem run_admission_of_jti (d : Denylist) (s : σ) {t : VerifiedToken} {jti : String} (h : t.jti = some jti) :
    (d.admission (some t)).run serve s =
      (if listing (serve s (.contains (d.stem ++ jti))).1 = .listed then Admission.reject jti
        else Admission.passThroughAfterCheck, (serve s (.contains (d.stem ++ jti))).2) := by
  have hcheck : (d.check jti).run serve s = (listing (serve s (.contains (d.stem ++ jti))).1,
      (serve s (.contains (d.stem ++ jti))).2) := rfl
  unfold admission
  rw [Option.bind_some, h]
  show Plan.run serve s (d.check jti >>= _) = _
  rw [Plan.run_bind, hcheck]
  cases listing (serve s (.contains (d.stem ++ jti))).1 <;> rfl

theorem listing_eq_listed_iff {reply : Except StoreFault Bool} : listing reply = .listed ↔ reply = .ok true := by
  rcases reply with fault | (_ | _) <;> simp [listing]

/-- A token is refused exactly if the deny list lists it. -/
theorem isRejected_iff (d : Denylist) (s : σ) (t : VerifiedToken) :
    ((d.admission (some t)).run serve s).1.isRejected = true ↔ d.Lists serve s t := by
  unfold Lists
  cases h : t.jti with
  | none =>
    rw [run_admission_of_jti_none serve d s h]
    constructor
    · nofun
    · rintro ⟨jti, h1, h2, -⟩
      rw [VerifiedToken.jti_eq_some_iff.2 ⟨h1, h2⟩] at h; cases h
  | some jti =>
    rw [run_admission_of_jti serve d s h]
    obtain ⟨h1, h2⟩ := VerifiedToken.jti_eq_some_iff.1 h
    constructor
    · intro hr
      refine ⟨jti, h1, h2, Classical.byContradiction fun hn => ?_⟩
      rw [if_neg (fun hl => hn (listing_eq_listed_iff.1 hl))] at hr; cases hr
    · rintro ⟨jti', h1', -, ha⟩
      rw [h1] at h1'; cases h1'
      rw [if_pos (listing_eq_listed_iff.2 ha)]; rfl

theorem sends_admission (d : Denylist) (token : Option VerifiedToken) :
    (d.admission token).Sends (·.isLookup = true) := by
  unfold admission
  split
  · trivial
  · refine Plan.Sends.bind (Plan.Sends.bind (p := .query _) ⟨rfl, fun _ => trivial⟩ fun _ => trivial) fun answer => ?_
    split <;> trivial

theorem not_lists_stalled (d : Denylist) (t : VerifiedToken) : ¬ d.Lists Plan.stalled () t := by
  rintro ⟨jti, -, -, h⟩; cases h

end Denylist

end Tollgate
