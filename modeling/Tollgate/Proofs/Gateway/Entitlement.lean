/-
Who is let through. A caller is entitled to a path if the path is one that is let pass, and the one token that
the request carries verifies, is not listed, and grants the scope of the rule that governs the path. Whoever
is entitled is let through, but for one case: on the gateway's own endpoints nobody is asked for a token, so
under a rule everybody is refused there for lack of scope.
-/
import Tollgate.Proofs.Gateway.Relay

namespace Tollgate.Gateway

namespace Gate

open Stage (handed Refuses)

variable {σ : Type} (serve : σ → (c : Command) → c.Reply × σ)
  (behind : Option VerifiedToken → σ → (Ending × List Event) × σ)

/-- A request that carries one field of credentials, with a token that entitles to what is asked for. -/
structure Entitled (g : Gate) (s : σ) (r : Request) (t : VerifiedToken) : Prop where
  path : Path.check r.target.path = .ok r.target.path
  credentials : ∃ value token, r.headers.values "authorization" = [value] ∧
    Credentials.ofValue value = .ok token ∧ g.Verifies token t
  unlisted : ¬ g.denylist.Lists serve s t
  scope : g.Grants r.target.path t

variable {serve} in
theorem Entitled.carries {g : Gate} {s : σ} {r : Request} {t : VerifiedToken} (h : g.Entitled serve s r t) :
    g.Carries r.headers t := by
  obtain ⟨value, token, hv, ho, ht⟩ := h.credentials
  exact ⟨value, token, by rw [Headers.first?, hv]; rfl, ho, ht⟩

variable {serve} in
/-- Where a token is asked for, or no rule fits, an entitled caller is admitted. -/
theorem Entitled.admits {g : Gate} {s : σ} {r : Request} {t : VerifiedToken} (h : g.Entitled serve s r t)
    (hn : ¬ (Settings.Own r.target.path ∧ g.settings.Ruled r.target.path)) :
    ∃ x, g.Admits serve s r x := by
  by_cases hp : g.settings.Protected r.target.path
  · exact ⟨some t, .bearing h.path hp h.carries h.unlisted h.scope⟩
  · have hr : ¬ g.settings.Ruled r.target.path := fun hr => hp ⟨fun ho => hn ⟨ho, hr⟩, fun _ => hr⟩
    exact ⟨none, .openly h.path (Settings.open_of_not_protected hp hr)⟩

variable {serve} in
/-- Under a rule the gateway's own endpoints refuse everybody, whatever a token grants. -/
theorem Entitled.refuses_own {g : Gate} {s : σ} {r : Request} {t : VerifiedToken} (h : g.Entitled serve s r t)
    (ho : Settings.Own r.target.path) {rule : ScopeRule} (hg : g.settings.Governs r.target.path rule) :
    Refuses serve behind (g.admission r) s (.insufficientScope rule.scope) := by
  have hp : ¬ g.settings.Protected r.target.path := fun hp => hp.1 ho
  rw [admission_of_not_protected h.path hp, enforce_of_not_grants hg (fun t h => by cases h)]
  exact .note _ _ (refuses_refuse serve behind s _)

/-- An entitled caller is let through exactly if the path is not one of the gateway's own under a rule; there
the refusal is that of a token without the scope. -/
theorem handed_entitled_iff {g : Gate} {s : σ} {r : Request} {t : VerifiedToken} (h : g.Entitled serve s r t) :
    ((∃ x, handed serve behind (g.admission r) s = [x]) ↔
      ¬ (Settings.Own r.target.path ∧ g.settings.Ruled r.target.path)) ∧
    ∀ rule, Settings.Own r.target.path → g.settings.Governs r.target.path rule →
      Refuses serve behind (g.admission r) s (.insufficientScope rule.scope) := by
  refine ⟨⟨?_, fun hn => ?_⟩, fun rule ho hg => h.refuses_own behind ho hg⟩
  · rintro ⟨x, hx⟩ ⟨ho, hr⟩
    obtain ⟨rule, hg⟩ := hr.exists_governs
    rw [(h.refuses_own behind ho hg).handed] at hx; cases hx
  · obtain ⟨x, hx⟩ := h.admits hn
    exact ⟨x, (handed_iff serve behind).2 hx⟩

end Gate

/-- A gateway that is for administrators only. -/
def guardedGateway : Variables
  | "UPSTREAM_URL" => some "http://upstream:9000"
  | "JWKS_URL" => some "http://keys/jwks.json"
  | "SCOPE_RULES" => some "/=wallet:admin"
  | _ => none

/-- The settings of that gateway, as far as they decide about an administrator's request. -/
theorem read_guardedGateway : ∃ settings, Settings.read guardedGateway = .ok settings ∧
    settings.scopeRules = [⟨"/", "wallet:admin"⟩] ∧ settings.clockSkew = 0 := by
  have h : (Settings.read guardedGateway).map (fun s => (s.scopeRules, s.clockSkew)) =
      .ok ([⟨"/", "wallet:admin"⟩], 0) := by decide +kernel
  obtain ⟨settings, hr, hparts⟩ := exists_of_map_eq_ok h
  simp only [Prod.mk.injEq] at hparts
  exact ⟨settings, hr, hparts⟩

/-- An administrator's request for the report on the gateway. -/
def healthRequest : Request where
  method := "GET"
  target := ⟨none, "/health".toList, none⟩
  headers := [⟨"authorization", sampleCredentials⟩]
  peer := none
  body := []

/-- The administrator is entitled to the report, which is one of the gateway's own endpoints under a rule. -/
theorem entitled_healthRequest : ∃ settings t, Settings.read guardedGateway = .ok settings ∧
    Gate.Entitled Plan.stalled (sampleGate settings) () healthRequest t ∧
    Settings.Own healthRequest.target.path ∧
    settings.Governs healthRequest.target.path ⟨"/", "wallet:admin"⟩ := by
  obtain ⟨settings, hr, hrules, hskew⟩ := read_guardedGateway
  obtain ⟨t, ht, -, hscopes⟩ := Token.verify_sampleToken
  have hgoverns : settings.Governs healthRequest.target.path ⟨"/", "wallet:admin"⟩ :=
    ⟨[], [], hrules, by unfold ScopeRule.Fits; decide, nofun, nofun⟩
  refine ⟨settings, t, hr, ⟨by decide +kernel, ?_, Denylist.not_lists_stalled _ t, ?_⟩, ?_, hgoverns⟩
  · refine ⟨sampleCredentials, Token.sampleToken, by simp [Headers.values, healthRequest],
      ofValue_sampleCredentials, _, rfl, ?_⟩
    unfold sampleGate
    rw [hskew]; exact ht
  · intro rule hg
    obtain rfl := hg.unique hgoverns
    unfold VerifiedToken.hasScope
    rw [hscopes]; rfl
  · exact ⟨"/health", by decide, rfl⟩

theorem handed_entitled_iff_healthRequest : ∃ settings t, Settings.read guardedGateway = .ok settings ∧
    Gate.Entitled Plan.stalled (sampleGate settings) () healthRequest t ∧
    ((∃ x, Stage.handed Plan.stalled Stage.absent ((sampleGate settings).admission healthRequest) () = [x]) ↔
      ¬ (Settings.Own healthRequest.target.path ∧ settings.Ruled healthRequest.target.path)) ∧
    ∀ rule, Settings.Own healthRequest.target.path → settings.Governs healthRequest.target.path rule →
      Stage.Refuses Plan.stalled Stage.absent ((sampleGate settings).admission healthRequest) ()
        (.insufficientScope rule.scope) := by
  obtain ⟨settings, t, hr, he, -⟩ := entitled_healthRequest
  exact ⟨settings, t, hr, he, Gate.handed_entitled_iff _ _ he⟩

/-- The administrator is refused for lack of the scope that the token grants. -/
theorem healthRequest_refused : ∃ settings t, Settings.read guardedGateway = .ok settings ∧
    Gate.Entitled Plan.stalled (sampleGate settings) () healthRequest t ∧ t.hasScope "wallet:admin" = true ∧
    Stage.Refuses Plan.stalled Stage.absent ((sampleGate settings).admission healthRequest) ()
      (.insufficientScope "wallet:admin") := by
  obtain ⟨settings, t, hr, he, ho, hg⟩ := entitled_healthRequest
  exact ⟨settings, t, hr, he, he.scope _ hg, he.refuses_own _ ho hg⟩

end Tollgate.Gateway
