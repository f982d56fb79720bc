/-
Which spelling of a path the scope rules see. They match a path as it is written, and the server behind the
gateway decodes it: a path under a rule can be spelt so that another rule governs it, or none, and if it is
public so spelt it is handed on without a token. A gateway guards the decoded path exactly if the written
one is not open and whatever scopes it requires entail the scope of the decoded one.
-/
import Tollgate.Proofs.Gateway.Admission
import Tollgate.Proofs.Gateway.Reading
import Tollgate.Proofs.Net.Percent

namespace Tollgate.Gateway

/-! ## Guarded paths -/

namespace Gate

open Stage (handed)

/-- Whatever the deny list says and whatever lies behind, no request for a target is handed on without a
token that grants the scope of the rule that governs what its path decodes to. -/
def GuardsDecoded (g : Gate) (target : Target) : Prop :=
  ∀ decoded, Percent.decodeText? target.path = some decoded →
    ∀ rule, g.settings.Governs decoded.toList rule →
      ∀ (σ : Type) (serve : σ → (c : Command) → c.Reply × σ)
        (behind : Option VerifiedToken → σ → (Ending × List Event) × σ) (s : σ) (r : Request) x,
        r.target = target → handed serve behind (g.admission r) s = [x] →
          ∃ t, x = some t ∧ t.hasScope rule.scope = true

/-- A path is guarded if it is not open, and every token that is let through on it grants what it requires
decoded. -/
theorem guardsDecoded_of_entails {g : Gate} {target : Target}
    (hall : ∀ decoded, Percent.decodeText? target.path = some decoded → g.settings.Ruled decoded.toList →
      ¬ g.settings.Open target.path ∧ ∀ h t, g.settings.Protected target.path → g.Carries h t →
        g.Grants target.path t → g.Grants decoded.toList t) : g.GuardsDecoded target := by
  rintro decoded hd rule hrule σ serve behind s r x rfl hx
  obtain ⟨hno, hgr⟩ := hall decoded hd hrule.ruled
  cases (handed_iff serve behind).1 hx with
  | openly _ ho => exact absurd ho hno
  | bearing _ ha hc _ hg => exact ⟨_, rfl, hgr _ _ ha hc hg rule hrule⟩

/-- The decoded path is guarded exactly if the path as it is written is not open, and every token that is
let through on it grants what the decoded path requires. -/
theorem guardsDecoded_iff {g : Gate} {target : Target} {url : List Char}
    (hu : Backend.url g.settings.backendUrl target = .ok url) :
    g.GuardsDecoded target ↔ ∀ decoded, Percent.decodeText? target.path = some decoded →
      g.settings.Ruled decoded.toList → ¬ g.settings.Open target.path ∧
        ∀ h t, g.settings.Protected target.path → g.Carries h t → g.Grants target.path t →
          g.Grants decoded.toList t := by
  have hp := Path.check_of_url hu
  constructor
  · intro hg decoded hd hr
    -- what is admitted while the store stays silent is handed on, so its token grants the scope
    have hall : ∀ rule, g.settings.Governs decoded.toList rule → ∀ h x,
        g.Admits Plan.stalled () ⟨"GET", target, h, none, [], none⟩ x →
          ∃ t, x = some t ∧ t.hasScope rule.scope = true := by
      intro rule hrule h x ha
      exact hg decoded hd rule hrule Unit Plan.stalled Stage.absent () _ x rfl
        ((handed_iff _ _).2 ha)
    refine ⟨fun ho => ?_, fun h t ha hc hgr rule hrule => ?_⟩
    · obtain ⟨rule, hrule⟩ := hr.exists_governs
      obtain ⟨t, ht, -⟩ := hall rule hrule [] none (.openly hp ho)
      cases ht
    · obtain ⟨t', ht, hs⟩ := hall rule hrule h (some t) (.bearing hp ha hc (Denylist.not_lists_stalled _ t) hgr)
      cases ht; exact hs
  · exact guardsDecoded_of_entails

end Gate

/-- An API that is public but for its administration. -/
def publicApi : Variables
  | "UPSTREAM_URL" => some "http://upstream:9000"
  | "JWKS_URL" => some "http://keys/jwks.json"
  | "SCOPE_RULES" => some "/api/v1/admin=wallet:admin"
  | "PUBLIC_PATH_PREFIXES" => some "/api/v1"
  | _ => none

/-- The settings of that API, as far as they decide about paths. -/
theorem read_publicApi : ∃ settings, Settings.read publicApi = .ok settings ∧
    settings.backendUrl = "http://upstream:9000" ∧ settings.scopeRules = [⟨"/api/v1/admin", "wallet:admin"⟩] ∧
    settings.publicBeginnings = ["/api/v1"] := by
  have h : (Settings.read publicApi).map (fun s => (s.backendUrl, s.scopeRules, s.publicBeginnings)) =
      .ok ("http://upstream:9000", [⟨"/api/v1/admin", "wallet:admin"⟩], ["/api/v1"]) := by decide +kernel
  obtain ⟨settings, hr, hparts⟩ := exists_of_map_eq_ok h
  simp only [Prod.mk.injEq] at hparts
  exact ⟨settings, hr, hparts⟩

/-- The path of the administration with its first letter escaped. -/
def escapedAdmin : Target := ⟨none, "/api/v1/%61dmin".toList, none⟩

theorem url_escapedAdmin :
    Backend.url "http://upstream:9000" escapedAdmin = .ok "http://upstream:9000/api/v1/%61dmin".toList := by
  decide +kernel

theorem guardsDecoded_iff_escapedAdmin : ∃ settings, Settings.read publicApi = .ok settings ∧
    (Gate.GuardsDecoded ⟨settings, none, 0⟩ escapedAdmin ↔
      ∀ decoded, Percent.decodeText? escapedAdmin.path = some decoded → settings.Ruled decoded.toList →
        ¬ settings.Open escapedAdmin.path ∧ ∀ h t, settings.Protected escapedAdmin.path →
          Gate.Carries ⟨settings, none, 0⟩ h t → Gate.Grants ⟨settings, none, 0⟩ escapedAdmin.path t →
            Gate.Grants ⟨settings, none, 0⟩ decoded.toList t) := by
  obtain ⟨settings, hr, hb, -⟩ := read_publicApi
  exact ⟨settings, hr, Gate.guardsDecoded_iff (by rw [hb]; exact url_escapedAdmin)⟩

/-- The administration of the API is open to everybody who escapes a letter of its path, and such a request is
passed on. -/
theorem escapedAdmin_not_guarded : ∃ settings, Settings.read publicApi = .ok settings ∧
    (∃ url, Backend.url settings.backendUrl escapedAdmin = .ok url) ∧
    ∀ keys now, ¬ Gate.GuardsDecoded ⟨settings, keys, now⟩ escapedAdmin := by
  obtain ⟨settings, hr, hb, hrules, hpublic⟩ := read_publicApi
  refine ⟨settings, hr, ⟨_, by rw [hb]; exact url_escapedAdmin⟩, fun keys now hg => ?_⟩
  have hd : Percent.decodeText? escapedAdmin.path = some "/api/v1/admin" := by decide +kernel
  have hgoverns : settings.Governs "/api/v1/admin".toList ⟨"/api/v1/admin", "wallet:admin"⟩ :=
    ⟨[], [], hrules, List.prefix_refl _, nofun, nofun⟩
  have hopen : settings.Open escapedAdmin.path := by
    constructor
    · exact .inr ⟨"/api/v1", by rw [hpublic]; simp, by decide +kernel⟩
    · rintro ⟨rule, hm, hf⟩
      rw [hrules, List.mem_singleton] at hm
      subst hm
      revert hf
      unfold ScopeRule.Fits
      decide +kernel
  obtain ⟨t, ht, -⟩ := hg _ hd _ hgoverns Unit Plan.stalled Stage.absent ()
    ⟨"GET", escapedAdmin, [], none, [], none⟩ none rfl
    ((Gate.handed_iff _ _).2 (.openly (Path.check_of_url url_escapedAdmin) hopen))
  cases ht

end Tollgate.Gateway
