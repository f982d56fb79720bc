/-
Which credentials the server behind the gateway sees. The gateway verifies the token in the first field of
credentials, and passes all of them on, before them the credentials of the URL behind if that holds any. So
the token that was verified is the only one that is passed on exactly if the URL holds no credentials, and
every field of credentials that the client sent carries that same token.
-/
import Tollgate.Gateway.Service
import Tollgate.Proofs.Gateway.Admission
import Tollgate.Proofs.Gateway.Credentials
import Tollgate.Proofs.Gateway.Reading
import Tollgate.Proofs.Net.Endpoint
import Tollgate.Proofs.Net.Errand
import Tollgate.Proofs.Token.Verification

namespace Tollgate.Gateway

namespace Relay

/-- Of the client's header fields all are passed on but those of one connection, and two are added. -/
theorem values_headers {name : String} (hh : hopNames.contains name = false) (hf : name ≠ "x-forwarded-for")
    (hp : name ≠ "x-forwarded-proto") (r : Request) : (headers r).values name = r.headers.values name := by
  have hscheme : Headers.values [⟨"x-forwarded-proto", Bytes.ofText (scheme r)⟩] name = [] := by
    refine Headers.values_of_ne fun f hm => ?_
    rw [List.mem_singleton.1 hm]; exact hp.symm
  unfold headers
  rw [Headers.values_append, Headers.values_append, hscheme, List.append_nil,
    Headers.values_filter (p := fun n => !hopNames.contains n) (by rw [hh]; rfl)]
  cases r.peer with
  | none => exact List.append_nil _
  | some peer =>
    simp only
    rw [Headers.values_of_ne (h := [⟨"x-forwarded-for", Bytes.ofText peer.toText⟩]), List.append_nil]
    intro f hm
    rw [List.mem_singleton.1 hm]; exact hf.symm

/-- The credentials that are passed on: those in the URL, and all that the client sent. -/
theorem values_request? {r : Request} {url : List Char} {o : Outgoing} (h : request? r url = some o) :
    ∃ u, Url.ofChars? url = some u ∧ o.sentHeaders.values "authorization" =
      ((Outgoing.credentials? u).map Bytes.ofText).toList ++ r.headers.values "authorization" := by
  unfold request? at h
  simp only [Option.bind_eq_bind, Option.bind_eq_some_iff] at h
  obtain ⟨o1, hb, o2, ha, h⟩ := h
  cases h
  obtain ⟨u, hu, -, rfl⟩ := Outgoing.begin?_eq_some_iff.1 hb
  refine ⟨u, hu, ?_⟩
  rw [Outgoing.values_sentHeaders _ (by decide)]
  show o2.headers.values _ = _
  rw [Outgoing.headers_add? ha, Headers.values_append, values_headers (by decide) (by decide) (by decide),
    Outgoing.values_userField]

end Relay

/-- What is sent for a request whose body is taken in is one request to the URL behind, if it can be sent at all. -/
theorem Service.mem_sent_forward_iff {g : Gate} {r : Request} {replies : List (Option Incoming)} {o : Outgoing} :
    o ∈ (forward g r).sent replies ↔ Endpoint.Takes maxBody r ∧
      ∃ url, Backend.url g.settings.backendUrl r.target = .ok url ∧ Relay.request? r url = some o := by
  unfold forward
  rcases Endpoint.body_cases maxBody r with ⟨htakes, hbody⟩ | ⟨hnot, response, hbody, -⟩
  · simp only [hbody, htakes, true_and]
    split
    · rename_i hu
      simp [Errand.sent, hu]
    · rename_i url hu
      rw [Errand.sent_map, Relay.relay]
      simp only [hu, Except.ok.injEq, exists_eq_left']
      cases Relay.request? r url with
      | none => simp [Errand.sent]
      | some o' => cases replies <;> simp [Errand.sent, eq_comm]
  · simp [hbody, hnot, Errand.sent]

/-! ## Bearer tokens -/

/-- Header fields that carry a token and no other credentials. -/
def CarriesOnly (h : Headers) (token : String) : Prop :=
  ∀ value ∈ h.values "authorization", Credentials.ofValue value = .ok token

/-! ## What the server behind sees -/

open Stage (handed)

/-- Of a request that is admitted with a token and passed on, the server behind sees that token and no other
credentials exactly if the URL behind holds none, and all that the client sent carry that token. -/
theorem carriesOnly_sent_iff {σ : Type} {serve : σ → (c : Command) → c.Reply × σ}
    {behind : Option VerifiedToken → σ → (Ending × List Event) × σ} {s : σ} {g : Gate} {r : Request}
    {t : VerifiedToken} {replies : List (Option Incoming)} {o : Outgoing}
    (ha : handed serve behind (g.admission r) s = [some t]) (ho : o ∈ (Service.forward g r).sent replies) :
    ∃ value token, r.headers.first? "authorization" = some value ∧ Credentials.ofValue value = .ok token ∧
      g.Verifies token t ∧ (CarriesOnly o.sentHeaders token ↔
        (∀ url u, Backend.url g.settings.backendUrl r.target = .ok url → Url.ofChars? url = some u →
          Outgoing.credentials? u = none) ∧ CarriesOnly r.headers token) := by
  cases (Gate.handed_iff serve behind).1 ha with
  | bearing _ _ hc =>
    obtain ⟨value, token, hf, hv, ht⟩ := hc
    refine ⟨value, token, hf, hv, ht, ?_⟩
    obtain ⟨-, url, hurl, hr⟩ := Service.mem_sent_forward_iff.1 ho
    obtain ⟨u, hu, hsent⟩ := Relay.values_request? hr
    unfold CarriesOnly
    rw [hsent, List.forall_mem_append]
    refine and_congr_left fun _ => ?_
    constructor
    · intro h url' u' hurl' hu'
      rw [hurl] at hurl'; cases hurl'
      rw [hu] at hu'; cases hu'
      cases hcr : Outgoing.credentials? u with
      | none => rfl
      | some credentials =>
        obtain ⟨name, password, rfl⟩ := Outgoing.credentials?_basic hcr
        rw [hcr] at h
        exact absurd (h _ (by simp)) (ofValue_basic name password token)
    · intro h
      rw [h url u hurl hu]
      exact nofun

/-- A gateway without rules on scopes. -/
def plainGateway : Variables
  | "UPSTREAM_URL" => some "http://upstream:9000"
  | "JWKS_URL" => some "http://keys/jwks.json"
  | _ => none

/-- The settings of that gateway, as far as they decide about a request for the wallets. -/
theorem read_plainGateway : ∃ settings, Settings.read plainGateway = .ok settings ∧
    settings.backendUrl = "http://upstream:9000" ∧ settings.scopeRules = [] ∧ settings.clockSkew = 0 ∧
    settings.isPublic "/api/v1/wallets".toList = false := by
  have h : (Settings.read plainGateway).map (fun s => (s.backendUrl, s.scopeRules, s.clockSkew,
      s.isPublic "/api/v1/wallets".toList)) = .ok ("http://upstream:9000", [], 0, false) := by decide +kernel
  obtain ⟨settings, hr, hparts⟩ := exists_of_map_eq_ok h
  simp only [Prod.mk.injEq] at hparts
  exact ⟨settings, hr, hparts⟩

/-- A gateway with a key in service. -/
def sampleGate (settings : Settings) : Gate := ⟨settings, some Token.sampleKeys, 1800000000⟩

/-- Credentials that consist of a token that verifies. -/
def sampleCredentials : Bytes := Bytes.ofText ("Bearer " ++ Token.sampleToken)

theorem ofValue_sampleCredentials : Credentials.ofValue sampleCredentials = .ok Token.sampleToken := by
  have hv : Token.sampleToken.toList.all isVisible = true := by decide +kernel
  exact ofValue_bearer hv (by decide +kernel)

/-- A request for the wallets with a token that verifies, and with another one beside it. -/
def twoTokens : Request where
  method := "GET"
  target := ⟨none, "/api/v1/wallets".toList, none⟩
  headers := [⟨"authorization", sampleCredentials⟩, ⟨"authorization", Bytes.ofText "Bearer other"⟩]
  peer := none
  body := []

theorem values_twoTokens :
    twoTokens.headers.values "authorization" = [sampleCredentials, Bytes.ofText "Bearer other"] := by
  simp [Headers.values, twoTokens]

/-- The request is admitted with its first token, and passed on. -/
theorem twoTokens_relayed : ∃ settings t, ∃ o : Outgoing, Settings.read plainGateway = .ok settings ∧
    (sampleGate settings).Verifies Token.sampleToken t ∧
    handed Plan.stalled Stage.absent ((sampleGate settings).admission twoTokens) () = [some t] ∧
    o ∈ (Service.forward (sampleGate settings) twoTokens).sent [] := by
  obtain ⟨settings, hr, hb, hrules, hskew, hpublic⟩ := read_plainGateway
  obtain ⟨t, ht, -⟩ := Token.verify_sampleToken
  have hv : (sampleGate settings).Verifies Token.sampleToken t := by
    refine ⟨_, rfl, ?_⟩
    unfold sampleGate
    rw [hskew]; exact ht
  have hc : (sampleGate settings).Carries twoTokens.headers t := by
    refine ⟨_, _, ?_, ofValue_sampleCredentials, hv⟩
    rw [Headers.first?, values_twoTokens]; rfl
  have hg : (sampleGate settings).Grants twoTokens.target.path t := by
    rintro rule ⟨before, after, he, -⟩
    unfold sampleGate at he
    rw [hrules] at he
    cases before <;> cases he
  have hu : Backend.url "http://upstream:9000" twoTokens.target =
      .ok "http://upstream:9000/api/v1/wallets".toList := by decide +kernel
  obtain ⟨o, ho⟩ := Option.isSome_iff_exists.1 (show
    (Relay.request? twoTokens "http://upstream:9000/api/v1/wallets".toList).isSome = true by decide +kernel)
  refine ⟨settings, t, o, hr, hv, (Gate.handed_iff _ _).2 ?_, Service.mem_sent_forward_iff.2 ?_⟩
  · exact .bearing (Path.check_of_url hu) (Settings.isPublic_eq_false_iff.1 hpublic) hc
      (Denylist.not_lists_stalled _ t) hg
  · exact ⟨Endpoint.takes_of_unannounced rfl (Nat.zero_le _) rfl, _, by unfold sampleGate; rw [hb]; exact hu, ho⟩

theorem carriesOnly_sent_iff_twoTokens : ∃ settings t, ∃ o : Outgoing, Settings.read plainGateway = .ok settings ∧
    handed Plan.stalled Stage.absent ((sampleGate settings).admission twoTokens) () = [some t] ∧
    o ∈ (Service.forward (sampleGate settings) twoTokens).sent [] ∧
    ∃ value token, twoTokens.headers.first? "authorization" = some value ∧
      Credentials.ofValue value = .ok token ∧ (sampleGate settings).Verifies token t ∧
      (CarriesOnly o.sentHeaders token ↔
        (∀ url u, Backend.url settings.backendUrl twoTokens.target = .ok url → Url.ofChars? url = some u →
          Outgoing.credentials? u = none) ∧ CarriesOnly twoTokens.headers token) := by
  obtain ⟨settings, t, o, hr, -, ha, ho⟩ := twoTokens_relayed
  exact ⟨settings, t, o, hr, ha, ho, carriesOnly_sent_iff ha ho⟩

/-- The other token of the request reaches the server behind, though only the first one was verified. -/
theorem twoTokens_not_carriesOnly : ∃ settings t, ∃ o : Outgoing, Settings.read plainGateway = .ok settings ∧
    (sampleGate settings).Verifies Token.sampleToken t ∧
    handed Plan.stalled Stage.absent ((sampleGate settings).admission twoTokens) () = [some t] ∧
    o ∈ (Service.forward (sampleGate settings) twoTokens).sent [] ∧
    ¬ CarriesOnly o.sentHeaders Token.sampleToken := by
  obtain ⟨settings, t, o, hr, hv, ha, ho⟩ := twoTokens_relayed
  refine ⟨settings, t, o, hr, hv, ha, ho, fun h => ?_⟩
  obtain ⟨-, url, -, hr⟩ := Service.mem_sent_forward_iff.1 ho
  obtain ⟨u, -, hsent⟩ := Relay.values_request? hr
  have hother := h (Bytes.ofText "Bearer other") (by rw [hsent, values_twoTokens]; simp)
  have hne : Credentials.ofValue (Bytes.ofText "Bearer other") ≠ .ok Token.sampleToken := by decide +kernel
  exact hne hother

end Tollgate.Gateway
