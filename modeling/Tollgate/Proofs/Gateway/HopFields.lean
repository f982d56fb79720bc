/-
Header fields that concern one connection only. Of the client's fields none with a name that the gateway knows for
such is passed on, and all the others are, in order. What else a client lists in its Connection fields is not looked
at, so fields that are named there stop at the gateway only if it knows their names anyway.
-/
import Tollgate.Proofs.Gateway.Relay
import Tollgate.Proofs.Text.Words

namespace Tollgate.Gateway

open Text

/-- A name that the client says to concern its connection only: it stands between commas in one of the Connection
fields, in any case and with white space around it. -/
def Nominated (h : Headers) (name : String) : Prop :=
  ∃ value ∈ h.values "connection", ∃ text, Headers.text? value = some text ∧
    ∃ pieces, Joins ',' pieces text.toList ∧ ∃ piece ∈ pieces, lowered (String.ofList (trimmed piece)) = name

namespace Relay

/-- The client's fields without those of one connection. -/
def kept (h : Headers) : Headers := h.filter fun f => !hopNames.contains f.name

/-- The names of fields that the gateway adds behind the client's. -/
def addedNames : List String := ["x-forwarded-for", "x-forwarded-proto", "accept"]

theorem mem_kept_iff {h : Headers} {f : HeaderField} : f ∈ kept h ↔ f ∈ h ∧ f.name ∉ hopNames := by
  unfold kept
  rw [List.mem_filter, Bool.not_eq_true', List.contains_eq_mem, decide_eq_false_iff_not]

theorem values_kept {h : Headers} {name : String} (hn : name ∉ hopNames) : (kept h).values name = h.values name :=
  Headers.values_filter (p := fun n => !hopNames.contains n) (by simpa using hn)

/-- Behind the client's fields stands where the request came from. -/
theorem headers_eq (r : Request) :
    ∃ origin, headers r = kept r.headers ++ origin ∧ ∀ f ∈ origin, f.name ∈ addedNames := by
  unfold headers
  refine ⟨_, List.append_assoc _ _ _, fun f hf => ?_⟩
  rcases List.mem_append.1 hf with hf | hf
  · cases hp : r.peer with
    | none => rw [hp] at hf; cases hf
    | some peer =>
      rw [hp] at hf
      rw [List.mem_singleton.1 hf]
      simp [addedNames]
  · rw [List.mem_singleton.1 hf]
    simp [addedNames]

/-- Before the client's fields stand the credentials in the URL. -/
theorem sentHeaders_request? {r : Request} {url : List Char} {o : Outgoing} (h : request? r url = some o) :
    ∃ before after, o.sentHeaders = before ++ kept r.headers ++ after ∧ (∀ f ∈ before, f.name = "authorization") ∧
      ∀ f ∈ after, f.name ∈ addedNames := by
  unfold request? at h
  simp only [Option.bind_eq_bind, Option.bind_eq_some_iff] at h
  obtain ⟨o₁, hbegin, o₂, hadd, ho⟩ := h
  cases ho
  obtain ⟨u, -, -, rfl⟩ := Outgoing.begin?_eq_some_iff.1 hbegin
  obtain ⟨origin, heq, horigin⟩ := headers_eq r
  have hfields : o₂.headers = Outgoing.userField u ++ kept r.headers ++ origin := by
    rw [Outgoing.headers_add? hadd, heq, List.append_assoc]
  refine ⟨Outgoing.userField u, ?_⟩
  unfold Outgoing.sentHeaders
  split
  · exact ⟨origin, hfields, fun f => Outgoing.name_of_mem_userField, horigin⟩
  · refine ⟨origin ++ [⟨"accept", Bytes.ofText "*/*"⟩], ?_, fun f => Outgoing.name_of_mem_userField, ?_⟩
    · rw [← List.append_assoc, ← hfields]
    · rw [List.forall_mem_append]
      refine ⟨horigin, fun f hf => ?_⟩
      rw [List.mem_singleton.1 hf]
      simp [addedNames]

end Relay

/-! ## What the server behind gets of a client's fields -/

namespace Service

/-- The client's fields are passed on in order, without those whose names are known to concern one connection only;
credentials in the URL come before them, and what the gateway says itself behind them. So of a known name nothing is
sent, and of any other name all that the client sent, and nothing else unless the gateway has something to add. The
fields that the client says to concern its connection stop at the gateway exactly if their names are known. -/
theorem fields_sent {g : Gate} {r : Request} {replies : List (Option Incoming)} {o : Outgoing}
    (ho : o ∈ (forward g r).sent replies) :
    (∃ before after, o.sentHeaders = before ++ Relay.kept r.headers ++ after ∧
      (∀ f ∈ before, f.name = "authorization") ∧ ∀ f ∈ after, f.name ∈ Relay.addedNames) ∧
    (∀ name ∈ Relay.hopNames, o.sentHeaders.values name = []) ∧
    (∀ name ∉ Relay.hopNames, r.headers.values name <:+: o.sentHeaders.values name ∧
      (name ≠ "authorization" → name ∉ Relay.addedNames → o.sentHeaders.values name = r.headers.values name)) ∧
    ((∀ f ∈ r.headers, Nominated r.headers f.name → f ∉ o.sentHeaders) ↔
      ∀ f ∈ r.headers, Nominated r.headers f.name → f.name ∈ Relay.hopNames) := by
  obtain ⟨-, url, -, hr⟩ := mem_sent_forward_iff.1 ho
  obtain ⟨before, after, heq, hbefore, hafter⟩ := Relay.sentHeaders_request? hr
  have hhop : ∀ f ∈ o.sentHeaders, f.name ∉ Relay.hopNames := by
    rw [heq, List.forall_mem_append, List.forall_mem_append]
    refine ⟨⟨fun f hf => ?_, fun f hf => (Relay.mem_kept_iff.1 hf).2⟩, fun f hf => ?_⟩
    · rw [hbefore f hf]
      decide
    · have hadded : ∀ name ∈ Relay.addedNames, name ∉ Relay.hopNames := by decide
      exact hadded _ (hafter f hf)
  refine ⟨⟨before, after, heq, hbefore, hafter⟩, fun name hn => ?_, fun name hn => ⟨?_, fun ha hown => ?_⟩, ?_⟩
  · exact Headers.values_of_ne fun f hf he => hhop f hf (he ▸ hn)
  · rw [heq, Headers.values_append, Headers.values_append, Relay.values_kept hn]
    exact List.infix_append _ _ _
  · have hempty : before.values name = [] := Headers.values_of_ne fun f hf he => ha (he.symm.trans (hbefore f hf))
    have hnone : after.values name = [] := Headers.values_of_ne fun f hf he => hown (he ▸ hafter f hf)
    rw [heq, Headers.values_append, Headers.values_append, Relay.values_kept hn, hempty, hnone, List.append_nil,
      List.nil_append]
  · constructor
    · intro hstop f hf hnominated
      by_contra hn
      refine hstop f hf hnominated ?_
      rw [heq]
      simp [Relay.mem_kept_iff, hf, hn]
    · intro hknown f hf hnominated hsent
      exact hhop f hsent (hknown f hf hnominated)

end Service

/-- A request for a public path, of which the client says that its trace concerns the connection only. -/
def traced : Request where
  method := "GET"
  target := ⟨none, "/api/v1/auth/request".toList, none⟩
  headers := [⟨"connection", Bytes.ofText "close, X-Trace"⟩, ⟨"keep-alive", Bytes.ofText "timeout=5"⟩,
    ⟨"x-trace", Bytes.ofText "1"⟩, ⟨"x-trace", Bytes.ofText "2"⟩]
  peer := none
  body := []

/-- The request is admitted without a token, and passed on. -/
theorem traced_relayed : ∃ settings, ∃ o : Outgoing, Settings.read plainGateway = .ok settings ∧
    Stage.handed Plan.stalled Stage.absent ((sampleGate settings).admission traced) () = [none] ∧
    o ∈ (Service.forward (sampleGate settings) traced).sent [] := by
  have h : (Settings.read plainGateway).map (fun s => (s.backendUrl, s.scopeRules, s.isPublic traced.target.path)) =
      .ok ("http://upstream:9000", [], true) := by decide +kernel
  obtain ⟨settings, hr, hparts⟩ := exists_of_map_eq_ok h
  simp only [Prod.mk.injEq] at hparts
  obtain ⟨hb, hrules, hpublic⟩ := hparts
  have hu : Backend.url "http://upstream:9000" traced.target =
      .ok "http://upstream:9000/api/v1/auth/request".toList := by decide +kernel
  obtain ⟨o, ho⟩ := Option.isSome_iff_exists.1 (show
    (Relay.request? traced "http://upstream:9000/api/v1/auth/request".toList).isSome = true by decide +kernel)
  have hopen : settings.Open traced.target.path := by
    refine Settings.open_of_not_protected (fun hp => ?_) ?_
    · rw [← Settings.isPublic_eq_false_iff, hpublic] at hp
      cases hp
    · rintro ⟨rule, hm, -⟩
      rw [hrules] at hm
      cases hm
  refine ⟨settings, o, hr, (Gate.handed_iff _ _).2 (.openly (Path.check_of_url hu) hopen), ?_⟩
  refine Service.mem_sent_forward_iff.2 ⟨Endpoint.takes_of_unannounced rfl (Nat.zero_le _) rfl, _, ?_, ho⟩
  unfold sampleGate
  rw [hb]
  exact hu

theorem nominated_traced : Nominated traced.headers "x-trace" := by
  refine ⟨Bytes.ofText "close, X-Trace", ?_, "close, X-Trace", by decide +kernel, ["close".toList, " X-Trace".toList],
    joins_iff.2 (by decide +kernel), " X-Trace".toList, by simp, by decide +kernel⟩
  simp [Headers.values, traced]

theorem fields_sent_traced : ∃ settings, ∃ o : Outgoing, Settings.read plainGateway = .ok settings ∧
    o ∈ (Service.forward (sampleGate settings) traced).sent [] ∧ o.sentHeaders.values "connection" = [] ∧
    o.sentHeaders.values "keep-alive" = [] ∧
    o.sentHeaders.values "x-trace" = [Bytes.ofText "1", Bytes.ofText "2"] := by
  obtain ⟨settings, o, hr, -, ho⟩ := traced_relayed
  obtain ⟨-, hhop, hother, -⟩ := Service.fields_sent ho
  refine ⟨settings, o, hr, ho, hhop _ (by decide), hhop _ (by decide), ?_⟩
  rw [(hother "x-trace" (by decide)).2 (by decide) (by decide)]
  simp [Headers.values, traced]

/-- The trace reaches the server behind, though the client said that it concerns the connection only. -/
theorem traced_not_stopped : ∃ settings, ∃ o : Outgoing, Settings.read plainGateway = .ok settings ∧
    Stage.handed Plan.stalled Stage.absent ((sampleGate settings).admission traced) () = [none] ∧
    o ∈ (Service.forward (sampleGate settings) traced).sent [] ∧ Nominated traced.headers "x-trace" ∧
    ∃ f ∈ traced.headers, f.name = "x-trace" ∧ f ∈ o.sentHeaders := by
  obtain ⟨settings, o, hr, ha, ho⟩ := traced_relayed
  obtain ⟨-, url, -, hreq⟩ := Service.mem_sent_forward_iff.1 ho
  obtain ⟨before, after, heq, -⟩ := Relay.sentHeaders_request? hreq
  have hkept : ⟨"x-trace", Bytes.ofText "1"⟩ ∈ Relay.kept traced.headers :=
    Relay.mem_kept_iff.2 ⟨by simp [traced], by decide⟩
  refine ⟨settings, o, hr, ha, ho, nominated_traced, _, (Relay.mem_kept_iff.1 hkept).1, rfl, ?_⟩
  rw [heq]
  simp [hkept]

end Tollgate.Gateway
