/-
What the report of the gateway's settings tells of secrets. The token for the metrics is never shown, and the password
of the deny list is hidden where the endpoint is read with one as it stands. But the gateway connects to an endpoint
without a mark between scheme and host as if the store's own scheme stood before it, and then its password is shown.
-/
import Tollgate.Proofs.Gateway.Reading
import Tollgate.Proofs.Net.Password
import Tollgate.Proofs.Text.Quoted

namespace Tollgate

/-! ## Reports -/

namespace Report

/-- A list between separators, seen from one of its members. -/
theorem exists_around_member (separator : String) (after : List String) : ∀ before : List String,
    ∃ lead tail, ∀ x, separator.intercalate (before ++ x :: after) = lead ++ x ++ tail
  | [] => by
    cases after with
    | nil => exact ⟨"", "", fun x => by simp⟩
    | cons y after => exact ⟨"", separator ++ separator.intercalate (y :: after), fun x => by
        rw [List.nil_append, String.intercalate_cons_cons]; simp [String.append_assoc]⟩
  | y :: before => by
    obtain ⟨lead, tail, h⟩ := exists_around_member separator after before
    refine ⟨y ++ separator ++ lead, tail, fun x => ?_⟩
    rw [List.cons_append, String.intercalate_cons_of_ne_nil (by simp), h]
    simp only [String.append_assoc]

/-- Reports that differ in one value at most are the same exactly if that value is. -/
theorem record_eq_iff {name key x y : String} {before after : List (String × String)} :
    record name (before ++ (key, x) :: after) = record name (before ++ (key, y) :: after) ↔ x = y := by
  obtain ⟨lead, tail, h⟩ := exists_around_member ", " (after.map fun f => f.1 ++ ": " ++ f.2)
    (before.map fun f => f.1 ++ ": " ++ f.2)
  unfold record
  rw [List.map_append, List.map_cons, List.map_append, List.map_cons, h, h]
  refine ⟨fun he => ?_, fun he => by rw [he]⟩
  have := congrArg String.toList he
  simp only [String.toList_append, List.append_assoc, List.append_cancel_left_eq, List.append_cancel_right_eq] at this
  exact String.toList_inj.1 this

end Report

namespace Gateway.Settings

/-! ## Settings of variables that differ in secrets -/

/-- The settings with other secrets. -/
def withSecrets (s : Settings) (endpoint : String) (token : Option String) : Settings :=
  { s with store := { s.store with endpoint := endpoint }, metricsToken := token }

variable {v w : Variables} (h : ∀ key, key ≠ "METRICS_TOKEN" → key ≠ "DENYLIST_ENDPOINT" → v key = w key)

include h

theorem read_eq : read w = (fun s => s.withSecrets (endpointOf w) (w.value? "METRICS_TOKEN")) <$> read v := by
  have hrules : readScopeRules w = readScopeRules v := by
    unfold readScopeRules
    rw [Variables.list_congr (h "SCOPE_RULES" (by decide) (by decide))]
  have hv : ∀ key ∈ openKeys, v.set "SCOPE_RULES" none key = v key := fun key hk =>
    v.set_of_ne none (ne_of_mem_openKeys hk).1
  have hw : ∀ key ∈ openKeys, v.set "SCOPE_RULES" none key = w key := fun key hk =>
    (hv key hk).trans (h key (ne_of_mem_openKeys hk).2.1 (ne_of_mem_openKeys hk).2.2)
  rw [read_congr hw (readScopeRules_unset v), read_congr hv (readScopeRules_unset v), hrules]
  simp only [map_bind, Functor.map_map, withSecrets]

omit h

theorem endpoint_of_read {s : Settings} (hr : read v = .ok s) : s.store.endpoint = endpointOf v :=
  endpoint_of_readStore (parts_of_read hr).1

theorem token_of_read {s : Settings} (hr : read v = .ok s) : s.metricsToken = v.value? "METRICS_TOKEN" :=
  (parts_of_read hr).2.2.2.2

/-! ## Endpoints as they are shown -/

/-- The address that the gateway connects to for an endpoint. -/
def connectsTo (endpoint : String) : String :=
  if StoreSettings.url.hasMark endpoint.toList then endpoint else "redis://" ++ endpoint

/-- An endpoint is read with a password as it stands, so the report hides that. -/
def Hides (endpoint : String) : Prop := ∃ u, Url.ofText? endpoint = some u ∧ u.password ≠ none

/-- The gateway connects to two endpoints with passwords, and but for these in the same way. -/
def SameButPassword (e f : String) : Prop :=
  ∃ a b, Url.ofText? (connectsTo e) = some a ∧ Url.ofText? (connectsTo f) = some b ∧ a.password ≠ none ∧
    b.password ≠ none ∧ { a with password := none } = { b with password := none }

theorem SameButPassword.symm {e f : String} (h : SameButPassword e f) : SameButPassword f e := by
  obtain ⟨a, b, ha, hb, hpa, hpb, hab⟩ := h
  exact ⟨b, a, hb, ha, hpb, hpa, hab.symm⟩

theorem endpoint_of_password {e : String} {u : Url} (hu : Url.ofText? e = some u) (hp : u.password ≠ none) :
    Report.endpoint e = String.ofList (u.withPassword Report.hidden.toList).chars := by
  unfold Report.endpoint
  rw [hu]
  exact if_pos (Option.isSome_iff_ne_none.2 hp)

theorem endpoint_of_not_hides {e : String} (h : ¬ Hides e) : Report.endpoint e = e := by
  unfold Report.endpoint
  split
  · rename_i u hu
    rw [if_neg fun hp => h ⟨u, hu, Option.isSome_iff_ne_none.1 hp⟩]
  · rfl

theorem hasMark_append (lead rest : List Char) : StoreSettings.url.hasMark (lead ++ ':' :: '/' :: '/' :: rest) = true := by
  induction lead with
  | nil => rfl
  | cons c lead ih =>
    rw [List.cons_append, StoreSettings.url.hasMark.eq_def]
    split
    · rfl
    · rename_i hs
      rw [← (List.cons.inj hs).2]
      exact ih
    · rename_i hs
      cases hs

/-- An endpoint that hides its password is shown with a mark between scheme and host. -/
theorem hasMark_of_hides {e : String} (h : Hides e) :
    StoreSettings.url.hasMark (Report.endpoint e).toList = true := by
  obtain ⟨u, hu, hp⟩ := h
  obtain ⟨hhost, -⟩ := Url.host_of_password hu hp
  rw [endpoint_of_password hu hp, String.toList_ofList, Url.withPassword_of_password hu hp]
  cases hn : u.host with
  | none =>
    rw [hn] at hhost
    cases hhost
  | some host =>
    simp only [Url.chars, Url.authorityChars, List.append_assoc, List.cons_append, List.nil_append]
    exact hasMark_append _ _

/-- An endpoint with a mark, to which the gateway connects with a password, hides that. -/
theorem SameButPassword.hides {e f : String} (h : SameButPassword e f)
    (hm : StoreSettings.url.hasMark e.toList = true) : Hides e := by
  obtain ⟨a, -, ha, -, hp, -⟩ := h
  rw [connectsTo, if_pos hm] at ha
  exact ⟨a, ha, hp⟩

theorem SameButPassword.not_hides {e f : String} (h : SameButPassword e f)
    (hm : StoreSettings.url.hasMark e.toList = false)
    (hs : ∀ u, Url.ofText? e = some u → Url.defaultPort? u.scheme = none) : ¬ Hides e := by
  rintro ⟨u, hu, hp⟩
  obtain ⟨a, -, ha, -, hpa, -⟩ := h
  rw [connectsTo, hm, if_neg Bool.false_ne_true, Url.ofText?, String.toList_append] at ha
  exact hp (Url.password_of_scheme_before hu (hs u hu) ha hpa)

/-- If one endpoint is shown as the other one is, either both hide their passwords or none does. -/
theorem SameButPassword.hides_of_eq {e f : String} (h : SameButPassword e f)
    (heq : Report.endpoint e = Report.endpoint f) (he : Hides e) : Hides f := by
  by_contra hf
  have hm := hasMark_of_hides he
  rw [heq, endpoint_of_not_hides hf] at hm
  exact hf (h.symm.hides hm)

/-- Two such endpoints are shown alike exactly if they are the same, or if both are read with passwords as they stand,
and are then the same but for these. -/
theorem SameButPassword.shown_iff {e f : String} (h : SameButPassword e f) :
    Report.endpoint e = Report.endpoint f ↔ e = f ∨ ∃ u x, Url.ofText? e = some u ∧ Url.ofText? f = some x ∧
      u.password ≠ none ∧ x.password ≠ none ∧
      (u.withPassword Report.hidden.toList).chars = (x.withPassword Report.hidden.toList).chars := by
  constructor
  · intro heq
    by_cases he : Hides e
    · obtain ⟨x, hx, hpx⟩ := h.hides_of_eq heq he
      obtain ⟨u, hu, hpu⟩ := he
      rw [endpoint_of_password hu hpu, endpoint_of_password hx hpx, String.ofList_inj] at heq
      exact .inr ⟨u, x, hu, hx, hpu, hpx, heq⟩
    · have hf : ¬ Hides f := fun hf => he (h.symm.hides_of_eq heq.symm hf)
      rw [endpoint_of_not_hides he, endpoint_of_not_hides hf] at heq
      exact .inl heq
  · rintro (rfl | ⟨u, x, hu, hx, hpu, hpx, heq⟩)
    · rfl
    · rw [endpoint_of_password hu hpu, endpoint_of_password hx hpx, heq]

theorem SameButPassword.shown_of_marks {e f : String} (h : SameButPassword e f)
    (he : StoreSettings.url.hasMark e.toList = true) (hf : StoreSettings.url.hasMark f.toList = true) :
    Report.endpoint e = Report.endpoint f := by
  obtain ⟨a, b, ha, hb, hpa, hpb, hab⟩ := h
  rw [connectsTo, if_pos he] at ha
  rw [connectsTo, if_pos hf] at hb
  have hsame : ∀ p : Option (List Char), { a with password := p } = { b with password := p } := fun p =>
    congrArg (fun u : Url => { u with password := p }) hab
  rw [endpoint_of_password ha hpa, endpoint_of_password hb hpb, Url.withPassword_of_password ha hpa,
    Url.withPassword_of_password hb hpb, hsame]

/-! ## Reports of settings that differ in secrets -/

/-- Of the secrets only the endpoint of the deny list counts for a report, and that by how it is shown. -/
theorem report_withSecrets_iff {s : Settings} {endpoint : String} {token : Option String}
    (ht : token.isSome = s.metricsToken.isSome) :
    s.report = (s.withSecrets endpoint token).report ↔
      Report.endpoint s.store.endpoint = Report.endpoint endpoint := by
  have hsecret : Report.secret token = Report.secret s.metricsToken := by
    cases token <;> cases hm : s.metricsToken <;> rw [hm] at ht <;> first | rfl | cases ht
  obtain ⟨before, after, hs, hw⟩ : ∃ before after : List (String × String),
      s.report = Report.record "GatewayConfig"
        (before ++ ("denylist_endpoint", Text.quoted (Report.endpoint s.store.endpoint)) :: after) ∧
      (s.withSecrets endpoint token).report = Report.record "GatewayConfig"
        (before ++ ("denylist_endpoint", Text.quoted (Report.endpoint endpoint)) :: after) := by
    refine ⟨[_, _, _, _, _, _, _], [_, _, _, _, _, _, _, _], rfl, ?_⟩
    unfold report
    simp only [withSecrets, hsecret]
    rfl
  rw [hs, hw, Report.record_eq_iff]
  exact ⟨Text.quoted_inj, congrArg _⟩

/-- Variables that differ in secrets only: in a token for the metrics, which both have or both lack, and in the
password with which the gateway connects to the deny list. -/
structure DifferInSecrets (v w : Variables) : Prop where
  others : ∀ key, key ≠ "METRICS_TOKEN" → key ≠ "DENYLIST_ENDPOINT" → v key = w key
  token : (v.value? "METRICS_TOKEN").isSome = (w.value? "METRICS_TOKEN").isSome
  endpoint : v.value? "DENYLIST_ENDPOINT" = w.value? "DENYLIST_ENDPOINT" ∨
    ∃ e f, v.value? "DENYLIST_ENDPOINT" = some e ∧ w.value? "DENYLIST_ENDPOINT" = some f ∧ SameButPassword e f

theorem DifferInSecrets.endpoints {v w : Variables} (h : DifferInSecrets v w) :
    endpointOf v = endpointOf w ∨ SameButPassword (endpointOf v) (endpointOf w) := by
  unfold endpointOf
  rcases h.endpoint with heq | ⟨e, f, he, hf, hef⟩
  · exact .inl (by rw [heq])
  · rw [he, hf]
    exact .inr hef

/-- Their reports are the same exactly if their endpoints are shown alike. -/
theorem DifferInSecrets.report_iff {v w : Variables} {s t : Settings} (h : DifferInSecrets v w) (hv : read v = .ok s)
    (hw : read w = .ok t) :
    s.report = t.report ↔ Report.endpoint s.store.endpoint = Report.endpoint t.store.endpoint := by
  have ht : t = s.withSecrets (endpointOf w) (w.value? "METRICS_TOKEN") := by
    have := read_eq h.others
    rw [hv, hw] at this
    exact Except.ok.inj this
  rw [ht, report_withSecrets_iff (by rw [token_of_read hv, h.token])]
  rfl

/-- Of settings whose variables differ in secrets only, the reports are the same exactly if the endpoints of the deny
list are, or if these are read with passwords as they stand and are the same but for what is hidden. So no secret is
told of endpoints with a mark between scheme and host; but an endpoint without one is shown with its password, unless
what stands before its first colon happens to be a special scheme. -/
theorem report_hides_iff {v w : Variables} {s t : Settings} (hv : read v = .ok s) (hw : read w = .ok t)
    (h : DifferInSecrets v w) :
    (s.report = t.report ↔ s.store.endpoint = t.store.endpoint ∨
      ∃ u x, Url.ofText? s.store.endpoint = some u ∧ Url.ofText? t.store.endpoint = some x ∧ u.password ≠ none ∧
        x.password ≠ none ∧
        (u.withPassword Report.hidden.toList).chars = (x.withPassword Report.hidden.toList).chars) ∧
    (StoreSettings.url.hasMark s.store.endpoint.toList = true →
      StoreSettings.url.hasMark t.store.endpoint.toList = true → s.report = t.report) ∧
    (StoreSettings.url.hasMark s.store.endpoint.toList = false →
      (∀ u, Url.ofText? s.store.endpoint = some u → Url.defaultPort? u.scheme = none) →
      (s.report = t.report ↔ s.store.endpoint = t.store.endpoint)) := by
  rw [h.report_iff hv hw]
  have hends := h.endpoints
  rw [← endpoint_of_read hv, ← endpoint_of_read hw] at hends
  rcases hends with heq | hsame
  · exact ⟨iff_of_true (by rw [heq]) (.inl heq), fun _ _ => by rw [heq], fun _ _ => iff_of_true (by rw [heq]) heq⟩
  · refine ⟨hsame.shown_iff, hsame.shown_of_marks, fun hm hs => ?_⟩
    rw [hsame.shown_iff, or_iff_left]
    rintro ⟨u, -, hu, -, hp, -, -⟩
    exact hsame.not_hides hm hs ⟨u, hu, hp⟩

/-! ## Two spellings of an endpoint -/

/-- A gateway with a token for the metrics and a deny list. -/
def guarded (token endpoint : String) : Variables
  | "UPSTREAM_URL" => some "http://upstream:9000"
  | "JWKS_URL" => some "http://keys/jwks.json"
  | "METRICS_TOKEN" => some token
  | "DENYLIST_ENDPOINT" => some endpoint
  | _ => none

theorem guarded_others (token token' endpoint endpoint' key : String) (h1 : key ≠ "METRICS_TOKEN")
    (h2 : key ≠ "DENYLIST_ENDPOINT") : guarded token endpoint key = guarded token' endpoint' key := by
  unfold guarded
  split <;> first | rfl | contradiction

theorem read_guarded (token endpoint : String) : ∃ s, read (guarded token endpoint) = .ok s := by
  have h : (read (guarded "a" "b")).toOption.isSome = true := by decide +kernel
  rw [read_eq (guarded_others "a" token "b" endpoint)]
  cases hr : read (guarded "a" "b") with
  | error fault => rw [hr] at h; cases h
  | ok s => exact ⟨_, rfl⟩

/-- Passwords as two endpoints are read with them. -/
theorem sameButPassword_of_decide {e f : String}
    (h : ((Url.ofText? (connectsTo e)).bind fun a => (Url.ofText? (connectsTo f)).map fun b =>
      (a.password.isSome && b.password.isSome, decide ({ a with password := none } = { b with password := none }))) =
      some (true, true)) : SameButPassword e f := by
  simp only [Option.bind_eq_some_iff, Option.map_eq_some_iff, Prod.mk.injEq, Bool.and_eq_true, decide_eq_true_eq,
    Option.isSome_iff_ne_none] at h
  obtain ⟨a, ha, b, hb, ⟨hpa, hpb⟩, hab⟩ := h
  exact ⟨a, b, ha, hb, hpa, hpb, hab⟩

theorem differ_guarded {token token' endpoint endpoint' : String} (h : SameButPassword endpoint endpoint')
    (hm : ((Text.trim token).isEmpty || (Text.trim token').isEmpty) = false)
    (he : (guarded token endpoint).value? "DENYLIST_ENDPOINT" = some endpoint)
    (he' : (guarded token' endpoint').value? "DENYLIST_ENDPOINT" = some endpoint') :
    DifferInSecrets (guarded token endpoint) (guarded token' endpoint') := by
  rw [Bool.or_eq_false_iff] at hm
  refine ⟨guarded_others _ _ _ _, ?_, .inr ⟨_, _, he, he', h⟩⟩
  simp [Variables.value?, guarded, hm.1, hm.2, Option.filter]

/-- Neither the tokens nor the passwords of these settings can be told from their reports. -/
theorem report_hides_iff_named : ∃ s t, read (guarded "a" "redis://:hunter2@cache:6379") = .ok s ∧
    read (guarded "b" "redis://:other@cache:6379") = .ok t ∧
    DifferInSecrets (guarded "a" "redis://:hunter2@cache:6379") (guarded "b" "redis://:other@cache:6379") ∧
    s.store.endpoint = "redis://:hunter2@cache:6379" ∧ t.store.endpoint = "redis://:other@cache:6379" ∧
    s.report = t.report := by
  obtain ⟨s, hs⟩ := read_guarded "a" "redis://:hunter2@cache:6379"
  obtain ⟨t, ht⟩ := read_guarded "b" "redis://:other@cache:6379"
  have hv : (guarded "a" "redis://:hunter2@cache:6379").value? "DENYLIST_ENDPOINT" =
      some "redis://:hunter2@cache:6379" := by decide +kernel
  have hw : (guarded "b" "redis://:other@cache:6379").value? "DENYLIST_ENDPOINT" =
      some "redis://:other@cache:6379" := by decide +kernel
  have hdiffer := differ_guarded (sameButPassword_of_decide (by decide +kernel)) (by decide +kernel) hv hw
  have hse : s.store.endpoint = "redis://:hunter2@cache:6379" := by rw [endpoint_of_read hs, endpointOf, hv]; rfl
  have hte : t.store.endpoint = "redis://:other@cache:6379" := by rw [endpoint_of_read ht, endpointOf, hw]; rfl
  exact ⟨s, t, hs, ht, hdiffer, hse, hte, (report_hides_iff hs ht hdiffer).2.1 (by rw [hse]; decide +kernel)
    (by rw [hte]; decide +kernel)⟩

/-- Without its scheme such an endpoint is shown with its password. -/
theorem unnamed_not_hidden : ∃ s t, read (guarded "a" "default:hunter2@cache:6379") = .ok s ∧
    read (guarded "a" "default:other@cache:6379") = .ok t ∧
    DifferInSecrets (guarded "a" "default:hunter2@cache:6379") (guarded "a" "default:other@cache:6379") ∧
    s.report ≠ t.report := by
  obtain ⟨s, hs⟩ := read_guarded "a" "default:hunter2@cache:6379"
  obtain ⟨t, ht⟩ := read_guarded "a" "default:other@cache:6379"
  have hv : (guarded "a" "default:hunter2@cache:6379").value? "DENYLIST_ENDPOINT" =
      some "default:hunter2@cache:6379" := by decide +kernel
  have hw : (guarded "a" "default:other@cache:6379").value? "DENYLIST_ENDPOINT" =
      some "default:other@cache:6379" := by decide +kernel
  have hdiffer := differ_guarded (sameButPassword_of_decide (by decide +kernel)) (by decide +kernel) hv hw
  refine ⟨s, t, hs, ht, hdiffer, fun h => ?_⟩
  rw [hdiffer.report_iff hs ht, endpoint_of_read hs, endpoint_of_read ht, endpointOf, endpointOf, hv, hw] at h
  revert h
  decide +kernel

end Gateway.Settings

end Tollgate
