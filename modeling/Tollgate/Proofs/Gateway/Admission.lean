/-
Admission, exactly. A request is handed on in two cases only: on an open path without a token, and on a
protected path with the token that was verified. Everything else is refused, by the first check that
fails: the path, the token, the deny list, the scope. The store and what lies behind are arbitrary.
-/
import Tollgate.Gateway.Admission
import Tollgate.Proofs.Gateway.Rules
import Tollgate.Proofs.Gateway.Stage
import Tollgate.Proofs.Guard.Denylist

namespace Tollgate.Gateway

namespace Gate

open Stage (handed run Refuses)

/-! ## The token of a request -/

/-- The keys in service verify a token now. -/
def Verifies (g : Gate) (token : String) (t : VerifiedToken) : Prop :=
  ∃ keys, g.keys = some keys ∧
    Token.verify token keys (Duration.seconds g.settings.clockSkew) g.now = .ok t

/-- Header fields carry a token: the first field of credentials is a bearer token that verifies. -/
def Carries (g : Gate) (h : Headers) (t : VerifiedToken) : Prop :=
  ∃ value token, h.first? "authorization" = some value ∧ Credentials.ofValue value = .ok token ∧
    g.Verifies token t

/-- Why header fields carry no token. -/
inductive Lacks (g : Gate) (h : Headers) : Refusal → Prop where
  | credentials (absent : h.first? "authorization" = none) : Lacks g h .tokenMissing
  | bearer {value fault} (first : h.first? "authorization" = some value)
      (other : Credentials.ofValue value = .error fault) : Lacks g h (.tokenInvalid fault.message)
  | keys {value token} (first : h.first? "authorization" = some value)
      (bearer : Credentials.ofValue value = .ok token) (absent : g.keys = none) :
      Lacks g h (.keysUnavailable FetchFault.notInitialized.message)
  | verification {value token keys fault} (first : h.first? "authorization" = some value)
      (bearer : Credentials.ofValue value = .ok token) (present : g.keys = some keys)
      (refused : Token.verify token keys (Duration.seconds g.settings.clockSkew) g.now = .error fault) :
      Lacks g h (.ofTokenFault fault)

theorem authenticate_eq (g : Gate) (h : Headers) :
    g.authenticate h = match h.first? "authorization" with
      | none => .error .tokenMissing
      | some value => match Credentials.ofValue value with
        | .error fault => .error (.tokenInvalid fault.message)
        | .ok token => match g.keys with
          | none => .error (.keysUnavailable FetchFault.notInitialized.message)
          | some keys => (Token.verify token keys (Duration.seconds g.settings.clockSkew) g.now).mapError
            .ofTokenFault := by
  unfold authenticate Credentials.bearer?
  cases h.first? "authorization" with
  | none => rfl
  | some value =>
    simp only
    cases Credentials.ofValue value <;> rfl

/-- A request is authenticated by the token that it carries, or refused for why it carries none. -/
theorem authenticate_cases (g : Gate) (h : Headers) :
    (∃ t, g.authenticate h = .ok t ∧ g.Carries h t) ∨ ∃ f, g.authenticate h = .error f ∧ g.Lacks h f := by
  rw [authenticate_eq]
  cases hf : h.first? "authorization" with
  | none => exact .inr ⟨_, rfl, .credentials hf⟩
  | some value =>
    cases ho : Credentials.ofValue value with
    | error fault => exact .inr ⟨_, by simp only [ho], .bearer hf ho⟩
    | ok token =>
      cases hk : g.keys with
      | none => exact .inr ⟨_, by simp only [ho], .keys hf ho hk⟩
      | some keys =>
        cases hv : Token.verify token keys (Duration.seconds g.settings.clockSkew) g.now with
        | error fault => exact .inr ⟨_, by simp only [ho, hv]; rfl, .verification hf ho hk hv⟩
        | ok t => exact .inl ⟨t, by simp only [ho, hv]; rfl, value, token, hf, ho, keys, hk, hv⟩

theorem Lacks.not_carries {g : Gate} {h : Headers} {f : Refusal} (hl : g.Lacks h f) (t : VerifiedToken) :
    ¬ g.Carries h t := by
  rintro ⟨value, token, hf, ho, keys, hk, hv⟩
  cases hl with
  | credentials hn => rw [hf] at hn; cases hn
  | bearer hf' ho' => rw [hf] at hf'; cases hf'; rw [ho] at ho'; cases ho'
  | keys hf' ho' hn => rw [hk] at hn; cases hn
  | verification hf' ho' hk' hv' =>
    rw [hf] at hf'; cases hf'
    rw [ho] at ho'; cases ho'
    rw [hk] at hk'; cases hk'
    rw [hv] at hv'; cases hv'

theorem authenticate_eq_ok_iff {g : Gate} {h : Headers} {t : VerifiedToken} :
    g.authenticate h = .ok t ↔ g.Carries h t := by
  constructor
  · intro ha
    rcases g.authenticate_cases h with ⟨t', ht, hc⟩ | ⟨f, hf, -⟩
    · rw [ha] at ht; cases ht; exact hc
    · rw [ha] at hf; cases hf
  · rintro ⟨value, token, hf, ho, keys, hk, hv⟩
    rw [authenticate_eq, hf, hk]
    simp only [ho, hv]
    rfl

theorem authenticate_eq_error_iff {g : Gate} {h : Headers} {f : Refusal} :
    g.authenticate h = .error f ↔ g.Lacks h f := by
  constructor
  · intro ha
    rcases g.authenticate_cases h with ⟨t, ht, -⟩ | ⟨f', hf, hl⟩
    · rw [ha] at ht; cases ht
    · rw [ha] at hf; cases hf; exact hl
  · intro hl
    rw [authenticate_eq]
    cases hl with
    | credentials hn => rw [hn]
    | bearer hf ho => rw [hf]; simp only [ho]
    | keys hf ho hk => rw [hf, hk]; simp only [ho]
    | verification hf ho hk hv => rw [hf, hk]; simp only [ho, hv]; rfl

theorem Carries.unique {g : Gate} {h : Headers} {t t' : VerifiedToken} (h1 : g.Carries h t)
    (h2 : g.Carries h t') : t = t' := by
  have := (authenticate_eq_ok_iff.2 h1).symm.trans (authenticate_eq_ok_iff.2 h2)
  simpa using this

theorem carries_or_lacks (g : Gate) (h : Headers) : (∃ t, g.Carries h t) ∨ ∃ f, g.Lacks h f := by
  rcases g.authenticate_cases h with ⟨t, -, hc⟩ | ⟨f, -, hl⟩
  · exact .inl ⟨t, hc⟩
  · exact .inr ⟨f, hl⟩

/-! ## Who is admitted -/

section

variable {σ : Type} (serve : σ → (c : Command) → c.Reply × σ)

/-- A token that grants the scope of the rule that governs a path, where one does. -/
def Grants (g : Gate) (path : List Char) (t : VerifiedToken) : Prop :=
  ∀ rule, g.settings.Governs path rule → t.hasScope rule.scope = true

/-- What a request is admitted with. The two cases exclude each other: a token that is sent along on an open
path is not looked at, and is not handed on. -/
inductive Admits (g : Gate) (s : σ) (r : Request) : Option VerifiedToken → Prop where
  | openly (path : Path.check r.target.path = .ok r.target.path) (everybody : g.settings.Open r.target.path) :
      Admits g s r none
  | bearing {t} (path : Path.check r.target.path = .ok r.target.path) (asked : g.settings.Protected r.target.path)
      (token : g.Carries r.headers t) (unlisted : ¬ g.denylist.Lists serve s t)
      (scope : g.Grants r.target.path t) : Admits g s r (some t)

/-- What is checked of a request, in order; each check is the refusals that it leads to. Nobody has a token
on the gateway's own endpoints, so a rule on one of them refuses everybody. -/
def checks (g : Gate) (s : σ) (r : Request) : List (Refusal → Prop) :=
  [fun f => ∃ fault, Path.check r.target.path = .error fault ∧ f = .invalidPath fault.message,
    fun f => g.settings.Protected r.target.path ∧ g.Lacks r.headers f,
    fun f => f = .tokenRevoked ∧ ∃ t, g.settings.Protected r.target.path ∧ g.Carries r.headers t ∧
      g.denylist.Lists serve s t,
    fun f => ∃ rule, g.settings.Governs r.target.path rule ∧ f = .insufficientScope rule.scope ∧
      ¬ ∃ t, g.settings.Protected r.target.path ∧ g.Carries r.headers t ∧ t.hasScope rule.scope = true]

/-- The refusal of the first check that fails. -/
def FirstOf : List (Refusal → Prop) → Refusal → Prop
  | [], _ => False
  | check :: later, f => check f ∨ (∀ other, ¬ check other) ∧ FirstOf later f

end

/-! ## The stage -/

section

variable {σ : Type} (serve : σ → (c : Command) → c.Reply × σ)
  (behind : Option VerifiedToken → σ → (Ending × List Event) × σ)

theorem refuses_refuse (s : σ) (f : Refusal) : Refuses serve behind (refuse f) s f :=
  .note _ _ (Stage.refuses_done _ _ s f)

theorem enforce_of_not_ruled {g : Gate} {path : List Char} (h : ¬ g.settings.Ruled path)
    (token : Option VerifiedToken) : g.enforce path token = .handOn token .done := by
  unfold enforce
  rw [Settings.requiredScope?_eq_none_iff.2 h]

theorem enforce_of_governs {g : Gate} {path : List Char} {rule : ScopeRule} (h : g.settings.Governs path rule)
    (token : Option VerifiedToken) : g.enforce path token =
      if token.any (·.hasScope rule.scope) then .handOn token .done
      else refuse (.insufficientScope rule.scope) := by
  unfold enforce
  rw [Settings.requiredScope?_eq_some_iff.2 ⟨rule, h, rfl⟩]

theorem enforce_of_grants {g : Gate} {path : List Char} {t : VerifiedToken} (h : g.Grants path t) :
    g.enforce path (some t) = .handOn (some t) .done := by
  by_cases hr : g.settings.Ruled path
  · obtain ⟨rule, hg⟩ := hr.exists_governs
    rw [enforce_of_governs hg, Option.any_some, if_pos (h rule hg)]
  · exact enforce_of_not_ruled hr _

theorem enforce_of_not_grants {g : Gate} {path : List Char} {rule : ScopeRule} {token : Option VerifiedToken}
    (h : g.settings.Governs path rule) (ht : ∀ t, token = some t → ¬ t.hasScope rule.scope = true) :
    g.enforce path token = refuse (.insufficientScope rule.scope) := by
  rw [enforce_of_governs h, if_neg]
  rw [Option.any_eq_true]
  rintro ⟨t, hs, hh⟩; exact ht t hs hh

theorem admission_of_fault {g : Gate} {r : Request} {fault : PathFault}
    (hp : Path.check r.target.path = .error fault) : g.admission r = refuse (.invalidPath fault.message) := by
  unfold admission; rw [hp]

theorem admission_of_ok {g : Gate} {r : Request} (hp : Path.check r.target.path = .ok r.target.path) :
    g.admission r = match g.identify r.target.path r.headers with
      | .error f => refuse f
      | .ok token => .ofPlan (g.denylist.admission token) (g.afterCheck r.target.path token) := by
  cases hi : g.identify r.target.path r.headers <;> simp only [admission, hp, hi]

/-- Where a token is asked for and lacking, the deny list is not asked. -/
theorem admission_of_lacks {g : Gate} {r : Request} {f : Refusal}
    (hp : Path.check r.target.path = .ok r.target.path) (ha : g.settings.Protected r.target.path)
    (hl : g.Lacks r.headers f) : g.admission r = refuse f := by
  rw [admission_of_ok hp, identify, Settings.isPublic_eq_false_iff.2 ha, authenticate_eq_error_iff.2 hl]
  rfl

theorem admission_of_carries {g : Gate} {r : Request} {t : VerifiedToken}
    (hp : Path.check r.target.path = .ok r.target.path) (ha : g.settings.Protected r.target.path)
    (hc : g.Carries r.headers t) :
    g.admission r = .ofPlan (g.denylist.admission (some t)) (g.afterCheck r.target.path (some t)) := by
  rw [admission_of_ok hp, identify, Settings.isPublic_eq_false_iff.2 ha, authenticate_eq_ok_iff.2 hc]
  rfl

/-- Where no token is asked for, none counts, and the deny list is not asked. -/
theorem admission_of_not_protected {g : Gate} {r : Request} (hp : Path.check r.target.path = .ok r.target.path)
    (hn : ¬ g.settings.Protected r.target.path) :
    g.admission r = .note (.admission .passThrough) (g.enforce r.target.path none) := by
  rw [← Settings.isPublic_eq_false_iff, Bool.not_eq_false] at hn
  rw [admission_of_ok hp, identify, hn]
  rfl

theorem handed_of_admits {g : Gate} {s : σ} {r : Request} {x : Option VerifiedToken}
    (h : g.Admits serve s r x) : handed serve behind (g.admission r) s = [x] := by
  cases h with
  | openly hp ho =>
    rw [admission_of_not_protected hp ho.not_protected, enforce_of_not_ruled ho.2]
    rfl
  | bearing hp ha hc hu hg =>
    rw [admission_of_carries hp ha hc, Stage.handed_ofPlan]
    unfold afterCheck
    rw [if_neg (fun hr => hu ((Denylist.isRejected_iff serve _ s _).1 hr)), enforce_of_grants hg]
    rfl

theorem check_eq_ok {r : Request}
    (h : ∀ f, ¬ ∃ fault, Path.check r.target.path = .error fault ∧ f = Refusal.invalidPath fault.message) :
    Path.check r.target.path = .ok r.target.path := by
  cases hp : Path.check r.target.path with
  | error fault => exact absurd ⟨fault, hp, rfl⟩ (h _)
  | ok path => rw [Path.check_eq_ok hp]

/-- The first check that fails refuses the request, which is not handed on. -/
theorem refuses_of_firstOf {g : Gate} {s : σ} {r : Request} {f : Refusal}
    (h : FirstOf (g.checks serve s r) f) : Refuses serve behind (g.admission r) s f := by
  simp only [checks, FirstOf, and_false, or_false] at h
  rcases h with ⟨fault, hp, rfl⟩ | ⟨n1, ⟨ha, hl⟩ | ⟨n2, ⟨rfl, t, ha, hc, hl⟩ | ⟨n3, rule, hg, rfl, hno⟩⟩⟩
  · rw [admission_of_fault hp]
    exact refuses_refuse serve behind s _
  · rw [admission_of_lacks (check_eq_ok n1) ha hl]
    exact refuses_refuse serve behind s _
  · rw [admission_of_carries (check_eq_ok n1) ha hc]
    refine .ofPlan _ _ ?_
    unfold afterCheck
    rw [if_pos ((Denylist.isRejected_iff serve _ s t).2 hl)]
    exact .note _ _ (Stage.refuses_done _ _ _ _)
  -- the first three checks pass, so there is a token without the scope, or none is asked for
  · by_cases ha : g.settings.Protected r.target.path
    · rcases g.carries_or_lacks r.headers with ⟨t, hc⟩ | ⟨f, hl⟩
      · rw [admission_of_carries (check_eq_ok n1) ha hc]
        refine .ofPlan _ _ ?_
        unfold afterCheck
        rw [if_neg (fun hr => n3 _ ⟨rfl, t, ha, hc, (Denylist.isRejected_iff serve _ s t).1 hr⟩),
          enforce_of_not_grants hg]
        · exact .note _ _ (refuses_refuse _ _ _ _)
        · rintro t' ht hs
          cases ht; exact hno ⟨t, ha, hc, hs⟩
      · exact absurd ⟨ha, hl⟩ (n2 f)
    · rw [admission_of_not_protected (check_eq_ok n1) ha, enforce_of_not_grants hg (fun t h => by cases h)]
      exact .note _ _ (refuses_refuse _ _ _ _)

theorem admits_or_firstOf (g : Gate) (s : σ) (r : Request) :
    (∃ x, g.Admits serve s r x) ∨ ∃ f, FirstOf (g.checks serve s r) f := by
  simp only [checks, FirstOf, and_false, or_false]
  cases hp : Path.check r.target.path with
  | error fault => exact .inr ⟨_, .inl ⟨fault, rfl, rfl⟩⟩
  | ok path =>
    obtain rfl := Path.check_eq_ok hp
    -- `n1`, `n2`: the check of the path and that of the token do not fail
    have n1 : ∀ f, ¬ ∃ fault : PathFault, Except.ok r.target.path = .error fault ∧
        f = Refusal.invalidPath fault.message := by
      rintro f ⟨fault, he, -⟩; cases he
    by_cases ha : g.settings.Protected r.target.path
    · rcases g.carries_or_lacks r.headers with ⟨t, hc⟩ | ⟨f, hl⟩
      · have n2 : ∀ f, ¬ (g.settings.Protected r.target.path ∧ g.Lacks r.headers f) := by
          rintro f ⟨-, hl⟩; exact hl.not_carries t hc
        by_cases hl : g.denylist.Lists serve s t
        · exact .inr ⟨_, .inr ⟨n1, .inr ⟨n2, .inl ⟨rfl, t, ha, hc, hl⟩⟩⟩⟩
        · by_cases hg : g.Grants r.target.path t
          · exact .inl ⟨_, .bearing hp ha hc hl hg⟩
          · unfold Grants at hg
            simp only [Classical.not_forall] at hg
            obtain ⟨rule, hr, hs⟩ := hg
            refine .inr ⟨_, .inr ⟨n1, .inr ⟨n2, .inr ⟨?_, rule, hr, rfl, ?_⟩⟩⟩⟩
            · rintro f ⟨-, t', -, hc', hl'⟩
              obtain rfl := hc.unique hc'; exact hl hl'
            · rintro ⟨t', -, hc', hs'⟩
              obtain rfl := hc.unique hc'; exact hs hs'
      · exact .inr ⟨f, .inr ⟨n1, .inl ⟨ha, hl⟩⟩⟩
    · by_cases hr : g.settings.Ruled r.target.path
      · obtain ⟨rule, hg⟩ := hr.exists_governs
        refine .inr ⟨_, .inr ⟨n1, .inr ⟨?_, .inr ⟨?_, rule, hg, rfl, ?_⟩⟩⟩⟩
        · rintro f ⟨ha', -⟩; exact ha ha'
        · rintro f ⟨-, t, ha', -⟩; exact ha ha'
        · rintro ⟨t, ha', -⟩; exact ha ha'
      · exact .inl ⟨_, .openly hp (Settings.open_of_not_protected ha hr)⟩

theorem handed_iff {g : Gate} {s : σ} {r : Request} {x : Option VerifiedToken} :
    handed serve behind (g.admission r) s = [x] ↔ g.Admits serve s r x := by
  constructor
  · intro h
    rcases admits_or_firstOf serve g s r with ⟨y, hy⟩ | ⟨f, hf⟩
    · rw [handed_of_admits serve behind hy] at h
      cases h; exact hy
    · rw [(refuses_of_firstOf serve behind hf).handed] at h; cases h
  · exact handed_of_admits serve behind

/-- A request is handed on exactly if it is admitted, and with what it is admitted with; else nothing is
handed on, and the client gets the refusal of the first check that failed. -/
theorem admission_exact (g : Gate) (s : σ) (r : Request) :
    (∀ x, handed serve behind (g.admission r) s = [x] ↔ g.Admits serve s r x) ∧
    (∀ f, FirstOf (g.checks serve s r) f → handed serve behind (g.admission r) s = [] ∧
      (run serve behind (g.admission r) s).1.1 = .refusal f) ∧
    ((∃ x, g.Admits serve s r x) ∨ ∃ f, FirstOf (g.checks serve s r) f) := by
  refine ⟨fun x => handed_iff serve behind, fun f h => ?_, admits_or_firstOf serve g s r⟩
  have hr := refuses_of_firstOf serve behind h
  exact ⟨hr.handed, hr.ending⟩

end

end Gate

end Tollgate.Gateway
