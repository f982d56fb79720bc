/-
A store that does not answer refuses nobody. A request is refused as revoked or as blocked only after the store
answered that the key in question is there; look-ups that fail do what look-ups do that find nothing. Nor do
they admit anybody: who is let through without a token asks for an open path, and everybody else has a token
that verifies and grants the scope of the path.
-/
import Tollgate.Proofs.Gateway.Admission
import Tollgate.Proofs.Gateway.Relay
import Tollgate.Proofs.Gateway.Traffic

namespace Tollgate

variable {σ : Type} (serve : σ → (c : Command) → c.Reply × σ)

/-! ## Look-ups that fail -/

/-- A store that answers, where another one fails to look a key up, that there is nothing. -/
def denying (s : σ) : (c : Command) → c.Reply × σ
  | .contains key => (.ok ((serve s (.contains key)).1.toOption.getD false), (serve s (.contains key)).2)
  | .lifetime key => (.ok ((serve s (.lifetime key)).1.toOption.getD none), (serve s (.lifetime key)).2)
  | c => serve s c

theorem denying_contains (s : σ) (key : String) : denying serve s (.contains key) =
    (.ok ((serve s (.contains key)).1.toOption.getD false), (serve s (.contains key)).2) := rfl

theorem denying_lifetime (s : σ) (key : String) : denying serve s (.lifetime key) =
    (.ok ((serve s (.lifetime key)).1.toOption.getD none), (serve s (.lifetime key)).2) := rfl

/-- A key is there for both stores or for none of them. -/
theorem denying_eq_true_iff (s : σ) (key : String) : (denying serve s (.contains key)).1 = .ok true ↔
    (serve s (.contains key)).1 = .ok true := by
  rw [denying_contains]
  rcases (serve s (.contains key)).1 with fault | (_ | _) <;> simp [Except.toOption]

namespace Denylist

theorem run_admission_denying (d : Denylist) (token : Option VerifiedToken) (s : σ) :
    (d.admission token).run (denying serve) s = (d.admission token).run serve s := by
  cases token with
  | none => rfl
  | some t =>
    cases h : t.jti with
    | none => rw [run_admission_of_jti_none _ d s h, run_admission_of_jti_none _ d s h]
    | some jti =>
      rw [run_admission_of_jti _ d s h, run_admission_of_jti _ d s h]
      simp only [listing_eq_listed_iff, denying_eq_true_iff serve s]
      rfl

/-- The question to the store is whether it has the key of the token's identifier. -/
theorem mem_exchanges_admission {d : Denylist} {s : σ} {t : VerifiedToken} {jti : String} (h : t.jti = some jti) :
    ⟨.contains (d.stem ++ jti), (serve s (.contains (d.stem ++ jti))).1⟩ ∈
      (d.admission (some t)).exchanges serve s := by
  unfold admission
  rw [Option.bind_some, h]
  show _ ∈ (d.check jti >>= _).exchanges serve s
  rw [Plan.exchanges_bind]
  exact List.mem_append_left _ List.mem_cons_self

end Denylist

namespace BlockList

theorem retryAfter_left_denying (b : BlockList) (address : String) (s : σ) :
    b.retryAfter (left (denying serve) s address) = b.retryAfter (left serve s address) := by
  unfold left
  rw [denying_lifetime]
  rcases (serve s (.lifetime (blockedKey address))).1 with fault | (_ | _) <;> rfl

theorem run_check_denying (b : BlockList) (address : String) (s : σ) :
    (b.check address).run (denying serve) s = (b.check address).run serve s := by
  cases h : b.isWatched address with
  | false => rw [check_of_not_watched h]; rfl
  | true =>
    by_cases hl : (serve s (.contains (blockedKey address))).1 = .ok true
    · rw [run_check_of_listed _ h hl, run_check_of_listed _ h ((denying_eq_true_iff serve s _).2 hl),
        retryAfter_left_denying]
      rfl
    · rw [run_check_of_not_listed _ h hl,
        run_check_of_not_listed _ h (fun hd => hl ((denying_eq_true_iff serve s _).1 hd))]
      rfl

end BlockList

/-! ## What the client is told -/

theorem Response.status_json (status : Nat) (headers : Headers) (document : Json.Value) :
    (json status headers document).status = status ∨ (json status headers document).status = 500 := by
  unfold json
  split
  · exact .inl rfl
  · exact .inr rfl

namespace Gateway

/-! ## Stages that ask nothing -/

/-- A stage that asks nothing of its store. -/
def Stage.Quiet {ι α : Type} : Stage ι α → Prop
  | .done _ => True
  | .ask _ _ => False
  | .note _ rest => rest.Quiet
  | .handOn _ next => ∀ ending, (next ending).Quiet

/-- A stage that asks nothing does not depend on who would answer. -/
theorem Stage.Quiet.run_eq {ι α : Type} {stage : Stage ι α} (h : stage.Quiet)
    (behind : ι → σ → (Ending × List Event) × σ) (serve serve' : σ → (c : Command) → c.Reply × σ) (s : σ) :
    run serve behind stage s = run serve' behind stage s ∧
      handed serve behind stage s = handed serve' behind stage s := by
  induction stage generalizing s with
  | done a => exact ⟨rfl, rfl⟩
  | ask c next ih => exact absurd h id
  | note e rest ih =>
    obtain ⟨hr, hh⟩ := ih h s
    simp only [run, handed, hr, hh, and_self]
  | handOn x next ih =>
    obtain ⟨hr, hh⟩ := ih _ (h (behind x s).1.1) (behind x s).2
    simp only [run, handed, hr, hh, and_self]

/-! ## Refusals as revoked -/

/-- No other refusal tells the client what that of a revoked token does. -/
theorem Refusal.eq_tokenRevoked {f : Refusal} (h : f.response = tokenRevoked.response) : f = tokenRevoked := by
  have hstatus : f.status = 401 ∨ f.response.status = 500 := by
    rcases Response.status_json f.status f.headers (Response.errorDocument f.code f.clientMessage f.more) with
      hs | hs
    · left; rw [← hs]; exact congrArg Response.status h
    · exact .inr hs
  have h500 : f.response.status ≠ 500 := by rw [h]; decide +kernel
  -- of the refusals with that status each has a document of its own
  have h1 : tokenMissing.response ≠ tokenRevoked.response := by decide +kernel
  have h2 : (tokenInvalid "").response ≠ tokenRevoked.response := by decide +kernel
  have h3 : (tokenExpired "").response ≠ tokenRevoked.response := by decide +kernel
  rcases hstatus with hs | hs
  · cases f with
    | tokenRevoked => rfl
    | tokenMissing => exact absurd h h1
    | tokenInvalid detail => exact absurd h h2
    | tokenExpired detail => exact absurd h h3
    | _ => simp [status] at hs
  · exact absurd hs h500

namespace Gate

open Stage (handed run Refuses exchanges)

theorem Lacks.ne_tokenRevoked {g : Gate} {h : Headers} {f : Refusal} (hl : g.Lacks h f) :
    f ≠ .tokenRevoked := by
  cases hl with
  | verification _ _ _ _ => rename_i fault _ _ _ _; cases fault <;> nofun
  | _ => nofun

variable (behind : Option VerifiedToken → σ → (Ending × List Event) × σ)

/-- A request that is refused as revoked carries a token that the deny list lists. -/
theorem lists_of_refuses {g : Gate} {s : σ} {r : Request}
    (h : Refuses serve behind (g.admission r) s .tokenRevoked) :
    Path.check r.target.path = .ok r.target.path ∧ g.settings.Protected r.target.path ∧
      ∃ t, g.Carries r.headers t ∧ g.denylist.Lists serve s t := by
  rcases admits_or_firstOf serve g s r with ⟨x, hx⟩ | ⟨f, hf⟩
  · have := (handed_of_admits serve behind hx).symm.trans h.handed
    cases this
  · have he := (refuses_of_firstOf serve behind hf).ending.symm.trans h.ending
    obtain rfl := Refusal.eq_tokenRevoked (Ending.response.inj he)
    simp only [checks, FirstOf, and_false, or_false] at hf
    rcases hf with ⟨_, -, hf⟩ | ⟨n1, ⟨-, hl⟩ | ⟨-, ⟨-, t, hp, hc, hl⟩ | ⟨-, _, -, hf, -⟩⟩⟩
    · cases hf
    · exact absurd rfl hl.ne_tokenRevoked
    · exact ⟨check_eq_ok n1, hp, t, hc, hl⟩
    · cases hf

/-- The store is asked for the identifier of the token that a request on a protected path carries. -/
theorem mem_exchanges_of_carries {g : Gate} {s : σ} {r : Request} {t : VerifiedToken} {jti : String}
    (hp : Path.check r.target.path = .ok r.target.path) (ha : g.settings.Protected r.target.path)
    (hc : g.Carries r.headers t) (ht : t.jti = some jti) :
    ⟨.contains (g.denylist.stem ++ jti), (serve s (.contains (g.denylist.stem ++ jti))).1⟩ ∈
      exchanges serve behind (g.admission r) s := by
  rw [admission_of_carries hp ha hc, Stage.exchanges_ofPlan]
  exact List.mem_append_left _ (Denylist.mem_exchanges_admission serve ht)

theorem quiet_refuse (f : Refusal) : (refuse f).Quiet := trivial

theorem quiet_enforce (g : Gate) (path : List Char) (token : Option VerifiedToken) :
    (g.enforce path token).Quiet := by
  unfold enforce
  split
  · exact fun _ => trivial
  · split
    · exact fun _ => trivial
    · exact quiet_refuse _

/-- What follows the deny list asks nothing of the store. -/
theorem quiet_afterCheck (g : Gate) (path : List Char) (token : Option VerifiedToken) (a : Admission) :
    (g.afterCheck path token a).Quiet := by
  unfold afterCheck
  show Stage.Quiet (if _ then _ else _)
  split
  · trivial
  · exact quiet_enforce g path token

/-- Look-ups that fail admit and refuse those whom look-ups that find nothing admit and refuse. -/
theorem admission_denying (g : Gate) (s : σ) (r : Request) :
    run (denying serve) behind (g.admission r) s = run serve behind (g.admission r) s ∧
      handed (denying serve) behind (g.admission r) s = handed serve behind (g.admission r) s := by
  unfold admission
  split
  · exact (quiet_refuse _).run_eq behind _ _ s
  · split
    · exact (quiet_refuse _).run_eq behind _ _ s
    · simp only [Stage.run_ofPlan, Stage.handed_ofPlan, Denylist.run_admission_denying]
      exact (quiet_afterCheck g _ _ _).run_eq behind _ _ _

end Gate

namespace Traffic

open Stage (handed run Refuses exchanges)

variable (behind : Unit → σ → (Ending × List Event) × σ)

/-- Look-ups that fail hand on and refuse those whom look-ups that find nothing hand on and refuse. -/
theorem watch_denying (b : BlockList) (trusts : Bool) (mark : String) (r : Request) (s : σ) :
    (run (denying serve) behind (watch b trusts mark r) s).1.1 =
        (run serve behind (watch b trusts mark r) s).1.1 ∧
      handed (denying serve) behind (watch b trusts mark r) s = handed serve behind (watch b trusts mark r) s := by
  cases hc : Credentials.clientAddress? trusts r with
  | none => rw [watch_of_unknown hc]; exact ⟨rfl, rfl⟩
  | some address =>
    rw [watch_of_known hc]
    have hd := BlockList.run_check_denying serve b address s
    cases h : ((b.check address).run serve s).1 with
    | allow =>
      have h' : ((b.check address).run (denying serve) s).1 = .allow := by rw [hd, h]
      rw [run_watchAddress _ behind h, run_watchAddress _ behind h', handed_watchAddress _ behind h,
        handed_watchAddress _ behind h', hd]
      exact ⟨rfl, rfl⟩
    | blocked left =>
      have h' : ((b.check address).run (denying serve) s).1 = .blocked left := by rw [hd, h]
      have hr := refuses_watchAddress serve behind mark h
      have hr' := refuses_watchAddress (denying serve) behind mark h'
      rw [hr.ending, hr'.ending, hr.handed, hr'.handed]
      exact ⟨rfl, rfl⟩

/-- The store is asked for the block of a client whose address is watched. -/
theorem mem_exchanges_watch {b : BlockList} {trusts : Bool} (mark : String) {r : Request} {s : σ} {address : String}
    (hc : Credentials.clientAddress? trusts r = some address) (hw : b.isWatched address = true) :
    ⟨.contains (BlockList.blockedKey address), (serve s (.contains (BlockList.blockedKey address))).1⟩ ∈
      exchanges serve behind (watch b trusts mark r) s := by
  obtain ⟨next, hcheck, -, -⟩ := BlockList.check_of_watched hw
  rw [watch_of_known hc]
  unfold watchAddress
  rw [Stage.exchanges_ofPlan, hcheck]
  exact List.mem_append_left _ List.mem_cons_self

end Traffic

open Stage (handed run Refuses exchanges)

/-- Whatever the store answers, and whenever it fails: who is refused as revoked carries a token that verifies,
and the store answered that it has the key of its identifier; who is refused as blocked has an address for
which the store answered that it has the key of a block; look-ups that fail refuse and hand on the same
requests, with the same ends, as look-ups that find nothing; and who is admitted asks for an open path, or
carries a token that verifies and grants the scope of the path. -/
theorem only_answers_refuse (serve : σ → (c : Command) → c.Reply × σ)
    (behind : Option VerifiedToken → σ → (Ending × List Event) × σ)
    (behindWatch : Unit → σ → (Ending × List Event) × σ) (g : Gate) (mark : String) (r : Request) (s : σ) :
    (Refuses serve behind (g.admission r) s .tokenRevoked → ∃ t jti, g.Carries r.headers t ∧
      t.claims.jti = some jti ∧ jti ≠ "" ∧
      ⟨.contains (g.settings.store.stem ++ jti), .ok true⟩ ∈ exchanges serve behind (g.admission r) s) ∧
    (∀ n, Refuses serve behindWatch (Traffic.watch g.settings.blockList g.settings.trustsForwarded mark r) s
        (.addressBlocked n) →
      ∃ address, Credentials.clientAddress? g.settings.trustsForwarded r = some address ∧
        ⟨.contains (BlockList.blockedKey address), .ok true⟩ ∈
          exchanges serve behindWatch (Traffic.watch g.settings.blockList g.settings.trustsForwarded mark r) s) ∧
    (run (denying serve) behind (g.admission r) s = run serve behind (g.admission r) s ∧
      handed (denying serve) behind (g.admission r) s = handed serve behind (g.admission r) s) ∧
    ((run (denying serve) behindWatch (Traffic.watch g.settings.blockList g.settings.trustsForwarded mark r) s).1.1 =
        (run serve behindWatch (Traffic.watch g.settings.blockList g.settings.trustsForwarded mark r) s).1.1 ∧
      handed (denying serve) behindWatch (Traffic.watch g.settings.blockList g.settings.trustsForwarded mark r) s =
        handed serve behindWatch (Traffic.watch g.settings.blockList g.settings.trustsForwarded mark r) s) ∧
    ∀ x ∈ handed serve behind (g.admission r) s, x = none ∧ g.settings.Open r.target.path ∨
      ∃ t, x = some t ∧ g.Carries r.headers t ∧ g.Grants r.target.path t := by
  refine ⟨fun h => ?_, fun n h => ?_, Gate.admission_denying serve behind g s r,
    Traffic.watch_denying serve behindWatch _ _ mark r s, fun x hx => ?_⟩
  · obtain ⟨hp, ha, t, hc, jti, h1, h2, hl⟩ := Gate.lists_of_refuses serve behind h
    have hm := Gate.mem_exchanges_of_carries serve behind (s := s) hp ha hc
      (VerifiedToken.jti_eq_some_iff.2 ⟨h1, h2⟩)
    rw [hl] at hm
    exact ⟨t, jti, hc, h1, h2, hm⟩
  · obtain ⟨address, hc, hw, hl⟩ := Traffic.blocked_of_handed_watch serve behindWatch h.handed
    have hm := Traffic.mem_exchanges_watch serve behindWatch mark (s := s) hc hw
    rw [hl] at hm
    exact ⟨address, hc, hm⟩
  · rcases Gate.admits_or_firstOf serve g s r with ⟨y, hy⟩ | ⟨f, hf⟩
    · rw [Gate.handed_of_admits serve behind hy, List.mem_singleton] at hx
      subst hx
      cases hy with
      | openly _ ho => exact .inl ⟨rfl, ho⟩
      | bearing _ _ hc _ hg => exact .inr ⟨_, rfl, hc, hg⟩
    · rw [(Gate.refuses_of_firstOf serve behind hf).handed] at hx; cases hx

end Gateway

end Tollgate
