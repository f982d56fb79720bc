/-
Which requests count as violations. The watch over addresses goes by the status that a request ends with, whoever
gave it. Behind the rate limiter the gateway has no such status of its own, but the server behind may answer with it,
and its answer is relayed as it is. So a request that is passed on leaves what is known of its client as it was unless
it is answered like that, and then it counts against the client.
-/
import Tollgate.Proofs.Gateway.Accounts
import Tollgate.Proofs.Gateway.FailOpen
import Tollgate.Proofs.Gateway.Spelling
import Tollgate.Proofs.Guard.Stored

namespace Tollgate

variable {σ : Type}

namespace Gateway

open Stage (run)
open Traffic (Visit Account tooMany)
open BlockList (KeyOf)

/-! ## Admission -/

theorem Stage.Quiet.sends {ι α : Type} {allowed : Command → Prop} {stage : Stage ι α} (h : stage.Quiet) :
    stage.Sends allowed := by
  induction stage with
  | done a => trivial
  | ask c next ih => exact absurd h id
  | note e rest ih => exact ih h
  | handOn x next ih => exact fun ending => ih ending (h ending)

namespace Gate

theorem gates_refuse (f : Refusal) : (refuse f).Gates := ⟨f, rfl⟩

theorem gates_enforce (g : Gate) (path : List Char) (token : Option VerifiedToken) : (g.enforce path token).Gates := by
  unfold enforce
  split
  · rfl
  split
  · rfl
  · exact gates_refuse _

theorem gates_afterCheck (g : Gate) (path : List Char) (token : Option VerifiedToken) (a : Admission) :
    (g.afterCheck path token a).Gates := by
  unfold afterCheck
  show Stage.Gates (if _ then _ else _)
  split
  · exact ⟨_, rfl⟩
  · exact gates_enforce g path token

theorem gates_admission (g : Gate) (r : Request) : (g.admission r).Gates := by
  unfold admission
  split
  · exact gates_refuse _
  split
  · exact gates_refuse _
  · exact .ofPlan (gates_afterCheck g _ _)

/-- Admission only looks something up in the deny list. -/
theorem sends_admission (g : Gate) (r : Request) : (g.admission r).Sends (·.isLookup = true) := by
  unfold admission
  split
  · exact (quiet_refuse _).sends
  split
  · exact (quiet_refuse _).sends
  · exact .ofPlan (Denylist.sends_admission g.denylist _) fun a => (quiet_afterCheck g _ _ a).sends

end Gate

/-! ## Statuses of the gateway's own -/

theorem Refusal.status_response_ne (f : Refusal) : f.response.status ≠ tooMany := by
  have h : f.status ≠ tooMany := by cases f <;> simp [status, tooMany]
  rcases Response.status_json f.status f.headers (Response.errorDocument f.code f.clientMessage f.more) with hs | hs
  · exact fun h' => h (hs.symm.trans h')
  · exact fun h' => absurd (hs.symm.trans h') (by decide)

theorem status_json_ne {status : Nat} (h : status ≠ tooMany) (headers : Headers) (document : Json.Value) :
    (Response.json status headers document).status ≠ tooMany := by
  rcases Response.status_json status headers document with hs | hs
  · exact fun h' => h (hs.symm.trans h')
  · exact fun h' => absurd (hs.symm.trans h') (by decide)

/-- Whether an event is that a request was passed on. -/
def Event.isRelayed : Event → Bool
  | relayed => true
  | _ => false

namespace Service

variable (w : Surroundings σ) (g : Gate) (r : Request)

theorem status_health_ne (loadedAt : String) : (health g loadedAt).status ≠ tooMany := by
  unfold health
  split
  · exact status_json_ne (by decide) _ _
  · exact status_json_ne (by decide) _ _

theorem status_metrics_ne (token : Option String) (exposition : String) :
    (Endpoint.metrics token r exposition).status ≠ tooMany := by
  unfold Endpoint.metrics
  split
  · simp [Response.plain, tooMany]
  · exact status_json_ne (by decide) _ _

/-! ## The status of the server behind -/

/-- The server behind answers a request that was passed on with the status of one that came too soon. -/
def AnswersTooMany : Prop :=
  ∃ o ∈ (forward g r).sent [], ∃ s i, (w.respond s o).1 = some i ∧ i.status = tooMany

theorem status_relay_response {reply : Option Incoming} {response : Response}
    (h : Relay.response reply = .ok response) : ∃ i, reply = some i ∧ response.status = i.status := by
  unfold Relay.response at h
  split at h
  · cases h
  · split at h
    · cases h; exact ⟨_, rfl, rfl⟩
    · cases h

/-- A request is refused at once, or it is relayed. -/
theorem forward_cases : (∃ response, forward g r = .done (response, []) ∧ response.status ≠ tooMany) ∨
    ∃ url, forward g r = (Relay.relay r url).map fun
      | .ok response => (response, [.relayed])
      | .error refusal => (refusal.response, [.relayed]) := by
  unfold forward
  rcases Endpoint.body_cases maxBody r with ⟨-, hbody⟩ | ⟨-, response, hbody, hresponse⟩
  · simp only [hbody]
    split
    · exact .inl ⟨_, rfl, Refusal.status_response_ne _⟩
    · exact .inr ⟨_, rfl⟩
  · rw [hbody]
    refine .inl ⟨response, rfl, ?_⟩
    rcases hresponse with rfl | ⟨detail, rfl⟩
    · decide
    · simp [Endpoint.unread, Response.plain, tooMany]

/-- The relay ends like that only with what the server behind answered. -/
theorem relayed_tooMany {s : σ} (h : (relayed w g r s).1.1.status = tooMany) :
    (relayed w g r s).1.2.any Event.isRelayed = true ∧ AnswersTooMany w g r := by
  unfold AnswersTooMany
  unfold relayed at h ⊢
  rcases forward_cases g r with ⟨response, hf, hne⟩ | ⟨url, hf⟩
  · rw [hf] at h
    exact absurd h hne
  · rw [hf] at h ⊢
    unfold Relay.relay at h ⊢
    cases ho : Relay.request? r url with
    | none =>
      rw [ho] at h
      exact absurd h (Refusal.status_response_ne _)
    | some o =>
      simp only [ho, Errand.map, Errand.run, Errand.sent] at h ⊢
      cases hreply : Relay.response (w.respond s o).1 with
      | error f =>
        rw [hreply] at h
        exact absurd h (Refusal.status_response_ne f)
      | ok response =>
        rw [hreply] at h
        obtain ⟨i, hi, hstatus⟩ := status_relay_response hreply
        exact ⟨rfl, o, List.mem_singleton_self o, s, i, hi, hstatus.symm.trans h⟩

theorem route_tooMany {loadedAt exposition : String} {s : σ}
    (h : (route g r loadedAt exposition (relayed w g r) s).1.1.status = tooMany) :
    (route g r loadedAt exposition (relayed w g r) s).1.2.any Event.isRelayed = true ∧ AnswersTooMany w g r := by
  unfold route at h ⊢
  split at h
  · exact absurd h (status_health_ne g loadedAt)
  split at h
  · exact absurd h (status_metrics_ne r g.settings.metricsToken exposition)
  · rename_i hhealth hmetrics
    rw [if_neg hhealth, if_neg hmetrics]
    exact relayed_tooMany w g r h

/-! ## All that lies behind the watch -/

/-- Admission ends like that only with what lies behind it. -/
theorem admitted_tooMany {behind : Option VerifiedToken → σ → (Ending × List Event) × σ} {s : σ}
    (h : (admitted w g r behind s).1.1.status = tooMany) :
    ∃ token s', (behind token s').1.1.status = tooMany ∧ (behind token s').1.2 ⊆ (admitted w g r behind s).1.2 := by
  rcases (Gate.gates_admission g r).run w.denylist behind s with ⟨f, hf⟩ | ⟨token, s', hending, hevents⟩
  · unfold admitted at h
    rw [hf] at h
    exact absurd h (Refusal.status_response_ne f)
  · exact ⟨token, s', (congrArg Ending.status hending).symm.trans h, hevents⟩

/-- What a request finds: the keys in service, the stores and the other servers, and what the reports say. -/
structure Scene (σ : Type) where
  keys : Option KeySet
  surroundings : Surroundings σ
  loadedAt : String
  exposition : String

namespace Scene

variable (x : Scene σ)

def behind (g : Gate) (r : Request) : σ → (Ending × List Event) × σ :=
  limited x.surroundings r <| admitted x.surroundings g r fun _ =>
    route g r x.loadedAt x.exposition (relayed x.surroundings g r)

theorem behind_of_limited {g : Gate} {r : Request} {ending : Ending} (h : x.surroundings.limiter r = some ending)
    (s : σ) : x.behind g r s = ((ending, []), s) := by
  unfold behind limited
  rw [h]

theorem behind_of_not_limited {g : Gate} {r : Request} (h : x.surroundings.limiter r = none) (s : σ) :
    x.behind g r s = admitted x.surroundings g r (fun _ =>
      route g r x.loadedAt x.exposition (relayed x.surroundings g r)) s := by
  unfold behind limited
  rw [h]

/-- Whoever is told to have come too soon was told so by the rate limiter or by the server behind. -/
theorem behind_tooMany {g : Gate} {r : Request} {s : σ} {ending : Ending} {events : List Event}
    (h : (x.behind g r s).1 = (ending, events)) (ht : ending.status = tooMany) :
    x.surroundings.limiter r = some ending ∧ events = [] ∨
      events.any Event.isRelayed = true ∧ AnswersTooMany x.surroundings g r := by
  cases hl : x.surroundings.limiter r with
  | some refusal =>
    rw [x.behind_of_limited hl] at h
    cases h
    exact .inl ⟨rfl, rfl⟩
  | none =>
    rw [x.behind_of_not_limited hl] at h
    obtain ⟨-, s', hstatus, hevents⟩ := admitted_tooMany _ _ _ (congrArg (·.1.status) h |>.trans ht)
    obtain ⟨hrelayed, hanswers⟩ := route_tooMany _ _ _ hstatus
    obtain ⟨e, he, hre⟩ := List.any_eq_true.1 hrelayed
    rw [h] at hevents
    exact .inr ⟨List.any_eq_true.2 ⟨e, hevents he, hre⟩, hanswers⟩

end Scene

/-- The block list is kept in memory, as long as that answers, and nothing else writes to it. -/
structure Surroundings.Keeps (w : Surroundings σ) (memory : σ → Memory) (now : Nat) : Prop where
  blockList : ∀ s c reply m, Memory.serve now (memory s) c = (some reply, m) →
    (w.blockList s c).1 = reply ∧ memory (w.blockList s c).2 = m
  denylist : ∀ s c, c.isLookup = true → memory (w.denylist s c).2 = memory s
  respond : ∀ s o, memory (w.respond s o).2 = memory s

variable {w : Surroundings σ} {memory : σ → Memory} {now : Nat}

theorem Surroundings.Keeps.relayed (h : w.Keeps memory now) (g : Gate) (r : Request) (s : σ) :
    memory (relayed w g r s).2 = memory s := Errand.view_run h.respond (forward g r) s

theorem Surroundings.Keeps.route (h : w.Keeps memory now) (g : Gate) (r : Request) (loadedAt exposition : String)
    (s : σ) : memory (route g r loadedAt exposition (Service.relayed w g r) s).2 = memory s := by
  unfold Service.route
  split
  · rfl
  split
  · rfl
  · exact h.relayed g r s

/-- What lies behind the watch does not touch the block list. -/
theorem Surroundings.Keeps.behind {x : Scene σ} (h : x.surroundings.Keeps memory now) (g : Gate) (r : Request) (s : σ) :
    memory (x.behind g r s).2 = memory s := by
  cases hl : x.surroundings.limiter r with
  | some ending => rw [x.behind_of_limited hl]
  | none =>
    rw [x.behind_of_not_limited hl]
    exact Stage.view_run h.denylist (fun _ s => h.route g r _ _ s) (Gate.sends_admission g r) s

end Service

namespace Traffic

variable (serve : σ → (c : Command) → c.Reply × σ) (behind : Unit → σ → (Ending × List Event) × σ)
  {b : BlockList} {mark address : String} {s after : σ} {ending : Ending} {events : List Event}

/-- Over a block list in memory that answers all along, a request is turned away, or it ends as what lies behind ends it
and is a violation if it came too soon. -/
theorem watchAddress_cases {memory : σ → Memory} {now : Nat}
    (hserve : ∀ s c reply m, Memory.serve now (memory s) c = (some reply, m) →
      (serve s c).1 = reply ∧ memory (serve s c).2 = m)
    (htells : b.Tells now) (hbehind : ∀ s, memory (behind () s).2 = memory s)
    (h : run serve behind (watchAddress b mark address) s = ((ending, events), after)) :
    events.any Event.isRelayed = false ∧ memory after = memory s ∨
      ∃ s' inner, (behind () s').1 = (ending, inner) ∧ events.any Event.isRelayed = inner.any Event.isRelayed ∧
        memory after = if ending.status = tooMany then
            ((b.recordViolation mark address).run.attempt (Memory.serve now) (memory s)).2
          else memory s := by
  obtain ⟨d, hcheck⟩ := b.attempt_check address now (memory s)
  have hlook : memory ((b.check address).run serve s).2 = memory s := (Plan.run_of_attempt hserve hcheck).2
  unfold watchAddress at h
  rw [Stage.run_ofPlan] at h
  cases hd : ((b.check address).run serve s).1 with
  | blocked left =>
    rw [hd] at h
    cases h
    exact .inl ⟨rfl, hlook⟩
  | allow =>
    rw [hd] at h
    -- neither the look nor what lies behind changes the block list: the violation is recorded on what was there
    have hkept := (hbehind ((b.check address).run serve s).2).trans hlook
    generalize hb : behind () ((b.check address).run serve s).2 = out at hkept
    obtain ⟨⟨own, inner⟩, s'⟩ := out
    obtain ⟨outcome, m, hattempt⟩ := Memory.attempt_of_told (htells.sends_recordViolation mark address) (memory s')
    have hrecord := (Plan.run_of_attempt hserve hattempt).2
    rw [hkept] at hattempt
    simp only [run, hb, run_settle_eq] at h
    refine .inr ⟨((b.check address).run serve s).2, inner, ?_⟩
    rw [hb]
    split at h
    · rename_i ht
      cases h
      exact ⟨rfl, by simp [Event.isRelayed], by rw [if_pos ht, hattempt]; exact hrecord⟩
    · rename_i ht
      cases h
      exact ⟨rfl, by simp, by rw [if_neg ht, hkept]⟩

end Traffic

namespace Service

/-! ## Requests one after another -/

def gateOf (settings : Settings) (scene : Visit → Scene σ) (v : Visit) : Gate :=
  ⟨settings, (scene v).keys, Duration.seconds v.time⟩

def accounts (settings : Settings) (scene : Visit → Scene σ) : List Visit → σ → List (Account σ) :=
  Traffic.accounts settings.blockList settings.trustsForwarded (fun v => (scene v).surroundings.blockList)
    fun v => (scene v).behind (gateOf settings scene v) v.request

/-- Every account is of a run of the whole gateway. -/
theorem serve_of_mem_accounts {settings : Settings} {scene : Visit → Scene σ} {visits : List Visit} {s : σ}
    {x : Account σ} (h : x ∈ accounts settings scene visits s) :
    serve (scene x.visit).surroundings (gateOf settings scene x.visit) x.visit.mark (scene x.visit).loadedAt
      (scene x.visit).exposition x.visit.request x.before = ((x.ending, x.events), x.after) := by
  obtain ⟨s', hx⟩ := Traffic.mem_accounts _ _ _ _ h
  rw [hx]
  rfl

/-- What is known of an address is after a request what it was before. -/
def Leaves (memory : σ → Memory) (address : String) (x : Account σ) : Prop :=
  ∀ key, KeyOf address key → Memory.entry? (memory x.after) key = Memory.entry? (memory x.before) key

variable {settings : Settings} {scene : Visit → Scene σ} {memory : σ → Memory} {x : Account σ} {s : σ}
  {address : String}

/-- While the ends of all that a violation begins can be told, a request that was passed on leaves what is known of its
client as it was, unless it ends with the status of one that came too soon, for which the server behind then gave that
status. No other request changes what is known of its client but one that the rate limiter refused with that status. -/
theorem relayed_leaves_iff (hwindow : 0 < settings.blockList.violationWindow)
    (hk : ∀ v, (scene v).surroundings.Keeps memory v.time) (visits : List Visit)
    (hx : x ∈ accounts settings scene visits s) (htells : settings.blockList.Tells x.visit.time)
    (hc : Credentials.clientAddress? settings.trustsForwarded x.visit.request = some address) :
    (x.events.any Event.isRelayed = true →
      (Leaves memory address x ↔ ¬ (x.ending.status = tooMany ∧
        (memory x.before).available = true ∧ settings.blockList.isWatched address = true)) ∧
      (x.ending.status = tooMany →
        AnswersTooMany (scene x.visit).surroundings (gateOf settings scene x.visit) x.visit.request)) ∧
    (x.events.any Event.isRelayed = false → ¬ Leaves memory address x →
      (scene x.visit).surroundings.limiter x.visit.request = some x.ending ∧ x.ending.status = tooMany) := by
  have hkx := hk x.visit
  have hrun : run (scene x.visit).surroundings.blockList
      (fun _ => (scene x.visit).behind (gateOf settings scene x.visit) x.visit.request)
      (Traffic.watchAddress settings.blockList x.visit.mark address) x.before = ((x.ending, x.events), x.after) := by
    rw [← Traffic.watch_of_known hc]
    exact serve_of_mem_accounts hx
  rcases Traffic.watchAddress_cases _ _ hkx.blockList htells (hkx.behind _ _) hrun with
    ⟨hevents, hafter⟩ | ⟨s', inner, hinner, hevents, hafter⟩
  · have hleaves : Leaves memory address x := fun key _ => by rw [hafter]
    exact ⟨fun h => absurd (h.symm.trans hevents) nofun, fun _ h => absurd hleaves h⟩
  · by_cases ht : x.ending.status = tooMany
    · rw [if_pos ht] at hafter
      have hleaves := BlockList.recordViolation_leaves_iff hwindow x.visit.mark address (memory x.before) x.visit.time
      rw [← hafter] at hleaves
      change Leaves memory address x ↔ _ at hleaves
      rcases (scene x.visit).behind_tooMany hinner ht with ⟨hl, rfl⟩ | ⟨hrelayed, hanswers⟩
      · exact ⟨fun h => absurd (h.symm.trans hevents) nofun, fun _ _ => ⟨hl, ht⟩⟩
      · exact ⟨fun _ => ⟨by rw [hleaves, and_iff_right ht], fun _ => hanswers⟩,
          fun h => absurd (h.symm.trans (hevents.trans hrelayed)) nofun⟩
    · rw [if_neg ht] at hafter
      have hleaves : Leaves memory address x := fun key _ => by rw [hafter]
      exact ⟨fun _ => ⟨iff_of_true hleaves fun h => ht h.1, fun h => absurd h ht⟩, fun _ h => absurd hleaves h⟩

def walletsVisit : Visit := Traffic.visitOf "/api/v1/wallets" [203, 0, 113, 7] 0

/-- No limit on requests, one store in memory, and a server behind that gives every request the same status. -/
def answering (status : Nat) (v : Visit) : Scene Memory where
  keys := none
  surroundings :=
    { denylist := Memory.steady v.time
      blockList := Memory.steady v.time
      limiter := fun _ => none
      respond := fun m _ => (some ⟨status, [], none, []⟩, m) }
  loadedAt := ""
  exposition := ""

theorem keeps_answering (status : Nat) (v : Visit) : (answering status v).surroundings.Keeps id v.time :=
  ⟨fun _ _ _ _ h => Prod.mk.inj (Memory.steady_of_serve h),
    fun m c h => by
      obtain ⟨reply, hreply⟩ := Memory.serve_of_isLookup h v.time m
      exact congrArg Prod.snd (Memory.steady_of_serve hreply),
    fun _ _ => rfl⟩

def wallets (settings : Settings) (status : Nat) : Account Memory :=
  Traffic.account settings.blockList settings.trustsForwarded (fun v => (answering status v).surroundings.blockList)
    (fun v => (answering status v).behind (gateOf settings (answering status) v) v.request) walletsVisit .empty

theorem wallets_mem (settings : Settings) (status : Nat) :
    wallets settings status ∈ accounts settings (answering status) [walletsVisit] .empty := List.mem_cons_self

theorem clientAddress?_walletsVisit (trusts : Bool) :
    Credentials.clientAddress? trusts walletsVisit.request = some "203.0.113.7" := by
  cases trusts <;> decide +kernel

/-- How that request ends, whether it was passed on, and what the counter of its client holds then. -/
def walletsEnd (status : Nat) (settings : Settings) : Nat × Bool × Option Entry :=
  ((wallets settings status).ending.status, (wallets settings status).events.any Event.isRelayed,
    (wallets settings status).after.entry? (BlockList.violationKey "203.0.113.7"))

theorem relayed_leaves_iff_wallets : ∃ settings, Settings.read publicApi = .ok settings ∧
    (wallets settings 200).events.any Event.isRelayed = true ∧ Leaves id "203.0.113.7" (wallets settings 200) := by
  have h : (Settings.read publicApi).map (fun s => (s.blockList.violationWindow, decide (s.blockList.Tells 0),
      walletsEnd 200 s)) = .ok (300000000000, true, 200, true, none) := by decide +kernel
  cases hr : Settings.read publicApi with
  | error fault => rw [hr] at h; cases h
  | ok settings =>
    rw [hr] at h
    simp only [Except.map, Except.ok.injEq, Prod.mk.injEq, walletsEnd] at h
    obtain ⟨hwindow, htells, hstatus, hrelayed, -⟩ := h
    refine ⟨settings, rfl, hrelayed, ?_⟩
    obtain ⟨hleaves, -⟩ := (relayed_leaves_iff (by rw [hwindow]; decide) (keeps_answering 200) [walletsVisit]
      (wallets_mem settings 200) (of_decide_eq_true htells) (clientAddress?_walletsVisit _)).1 hrelayed
    exact hleaves.2 fun ht => absurd (hstatus.symm.trans ht.1) (by decide)

/-- A request that was passed on counts against its client if the server behind says that it came too soon. -/
theorem wallets_not_leaves : ∃ settings, Settings.read publicApi = .ok settings ∧
    ∃ x ∈ accounts settings (answering tooMany) [walletsVisit] .empty,
      Credentials.clientAddress? settings.trustsForwarded x.visit.request = some "203.0.113.7" ∧
      x.events.any Event.isRelayed = true ∧ ¬ Leaves id "203.0.113.7" x := by
  have h : (Settings.read publicApi).map (walletsEnd tooMany) = .ok (tooMany, true, some ⟨1, some 300000000000⟩) := by
    decide +kernel
  cases hr : Settings.read publicApi with
  | error fault => rw [hr] at h; cases h
  | ok settings =>
    rw [hr] at h
    simp only [Except.map, Except.ok.injEq, Prod.mk.injEq, walletsEnd] at h
    obtain ⟨-, hrelayed, hentry⟩ := h
    refine ⟨settings, rfl, wallets settings tooMany, wallets_mem settings tooMany, clientAddress?_walletsVisit _,
      hrelayed, fun hleaves => ?_⟩
    exact absurd (hentry.symm.trans (hleaves _ (BlockList.keyOf_violationKey _))) nofun

end Service

end Gateway

end Tollgate
