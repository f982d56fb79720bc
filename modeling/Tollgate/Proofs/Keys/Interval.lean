/-
How far apart the renewals that readers start are. A reader sees whether a renewal is due and starts one in two
steps, and the attempt is noted only later, so a reader that has seen a renewal due can start one although
another was begun and ended meanwhile. As long as a renewal is still due whenever one is started, and begins its
fetch at once when it has noted its attempt, two of them never begin less than the interval apart.
-/
import Tollgate.Proofs.Keys.Flight
import Tollgate.Proofs.Token.Verification

namespace Tollgate

/-- Whether a worker is a renewal in the background that has not begun its fetch. -/
def Worker.isPending : Worker → Bool
  | .renewal true .start | .renewal true .noted => true
  | _ => false

theorem Worker.isFlight_of_isPending {w : Worker} (h : w.isPending = true) : w.isFlight = true := by
  unfold isPending at h
  split at h
  · rfl
  · rfl
  · cases h

/-- Whether a worker is a renewal in the background that has noted its attempt and not begun its fetch. -/
def Worker.isNoted : Worker → Bool
  | .renewal true .noted => true
  | _ => false

theorem Worker.isPending_of_isNoted {w : Worker} (h : w.isNoted = true) : w.isPending = true := by
  unfold isNoted at h
  split at h
  · rfl
  · cases h

namespace KeyService

/-- When the fetches began that readers' renewals began. -/
def automatic (s : KeyService) : List Nat := (s.fetches.filter (·.background)).map (·.at_)

/-- Whether a list of instants keeps an interval. -/
def Spaced (interval : Nat) (instants : List Nat) : Prop := instants.Pairwise fun a b => a + interval ≤ b

instance (interval : Nat) (instants : List Nat) : Decidable (Spaced interval instants) :=
  inferInstanceAs (Decidable (instants.Pairwise fun a b => a + interval ≤ b))

/-- Whether a reader starts a renewal with its next step. -/
def starts (s : KeyService) : KeyEvent → Bool
  | .step i _ =>
    match s.workers[i]? with
    | some (.reader (.due _)) => s.spawns && !s.cache.refreshing
    | _ => false
  | _ => false

/-- Whether what happens next is in time: a renewal that a reader starts is due, and no time passes between an
attempt in the background and its fetch. -/
def inTime (s : KeyService) (e : KeyEvent) : Bool :=
  (!s.starts e || s.cache.refreshDue s.now) &&
    match e with
    | .elapse nanos => nanos == 0 || !s.workers.any Worker.isNoted
    | _ => true

/-- Whether all of a course of events is in time. -/
def runsInTime (s : KeyService) : List KeyEvent → Bool
  | [] => true
  | e :: rest => s.inTime e && (s.step e).runsInTime rest

/-! ## What is kept -/

/-- What holds as long as everything is in time. Every automatic fetch began no later than the last attempt; as
long as a renewal is about to begin its fetch, all earlier ones are an interval ago. -/
structure Punctual (s : KeyService) : Prop where
  spaced : Spaced s.cache.minRefresh s.automatic
  attempted : ∀ t ∈ s.automatic, ∃ attempt, s.cache.lastAttempt = some attempt ∧ t ≤ attempt
  past : ∀ attempt, s.cache.lastAttempt = some attempt → attempt ≤ s.now
  pending : ∀ w ∈ s.workers, w.isPending = true → ∀ t ∈ s.automatic, t + s.cache.minRefresh ≤ s.now
  noted : ∀ w ∈ s.workers, w.isNoted = true → s.cache.lastAttempt = some s.now

theorem punctual_start (minRefresh now : Nat) (seed : Option KeySet) (spawns : Bool) :
    (start minRefresh now seed spawns).Punctual := by
  cases seed with
  | none => exact ⟨.nil, nofun, nofun, nofun, nofun⟩
  | some keys =>
    refine ⟨.nil, nofun, ?_, nofun, nofun⟩
    rintro attempt h
    cases h; exact Nat.le_refl _

/-- A step that begins no automatic fetch, notes no attempt and brings no renewal keeps it. -/
theorem Punctual.of_same {s s' : KeyService} (h : s.Punctual) (hnow : s'.now = s.now)
    (hmin : s'.cache.minRefresh = s.cache.minRefresh) (hlast : s'.cache.lastAttempt = s.cache.lastAttempt)
    (hautomatic : s'.automatic = s.automatic) (hpending : ∀ w ∈ s'.workers, w.isPending = true → w ∈ s.workers) :
    s'.Punctual := by
  refine ⟨?_, ?_, ?_, ?_, ?_⟩
  · rw [hmin, hautomatic]; exact h.spaced
  · rw [hautomatic, hlast]; exact h.attempted
  · rw [hlast, hnow]; exact h.past
  · rw [hautomatic, hmin, hnow]
    exact fun w hw hp => h.pending w (hpending w hw hp) hp
  · rw [hlast, hnow]
    exact fun w hw hn => h.noted w (hpending w hw (Worker.isPending_of_isNoted hn)) hn

theorem mem_of_isPending_set {ws : List Worker} {i : Nat} {v w : Worker} (hv : v.isPending = false)
    (hw : w ∈ ws.set i v ++ []) (hp : w.isPending = true) : w ∈ ws := by
  rw [List.append_nil] at hw
  rcases List.mem_or_eq_of_mem_set hw with hold | rfl
  · exact hold
  · rw [hv] at hp; cases hp

theorem mem_of_isPending_append {ws : List Worker} {v w : Worker} (hv : v.isPending = false) (hw : w ∈ ws ++ [v])
    (hp : w.isPending = true) : w ∈ ws := by
  rcases List.mem_append.1 hw with hold | hnew
  · exact hold
  · rw [List.mem_singleton.1 hnew, hv] at hp; cases hp

theorem Punctual.elapse {s : KeyService} (h : s.Punctual) {nanos : Nat} (ht : s.inTime (.elapse nanos) = true) :
    (s.step (.elapse nanos)).Punctual := by
  have hlater : s.now ≤ s.now + nanos := Nat.le_add_right _ _
  refine ⟨h.spaced, h.attempted, fun attempt ha => (h.past attempt ha).trans hlater,
    fun w hw hp t hm => (h.pending w hw hp t hm).trans hlater, fun w hw hn => ?_⟩
  have hstill : nanos = 0 ∨ ∀ w ∈ s.workers, w.isNoted = false := by
    simpa [inTime, starts] using ht
  rcases hstill with rfl | hnone
  · exact h.noted w hw hn
  · rw [hnone w hw] at hn; cases hn

theorem Punctual.le_of_refreshDue {s : KeyService} (h : s.Punctual) (hdue : s.cache.refreshDue s.now = true) :
    ∀ t ∈ s.automatic, t + s.cache.minRefresh ≤ s.now := by
  intro t hm
  obtain ⟨attempt, hlast, hle⟩ := h.attempted t hm
  have hpast := h.past attempt hlast
  have hdue' : s.cache.minRefresh ≤ s.now - attempt := by
    simpa [KeyCache.refreshDue, hlast] using hdue
  omega

theorem automatic_append {s s' : KeyService} {background : Bool}
    (h : s'.fetches = s.fetches ++ [⟨s.now, background⟩]) :
    s'.automatic = s.automatic ++ if background then [s.now] else [] := by
  unfold automatic
  rw [h, List.filter_append, List.map_append]
  cases background <;> rfl

/-- A renewal in the background that begins its fetch begins it an interval after all others. -/
theorem Punctual.fetch {s s' : KeyService} (h : s.Punctual) (hsingle : s'.SingleFlight) {w v : Worker}
    (hw : w ∈ s.workers) (hwn : w.isNoted = true) (hv : v ∈ s'.workers) (hvf : v.isFlight = true)
    (hvp : v.isPending = false) (hcache : s'.cache = s.cache) (hnow : s'.now = s.now)
    (hautomatic : s'.automatic = s.automatic ++ [s.now]) : s'.Punctual := by
  have hpast := h.pending w hw (Worker.isPending_of_isNoted hwn)
  have hlast := h.noted w hw hwn
  -- there is only one renewal under way, and it is no longer pending
  have hnone : ∀ u ∈ s'.workers, u.isPending = false := by
    intro u hu
    cases hp : u.isPending with
    | false => rfl
    | true =>
      have huv : u = v := hsingle.eq hu hv (Worker.isFlight_of_isPending hp) hvf
      rw [huv, hvp] at hp; cases hp
  refine ⟨?_, ?_, ?_, fun u hu hp => ?_, fun u hu hn => ?_⟩
  · rw [hautomatic, hcache]
    refine List.pairwise_append.2 ⟨h.spaced, List.pairwise_singleton _ _, fun t ht u hu => ?_⟩
    rw [List.mem_singleton.1 hu]
    exact hpast t ht
  · rw [hautomatic, hcache]
    intro t ht
    rcases List.mem_append.1 ht with hold | hnew
    · exact h.attempted t hold
    · exact ⟨s.now, hlast, (List.mem_singleton.1 hnew).le⟩
  · rw [hcache, hnow]; exact h.past
  · rw [hnone u hu] at hp; cases hp
  · have hp := Worker.isPending_of_isNoted hn
    rw [hnone u hu] at hp; cases hp

theorem Punctual.step {s : KeyService} (h : s.Punctual) {e : KeyEvent} (hsingle : (s.step e).SingleFlight)
    (ht : s.inTime e = true) : (s.step e).Punctual := by
  cases e with
  | elapse nanos => exact h.elapse ht
  | read => exact h.of_same rfl rfl rfl rfl fun w hw hp => mem_of_isPending_append rfl hw hp
  | renew => exact h.of_same rfl rfl rfl rfl fun w hw hp => mem_of_isPending_append rfl hw hp
  | step i outcome =>
    cases hw : s.workers[i]? with
    | none => rw [step_absent hw]; exact h
    | some w =>
      obtain ⟨v, cache, fetches, more, hmove, hstep⟩ := step_moves hw outcome
      rw [hstep] at hsingle ⊢
      have hmem : w ∈ s.workers := List.mem_of_getElem? hw
      cases hmove with
      | claim snapshot hspawns hfree =>
        have hstarts : s.starts (.step i outcome) = true := by simp [starts, hw, hspawns, hfree]
        have hdue : s.cache.refreshDue s.now = true := by simpa [inTime, hstarts] using ht
        refine ⟨h.spaced, h.attempted, h.past, fun u hu hp => ?_, fun u hu hn => ?_⟩
        · exact h.le_of_refreshDue hdue
        · rcases List.mem_append.1 hu with hold | hnew
          · rcases List.mem_or_eq_of_mem_set hold with hold | rfl
            · exact h.noted u hold hn
            · cases hn
          · rw [List.mem_singleton.1 hnew] at hn; cases hn
      | note background =>
        refine ⟨h.spaced, fun t hm => ⟨s.now, rfl, ?_⟩, ?_, fun u hu hp => ?_, fun u hu hn => rfl⟩
        · obtain ⟨attempt, hlast, hle⟩ := h.attempted t hm
          exact hle.trans (h.past attempt hlast)
        · rintro attempt hlast
          cases hlast; exact Nat.le_refl _
        · rw [List.append_nil] at hu
          rcases List.mem_or_eq_of_mem_set hu with hold | rfl
          · exact h.pending u hold hp
          · cases background with
            | true => exact h.pending _ hmem rfl
            | false => cases hp
      | fetch background =>
        have hset : ∀ u : Worker, u ∈ s.workers.set i u ++ [] := fun u => by
          rw [List.append_nil]
          exact List.mem_set (List.getElem?_eq_some_iff.1 hw).1 u
        cases background with
        | true =>
          refine h.fetch hsingle hmem rfl (hset _) rfl rfl rfl rfl ?_
          rw [automatic_append rfl]; rfl
        | false =>
          refine h.of_same rfl rfl rfl ?_ fun u hu hp => mem_of_isPending_set rfl hu hp
          exact (automatic_append rfl).trans (List.append_nil _)
      | install background | fail background | restRenewal background =>
        refine h.of_same rfl rfl rfl rfl fun u hu hp => mem_of_isPending_set ?_ hu hp
        cases background <;> rfl
      | _ => exact h.of_same rfl rfl rfl rfl fun u hu hp => mem_of_isPending_set rfl hu hp

theorem Punctual.run {s : KeyService} {events : List KeyEvent} (h : s.Punctual) (hsingle : s.SingleFlight)
    (ht : s.runsInTime events = true) : (s.run events).Punctual := by
  induction events generalizing s with
  | nil => exact h
  | cons e rest ih =>
    obtain ⟨he, hrest⟩ := Bool.and_eq_true_iff.1 ht
    exact ih (h.step (hsingle.step e) he) (hsingle.step e) hrest

theorem minRefresh_step (s : KeyService) (e : KeyEvent) : (s.step e).cache.minRefresh = s.cache.minRefresh := by
  cases e with
  | elapse nanos => rfl
  | read => rfl
  | renew => rfl
  | step i outcome =>
    cases hw : s.workers[i]? with
    | none => rw [step_absent hw]
    | some w =>
      obtain ⟨v, cache, fetches, more, hmove, hstep⟩ := step_moves hw outcome
      rw [hstep]
      cases hmove <;> rfl

theorem minRefresh_run (s : KeyService) (events : List KeyEvent) :
    (s.run events).cache.minRefresh = s.cache.minRefresh := by
  induction events using List.reverseRecOn with
  | nil => rfl
  | append_singleton events e ih => rw [run_concat, minRefresh_step, ih]

/-- In a course of events in which every renewal that a reader starts is due when it is started, and begins its
fetch at once when it has noted its attempt, no two of them begin less than the interval apart. -/
theorem spaced_of_runsInTime (minRefresh now : Nat) (seed : Option KeySet) (spawns : Bool) (events : List KeyEvent)
    (h : (start minRefresh now seed spawns).runsInTime events = true) :
    Spaced minRefresh ((start minRefresh now seed spawns).run events).automatic := by
  have hkept := (punctual_start minRefresh now seed spawns).run (singleFlight_start minRefresh now seed spawns) h
  have hmin : ((start minRefresh now seed spawns).run events).cache.minRefresh = minRefresh := by
    rw [minRefresh_run]
    cases seed <;> rfl
  have hspaced := hkept.spaced
  rwa [hmin] at hspaced

/-! ## Runs over a quarter of an hour and more -/

/-- The nanoseconds of a quarter of an hour. -/
def quarter : Nat := 900000000000

/-- A reader starts a renewal when the first one is due. It notes its attempt, begins its fetch some time later,
and ends; then a reader starts the next one when it is due. -/
def twoRenewals (delay : Nat) : List KeyEvent :=
  [.elapse quarter, .read, .step 0 noOutcome, .step 0 noOutcome, .step 0 noOutcome,
    .step 1 noOutcome, .elapse delay, .step 1 noOutcome, .step 1 noOutcome, .step 1 noOutcome,
    .elapse (quarter - delay), .read, .step 2 noOutcome, .step 2 noOutcome, .step 2 noOutcome,
    .step 3 noOutcome, .step 3 noOutcome]

theorem spaced_of_runsInTime_twoRenewals :
    (start quarter 0 (some Token.sampleKeys) true).runsInTime (twoRenewals 0) = true ∧
      ((start quarter 0 (some Token.sampleKeys) true).run (twoRenewals 0)).automatic = [quarter, 2 * quarter] ∧
      Spaced quarter ((start quarter 0 (some Token.sampleKeys) true).run (twoRenewals 0)).automatic := by
  have hintime : (start quarter 0 (some Token.sampleKeys) true).runsInTime (twoRenewals 0) = true := by
    decide +kernel
  exact ⟨hintime, by decide +kernel, spaced_of_runsInTime quarter 0 (some Token.sampleKeys) true _ hintime⟩

-- a fetch that begins a second after its attempt was noted is a second too close to the next one
example : ¬ Spaced quarter
    ((start quarter 0 (some Token.sampleKeys) true).run (twoRenewals 1000000000)).automatic := by
  decide +kernel

/-- Two readers see that a renewal is due. One of them starts it and it ends before the other takes its next
step, with which it starts another one. -/
def staleClaim : List KeyEvent :=
  [.elapse quarter, .read, .read, .step 0 noOutcome, .step 0 noOutcome, .step 1 noOutcome, .step 1 noOutcome,
    .step 1 noOutcome, .step 2 noOutcome, .step 2 noOutcome, .step 2 noOutcome, .step 2 noOutcome,
    .step 0 noOutcome, .step 3 noOutcome, .step 3 noOutcome]

/-- Readers can start two renewals at one instant. -/
theorem staleClaim_not_spaced :
    ¬ ∀ events, Spaced quarter ((start quarter 0 (some Token.sampleKeys) true).run events).automatic := by
  intro h
  have hboth : ((start quarter 0 (some Token.sampleKeys) true).run staleClaim).automatic = [quarter, quarter] := by
    decide +kernel
  have hspaced := h staleClaim
  rw [hboth] at hspaced
  exact absurd hspaced (by decide)

end KeyService

end Tollgate
