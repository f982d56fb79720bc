/-
What a step of the key service can do, said once. A worker that takes its step becomes something else, and
with it the cache, the fetches and the workers change in the ways listed here and in no other.
-/
import Mathlib
import Tollgate.Keys.Cache

namespace Tollgate.KeyService

/-- The moves of a worker: what it was, what it becomes, the cache and the fetches after it, and who has come
to work because of it. -/
inductive Moves (s : KeyService) (outcome : FetchOutcome) :
    Worker → Worker → KeyCache → List FetchRecord → List Worker → Prop where
  | miss (h : s.cache.current = none) :
    Moves s outcome (.reader .start) (.reader (.finished (.error .notInitialized))) s.cache s.fetches []
  | take {snapshot : Snapshot} (h : s.cache.current = some snapshot) :
    Moves s outcome (.reader .start) (.reader (.holding snapshot)) s.cache s.fetches []
  | findDue (snapshot : Snapshot) (h : s.cache.refreshDue s.now = true) :
    Moves s outcome (.reader (.holding snapshot)) (.reader (.due snapshot)) s.cache s.fetches []
  | findFresh (snapshot : Snapshot) (h : s.cache.refreshDue s.now = false) :
    Moves s outcome (.reader (.holding snapshot)) (.reader (.finished (.ok snapshot))) s.cache s.fetches []
  | claim (snapshot : Snapshot) (hspawns : s.spawns = true) (h : s.cache.refreshing = false) :
    Moves s outcome (.reader (.due snapshot)) (.reader (.finished (.ok snapshot)))
      { s.cache with refreshing := true } s.fetches [.renewal true .start]
  | leave (snapshot : Snapshot) (h : (s.spawns && !s.cache.refreshing) = false) :
    Moves s outcome (.reader (.due snapshot)) (.reader (.finished (.ok snapshot))) s.cache s.fetches []
  | note (background : Bool) :
    Moves s outcome (.renewal background .start) (.renewal background .noted)
      { s.cache with lastAttempt := some s.now } s.fetches []
  | fetch (background : Bool) :
    Moves s outcome (.renewal background .noted) (.renewal background (.fetching s.fetches.length)) s.cache
      (s.fetches ++ [⟨s.now, background⟩]) []
  | install (background : Bool) (fetch : Nat) {keys : KeySet} (h : outcome >>= KeySet.ofPublished = .ok keys) :
    Moves s outcome (.renewal background (.fetching fetch)) (.renewal background (.installed (.ok ⟨keys, some fetch⟩)))
      { s.cache with current := some ⟨keys, some fetch⟩ } s.fetches []
  | fail (background : Bool) (fetch : Nat) {fault : FetchFault} (h : outcome >>= KeySet.ofPublished = .error fault) :
    Moves s outcome (.renewal background (.fetching fetch)) (.renewal background (.installed (.error fault)))
      s.cache s.fetches []
  | release (result : Except FetchFault Snapshot) :
    Moves s outcome (.renewal true (.installed result)) (.renewal true (.finished result))
      { s.cache with refreshing := false } s.fetches []
  | hand (result : Except FetchFault Snapshot) :
    Moves s outcome (.renewal false (.installed result)) (.renewal false (.finished result)) s.cache s.fetches []
  | restReader (result : Except FetchFault Snapshot) :
    Moves s outcome (.reader (.finished result)) (.reader (.finished result)) s.cache s.fetches []
  | restRenewal (background : Bool) (result : Except FetchFault Snapshot) :
    Moves s outcome (.renewal background (.finished result)) (.renewal background (.finished result)) s.cache
      s.fetches []

theorem step_reader {s : KeyService} {i : Nat} {r : Reader} (hw : s.workers[i]? = some (.reader r))
    (outcome : FetchOutcome) : s.step (.step i outcome) = s.stepReader i r := by
  simp only [step, hw]

theorem step_renewal {s : KeyService} {i : Nat} {background : Bool} {r : Renewal}
    (hw : s.workers[i]? = some (.renewal background r)) (outcome : FetchOutcome) :
    s.step (.step i outcome) = s.stepRenewal i background outcome r := by
  simp only [step, hw]

/-- A worker's step is one of its moves. -/
theorem step_moves {s : KeyService} {i : Nat} {w : Worker} (hw : s.workers[i]? = some w) (outcome : FetchOutcome) :
    ∃ v cache fetches more, Moves s outcome w v cache fetches more ∧
      s.step (.step i outcome) = ⟨cache, s.workers.set i v ++ more, fetches, s.now, s.spawns⟩ := by
  -- who brings nobody along leaves the others as they are
  have halone : ∀ v, s.workers.set i v ++ [] = s.workers.set i v := fun v => List.append_nil _
  cases w with
  | reader r =>
    rw [step_reader hw]
    cases r with
    | start =>
      cases h : s.cache.current with
      | none => exact ⟨_, _, _, _, .miss h, by simp only [stepReader, h, put, halone]⟩
      | some snapshot => exact ⟨_, _, _, _, .take h, by simp only [stepReader, h, put, halone]⟩
    | holding snapshot =>
      cases h : s.cache.refreshDue s.now with
      | true => exact ⟨_, _, _, _, .findDue snapshot h, by simp only [stepReader, h, put, halone, if_true]⟩
      | false =>
        exact ⟨_, _, _, _, .findFresh snapshot h, by
          simp only [stepReader, h, put, halone, Bool.false_eq_true, if_false]⟩
    | due snapshot =>
      cases h : s.spawns && !s.cache.refreshing with
      | true =>
        have hboth : s.spawns = true ∧ s.cache.refreshing = false := by simpa using h
        exact ⟨_, _, _, _, .claim snapshot hboth.1 hboth.2, by simp only [stepReader, put, h, if_true]⟩
      | false =>
        exact ⟨_, _, _, _, .leave snapshot h, by
          simp only [stepReader, put, h, halone, Bool.false_eq_true, if_false]⟩
    | finished result => exact ⟨_, _, _, _, .restReader result, by simp only [stepReader, put, halone]⟩
  | renewal background r =>
    rw [step_renewal hw]
    cases r with
    | start => exact ⟨_, _, _, _, .note background, by simp only [stepRenewal, put, halone]⟩
    | noted => exact ⟨_, _, _, _, .fetch background, by simp only [stepRenewal, put, halone]⟩
    | fetching fetch =>
      cases h : outcome >>= KeySet.ofPublished with
      | ok keys =>
        exact ⟨_, _, _, _, .install background fetch h, by
          simp only [stepRenewal, KeyCache.install, h, put, halone]⟩
      | error fault =>
        exact ⟨_, _, _, _, .fail background fetch h, by
          simp only [stepRenewal, KeyCache.install, h, put, halone]⟩
    | installed result =>
      cases background with
      | true => exact ⟨_, _, _, _, .release result, by simp only [stepRenewal, put, halone, if_true]⟩
      | false =>
        exact ⟨_, _, _, _, .hand result, by
          simp only [stepRenewal, put, halone, Bool.false_eq_true, if_false]⟩
    | finished result =>
      exact ⟨_, _, _, _, .restRenewal background result, by simp only [stepRenewal, put, halone]⟩

theorem step_absent {s : KeyService} {i : Nat} (hw : s.workers[i]? = none) (outcome : FetchOutcome) :
    s.step (.step i outcome) = s := by
  simp only [step, hw]

theorem Moves.eq_of_mem_more {s : KeyService} {outcome : FetchOutcome} {w v : Worker} {cache : KeyCache}
    {fetches : List FetchRecord} {more : List Worker} (h : Moves s outcome w v cache fetches more) :
    ∀ u ∈ more, u = .renewal true .start := by
  cases h <;> simp

/-! ## Who is at work after a step -/

/-- Somebody who has just come. -/
def IsNew (w : Worker) : Prop := w = .reader .start ∨ ∃ background, w = .renewal background .start

theorem getElem?_append_new {ws more : List Worker} {j : Nat} {v : Worker} (h : (ws ++ more)[j]? = some v) :
    ws[j]? = some v ∨ v ∈ more := by
  rcases Nat.lt_or_ge j ws.length with hj | hj
  · rw [List.getElem?_append_left hj] at h
    exact .inl h
  · rw [List.getElem?_append_right hj] at h
    exact .inr (List.mem_of_getElem? h)

/-- After a step a worker is what it was, has just come, or has moved. -/
theorem worker_step {s : KeyService} {e : KeyEvent} {j : Nat} {v : Worker}
    (h : (s.step e).workers[j]? = some v) :
    s.workers[j]? = some v ∨ IsNew v ∨ ∃ outcome w cache fetches more, e = .step j outcome ∧
      s.workers[j]? = some w ∧ Moves s outcome w v cache fetches more := by
  cases e with
  | elapse nanos => exact .inl h
  | read =>
    rcases getElem?_append_new h with hold | hnew
    · exact .inl hold
    · exact .inr (.inl (.inl (List.mem_singleton.1 hnew)))
  | renew =>
    rcases getElem?_append_new h with hold | hnew
    · exact .inl hold
    · exact .inr (.inl (.inr ⟨false, List.mem_singleton.1 hnew⟩))
  | step i outcome =>
    cases hw : s.workers[i]? with
    | none =>
      rw [step_absent hw] at h
      exact .inl h
    | some w =>
      obtain ⟨u, cache, fetches, more, hmove, hstep⟩ := step_moves hw outcome
      rw [hstep] at h
      rcases getElem?_append_new h with hold | hnew
      · by_cases hij : i = j
        · subst hij
          rw [List.getElem?_set_self (List.getElem?_eq_some_iff.1 hw).1] at hold
          cases hold
          exact .inr (.inr ⟨outcome, w, cache, fetches, more, rfl, hw, hmove⟩)
        · rw [List.getElem?_set_ne hij] at hold
          exact .inl hold
      · exact .inr (.inl (.inr ⟨true, hmove.eq_of_mem_more v hnew⟩))

/-! ## Runs -/

/-- A service as it starts: nobody is at work, and the cache has no keys or those it was seeded with. -/
def start (minRefresh now : Nat) (seed : Option KeySet) (spawns : Bool) : KeyService :=
  match seed with
  | none => ofCache (.empty minRefresh) now spawns
  | some keys => ofCache (.withKeys minRefresh now keys) now spawns

theorem workers_start (minRefresh now : Nat) (seed : Option KeySet) (spawns : Bool) :
    (start minRefresh now seed spawns).workers = [] := by
  cases seed <;> rfl

theorem eq_seed_of_current_start {minRefresh now : Nat} {seed : Option KeySet} {spawns : Bool}
    {snapshot : Snapshot} (h : (start minRefresh now seed spawns).cache.current = some snapshot) :
    seed = some snapshot.keys ∧ snapshot.fetch = none := by
  cases seed with
  | none => cases h
  | some keys => cases h; exact ⟨rfl, rfl⟩

theorem run_nil (s : KeyService) : s.run [] = s := rfl

theorem run_append (s : KeyService) (events more : List KeyEvent) :
    s.run (events ++ more) = (s.run events).run more := List.foldl_append

theorem run_concat (s : KeyService) (events : List KeyEvent) (e : KeyEvent) :
    s.run (events ++ [e]) = (s.run events).step e := run_append s events [e]

end Tollgate.KeyService
