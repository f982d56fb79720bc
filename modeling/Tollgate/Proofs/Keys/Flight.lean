/-
Renewals in the background go one at a time: the cache marks that one is under way exactly as long as there is
one. Fetches are numbered in the order in which they begin, so a worker whose fetch is under way has the number
of a fetch that has begun.
-/
import Tollgate.Proofs.Keys.Moves

namespace Tollgate

/-- Whether a worker is a renewal in the background that has not come to its end. -/
def Worker.isFlight : Worker → Bool
  | .renewal true (.finished _) => false
  | .renewal true _ => true
  | _ => false

namespace KeyService

/-- How many renewals in the background have not come to their end. -/
def flights (s : KeyService) : Nat := s.workers.countP Worker.isFlight

/-- The cache marks that a renewal in the background is under way exactly if there is one, and there is never
a second one. -/
def SingleFlight (s : KeyService) : Prop := s.flights = s.cache.refreshing.toNat

/-- A move starts a renewal in the background and marks it, ends one and takes the mark away, or leaves both
alone. -/
theorem Moves.flight {s : KeyService} {outcome : FetchOutcome} {w v : Worker} {cache : KeyCache}
    {fetches : List FetchRecord} {more : List Worker} (h : Moves s outcome w v cache fetches more) :
    (w.isFlight = false ∧ v.isFlight = false ∧ more = [.renewal true .start] ∧ s.cache.refreshing = false ∧
      cache.refreshing = true) ∨
    (w.isFlight = true ∧ v.isFlight = false ∧ more = [] ∧ cache.refreshing = false) ∨
    (w.isFlight = v.isFlight ∧ more = [] ∧ cache.refreshing = s.cache.refreshing) := by
  cases h with
  | claim snapshot hspawns h => exact .inl ⟨rfl, rfl, rfl, h, rfl⟩
  | release result => exact .inr (.inl ⟨rfl, rfl, rfl, rfl⟩)
  | note background => cases background <;> exact .inr (.inr ⟨rfl, rfl, rfl⟩)
  | fetch background => cases background <;> exact .inr (.inr ⟨rfl, rfl, rfl⟩)
  | install background fetch h => cases background <;> exact .inr (.inr ⟨rfl, rfl, rfl⟩)
  | fail background fetch h => cases background <;> exact .inr (.inr ⟨rfl, rfl, rfl⟩)
  | _ => exact .inr (.inr ⟨rfl, rfl, rfl⟩)

theorem SingleFlight.step {s : KeyService} (h : s.SingleFlight) (e : KeyEvent) : (s.step e).SingleFlight := by
  unfold SingleFlight flights at *
  cases e with
  | elapse nanos => exact h
  | read =>
    show (s.workers ++ [Worker.reader .start]).countP Worker.isFlight = _
    rw [List.countP_append, h]; rfl
  | renew =>
    show (s.workers ++ [Worker.renewal false .start]).countP Worker.isFlight = _
    rw [List.countP_append, h]; rfl
  | step i outcome =>
    cases hw : s.workers[i]? with
    | none => rw [step_absent hw]; exact h
    | some w =>
      obtain ⟨v, cache, fetches, more, hmove, hstep⟩ := step_moves hw outcome
      obtain ⟨hi, hget⟩ := List.getElem?_eq_some_iff.1 hw
      rw [hstep]
      show (s.workers.set i v ++ more).countP Worker.isFlight = cache.refreshing.toNat
      rw [List.countP_append, List.countP_set hi, hget, h]
      rcases hmove.flight with ⟨hw', hv, rfl, hold, hnew⟩ | ⟨hw', hv, rfl, hnew⟩ | ⟨hsame, rfl, hmark⟩
      · rw [hw', hv, hold, hnew]; rfl
      · rw [hw', hv, hnew]
        exact Nat.sub_eq_zero_of_le (Bool.toNat_le _)
      · rw [hsame, hmark, List.countP_nil, Nat.add_zero]
        cases hv : v.isFlight with
        | false => rfl
        | true =>
          have hpos : 0 < s.workers.countP Worker.isFlight :=
            List.countP_pos_iff.2 ⟨w, List.mem_of_getElem? hw, hsame.trans hv⟩
          rw [h] at hpos
          exact Nat.sub_add_cancel hpos

theorem singleFlight_start (minRefresh now : Nat) (seed : Option KeySet) (spawns : Bool) :
    (start minRefresh now seed spawns).SingleFlight := by
  cases seed <;> rfl

theorem SingleFlight.run {s : KeyService} (h : s.SingleFlight) (events : List KeyEvent) :
    (s.run events).SingleFlight := by
  induction events using List.reverseRecOn with
  | nil => exact h
  | append_singleton events e ih => rw [run_concat]; exact ih.step e

/-- Two renewals in the background that are under way are at the same point: they are one. -/
theorem SingleFlight.eq {s : KeyService} (h : s.SingleFlight) {u v : Worker} (hu : u ∈ s.workers)
    (hv : v ∈ s.workers) (hfu : u.isFlight = true) (hfv : v.isFlight = true) : u = v := by
  have hlen : (s.workers.filter Worker.isFlight).length ≤ 1 := by
    rw [← List.countP_eq_length_filter]
    exact h.trans_le (Bool.toNat_le _)
  have hmu : u ∈ s.workers.filter Worker.isFlight := List.mem_filter.2 ⟨hu, hfu⟩
  have hmv : v ∈ s.workers.filter Worker.isFlight := List.mem_filter.2 ⟨hv, hfv⟩
  match s.workers.filter Worker.isFlight, hlen, hmu, hmv with
  | [x], _, hmu, hmv => rw [List.mem_singleton.1 hmu, List.mem_singleton.1 hmv]

/-! ## Fetches -/

/-- Whether a fetch is under way, for a renewal in the background or in the foreground. -/
def UnderWay (s : KeyService) (background : Bool) (fetch : Nat) : Prop :=
  .renewal background (.fetching fetch) ∈ s.workers

theorem fetches_step (s : KeyService) (e : KeyEvent) :
    (s.step e).fetches = s.fetches ∨
      ∃ background, (.renewal background .noted) ∈ s.workers ∧
        (s.step e).fetches = s.fetches ++ [⟨s.now, background⟩] := by
  cases e with
  | elapse nanos => exact .inl rfl
  | read => exact .inl rfl
  | renew => exact .inl rfl
  | step i outcome =>
    cases hw : s.workers[i]? with
    | none => rw [step_absent hw]; exact .inl rfl
    | some w =>
      obtain ⟨v, cache, fetches, more, hmove, hstep⟩ := step_moves hw outcome
      rw [hstep]
      cases hmove with
      | fetch background => exact .inr ⟨background, List.mem_of_getElem? hw, rfl⟩
      | _ => exact .inl rfl

theorem length_fetches_step_le (s : KeyService) (e : KeyEvent) : s.fetches.length ≤ (s.step e).fetches.length := by
  rcases fetches_step s e with h | ⟨background, -, h⟩
  · rw [h]
  · rw [h, List.length_append]; exact Nat.le_add_right _ _

theorem length_fetches_run_le (s : KeyService) (events : List KeyEvent) :
    s.fetches.length ≤ (s.run events).fetches.length := by
  induction events using List.reverseRecOn with
  | nil => exact Nat.le_refl _
  | append_singleton events e ih => rw [run_concat]; exact ih.trans (length_fetches_step_le _ e)

/-- A fetch that is under way after a step was so before, or has just begun with the next number. -/
theorem underWay_step {s : KeyService} {e : KeyEvent} {background : Bool} {fetch : Nat}
    (h : (s.step e).UnderWay background fetch) :
    s.UnderWay background fetch ∨
      fetch = s.fetches.length ∧ (s.step e).fetches.length = s.fetches.length + 1 := by
  obtain ⟨j, hj⟩ := List.mem_iff_getElem?.1 h
  rcases worker_step hj with hold | hnew | ⟨outcome, w, cache, fetches, more, rfl, hw, hmove⟩
  · exact .inl (List.mem_of_getElem? hold)
  · rcases hnew with hnew | ⟨_, hnew⟩ <;> cases hnew
  · cases hmove with
    | fetch =>
      have hlen : (s.step (.step j outcome)).fetches.length = s.fetches.length + 1 := by
        rw [step_renewal hw]
        simp only [stepRenewal, put, List.length_append, List.length_singleton]
      exact .inr ⟨rfl, hlen⟩

theorem lt_of_underWay {s : KeyService} (hs : s.workers = []) {events : List KeyEvent} {background : Bool}
    {fetch : Nat} (h : (s.run events).UnderWay background fetch) : fetch < (s.run events).fetches.length := by
  induction events using List.reverseRecOn with
  | nil =>
    unfold UnderWay at h
    rw [run_nil, hs] at h; cases h
  | append_singleton events e ih =>
    rw [run_concat] at h ⊢
    rcases underWay_step h with hold | ⟨rfl, hlen⟩
    · exact (ih hold).trans_le (length_fetches_step_le _ e)
    · rw [hlen]; exact Nat.lt_succ_self _

/-- A fetch that is under way has been so ever since it began. -/
theorem underWay_of_run {s : KeyService} {events : List KeyEvent} {background : Bool} {fetch : Nat}
    (h : (s.run events).UnderWay background fetch) (hbegun : fetch < s.fetches.length) :
    s.UnderWay background fetch := by
  induction events using List.reverseRecOn with
  | nil => exact h
  | append_singleton events e ih =>
    rw [run_concat] at h
    rcases underWay_step h with hold | ⟨rfl, -⟩
    · exact ih hold
    · exact absurd hbegun (Nat.not_lt.2 (length_fetches_run_le s events))

/-- What a step is handed that ends no fetch. -/
def noOutcome : FetchOutcome := .error .notInitialized

end KeyService

end Tollgate
