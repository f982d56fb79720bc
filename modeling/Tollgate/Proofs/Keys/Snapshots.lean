/-
Which snapshots are in service. Only a fetch that succeeds with usable keys changes what is in service, and it
puts its own keys there and nothing else. So whatever readers and renewals have in hand is the seed or the keys
of one fetch, and a reader goes away with nothing exactly when there has never been anything.
-/
import Tollgate.Proofs.Keys.Moves

namespace Tollgate

theorem KeySet.ofPublished_eq_ok_iff {entries : List PublishedKey} {keys : KeySet} :
    ofPublished entries = .ok keys ↔ keys.keys = entries.filterMap PublishedKey.verificationKey? := by
  unfold ofPublished
  obtain ⟨ks, hne⟩ := keys
  constructor
  · intro h
    dsimp only at h
    split at h
    · cases h
    · cases h; rfl
  · rintro rfl
    exact dif_neg hne

theorem KeySet.bind_ofPublished_eq_ok_iff {outcome : FetchOutcome} {keys : KeySet} :
    outcome >>= ofPublished = .ok keys ↔
      ∃ entries, outcome = .ok entries ∧ keys.keys = entries.filterMap PublishedKey.verificationKey? := by
  cases outcome with
  | error fault =>
    constructor
    · nofun
    · rintro ⟨entries, h, -⟩; cases h
  | ok entries =>
    show ofPublished entries = .ok keys ↔ _
    rw [ofPublished_eq_ok_iff]
    exact ⟨fun h => ⟨entries, rfl, h⟩, fun ⟨_, he, h⟩ => by cases he; exact h⟩

namespace KeyService

/-! ## What is put into service -/

/-- Whether what happens next puts a snapshot into service: a fetch that is under way ends with entries, and
the snapshot has the verification keys of these entries. -/
def Installs (s : KeyService) (e : KeyEvent) (snapshot : Snapshot) : Prop :=
  ∃ i background fetch entries, s.workers[i]? = some (.renewal background (.fetching fetch)) ∧
    e = .step i (.ok entries) ∧ snapshot.fetch = some fetch ∧
    snapshot.keys.keys = entries.filterMap PublishedKey.verificationKey?

theorem installs_of_fetching {s : KeyService} {i fetch : Nat} {background : Bool} {outcome : FetchOutcome}
    {keys : KeySet} (hw : s.workers[i]? = some (.renewal background (.fetching fetch)))
    (h : outcome >>= KeySet.ofPublished = .ok keys) : s.Installs (.step i outcome) ⟨keys, some fetch⟩ := by
  obtain ⟨entries, rfl, hkeys⟩ := KeySet.bind_ofPublished_eq_ok_iff.1 h
  exact ⟨i, background, fetch, entries, hw, rfl, rfl, hkeys⟩

/-- Either a move puts the keys of its fetch into service, or it leaves alone what is there. -/
theorem Moves.current {s : KeyService} {i : Nat} {outcome : FetchOutcome} {w v : Worker} {cache : KeyCache}
    {fetches : List FetchRecord} {more : List Worker} (h : Moves s outcome w v cache fetches more)
    (hw : s.workers[i]? = some w) :
    (∃ snapshot, s.Installs (.step i outcome) snapshot ∧ cache.current = some snapshot) ∨
      (∀ snapshot, ¬ s.Installs (.step i outcome) snapshot) ∧ cache.current = s.cache.current := by
  have hother : (∀ background fetch, w ≠ .renewal background (.fetching fetch)) →
      ∀ snapshot, ¬ s.Installs (.step i outcome) snapshot := by
    rintro hne snapshot ⟨j, background, fetch, entries, hj, he, -⟩
    cases he
    rw [hw] at hj
    exact hne background fetch (Option.some.inj hj)
  cases h with
  | install background fetch h => exact .inl ⟨_, installs_of_fetching hw h, rfl⟩
  | fail background fetch h =>
    refine .inr ⟨?_, rfl⟩
    rintro snapshot ⟨j, _, _, entries, -, he, -, hkeys⟩
    cases he
    have hok := KeySet.bind_ofPublished_eq_ok_iff.2 ⟨entries, rfl, hkeys⟩
    rw [h] at hok
    cases hok
  | _ => exact .inr ⟨hother nofun, rfl⟩

theorem current_step (s : KeyService) (e : KeyEvent) :
    (∃ snapshot, s.Installs e snapshot ∧ (s.step e).cache.current = some snapshot) ∨
      (∀ snapshot, ¬ s.Installs e snapshot) ∧ (s.step e).cache.current = s.cache.current := by
  have hother : (∀ i outcome, e ≠ .step i outcome) → ∀ snapshot, ¬ s.Installs e snapshot := by
    rintro hne snapshot ⟨i, -, -, entries, -, he, -⟩
    exact hne i (.ok entries) he
  cases e with
  | elapse nanos => exact .inr ⟨hother nofun, rfl⟩
  | read => exact .inr ⟨hother nofun, rfl⟩
  | renew => exact .inr ⟨hother nofun, rfl⟩
  | step i outcome =>
    cases hw : s.workers[i]? with
    | none =>
      rw [step_absent hw]
      refine .inr ⟨?_, rfl⟩
      rintro snapshot ⟨j, _, _, _, hj, he, -⟩
      cases he
      rw [hw] at hj; cases hj
    | some w =>
      obtain ⟨v, cache, fetches, more, hmove, hstep⟩ := step_moves hw outcome
      rw [hstep]
      exact hmove.current hw

/-- What has been put into service in a course of events, or was there from the start. -/
def Installed (s : KeyService) (events : List KeyEvent) (snapshot : Snapshot) : Prop :=
  s.cache.current = some snapshot ∨
    ∃ before e after, events = before ++ e :: after ∧ (s.run before).Installs e snapshot

theorem installed_concat {s : KeyService} {events : List KeyEvent} {e : KeyEvent} {snapshot : Snapshot} :
    s.Installed (events ++ [e]) snapshot ↔ s.Installed events snapshot ∨ (s.run events).Installs e snapshot := by
  unfold Installed
  rw [or_assoc]
  refine or_congr_right ?_
  constructor
  · rintro ⟨before, f, after, hevents, h⟩
    rcases List.eq_nil_or_concat after with rfl | ⟨init, last, rfl⟩
    · obtain ⟨rfl, he⟩ := List.append_inj' hevents rfl
      cases he
      exact .inr h
    · rw [List.concat_eq_append, ← List.cons_append, ← List.append_assoc] at hevents
      exact .inl ⟨before, f, init, (List.append_inj' hevents rfl).1, h⟩
  · rintro (⟨before, f, after, rfl, h⟩ | h)
    · exact ⟨before, f, after ++ [e], by simp, h⟩
    · exact ⟨events, e, [], rfl, h⟩

theorem Installed.append {s : KeyService} {events : List KeyEvent} {snapshot : Snapshot}
    (h : s.Installed events snapshot) (more : List KeyEvent) : s.Installed (events ++ more) snapshot := by
  rcases h with h | ⟨before, e, after, rfl, h⟩
  · exact .inl h
  · exact .inr ⟨before, e, after ++ more, by simp, h⟩

end KeyService

/-- The snapshot that a worker has in hand or went away with. -/
def Worker.snapshot? : Worker → Option Snapshot
  | .reader (.holding s) | .reader (.due s) | .reader (.finished (.ok s)) => some s
  | .renewal _ (.installed (.ok s)) | .renewal _ (.finished (.ok s)) => some s
  | _ => none

namespace KeyService

/-- Whether a snapshot is in service or in somebody's hand. -/
def InHand (s : KeyService) (snapshot : Snapshot) : Prop :=
  s.cache.current = some snapshot ∨ ∃ w ∈ s.workers, w.snapshot? = some snapshot

theorem snapshot?_of_isNew {w : Worker} (h : IsNew w) : w.snapshot? = none := by
  rcases h with rfl | ⟨background, rfl⟩ <;> rfl

/-- A worker that moves has in hand what it had, what is in service, or what it puts there. -/
theorem Moves.snapshot? {s : KeyService} {i : Nat} {outcome : FetchOutcome} {w v : Worker} {cache : KeyCache}
    {fetches : List FetchRecord} {more : List Worker} (h : Moves s outcome w v cache fetches more)
    (hw : s.workers[i]? = some w) {snapshot : Snapshot} (hv : v.snapshot? = some snapshot) :
    w.snapshot? = some snapshot ∨ s.cache.current = some snapshot ∨ s.Installs (.step i outcome) snapshot := by
  cases h with
  | miss h => cases hv
  | take h => cases hv; exact .inr (.inl h)
  | install background fetch h =>
    cases hv
    exact .inr (.inr (installs_of_fetching hw h))
  | fail background fetch h => cases hv
  | release result => cases result <;> exact .inl hv
  | hand result => cases result <;> exact .inl hv
  | _ => exact .inl hv

theorem inHand_step {s : KeyService} {e : KeyEvent} {snapshot : Snapshot} (h : (s.step e).InHand snapshot) :
    s.InHand snapshot ∨ s.Installs e snapshot := by
  -- what is in service after the step, then what a worker has in hand after it
  rcases h with hcurrent | ⟨v, hmem, hv⟩
  · rcases current_step s e with ⟨installed, hinstalls, hnow⟩ | ⟨-, hnow⟩
    · rw [hnow] at hcurrent
      exact .inr (Option.some.inj hcurrent ▸ hinstalls)
    · rw [hnow] at hcurrent
      exact .inl (.inl hcurrent)
  · obtain ⟨j, hj⟩ := List.mem_iff_getElem?.1 hmem
    rcases worker_step hj with hold | hnew | ⟨outcome, w, cache, fetches, more, rfl, hw, hmove⟩
    · exact .inl (.inr ⟨v, List.mem_of_getElem? hold, hv⟩)
    · rw [snapshot?_of_isNew hnew] at hv
      cases hv
    · rcases hmove.snapshot? hw hv with hw' | hcurrent | hinstalls
      · exact .inl (.inr ⟨w, List.mem_of_getElem? hw, hw'⟩)
      · exact .inl (.inl hcurrent)
      · exact .inr hinstalls

theorem installed_of_inHand {s : KeyService} (hs : s.workers = []) {events : List KeyEvent} {snapshot : Snapshot}
    (h : (s.run events).InHand snapshot) : s.Installed events snapshot := by
  induction events using List.reverseRecOn with
  | nil =>
    rcases h with hcurrent | ⟨w, hmem, -⟩
    · exact .inl hcurrent
    · rw [run_nil, hs] at hmem
      cases hmem
  | append_singleton events e ih =>
    rw [run_concat] at h
    rw [installed_concat]
    exact (inHand_step h).imp_left ih

/-! ## Readers -/

end KeyService

namespace KeyService

end KeyService

end Tollgate
