/-
Which fetch the keys in service come from. A fetch that ends puts its keys into service whatever is there, so
the keys of an earlier fetch can take the place of those of a later one. It happens only if both were under way
at the same time and one of them was begun by a caller: renewals in the background never overtake each other.
-/
import Tollgate.Proofs.Keys.Flight
import Tollgate.Proofs.Keys.Snapshots

namespace Tollgate.KeyService

/-- Whether what happens next puts the keys of one fetch in the place of those of another. -/
def Replaces (s : KeyService) (e : KeyEvent) (fetch served : Nat) : Prop :=
  ∃ snapshot old, s.Installs e snapshot ∧ snapshot.fetch = some fetch ∧ s.cache.current = some old ∧
    old.fetch = some served

/-- The keys in service come from a fetch that was under way at some moment of the run. -/
theorem underWay_of_current {minRefresh now : Nat} {seed : Option KeySet} {spawns : Bool} {events : List KeyEvent}
    {snapshot : Snapshot} {fetch : Nat}
    (h : ((start minRefresh now seed spawns).run events).cache.current = some snapshot)
    (hfetch : snapshot.fetch = some fetch) :
    ∃ before after background, events = before ++ after ∧
      ((start minRefresh now seed spawns).run before).UnderWay background fetch := by
  have hworkers := workers_start minRefresh now seed spawns
  rcases installed_of_inHand hworkers (.inl h) with hseed | ⟨before, e, after, rfl, hinstalls⟩
  · rw [(eq_seed_of_current_start hseed).2] at hfetch
    cases hfetch
  · obtain ⟨i, background, number, entries, hw, -, hnumber, -⟩ := hinstalls
    rw [hnumber] at hfetch
    cases hfetch
    exact ⟨before, e :: after, background, rfl, List.mem_of_getElem? hw⟩

/-- An earlier fetch takes the place of a later one only if both were under way at some moment, and one of them
for a renewal in the foreground. -/
theorem overlap_of_replaces_later {minRefresh now : Nat} {seed : Option KeySet} {spawns : Bool}
    {events : List KeyEvent} {e : KeyEvent} {fetch served : Nat}
    (h : ((start minRefresh now seed spawns).run events).Replaces e fetch served) (hlt : fetch < served) :
    ∃ before after a b, events = before ++ after ∧
      ((start minRefresh now seed spawns).run before).UnderWay a fetch ∧
      ((start minRefresh now seed spawns).run before).UnderWay b served ∧ (a = false ∨ b = false) := by
  have hworkers := workers_start minRefresh now seed spawns
  obtain ⟨snapshot, old, ⟨i, a, number, entries, hw, -, hnumber, -⟩, hfetch, hcurrent, hserved⟩ := h
  rw [hnumber] at hfetch
  cases hfetch
  obtain ⟨before, after, b, rfl, hlater⟩ := underWay_of_current hcurrent hserved
  -- the earlier fetch had begun by then, and it still is under way
  have hbegun : fetch < ((start minRefresh now seed spawns).run before).fetches.length :=
    hlt.trans (lt_of_underWay hworkers hlater)
  rw [run_append] at hw
  have hearlier : ((start minRefresh now seed spawns).run before).UnderWay a fetch :=
    underWay_of_run (List.mem_of_getElem? hw) hbegun
  refine ⟨before, after, a, b, rfl, hearlier, hlater, ?_⟩
  cases a with
  | false => exact .inl rfl
  | true =>
    cases b with
    | false => exact .inr rfl
    | true =>
      have hsingle := (singleFlight_start minRefresh now seed spawns).run before
      have hsame := hsingle.eq hearlier hlater rfl rfl
      cases hsame
      exact absurd hlt (Nat.lt_irrefl _)

/-! ## A fetch that is overtaken -/

/-- An entry that is no longer published. -/
def removedEntry : PublishedKey :=
  ⟨some "removed", some (.signature .eddsa), .edwards "iojj3XQJ8ZX9UtstPLpdcspnCb8dlBIb83SIAbQPb1w"⟩

/-- The entry that is published instead. -/
def addedEntry : PublishedKey :=
  ⟨some "added", some (.signature .eddsa), .edwards "gTl3Dqh9F19Wo1Rmw0x-zMuNipG07jeiXfYPW4_Js5Q"⟩

/-- The first key set is fetched, a reader starts a renewal, and while its fetch is under way a caller begins and
ends another one. -/
def overtaken : List KeyEvent :=
  [.renew, .step 0 noOutcome, .step 0 noOutcome, .step 0 (.ok [removedEntry]), .step 0 noOutcome,
    .read, .step 1 noOutcome, .step 1 noOutcome, .step 1 noOutcome, .step 2 noOutcome, .step 2 noOutcome,
    .renew, .step 3 noOutcome, .step 3 noOutcome, .step 3 (.ok [addedEntry])]

/-- The fetch that was under way ends, and its keys take the place of those of the later one. -/
theorem replaces_overtaken :
    ((start 0 0 none true).run overtaken).Replaces (.step 2 (.ok [removedEntry])) 1 2 := by
  have hserved : ((start 0 0 none true).run overtaken).cache.current.map (·.fetch) = some (some 2) := by
    decide +kernel
  have husable : [removedEntry].filterMap PublishedKey.verificationKey? ≠ [] := by decide +kernel
  have hw : ((start 0 0 none true).run overtaken).workers[2]? = some (.renewal true (.fetching 1)) := rfl
  obtain ⟨old, hcurrent, hold⟩ := Option.map_eq_some_iff.1 hserved
  exact ⟨⟨⟨_, husable⟩, some 1⟩, old, ⟨2, true, 1, [removedEntry], hw, rfl, rfl, rfl⟩, rfl, hcurrent, hold⟩

theorem overlap_of_replaces_later_overtaken :
    ((start 0 0 none true).run overtaken).Replaces (.step 2 (.ok [removedEntry])) 1 2 ∧ 1 < 2 ∧
      ∃ before after a b, overtaken = before ++ after ∧ ((start 0 0 none true).run before).UnderWay a 1 ∧
        ((start 0 0 none true).run before).UnderWay b 2 ∧ (a = false ∨ b = false) :=
  ⟨replaces_overtaken, by decide, overlap_of_replaces_later replaces_overtaken (by decide)⟩

/-- The keys in service can go back to those of an earlier fetch. -/
theorem overtaken_goes_back : ¬ ∀ events e fetch served,
    ((start 0 0 none true).run events).Replaces e fetch served → served ≤ fetch := by
  intro h
  have hle := h overtaken (.step 2 (.ok [removedEntry])) 1 2 replaces_overtaken
  exact absurd hle (by decide)

-- the entry that a caller has seen removed is in service again
example : ((start 0 0 none true).run overtaken).cache.current.map (·.keys.kids) = some ["added"] ∧
    ((start 0 0 none true).run (overtaken ++ [.step 2 (.ok [removedEntry])])).cache.current.map
      (·.keys.kids) = some ["removed"] := by
  decide +kernel

end Tollgate.KeyService
