/-
Renewals in the background, one after the other. A reader claims a renewal for the background and the renewal frees the
claim when it has come to its end, whatever came of its fetch; renewals in the foreground, and readers that can start
none where they are, leave the claim alone. So it is marked exactly as long as one renewal has been claimed and has not
come to its end, and when there is none, the next reader that finds one due claims it.
-/
import Tollgate.Proofs.Keys.Interval
import Tollgate.Proofs.Keys.Snapshots

namespace Tollgate

/-- Whether a worker is a renewal in the background, at its end or not. -/
def Worker.isBackground : Worker → Bool
  | .renewal background _ => background
  | _ => false

namespace KeyService

/-! ## Turns -/

/-- A service where renewals can be started, or where they cannot. -/
def placed (s : KeyService) (inside : Bool) : KeyService := { s with spawns := inside }

/-- What happens next, and whether renewals can be started where it happens. -/
structure Turn where
  inside : Bool
  event : KeyEvent

/-- What a turn does. -/
def take (s : KeyService) (t : Turn) : KeyService := (s.placed t.inside).step t.event

/-- What has happened after a course of turns. -/
def course (s : KeyService) (turns : List Turn) : KeyService := turns.foldl take s

/-- Whether a renewal in the background comes to its end with what happens next. -/
def ends (s : KeyService) : KeyEvent → Bool
  | .step i _ =>
    match s.workers[i]? with
    | some (.renewal true (.installed _)) => true
    | _ => false
  | _ => false

/-- How many renewals readers claim for the background in a course of turns. -/
def claimed (s : KeyService) : List Turn → Nat
  | [] => 0
  | t :: rest => ((s.placed t.inside).starts t.event).toNat + (s.take t).claimed rest

/-- How many renewals in the background come to their end in a course of turns. -/
def ended (s : KeyService) : List Turn → Nat
  | [] => 0
  | t :: rest => (s.ends t.event).toNat + (s.take t).ended rest

theorem course_append (s : KeyService) (turns more : List Turn) :
    s.course (turns ++ more) = (s.course turns).course more := List.foldl_append

theorem course_cons (s : KeyService) (t : Turn) (rest : List Turn) :
    s.course (t :: rest) = (s.take t).course rest := rfl

/-- What every step keeps wherever it is taken, every course keeps. -/
theorem course_induction {P : KeyService → Prop} (hplaced : ∀ s inside, P s → P (placed s inside))
    (hstep : ∀ s e, P s → P (step s e)) {s : KeyService} (h : P s) (turns : List Turn) : P (s.course turns) := by
  induction turns generalizing s with
  | nil => exact h
  | cons t rest ih => exact ih (hstep _ t.event (hplaced s t.inside h))

theorem SingleFlight.course {s : KeyService} (h : s.SingleFlight) (turns : List Turn) :
    (s.course turns).SingleFlight :=
  course_induction (fun _ _ hs => hs) (fun _ e hs => hs.step e) h turns

/-! ## Claims and ends -/

/-- How many renewals in the background are at work or have come to their end. -/
def begun (s : KeyService) : Nat := s.workers.countP Worker.isBackground

/-- A renewal in the background comes only with a claim, and is under way until it ends. -/
theorem Moves.tally {s : KeyService} {i : Nat} {outcome : FetchOutcome} {w v : Worker} {cache : KeyCache}
    {fetches : List FetchRecord} {more : List Worker} (h : Moves s outcome w v cache fetches more)
    (hw : s.workers[i]? = some w) :
    v.isBackground = w.isBackground ∧ more.countP Worker.isBackground = (s.starts (.step i outcome)).toNat ∧
      v.isFlight.toNat + (s.ends (.step i outcome)).toNat = w.isFlight.toNat ∧
      more.countP Worker.isFlight = (s.starts (.step i outcome)).toNat := by
  simp only [starts, ends, hw]
  cases h with
  | claim snapshot hspawns h => simp [hspawns, h, Worker.isBackground, Worker.isFlight]
  | leave snapshot h => simp [h, Worker.isBackground, Worker.isFlight]
  | note background => cases background <;> exact ⟨rfl, rfl, rfl, rfl⟩
  | fetch background => cases background <;> exact ⟨rfl, rfl, rfl, rfl⟩
  | install background fetch h => cases background <;> exact ⟨rfl, rfl, rfl, rfl⟩
  | fail background fetch h => cases background <;> exact ⟨rfl, rfl, rfl, rfl⟩
  | restRenewal background result => cases background <;> exact ⟨rfl, rfl, rfl, rfl⟩
  | _ => exact ⟨rfl, rfl, rfl, rfl⟩

theorem countP_moved (p : Worker → Bool) {ws : List Worker} {i : Nat} {w : Worker} (hw : ws[i]? = some w) (v : Worker)
    (more : List Worker) :
    (ws.set i v ++ more).countP p + (p w).toNat = ws.countP p + (p v).toNat + more.countP p := by
  obtain ⟨hi, rfl⟩ := List.getElem?_eq_some_iff.1 hw
  have hone : ∀ b : Bool, (if b = true then 1 else 0) = b.toNat := by decide
  have hold : (p ws[i]).toNat ≤ ws.countP p := by
    cases h : p ws[i] with
    | false => exact Nat.zero_le _
    | true => exact List.countP_pos_iff.2 ⟨_, List.getElem_mem hi, h⟩
  rw [List.countP_append, List.countP_set hi, hone, hone]
  omega

theorem tally_step (s : KeyService) (e : KeyEvent) :
    (s.step e).begun = s.begun + (s.starts e).toNat ∧
      (s.step e).flights + (s.ends e).toNat = s.flights + (s.starts e).toNat := by
  unfold begun flights
  cases e with
  | elapse nanos => exact ⟨rfl, rfl⟩
  | read =>
    show (s.workers ++ [Worker.reader .start]).countP _ = _ ∧ (s.workers ++ [Worker.reader .start]).countP _ + 0 = _
    rw [List.countP_append, List.countP_append]
    exact ⟨rfl, rfl⟩
  | renew =>
    show (s.workers ++ [Worker.renewal false .start]).countP _ = _ ∧
      (s.workers ++ [Worker.renewal false .start]).countP _ + 0 = _
    rw [List.countP_append, List.countP_append]
    exact ⟨rfl, rfl⟩
  | step i outcome =>
    cases hw : s.workers[i]? with
    | none =>
      rw [step_absent hw]
      simp [starts, ends, hw]
    | some w =>
      obtain ⟨v, cache, fetches, more, hmove, hstep⟩ := step_moves hw outcome
      obtain ⟨hkind, hcome, hunderway, hmore⟩ := hmove.tally hw
      have hbackground := countP_moved Worker.isBackground hw v more
      have hflight := countP_moved Worker.isFlight hw v more
      rw [hstep]
      show (s.workers.set i v ++ more).countP _ = _ ∧ (s.workers.set i v ++ more).countP _ + _ = _
      rw [hkind] at hbackground
      constructor <;> omega

theorem begun_course (s : KeyService) (turns : List Turn) : (s.course turns).begun = s.begun + s.claimed turns := by
  induction turns generalizing s with
  | nil => rfl
  | cons t rest ih =>
    have hstep := (tally_step (s.placed t.inside) t.event).1
    refine (ih (s.take t)).trans ?_
    rw [take, hstep, claimed, Nat.add_assoc]
    rfl

/-- What has been claimed has ended, or is under way. -/
theorem flights_course (s : KeyService) (turns : List Turn) :
    (s.course turns).flights + s.ended turns = s.flights + s.claimed turns := by
  induction turns generalizing s with
  | nil => rfl
  | cons t rest ih =>
    have hstep := (tally_step (s.placed t.inside) t.event).2
    have hrest := ih (s.take t)
    have hends : (s.placed t.inside).ends t.event = s.ends t.event := rfl
    have hflights : (s.placed t.inside).flights = s.flights := rfl
    rw [hends, hflights] at hstep
    show ((s.take t).course rest).flights + ((s.ends t.event).toNat + (s.take t).ended rest) =
      s.flights + (((s.placed t.inside).starts t.event).toNat + (s.take t).claimed rest)
    rw [take] at hrest ⊢
    omega

/-! ## Places -/

/-- Whether a renewal in the background that has not come to its end is at work in a place. -/
def InFlight (s : KeyService) (i : Nat) : Prop := ∃ w, s.workers[i]? = some w ∧ w.isFlight = true

theorem eq_of_countP_le_one {α : Type} {p : α → Bool} {l : List α} (h : l.countP p ≤ 1) {i j : Nat} {a b : α}
    (ha : l[i]? = some a) (hpa : p a = true) (hb : l[j]? = some b) (hpb : p b = true) : i = j := by
  induction l generalizing i j with
  | nil => cases ha
  | cons x l ih =>
    -- whoever is first leaves no room for another one behind it
    have hnone : p x = true → ∀ (k : Nat) (c : α), l[k]? = some c → p c = false := by
      intro hx k c hc
      rw [List.countP_cons_of_pos hx] at h
      have hzero : l.countP p = 0 := by omega
      exact Bool.eq_false_iff.2 (List.countP_eq_zero.1 hzero c (List.mem_of_getElem? hc))
    cases i with
    | zero =>
      cases j with
      | zero => rfl
      | succ j =>
        cases ha
        rw [hnone hpa j b hb] at hpb; cases hpb
    | succ i =>
      cases j with
      | zero =>
        cases hb
        rw [hnone hpb i a ha] at hpa; cases hpa
      | succ j =>
        have hle : l.countP p ≤ 1 := (List.sublist_cons_self x l).countP_le.trans h
        rw [ih hle ha hb]

theorem SingleFlight.place_eq {s : KeyService} (h : s.SingleFlight) {i j : Nat} (hi : s.InFlight i)
    (hj : s.InFlight j) : i = j := by
  obtain ⟨u, hu, hfu⟩ := hi
  obtain ⟨v, hv, hfv⟩ := hj
  exact eq_of_countP_le_one (h.trans_le (Bool.toNat_le _)) hu hfu hv hfv

theorem SingleFlight.refreshing_iff {s : KeyService} (h : s.SingleFlight) :
    s.cache.refreshing = true ↔ ∃! i, s.InFlight i := by
  have hcount : s.workers.countP Worker.isFlight = s.cache.refreshing.toNat := h
  constructor
  · intro hmarked
    rw [hmarked] at hcount
    have hpos : 0 < s.workers.countP Worker.isFlight := hcount.symm ▸ Nat.one_pos
    obtain ⟨w, hw, hflight⟩ := List.countP_pos_iff.1 hpos
    obtain ⟨i, hi⟩ := List.mem_iff_getElem?.1 hw
    exact ⟨i, ⟨w, hi, hflight⟩, fun j hj => h.place_eq hj ⟨w, hi, hflight⟩⟩
  · rintro ⟨i, ⟨w, hi, hflight⟩, -⟩
    have hpos := List.countP_pos_iff.2 ⟨w, List.mem_of_getElem? hi, hflight⟩
    rw [hcount] at hpos
    cases hmarked : s.cache.refreshing with
    | true => rfl
    | false => rw [hmarked] at hpos; cases hpos

end KeyService

/-! ## How a renewal comes to its end -/

/-- What comes of an attempt at an instant, and the cache after it. -/
def KeyCache.attempt (c : KeyCache) (instant fetch : Nat) (outcome : FetchOutcome) :
    Except FetchFault Snapshot × KeyCache :=
  { c with lastAttempt := some instant }.install fetch outcome

theorem KeyCache.attempt_eq (c : KeyCache) (instant fetch : Nat) (outcome : FetchOutcome) :
    ((c.attempt instant fetch outcome).1.map Snapshot.keys = outcome >>= KeySet.ofPublished) ∧
      (c.attempt instant fetch outcome).2.lastAttempt = some instant ∧
      (c.current.isSome = true → (c.attempt instant fetch outcome).2.current.isSome = true) := by
  unfold attempt install
  cases outcome >>= KeySet.ofPublished with
  | ok keys => exact ⟨rfl, rfl, fun _ => rfl⟩
  | error fault => exact ⟨rfl, rfl, id⟩

theorem KeyCache.attempt_marked (c : KeyCache) (mark : Bool) (instant fetch : Nat) (outcome : FetchOutcome) :
    KeyCache.attempt { c with refreshing := mark } instant fetch outcome =
      ((c.attempt instant fetch outcome).1, { (c.attempt instant fetch outcome).2 with refreshing := mark }) := by
  unfold attempt install
  cases outcome >>= KeySet.ofPublished <;> rfl

/-- What a renewal in the background that has come to its end brought. -/
def Worker.result? : Worker → Option (Except FetchFault KeySet)
  | .renewal true (.finished result) => some (result.map Snapshot.keys)
  | _ => none

/-- How many steps a renewal is from its end. -/
def Renewal.left : Renewal → Nat
  | .start => 4
  | .noted => 3
  | .fetching _ => 2
  | .installed _ => 1
  | .finished _ => 0

/-- Whether an event is a step of the worker in a place. -/
def KeyEvent.isStepOf (i : Nat) : KeyEvent → Bool
  | .step j _ => j == i
  | _ => false

theorem KeyEvent.isStepOf_self (i : Nat) (outcome : FetchOutcome) : (step i outcome).isStepOf i = true :=
  beq_self_eq_true i

theorem KeyEvent.isStepOf_ne {i j : Nat} (h : j ≠ i) (outcome : FetchOutcome) : (step j outcome).isStepOf i = false :=
  beq_false_of_ne h

theorem Renewal.left_le (r : Renewal) : r.left ≤ 4 := by
  cases r <;> simp [left]

theorem Renewal.eq_finished_of_left {r : Renewal} (h : r.left = 0) : ∃ result, r = .finished result := by
  cases r with
  | finished result => exact ⟨result, rfl⟩
  | _ => cases h

namespace KeyService

/-- A renewal gets nearer to its end with each of its own steps, and with those only. -/
theorem left_step {s : KeyService} {i : Nat} {background : Bool} {r : Renewal}
    (hw : s.workers[i]? = some (.renewal background r)) (e : KeyEvent) :
    ∃ q, (s.step e).workers[i]? = some (.renewal background q) ∧ q.left = r.left - (e.isStepOf i).toNat := by
  have hi := (List.getElem?_eq_some_iff.1 hw).1
  have hnew : ∀ more, (s.workers ++ more)[i]? = some (.renewal background r) :=
    fun more => (List.getElem?_append_left hi).trans hw
  cases e with
  | elapse nanos => exact ⟨r, hw, rfl⟩
  | read => exact ⟨r, hnew _, rfl⟩
  | renew => exact ⟨r, hnew _, rfl⟩
  | step j outcome =>
    cases hj : s.workers[j]? with
    | none =>
      have hne : j ≠ i := by rintro rfl; rw [hw] at hj; cases hj
      rw [step_absent hj]
      refine ⟨r, hw, ?_⟩
      rw [KeyEvent.isStepOf_ne hne]
      rfl
    | some w =>
      obtain ⟨v, cache, fetches, more, hmove, hstep⟩ := step_moves hj outcome
      rw [hstep]
      by_cases hji : j = i
      · subst hji
        rw [hw] at hj
        cases hj
        have hget : (s.workers.set j v ++ more)[j]? = some v := by
          rw [List.getElem?_append_left (by rwa [List.length_set]), List.getElem?_set_self hi]
        rw [KeyEvent.isStepOf_self]
        cases hmove <;> exact ⟨_, hget, rfl⟩
      · refine ⟨r, ?_, ?_⟩
        · rw [List.getElem?_append_left (by rwa [List.length_set]), List.getElem?_set_ne hji, hw]
        · rw [KeyEvent.isStepOf_ne hji]
          rfl

theorem left_course {s : KeyService} {i : Nat} {background : Bool} {r : Renewal}
    (hw : s.workers[i]? = some (.renewal background r)) (turns : List Turn) :
    ∃ q, (s.course turns).workers[i]? = some (.renewal background q) ∧
      q.left = r.left - turns.countP (·.event.isStepOf i) := by
  induction turns generalizing s r with
  | nil => exact ⟨r, hw, rfl⟩
  | cons t rest ih =>
    obtain ⟨p, hp, hleft⟩ := left_step (s := s.placed t.inside) hw t.event
    obtain ⟨q, hq, hrest⟩ := ih hp
    refine ⟨q, hq, ?_⟩
    rw [List.countP_cons, hrest, hleft]
    cases t.event.isStepOf i with
    | false => rfl
    | true => exact (Nat.sub_add_eq r.left 1 _).symm.trans (by rw [Nat.add_comm]; rfl)

theorem InFlight.renewal {s : KeyService} {i : Nat} (h : s.InFlight i) :
    ∃ r, s.workers[i]? = some (.renewal true r) ∧ ∃ n, r.left = n + 1 := by
  obtain ⟨w, hw, hflight⟩ := h
  cases w with
  | reader r => cases hflight
  | renewal background r =>
    cases background with
    | false => cases hflight
    | true =>
      refine ⟨r, hw, ?_⟩
      cases r with
      | finished result => cases hflight
      | _ => exact ⟨_, rfl⟩

/-- Whatever else happens, a renewal in the background has come to its end when it has taken four steps. -/
theorem InFlight.ended {s : KeyService} {i : Nat} (h : s.InFlight i) {turns : List Turn}
    (hsteps : 4 ≤ turns.countP (·.event.isStepOf i)) :
    ∃ result, (s.course turns).workers[i]? = some (.renewal true (.finished result)) := by
  obtain ⟨r, hw, -⟩ := h.renewal
  obtain ⟨q, hq, hleft⟩ := left_course hw turns
  have hzero : q.left = 0 := by
    rw [hleft]
    exact Nat.sub_eq_zero_of_le (r.left_le.trans hsteps)
  obtain ⟨result, rfl⟩ := Renewal.eq_finished_of_left hzero
  exact ⟨result, hq⟩

/-- A renewal in the background that takes the steps it is from its end frees the claim with the last of them. -/
theorem free_of_own_steps {s : KeyService} {i n : Nat} {r : Renewal}
    (hw : s.workers[i]? = some (.renewal true r)) (hleft : r.left = n + 1) (inside : Bool) (outcome : FetchOutcome) :
    (s.course (List.replicate (n + 1) ⟨inside, .step i outcome⟩)).cache.refreshing = false := by
  induction n generalizing s r with
  | zero =>
    obtain ⟨result, rfl⟩ : ∃ result, r = .installed result := by
      cases r with
      | installed result => exact ⟨result, rfl⟩
      | _ => cases hleft
    show ((s.placed inside).step (.step i outcome)).cache.refreshing = false
    rw [step_renewal (s := s.placed inside) hw]
    rfl
  | succ n ih =>
    obtain ⟨q, hq, hnearer⟩ := left_step (s := s.placed inside) hw (.step i outcome)
    rw [KeyEvent.isStepOf_self, hleft] at hnearer
    exact ih hq hnearer

theorem InFlight.frees {s : KeyService} {i : Nat} (h : s.InFlight i) (inside : Bool) (outcome : FetchOutcome) :
    ∃ n ≤ 4, (s.course (List.replicate n ⟨inside, .step i outcome⟩)).cache.refreshing = false := by
  obtain ⟨r, hw, n, hleft⟩ := h.renewal
  exact ⟨n + 1, hleft.symm.trans_le r.left_le, free_of_own_steps hw hleft inside outcome⟩

/-! ## The next one -/

/-- A reader comes and takes its steps. -/
def asks (inside : Bool) (place : Nat) : List Turn :=
  ⟨inside, .read⟩ :: List.replicate 3 ⟨inside, .step place noOutcome⟩

theorem step_last {c : KeyCache} {ws : List Worker} {w : Worker} {f : List FetchRecord} {now : Nat} {spawns : Bool}
    (outcome : FetchOutcome) :
    step ⟨c, ws ++ [w], f, now, spawns⟩ (.step ws.length outcome) = match w with
      | .reader r => stepReader ⟨c, ws ++ [w], f, now, spawns⟩ ws.length r
      | .renewal background r => stepRenewal ⟨c, ws ++ [w], f, now, spawns⟩ ws.length background outcome r := by
  have hw : (ws ++ [w])[ws.length]? = some w := List.getElem?_concat_length
  cases w with
  | reader r => exact step_reader hw outcome
  | renewal background r => exact step_renewal hw outcome

theorem set_last (ws : List Worker) (w v : Worker) : (ws ++ [w]).set ws.length v = ws ++ [v] := by
  rw [List.set_append_right _ _ (Nat.le_refl _), Nat.sub_self]
  rfl

/-- A reader that finds a renewal due claims one where it can and no other one is under way. -/
theorem course_asks {s : KeyService} {snapshot : Snapshot} (hcurrent : s.cache.current = some snapshot)
    (hdue : s.cache.refreshDue s.now = true) (inside : Bool) :
    s.course (asks inside s.workers.length) = if inside && !s.cache.refreshing then
      ⟨{ s.cache with refreshing := true },
        s.workers ++ [.reader (.finished (.ok snapshot)), .renewal true .start], s.fetches, s.now, inside⟩
    else ⟨s.cache, s.workers ++ [.reader (.finished (.ok snapshot))], s.fetches, s.now, inside⟩ := by
  obtain ⟨c, ws, f, now, spawns⟩ := s
  simp only at hcurrent hdue
  simp only [course, asks, List.replicate, List.foldl, take, placed]
  rw [show step ⟨c, ws, f, now, inside⟩ .read = ⟨c, ws ++ [.reader .start], f, now, inside⟩ from rfl]
  simp only [step_last, stepReader, hcurrent, put, set_last, hdue, if_true, List.append_assoc, List.cons_append,
    List.nil_append]

/-- A renewal is due, a reader claims it, and it goes to its end. -/
def round (s : KeyService) (outcome : FetchOutcome) : List Turn :=
  ⟨true, .elapse s.cache.minRefresh⟩ :: (asks true s.workers.length ++
    List.replicate 4 ⟨true, .step (s.workers.length + 1) outcome⟩)

/-- No attempt lies ahead. -/
def Past (s : KeyService) : Prop := ∀ attempt, s.cache.lastAttempt = some attempt → attempt ≤ s.now

theorem past_start (minRefresh now : Nat) (seed : Option KeySet) (spawns : Bool) :
    (start minRefresh now seed spawns).Past := (punctual_start minRefresh now seed spawns).past

theorem Past.step {s : KeyService} (h : s.Past) (e : KeyEvent) : (s.step e).Past := by
  cases e with
  | elapse nanos => exact fun attempt ha => (h attempt ha).trans (Nat.le_add_right _ _)
  | read => exact h
  | renew => exact h
  | step i outcome =>
    cases hw : s.workers[i]? with
    | none => rw [step_absent hw]; exact h
    | some w =>
      obtain ⟨v, cache, fetches, more, hmove, hstep⟩ := step_moves hw outcome
      rw [hstep]
      cases hmove with
      | note background =>
        rintro attempt ha
        cases ha; exact Nat.le_refl _
      | _ => exact h

theorem Past.refreshDue_elapse {s : KeyService} (h : s.Past) :
    s.cache.refreshDue (s.now + s.cache.minRefresh) = true := by
  unfold KeyCache.refreshDue
  cases hlast : s.cache.lastAttempt with
  | none => rfl
  | some attempt =>
    have hpast := h attempt hlast
    have hle : s.cache.minRefresh ≤ s.now + s.cache.minRefresh - attempt := by omega
    simpa using hle

theorem course_goes {s : KeyService} {ws : List Worker} (hlast : s.workers = ws ++ [.renewal true .start])
    (outcome : FetchOutcome) :
    s.course (List.replicate 4 ⟨true, .step ws.length outcome⟩) =
      ⟨{ (s.cache.attempt s.now s.fetches.length outcome).2 with refreshing := false },
        ws ++ [.renewal true (.finished (s.cache.attempt s.now s.fetches.length outcome).1)],
        s.fetches ++ [⟨s.now, true⟩], s.now, true⟩ := by
  obtain ⟨c, workers, f, now, spawns⟩ := s
  obtain rfl : workers = ws ++ [.renewal true .start] := hlast
  simp only [course, List.replicate, List.foldl, take, placed, step_last, stepRenewal, put, set_last, if_true,
    KeyCache.attempt]

/-- What the renewals in the background that have come to their end brought. -/
def results (s : KeyService) : List (Except FetchFault KeySet) := s.workers.filterMap Worker.result?

/-- Whether keys are in service, no attempt lies ahead and no renewal in the background is under way. -/
structure Idle (s : KeyService) : Prop where
  serving : s.cache.current.isSome = true
  past : s.Past
  free : s.cache.refreshing = false

theorem Idle.course_round {s : KeyService} (h : s.Idle) (outcome : FetchOutcome) :
    ∃ snapshot, s.course (s.round outcome) =
      ⟨{ (s.cache.attempt (s.now + s.cache.minRefresh) s.fetches.length outcome).2 with refreshing := false },
        s.workers ++ [.reader (.finished (.ok snapshot)),
          .renewal true (.finished (s.cache.attempt (s.now + s.cache.minRefresh) s.fetches.length outcome).1)],
        s.fetches ++ [⟨s.now + s.cache.minRefresh, true⟩], s.now + s.cache.minRefresh, true⟩ := by
  obtain ⟨snapshot, hcurrent⟩ := Option.isSome_iff_exists.1 h.serving
  obtain ⟨c, ws, f, now, spawns⟩ := s
  have hasks := course_asks (s := ⟨c, ws, f, now + c.minRefresh, true⟩) hcurrent h.past.refreshDue_elapse true
  have hfree : c.refreshing = false := h.free
  simp only [hfree, Bool.not_false, Bool.and_self, if_true] at hasks
  have hplace : ws.length + 1 = (ws ++ [Worker.reader (.finished (.ok snapshot))]).length := by
    rw [List.length_append, List.length_singleton]
  refine ⟨snapshot, ?_⟩
  rw [KeyService.round, course_cons, course_append]
  refine (congrArg (fun t => course t _) hasks).trans ?_
  rw [hplace, course_goes (List.append_assoc ws [_] [_]).symm, KeyCache.attempt_marked, List.append_assoc]
  rfl

theorem Idle.round {s : KeyService} (h : s.Idle) (outcome : FetchOutcome) :
    (s.course (s.round outcome)).Idle ∧
      (s.course (s.round outcome)).results = s.results ++ [outcome >>= KeySet.ofPublished] ∧
      (s.course (s.round outcome)).begun = s.begun + 1 ∧ (s.course (s.round outcome)).flights = s.flights := by
  obtain ⟨snapshot, hround⟩ := h.course_round outcome
  obtain ⟨hkeys, hlast, hserving⟩ :=
    s.cache.attempt_eq (s.now + s.cache.minRefresh) s.fetches.length outcome
  rw [hround]
  refine ⟨⟨hserving h.serving, ?_, rfl⟩, ?_, ?_, ?_⟩
  · rintro attempt ha
    exact (Option.some.inj (hlast.symm.trans ha)).ge
  · simp only [results, List.filterMap_append, List.filterMap_cons, List.filterMap_nil, Worker.result?, hkeys]
  · exact List.countP_append
  · exact List.countP_append

/-- One after the other, renewals can end as they may. -/
theorem Idle.rounds {s : KeyService} (h : s.Idle) (outcomes : List FetchOutcome) :
    ∃ later, (s.course later).Idle ∧
      (s.course later).results = s.results ++ outcomes.map (· >>= KeySet.ofPublished) ∧
      (s.course later).begun = s.begun + outcomes.length ∧ (s.course later).flights = s.flights := by
  induction outcomes generalizing s with
  | nil => exact ⟨[], h, (List.append_nil _).symm, rfl, rfl⟩
  | cons outcome rest ih =>
    obtain ⟨hidle, hresults, hbegun, hflights⟩ := h.round outcome
    obtain ⟨later, hidle', hresults', hbegun', hflights'⟩ := ih hidle
    refine ⟨s.round outcome ++ later, ?_⟩
    rw [course_append]
    refine ⟨hidle', ?_, ?_, hflights'.trans hflights⟩
    · rw [hresults', hresults, List.append_assoc]; rfl
    · rw [hbegun', hbegun, List.length_cons, Nat.add_right_comm]; rfl

/-- Whether keys are in service, no renewal in the background is under way and one is due. -/
def Ready (s : KeyService) : Prop :=
  s.cache.current.isSome = true ∧ s.cache.refreshing = false ∧ s.cache.refreshDue s.now = true

theorem Idle.again {s : KeyService} (h : s.Idle) (outcomes : List FetchOutcome) :
    ∃ later, (s.course later).Ready ∧
      (s.course later).results = s.results ++ outcomes.map (· >>= KeySet.ofPublished) ∧
      s.claimed later = outcomes.length ∧ s.ended later = outcomes.length := by
  obtain ⟨later, hidle, hresults, hbegun, hflights⟩ := h.rounds outcomes
  let wait : Turn := ⟨true, .elapse (s.course later).cache.minRefresh⟩
  have hcourse : s.course (later ++ [wait]) = (s.course later).take wait := course_append s later [wait]
  have hclaimed := begun_course s (later ++ [wait])
  have hended := flights_course s (later ++ [wait])
  rw [hcourse] at hclaimed hended
  -- time that passes changes neither count
  replace hclaimed : (s.course later).begun = s.begun + s.claimed (later ++ [wait]) := hclaimed
  replace hended : (s.course later).flights + s.ended (later ++ [wait]) =
    s.flights + s.claimed (later ++ [wait]) := hended
  refine ⟨later ++ [wait], ?_, ?_, by omega, by omega⟩
  · rw [hcourse]
    exact ⟨hidle.serving, hidle.free, hidle.past.refreshDue_elapse⟩
  · rw [hcourse]
    exact hresults

/-- A reader claims a renewal that it finds due and nobody else has claimed, if it can start one where it is. -/
theorem Ready.claims {s : KeyService} (h : s.Ready) (inside : Bool) :
    s.claimed (asks inside s.workers.length) = inside.toNat ∧
      (s.course (asks inside s.workers.length)).cache.refreshing = inside := by
  obtain ⟨hserving, hfree, hdue⟩ := h
  obtain ⟨snapshot, hcurrent⟩ := Option.isSome_iff_exists.1 hserving
  have hasks := course_asks hcurrent hdue inside
  have hclaimed := begun_course s (asks inside s.workers.length)
  rw [hfree] at hasks
  have hbegun : (s.course (asks inside s.workers.length)).begun = s.begun + inside.toNat := by
    rw [hasks]
    cases inside with
    | false => exact List.countP_append
    | true => exact List.countP_append
  constructor
  · exact Nat.add_left_cancel (hclaimed.symm.trans hbegun)
  · rw [hasks]
    cases inside with
    | false => exact hfree
    | true => rfl

/-- Wherever readers, renewals and fetches take their turns, in any order: the cache marks a renewal exactly if one
renewal in the background has been claimed and has not come to its end; there is one such renewal at most, and one
fetch of such a renewal at most; it comes to its end with its fourth step at the latest and can free the claim on its
own; and when keys are in service, none is under way and one is due, the next reader that can start one claims it,
also after any number of renewals that have come to their end, whatever they brought. -/
theorem renewals_one_at_a_time (minRefresh now : Nat) (seed : Option KeySet) (spawns : Bool) (turns : List Turn) :
    let first := start minRefresh now seed spawns
    let s := first.course turns
    first.claimed turns = first.ended turns + s.cache.refreshing.toNat ∧
    (s.cache.refreshing = true ↔ ∃! i, s.InFlight i) ∧
    (∀ (i j f g : Nat), s.workers[i]? = some (.renewal true (.fetching f)) →
      s.workers[j]? = some (.renewal true (.fetching g)) → i = j) ∧
    (∀ i, s.InFlight i →
      (∀ later : List Turn, 4 ≤ later.countP (·.event.isStepOf i) →
        ∃ result, (s.course later).workers[i]? = some (.renewal true (.finished result))) ∧
      ∀ inside outcome, ∃ n ≤ 4, (s.course (List.replicate n ⟨inside, .step i outcome⟩)).cache.refreshing = false) ∧
    (s.Ready → ∀ inside, s.claimed (asks inside s.workers.length) = inside.toNat ∧
      (s.course (asks inside s.workers.length)).cache.refreshing = inside) ∧
    (s.cache.current.isSome = true → s.cache.refreshing = false → ∀ outcomes : List FetchOutcome,
      ∃ later, (s.course later).Ready ∧
        (s.course later).results = s.results ++ outcomes.map (· >>= KeySet.ofPublished) ∧
        s.claimed later = outcomes.length ∧ s.ended later = outcomes.length) := by
  intro first s
  have hsingle : s.SingleFlight := (singleFlight_start minRefresh now seed spawns).course turns
  refine ⟨?_, hsingle.refreshing_iff, ?_, ?_, Ready.claims, ?_⟩
  · have hcount := flights_course first turns
    have hnone : first.flights = 0 := by
      show first.workers.countP _ = 0
      rw [workers_start]; rfl
    have hmark : s.flights = s.cache.refreshing.toNat := hsingle
    rw [hnone, hmark, Nat.zero_add] at hcount
    rw [← hcount, Nat.add_comm]
  · intro i j f g hi hj
    exact hsingle.place_eq ⟨_, hi, rfl⟩ ⟨_, hj, rfl⟩
  · intro i h
    constructor
    · intro later hsteps
      exact h.ended hsteps
    · exact h.frees
  · intro hserving hfree
    have hpast : s.Past := course_induction (fun _ _ h => h) (fun _ e h => h.step e)
      (past_start minRefresh now seed spawns) turns
    exact Idle.again ⟨hserving, hpast, hfree⟩

-- a reader that can start none, one that claims one, one that comes too early, and one that claims the next
example :
    let turns := ⟨false, .elapse quarter⟩ :: asks false 0 ++ asks true 1 ++ ⟨true, .renew⟩ :: asks true 4 ++
      List.replicate 4 ⟨false, .step 2 noOutcome⟩ ++ ⟨false, .elapse quarter⟩ :: asks true 5
    (start quarter 0 (some Token.sampleKeys) false).claimed turns = 2 ∧
      (start quarter 0 (some Token.sampleKeys) false).ended turns = 1 := by
  decide +kernel

end KeyService

end Tollgate
