/-
Violations of one address that are recorded at the same time, their commands in any order. How far a call has got is
its progress: it has yet to count, it has counted, and then it goes on to block or to flag the address with the count
that it was given. The count it was given is all that it goes by, so whatever the order the counts are the numbers
from one on, each given out once, and the address is blocked once a call that was given enough has entered the block.
-/
import Tollgate.Proofs.Guard.History
import Tollgate.Proofs.Store.Crowd

namespace Tollgate

/-- A query that begins with a command, and goes on with its answer. -/
theorem Query.ask_bind {α : Type} (c : Command) (next : c.Answer → Query α) :
    ∃ rest, (ask c >>= next).run = .ask c rest ∧ ∀ a, rest (.ok a) = (next a).run := ⟨_, rfl, fun _ => rfl⟩

namespace BlockList

open Memory (serve)

/-- How far a call has got. -/
inductive Progress (b : BlockList) where
  | fresh
  | counted (n : Nat)
  /-- the block is entered, the flag not yet taken away -/
  | entered (n : Nat) (h : b.violationThreshold ≤ n)
  /-- there was no flag, and none is put yet -/
  | unflagged (n : Nat) (h : n < b.violationThreshold) (h' : b.suspiciousThreshold ≤ n)
  | settled (n : Nat)

namespace Progress

variable {b : BlockList} (address mark : String)

/-- What a call has left to do. -/
def plan : Progress b → Plan (Except StoreFault ViolationOutcome)
  | fresh => (b.recordViolation mark address).run
  | counted n => (b.afterCount mark address n).run
  | entered n _ =>
    (do
      let _ ← (do let _ ← Query.ask (.erase [suspiciousKey address]); return true : Query Bool)
      return b.graded n : Query ViolationOutcome).run
  | unflagged n _ _ =>
    (do
      Query.ask (.put (suspiciousKey address) mark b.suspiciousDuration)
      return b.graded n : Query ViolationOutcome).run
  | settled n => .done (.ok (b.graded n))

/-- The count that a call was given. -/
def count? : Progress b → Option Nat
  | fresh => none
  | counted n | entered n _ | unflagged n _ _ | settled n => some n

/-- Whether a call has entered the block. -/
def hasBlocked : Progress b → Bool
  | entered _ _ => true
  | settled n => b.violationThreshold ≤ n
  | _ => false

variable {address mark}

theorem plan_fresh (mark : String) (hw : b.isWatched address = true) : ∃ rest,
    (fresh : Progress b).plan address mark = .ask (.increment (violationKey address) b.violationWindow) rest ∧
      ∀ n, rest (.ok n) = (counted n : Progress b).plan address mark := by
  unfold plan
  rw [recordViolation_of_watched hw]
  exact Query.ask_bind _ _

theorem plan_counted_of_many (mark : String) (he : b.isExempt address = false) {n : Nat}
    (h : b.violationThreshold ≤ n) : ∃ rest,
    (counted n : Progress b).plan address mark =
      .ask (.put (blockedKey address) (reason n) b.blockDuration) rest ∧
      rest (.ok ()) = (entered n h : Progress b).plan address mark := by
  unfold plan afterCount block graded
  simp only [h, if_true, he, Bool.false_eq_true, if_false]
  exact ⟨_, rfl, rfl⟩

theorem plan_counted_of_some (mark : String) (he : b.isExempt address = false) {n : Nat} (h : n < b.violationThreshold)
    (h' : b.suspiciousThreshold ≤ n) : ∃ rest,
    (counted n : Progress b).plan address mark = .ask (.contains (suspiciousKey address)) rest ∧
      rest (.ok true) = (settled n : Progress b).plan address mark ∧
      rest (.ok false) = (unflagged n h h' : Progress b).plan address mark := by
  unfold plan afterCount markSuspicious graded
  simp only [Nat.not_le.2 h, h', if_true, he, Bool.false_eq_true, if_false]
  exact ⟨_, rfl, rfl, rfl⟩

theorem plan_counted_of_few {n : Nat} (h : n < b.violationThreshold) (h' : n < b.suspiciousThreshold) :
    (counted n : Progress b).plan address mark = (settled n : Progress b).plan address mark := by
  unfold plan afterCount graded
  simp only [Nat.not_le.2 h, Nat.not_le.2 h', if_false]
  rfl

/-- One command of a call: what becomes of the store and of the call. -/
inductive Advance (address : String) (now : Nat) (m : Memory) : Progress b → Memory → Progress b → Prop
  | count (n : Nat) (hn : (m.increment now (violationKey address) b.violationWindow).1 = some n)
      (hl : 0 < b.violationWindow) :
      Advance address now m fresh (m.increment now (violationKey address) b.violationWindow).2 (counted n)
  | enter (n : Nat) (h : b.violationThreshold ≤ n) (hl : 0 < b.blockDuration) :
      Advance address now m (counted n) (m.set (blockedKey address) ⟨1, some (now + b.blockDuration)⟩) (entered n h)
  | unflag (n : Nat) (h : b.violationThreshold ≤ n) :
      Advance address now m (entered n h) (m.erase now [suspiciousKey address]).2 (settled n)
  | find (n : Nat) (h : n < b.violationThreshold) (h' : b.suspiciousThreshold ≤ n)
      (hf : (m.live? now (suspiciousKey address)).isSome = true) : Advance address now m (counted n) m (settled n)
  | miss (n : Nat) (h : n < b.violationThreshold) (h' : b.suspiciousThreshold ≤ n)
      (hf : (m.live? now (suspiciousKey address)).isSome = false) :
      Advance address now m (counted n) m (unflagged n h h')
  | flag (n : Nat) (h : n < b.violationThreshold) (h' : b.suspiciousThreshold ≤ n) (hl : 0 < b.suspiciousDuration) :
      Advance address now m (unflagged n h h') (m.set (suspiciousKey address) ⟨1, some (now + b.suspiciousDuration)⟩)
        (settled n)

theorem advance_of_ask {m m' : Memory} {now : Nat} (hm : m.available = true) (hw : b.isWatched address = true)
    {pr : Progress b} {c : Command} {next : c.Reply → Plan (Except StoreFault ViolationOutcome)}
    (h : pr.plan address mark = .ask c next) (hl : c.lasts = true) {reply : c.Reply}
    (hs : serve now m c = (some reply, m')) :
    ∃ pr', Advance address now m pr m' pr' ∧ next reply = pr'.plan address mark := by
  have he := not_isExempt_of_isWatched hw
  cases pr with
  | fresh =>
    obtain ⟨rest, hplan, hrest⟩ := plan_fresh mark hw
    rw [hplan] at h
    cases h
    rw [Memory.serve_increment hm, Prod.mk.injEq, Option.map_eq_some_iff] at hs
    obtain ⟨⟨n, hn, rfl⟩, rfl⟩ := hs
    exact ⟨_, .count n hn (by simpa [Command.lasts] using hl), hrest n⟩
  | counted n =>
    by_cases hmany : b.violationThreshold ≤ n
    · obtain ⟨rest, hplan, hrest⟩ := plan_counted_of_many mark he hmany
      rw [hplan] at h
      cases h
      obtain ⟨rfl, rfl⟩ := Memory.put_of_serve hm hs
      exact ⟨_, .enter n hmany (by simpa [Command.lasts] using hl), hrest⟩
    by_cases hsome : b.suspiciousThreshold ≤ n
    · obtain ⟨rest, hplan, hfound, hmissed⟩ := plan_counted_of_some mark he (Nat.not_le.1 hmany) hsome
      rw [hplan] at h
      cases h
      rw [Memory.serve_contains hm] at hs
      cases hs
      cases hf : (m.live? now (suspiciousKey address)).isSome with
      | true => exact ⟨_, .find n (Nat.not_le.1 hmany) hsome hf, hfound⟩
      | false => exact ⟨_, .miss n (Nat.not_le.1 hmany) hsome hf, hmissed⟩
    · rw [plan_counted_of_few (Nat.not_le.1 hmany) (Nat.not_le.1 hsome)] at h
      cases h
  | entered n hn =>
    cases h
    rw [Memory.serve_erase hm] at hs
    cases hs
    exact ⟨_, .unflag n hn, rfl⟩
  | unflagged n hn hn' =>
    cases h
    obtain ⟨rfl, rfl⟩ := Memory.put_of_serve hm hs
    exact ⟨_, .flag n hn hn' (by simpa [Command.lasts] using hl), rfl⟩
  | settled n => cases h

/-- A call that is over has nothing left to do with its count, or never had. -/
theorem over_cases (hw : b.isWatched address = true) {pr : Progress b} {outcome : Except StoreFault ViolationOutcome}
    (h : pr.plan address mark = .done outcome) :
    ∃ n, outcome = .ok (b.graded n) ∧
      (pr = settled n ∨ pr = counted n ∧ n < b.violationThreshold ∧ n < b.suspiciousThreshold) := by
  have he := not_isExempt_of_isWatched hw
  cases pr with
  | fresh =>
    obtain ⟨rest, hplan, -⟩ := plan_fresh mark hw
    rw [hplan] at h; cases h
  | counted n =>
    by_cases hmany : b.violationThreshold ≤ n
    · obtain ⟨rest, hplan, -⟩ := plan_counted_of_many mark he hmany
      rw [hplan] at h; cases h
    by_cases hsome : b.suspiciousThreshold ≤ n
    · obtain ⟨rest, hplan, -⟩ := plan_counted_of_some mark he (Nat.not_le.1 hmany) hsome
      rw [hplan] at h; cases h
    · rw [plan_counted_of_few (Nat.not_le.1 hmany) (Nat.not_le.1 hsome)] at h
      cases h
      exact ⟨n, rfl, .inr ⟨rfl, Nat.not_le.1 hmany, Nat.not_le.1 hsome⟩⟩
  | entered n hn => cases h
  | unflagged n hn hn' => cases h
  | settled n =>
    cases h
    exact ⟨n, rfl, .inl rfl⟩

/-- A call that is over has a count, has entered the block if that is enough, and answers by it. -/
theorem settled_of_done (hw : b.isWatched address = true) {pr : Progress b}
    {outcome : Except StoreFault ViolationOutcome} (h : pr.plan address mark = .done outcome) :
    ∃ n, pr.count? = some n ∧ outcome = .ok (b.graded n) ∧ (pr.hasBlocked = true ↔ b.violationThreshold ≤ n) := by
  obtain ⟨n, houtcome, rfl | ⟨rfl, hmany, -⟩⟩ := over_cases hw h
  · exact ⟨n, rfl, houtcome, by simp [hasBlocked]⟩
  · exact ⟨n, rfl, houtcome, by simp [hasBlocked, Nat.not_le.2 hmany]⟩

end Progress

/-! ## What the calls and the store have in common -/

def given {b : BlockList} (calls : List (Progress b)) : List Nat := calls.filterMap Progress.count?

/-- The store holds how many counts were given, each once, and a block if one was entered or there was one before. -/
structure Tally {b : BlockList} (address : String) (before : Prop) (calls : List (Progress b)) (m : Memory)
    (now : Nat) : Prop where
  available : m.available = true
  counts : (given calls).Perm (List.range' 1 (given calls).length)
  counter : (m.live? now (violationKey address)).elim 0 (·.count) = (given calls).length
  blocked : (m.live? now (blockedKey address)).isSome = true ↔ before ∨ ∃ pr ∈ calls, pr.hasBlocked = true

namespace Tally

variable {b : BlockList} {address : String} {before : Prop} {calls calls' : List (Progress b)} {m m' : Memory}
  {now later : Nat}

theorem perm (h : Tally address before calls m now) (hp : calls.Perm calls') :
    Tally address before calls' m now where
  available := h.available
  counts := by
    have hg : (given calls).Perm (given calls') := hp.filterMap _
    rw [← hg.length_eq]
    exact hg.symm.trans h.counts
  counter := by rw [h.counter]; exact (hp.filterMap _).length_eq
  blocked := by rw [h.blocked]; simp [hp.mem_iff]

theorem of_live (h : Tally address before calls m now) (hm : m'.available = true)
    (hlive : ∀ key, KeyOf address key → m'.live? later key = m.live? now key) :
    Tally address before calls m' later where
  available := hm
  counts := h.counts
  counter := by rw [hlive _ (keyOf_violationKey address)]; exact h.counter
  blocked := by rw [hlive _ (keyOf_blockedKey address)]; exact h.blocked

variable {pr pr' : Progress b} {rest : List (Progress b)}

/-- A command of a call that has counted gives out no count, and enters the block or leaves it as it is. -/
theorem of_same (h : Tally address before (pr :: rest) m now) (hm : m'.available = true)
    (hcount : pr'.count? = pr.count?)
    (hcounter : m'.live? now (violationKey address) = m.live? now (violationKey address))
    (hblocked : (m'.live? now (blockedKey address)).isSome = true ↔
      (m.live? now (blockedKey address)).isSome = true ∨ pr'.hasBlocked = true)
    (hkept : pr.hasBlocked = true → pr'.hasBlocked = true) : Tally address before (pr' :: rest) m' now := by
  have hgiven : given (pr' :: rest) = given (pr :: rest) := by simp only [given, List.filterMap_cons, hcount]
  refine ⟨hm, ?_, ?_, ?_⟩
  · rw [hgiven]; exact h.counts
  · rw [hgiven, hcounter]; exact h.counter
  · rw [hblocked, h.blocked]
    simp only [List.mem_cons, exists_eq_or_imp]
    constructor
    · rintro ((h | h | h) | h)
      exacts [.inl h, .inr (.inl (hkept h)), .inr (.inr h), .inr (.inl h)]
    · rintro (h | h | h)
      exacts [.inl (.inl h), .inr h, .inl (.inr (.inr h))]

/-- What a command of a call preserves. -/
theorem advance (h : Tally address before (pr :: rest) m now) (ha : pr.Advance address now m m' pr') :
    Tally address before (pr' :: rest) m' now := by
  have hbv := blockedKey_ne_violationKey address address
  have hbs := blockedKey_ne_suspiciousKey address address
  have hvs := violationKey_ne_suspiciousKey address address
  cases ha with
  | count n hn hl =>
    -- the new count is one more than any that was given, so the counts are still the numbers from one on
    replace hn : n = (given rest).length + 1 := by
      rw [(Memory.increment_fst_eq_some_iff.1 hn).1, h.counter]; rfl
    refine ⟨(available_counted b address m now).trans h.available, ?_, ?_, ?_⟩
    · show (_ :: given rest).Perm (List.range' 1 ((given rest).length + 1))
      rw [hn, List.range'_1_concat, Nat.add_comm 1]
      exact (h.counts.cons _).trans (List.perm_append_singleton _ _).symm
    · rw [Memory.live?_increment m now _ hl, h.counter]; rfl
    · rw [Memory.live?_increment_of_ne m now now _ hbv, h.blocked]
      simp [Progress.hasBlocked]
  | enter n hn hl =>
    refine h.of_same h.available rfl (Memory.live?_set_of_ne m now _ hbv.symm) ?_ nofun
    rw [Memory.live?_set_lasting m now _ hl]
    simp [Progress.hasBlocked]
  | unflag n hn =>
    have hkept {key : String} (hne : key ≠ suspiciousKey address) :=
      Memory.live?_erase_of_notMem m now now (List.mem_singleton.not.2 hne)
    refine h.of_same (Memory.available_erase _ _ _ |>.trans h.available) rfl (hkept hvs) ?_ fun _ => by
      simpa [Progress.hasBlocked] using hn
    rw [hkept hbs, h.blocked]
    simp [Progress.hasBlocked, hn]
  | find n hn hn' hf =>
    refine h.of_same h.available rfl rfl ?_ nofun
    simp [Progress.hasBlocked, Nat.not_le.2 hn]
  | miss n hn hn' hf =>
    refine h.of_same h.available rfl rfl ?_ nofun
    simp [Progress.hasBlocked]
  | flag n hn hn' hl =>
    refine h.of_same h.available rfl (Memory.live?_set_of_ne m now _ hvs) ?_ nofun
    rw [Memory.live?_set_of_ne m now _ hbs]
    simp [Progress.hasBlocked, Nat.not_le.2 hn]

end Tally

/-! ## Any course -/

variable {b : BlockList} {address : String} {before : Prop} {marks : List String}
  {x y : Crowd (Except StoreFault ViolationOutcome)} {calls : List (Progress b × String)}

/-- A turn is one command of one call. -/
theorem advance_of_turn (hw : b.isWatched address = true) (hm : x.store.available = true)
    (hplans : x.plans = calls.map fun call => call.1.plan address call.2) {i : Nat} (h : x.turn? i = some y) :
    ∃ pr pr' mark, calls[i]? = some (pr, mark) ∧ pr.Advance address x.now x.store y.store pr' ∧ y.now = x.now ∧
      y.plans = (calls.set i (pr', mark)).map fun call => call.1.plan address call.2 := by
  obtain ⟨c, next, reply, store, hplan, hl, hserve, rfl⟩ := Crowd.turn?_eq_some_iff.1 h
  rw [hplans, List.getElem?_map, Option.map_eq_some_iff] at hplan
  obtain ⟨⟨pr, mark⟩, hcall, hask⟩ := hplan
  obtain ⟨pr', hadvance, hnext⟩ := Progress.advance_of_ask hm hw hask hl hserve
  exact ⟨pr, pr', mark, hcall, hadvance, rfl, by rw [List.map_set, hplans, hnext]⟩

/-- Calls on the way, each with its mark, and what they have left to do. -/
structure Underway (b : BlockList) (address : String) (before : Prop) (marks : List String)
    (x : Crowd (Except StoreFault ViolationOutcome)) (calls : List (Progress b × String)) : Prop where
  marks : calls.map (·.2) = marks
  plans : x.plans = calls.map fun call => call.1.plan address call.2
  tally : Tally address before (calls.map (·.1)) x.store x.now

theorem Underway.step (hw : b.isWatched address = true) (h : Underway b address before marks x calls)
    (hs : Crowd.Step (KeyOf address) x y) : ∃ calls', Underway b address before marks y calls' := by
  cases hs with
  | wait hlater hkeys => exact ⟨calls, h.marks, h.plans, h.tally.of_live h.tally.available hkeys⟩
  | elsewhere hagree =>
    exact ⟨calls, h.marks, h.plans, h.tally.of_live (hagree.available ▸ h.tally.available) fun key hk =>
      (hagree.live? x.now hk).symm⟩
  | turn i hturn =>
    obtain ⟨pr, pr', mark, hcall, hadvance, hnow, hplans⟩ := advance_of_turn hw h.tally.available h.plans hturn
    obtain ⟨hi, hget⟩ := List.getElem?_eq_some_iff.1 hcall
    refine ⟨calls.set i (pr', mark), ?_, hplans, ?_⟩
    · have hi' : i < (calls.map (·.2)).length := by rw [List.length_map]; exact hi
      have hmark : (calls.map (·.2))[i] = mark := by rw [List.getElem_map, hget]
      rw [List.map_set, ← hmark, List.set_getElem_self, h.marks]
    · -- a tally does not depend on the order of the calls: the one that moves is put in front, and back
      have hbefore := (List.getElem_cons_eraseIdx_perm hi).map (·.1)
      have hafter := (List.set_perm_cons_eraseIdx hi (pr', mark)).map (·.1)
      rw [hget] at hbefore
      rw [hnow]
      exact ((h.tally.perm hbefore.symm).advance hadvance).perm hafter.symm

theorem Underway.course (hw : b.isWatched address = true) (h : Underway b address before marks x calls)
    (hc : Crowd.Course (KeyOf address) x y) : ∃ calls', Underway b address before marks y calls' := by
  induction hc with
  | refl => exact ⟨calls, h⟩
  | tail _ hs ih =>
    obtain ⟨calls', h'⟩ := ih
    exact h'.step hw hs

theorem underway_fresh (hm : x.store.available = true)
    (habsent : x.store.live? x.now (violationKey address) = none)
    (hplans : x.plans = marks.map fun mark => (b.recordViolation mark address).run) :
    Underway b address ((x.store.live? x.now (blockedKey address)).isSome = true) marks x
      (marks.map fun mark => (.fresh, mark)) where
  marks := by simp [Function.comp_def]
  plans := by rw [hplans, List.map_map]; rfl
  tally := by
    have hgiven : given ((marks.map fun mark => ((.fresh : Progress b), mark)).map (·.1)) = [] := by
      simp [given, Progress.count?]
    refine ⟨hm, ?_, ?_, ?_⟩
    · rw [hgiven]; rfl
    · rw [hgiven, habsent]; rfl
    · simp [Progress.hasBlocked]

/-- Calls that are over answer by their counts. -/
theorem outcomes_of_done (hw : b.isWatched address = true) {outcomes : List (Except StoreFault ViolationOutcome)}
    (h : (calls.map fun call => call.1.plan address call.2) = outcomes.map .done) :
    outcomes = (given (calls.map (·.1))).map (fun n => .ok (b.graded n)) ∧
      (given (calls.map (·.1))).length = calls.length ∧
      ((∃ pr ∈ calls.map (·.1), pr.hasBlocked = true) ↔ ∃ n ∈ given (calls.map (·.1)), b.violationThreshold ≤ n) := by
  induction calls generalizing outcomes with
  | nil =>
    obtain rfl := List.map_eq_nil_iff.1 h.symm
    simp [given]
  | cons call rest ih =>
    cases outcomes with
    | nil => cases h
    | cons outcome outcomes =>
      obtain ⟨hcall, hrest⟩ := List.cons.inj h
      obtain ⟨n, hcount, houtcome, hblocked⟩ := Progress.settled_of_done hw hcall
      obtain ⟨houtcomes, hlength, hany⟩ := ih hrest
      have hgiven : given ((call :: rest).map (·.1)) = n :: given (rest.map (·.1)) := by simp [given, hcount]
      rw [hgiven]
      refine ⟨by rw [houtcome, houtcomes]; rfl, by simp [hlength], ?_⟩
      simp only [List.map_cons, List.mem_cons, exists_eq_or_imp, hblocked, hany]

/-- Violations of a watched address that are recorded at the same time, each command at once and nothing about the
address expiring, from a counter that is not there: however their commands take turns, and whatever happens to other
keys in between, the counts that the calls are given are the numbers from one on, each once; each call answers by its
own; and in the end the address is blocked exactly if it was before, or the last of the counts reaches the threshold. -/
theorem counts_of_course (hw : b.isWatched address = true) {m : Memory} (hm : m.available = true) {start : Nat}
    (habsent : m.live? start (violationKey address) = none) (marks : List String)
    (hcourse : Crowd.Course (KeyOf address)
      ⟨marks.map fun mark => (b.recordViolation mark address).run, m, start⟩ x)
    {outcomes : List (Except StoreFault ViolationOutcome)} (hdone : x.plans = outcomes.map .done) :
    (∃ counts : List Nat, counts.Perm (List.range' 1 marks.length) ∧ outcomes = counts.map fun n => .ok (b.graded n)) ∧
    ((∃ left, ((b.check address).attempt (serve x.now) x.store).1 = some (.blocked left)) ↔
      (1 ≤ marks.length ∧ b.violationThreshold ≤ marks.length) ∨
        ∃ left, ((b.check address).attempt (serve start) m).1 = some (.blocked left)) := by
  obtain ⟨calls, hcalls⟩ := (underway_fresh hm habsent rfl).course hw hcourse
  obtain ⟨houtcomes, hlength, hany⟩ := outcomes_of_done hw (hcalls.plans.symm.trans hdone)
  have hmarks : calls.length = marks.length := by rw [← hcalls.marks, List.length_map]
  have hcounts := hcalls.tally.counts
  rw [hlength, hmarks] at hcounts
  refine ⟨⟨_, hcounts, houtcomes⟩, ?_⟩
  rw [check_eq_blocked_iff hcalls.tally.available, check_eq_blocked_iff hm, hcalls.tally.blocked, hany]
  have hreached : (∃ n ∈ given (calls.map (·.1)), b.violationThreshold ≤ n) ↔
      1 ≤ marks.length ∧ b.violationThreshold ≤ marks.length := by
    simp only [hcounts.mem_iff, List.mem_range'_1]
    constructor
    · rintro ⟨n, hn, ht⟩
      omega
    · rintro ⟨h1, ht⟩
      exact ⟨marks.length, by omega, ht⟩
  rw [hreached]
  simp only [hw, true_and]
  exact or_comm

/-- Calls for one address that are about to begin. -/
def crowd (b : BlockList) (marks : List String) (m : Memory) : Crowd (Except StoreFault ViolationOutcome) :=
  ⟨marks.map fun mark => (b.recordViolation mark "203.0.113.7").run, m, 0⟩

/-- Three calls, of which the last one counts first and the second one blocks before the first one flags. -/
theorem counts_of_course_threeCalls : ∃ x, Crowd.Course (KeyOf "203.0.113.7") (crowd strict ["a", "b", "c"] .empty) x ∧
    x.plans.map Plan.result? = [some (.ok (.suspicious 2)), some (.ok (.blocked 3)), some (.ok (.counted 1))] ∧
    ∃ left, ((strict.check "203.0.113.7").attempt (serve x.now) x.store).1 = some (.blocked left) := by
  have h : ((crowd strict ["a", "b", "c"] .empty).play [2, 0, 1, 1, 0, 1, 0]).map (·.plans.map Plan.result?) =
      some [some (.ok (.suspicious 2)), some (.ok (.blocked 3)), some (.ok (.counted 1))] := by decide +kernel
  obtain ⟨x, hx, hresults⟩ := Option.map_eq_some_iff.1 h
  have hcourse := Crowd.course_of_play (KeyOf "203.0.113.7") hx
  have hdone : x.plans = [.ok (.suspicious 2), .ok (.blocked 3), .ok (.counted 1)].map .done :=
    Plan.eq_done_of_results hresults
  refine ⟨x, hcourse, hresults, ?_⟩
  obtain ⟨-, hblocked⟩ := counts_of_course (b := strict) (by decide +kernel) rfl (by decide +kernel) ["a", "b", "c"]
    hcourse hdone
  exact hblocked.2 (.inl (by decide))

/-- An address that was blocked before is still blocked after a call that counts one violation, and no calls block
nobody even if no violation is enough to be blocked. -/
theorem blocked_below_threshold :
    (∃ m x, BlockList.default.isWatched "203.0.113.7" = true ∧ m.available = true ∧
      m.live? 0 (violationKey "203.0.113.7") = none ∧
      Crowd.Course (KeyOf "203.0.113.7") (crowd .default ["a"] m) x ∧
      x.plans.map Plan.result? = [some (.ok (.counted 1))] ∧ 1 < BlockList.default.violationThreshold ∧
      ∃ left, ((BlockList.default.check "203.0.113.7").attempt (serve x.now) x.store).1 = some (.blocked left)) ∧
    ((({ BlockList.default with violationThreshold := 0 } : BlockList).check "203.0.113.7").attempt (serve 0) .empty).1 =
      some .allow := by
  have h : ((crowd .default ["a"] ((BlockList.default.block "203.0.113.7" "manual").run.attempt (serve 0) .empty).2).play
      [0]).map (fun x => (x.plans.map Plan.result?,
        ((BlockList.default.check "203.0.113.7").attempt (serve x.now) x.store).1)) =
      some ([some (.ok (.counted 1))], some (.blocked 3600000000000)) := by decide +kernel
  obtain ⟨x, hx, hresult⟩ := Option.map_eq_some_iff.1 h
  obtain ⟨hresults, hblocked⟩ := Prod.mk.inj hresult
  exact ⟨⟨_, x, by decide +kernel, by decide +kernel, by decide +kernel, Crowd.course_of_play _ hx, hresults,
    by decide +kernel, _, hblocked⟩, by decide +kernel⟩

end BlockList

end Tollgate
