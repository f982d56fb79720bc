/-
The flag of an address whose violations are recorded at the same time. A call that flags the address looks for a flag
before it puts one, and a call that blocks it takes the flag away after it has entered the block, each in commands of
their own. Counts rise in the order in which calls count, so a call that flags has counted before every call that
blocks; whether its flag is left depends on whether it is over before one of them is. So an address ends up blocked
and flagged exactly if a call that flags goes on around every call that blocks.
-/
import Tollgate.Proofs.Guard.Concurrent

namespace Tollgate.BlockList

open Memory (serve)
open Crowd (Spans)

/-- What was counted of an address. -/
def counter (address : String) (m : Memory) (now : Nat) : Nat := (m.live? now (violationKey address)).elim 0 (·.count)

/-- What becomes of a flag with an answer. -/
def flagAfter (flag : Bool) : Option ViolationOutcome → Bool
  | some (.blocked _) => false
  | some (.suspicious _) => true
  | _ => flag

/-! ## What one command does -/

namespace Progress

variable {b : BlockList} {address mark : String} {m m' : Memory} {now : Nat} {pr pr' : Progress b}

/-- The answer of a call that has carried out its last command. -/
def verdict? : Progress b → Option ViolationOutcome
  | settled n => some (b.graded n)
  | _ => none

theorem Advance.verdict?_eq_none (h : pr.Advance address now m m' pr') : pr.verdict? = none := by
  cases h <;> rfl

/-- It is the one that counts, or leaves the counter as it is. -/
theorem Advance.count_cases (h : pr.Advance address now m m' pr') :
    (pr.count? = none ∧ pr'.count? = some (counter address m now + 1) ∧
      counter address m' now = counter address m now + 1) ∨
    (∃ n, pr.count? = some n ∧ pr'.count? = some n) ∧ counter address m' now = counter address m now := by
  have hvb := (blockedKey_ne_violationKey address address).symm
  have hvs := violationKey_ne_suspiciousKey address address
  unfold counter
  cases h with
  | count n hn hl =>
    exact .inl ⟨rfl, congrArg some (Memory.increment_fst_eq_some_iff.1 hn).1, Memory.live?_increment m now _ hl⟩
  | enter n hn hl => exact .inr ⟨⟨n, rfl, rfl⟩, by rw [Memory.live?_set_of_ne m now _ hvb]⟩
  | unflag n hn => exact .inr ⟨⟨n, rfl, rfl⟩, by rw [Memory.live?_erase_of_notMem m now now (by simpa using hvs)]⟩
  | find n hn hn' hf => exact .inr ⟨⟨n, rfl, rfl⟩, rfl⟩
  | miss n hn hn' hf => exact .inr ⟨⟨n, rfl, rfl⟩, rfl⟩
  | flag n hn hn' hl => exact .inr ⟨⟨n, rfl, rfl⟩, by rw [Memory.live?_set_of_ne m now _ hvs]⟩

/-- It leaves the flag as it is unless it is the last one, which leaves the flag that its call answers. -/
theorem Advance.live?_suspiciousKey (h : pr.Advance address now m m' pr') :
    (m'.live? now (suspiciousKey address)).isSome =
      flagAfter (m.live? now (suspiciousKey address)).isSome pr'.verdict? := by
  have hsv := (violationKey_ne_suspiciousKey address address).symm
  have hsb := (blockedKey_ne_suspiciousKey address address).symm
  cases h with
  | count n hn hl => rw [Memory.live?_increment_of_ne m now now _ hsv]; rfl
  | enter n hn hl => rw [Memory.live?_set_of_ne m now _ hsb]; rfl
  | unflag n hn =>
    rw [verdict?, graded_eq_blocked_iff.2 ⟨hn, rfl⟩, Memory.live?, Memory.entry?_erase, if_pos (List.mem_singleton.2 rfl)]
    rfl
  | find n hn hn' hf => rw [verdict?, graded_eq_suspicious_iff.2 ⟨⟨hn, hn'⟩, rfl⟩, hf]; rfl
  | miss n hn hn' hf => rfl
  | flag n hn hn' hl =>
    rw [verdict?, graded_eq_suspicious_iff.2 ⟨⟨hn, hn'⟩, rfl⟩, Memory.live?_set_lasting m now _ hl]
    rfl

/-- It enters the block or leaves it as it is. -/
theorem Advance.live?_blockedKey (h : pr.Advance address now m m' pr') :
    (m'.live? now (blockedKey address)).isSome =
      ((m.live? now (blockedKey address)).isSome || pr'.hasBlocked && !pr.hasBlocked) := by
  have hbv := blockedKey_ne_violationKey address address
  have hbs := blockedKey_ne_suspiciousKey address address
  cases h with
  | count n hn hl => simp [Memory.live?_increment_of_ne m now now _ hbv, hasBlocked]
  | enter n hn hl => simp [Memory.live?_set_lasting m now _ hl, hasBlocked]
  | unflag n hn => simp [Memory.live?_erase_of_notMem m now now (List.mem_singleton.not.2 hbs), hasBlocked]
  | find n hn hn' hf => simp [hasBlocked, Nat.not_le.2 hn]
  | miss n hn hn' hf => simp [hasBlocked]
  | flag n hn hn' hl => simp [Memory.live?_set_of_ne m now _ hbs, hasBlocked, Nat.not_le.2 hn]

theorem Advance.hasBlocked_of_hasBlocked (h : pr.Advance address now m m' pr') (hb : pr.hasBlocked = true) :
    pr'.hasBlocked = true := by
  cases h with
  | unflag n hn => simpa [hasBlocked] using hn
  | _ => cases hb

theorem Advance.available (h : pr.Advance address now m m' pr') : m'.available = m.available := by
  cases h with
  | unflag n hn => exact Memory.available_erase m now _
  | count n hn hl => exact available_counted b address m now
  | _ => rfl

/-- The last command of a call is not the one that counts. -/
theorem Advance.graded_of_verdict? (h : pr.Advance address now m m' pr') {o : ViolationOutcome}
    (hv : pr'.verdict? = some o) : ∃ n, pr.count? = some n ∧ b.graded n = o := by
  cases h with
  | count n hn hl | enter n hn hl | miss n hn hn' hf => cases hv
  | unflag n hn | find n hn hn' hf | flag n hn hn' hl => exact ⟨n, rfl, Option.some.inj hv⟩

theorem graded_of_verdict? {o : ViolationOutcome} (hv : pr.verdict? = some o) :
    ∃ n, pr.count? = some n ∧ b.graded n = o := by
  cases pr with
  | settled n => exact ⟨n, rfl, Option.some.inj hv⟩
  | _ => cases hv

/-- A call that is over answers by its verdict, unless it had nothing but to count. -/
theorem verdict?_of_done (hw : b.isWatched address = true) {outcome : Except StoreFault ViolationOutcome}
    (h : pr.plan address mark = .done outcome) {o : ViolationOutcome} (ho : ∀ n, o ≠ .counted n) :
    outcome = .ok o ↔ pr.verdict? = some o := by
  obtain ⟨n, rfl, rfl | ⟨rfl, hmany, hsome⟩⟩ := over_cases hw h
  · simp [verdict?]
  · have hcounted : b.graded n = .counted n := by
      rw [graded, if_neg (Nat.not_le.2 hmany), if_neg (Nat.not_le.2 hsome)]
    simpa [verdict?, hcounted] using (ho n).symm

theorem hasBlocked_iff_of_done (hw : b.isWatched address = true) {outcome : Except StoreFault ViolationOutcome}
    (h : pr.plan address mark = .done outcome) : pr.hasBlocked = true ↔ ∃ n, outcome = .ok (.blocked n) := by
  obtain ⟨n, hcount, rfl, hblocked⟩ := settled_of_done hw h
  simp [hblocked, graded_eq_blocked_iff]

end Progress

/-! ## What a log tells of the flag -/

/-- There is a flag after these turns: a call that is over flagged the address around all that blocked it, or there
was one before that nobody took away. -/
def FlagLeft (before : Prop) (log : List Nat) (verdict : Nat → Option ViolationOutcome) : Prop :=
  (∃ i n, verdict i = some (.suspicious n) ∧ ∀ j k, verdict j = some (.blocked k) → Spans log i j) ∨
    before ∧ ∀ j k, verdict j ≠ some (.blocked k)

/-- One more turn, of a call that is not over before it. -/
theorem flagLeft_concat_iff {before : Prop} {log : List Nat} {verdict verdict' : Nat → Option ViolationOutcome}
    {k : Nat} {v : Option ViolationOutcome} {flag : Bool} (hk : verdict k = none)
    (hverdict : ∀ i, verdict' i = if i = k then v else verdict i)
    (hfirst : ∀ n, v = some (.suspicious n) → ∀ j n', verdict j = some (.blocked n') → log.idxOf k < log.idxOf j)
    (hflag : flag = true ↔ FlagLeft before log verdict) :
    flagAfter flag v = true ↔ FlagLeft before (log ++ [k]) verdict' := by
  have hother {i : Nat} {o : ViolationOutcome} (h : verdict i = some o) : i ≠ k := by
    rintro rfl
    rw [hk] at h
    cases h
  have hself : verdict' k = v := by rw [hverdict, if_pos rfl]
  have hsame (ho : ∀ n, v ≠ some (.suspicious n)) (ho' : ∀ n, v ≠ some (.blocked n)) :
      FlagLeft before log verdict ↔ FlagLeft before (log ++ [k]) verdict' := by
    have hiff {i : Nat} {o : ViolationOutcome} (hv : v ≠ some o) : verdict' i = some o ↔ verdict i = some o := by
      rw [hverdict]
      split
      · rename_i hi
        rw [hi, hk]
        exact iff_of_false hv nofun
      · rfl
    have hspans {i j n n' : _} (hi : verdict i = some (.suspicious n)) (hj : verdict j = some (.blocked n')) :=
      Crowd.spans_concat_iff log (hother hi) (hother hj)
    unfold FlagLeft
    simp only [hiff (ho _), hiff (ho' _), Ne]
    refine or_congr (exists_congr fun i => exists_congr fun n => and_congr_right fun hi => ?_) Iff.rfl
    exact forall_congr' fun j => forall_congr' fun n' => forall_congr' fun hj => (hspans hi hj).symm
  match v with
  | some (.blocked n) =>
    refine iff_of_false Bool.false_ne_true ?_
    rintro (⟨i, n', hi, hspans⟩ | ⟨-, hnone⟩)
    · exact Crowd.not_spans_concat log i k (hspans k n hself)
    · exact hnone k n hself
  | some (.suspicious n) =>
    refine iff_of_true rfl (.inl ⟨k, n, hself, fun j n' hj => ?_⟩)
    rw [hverdict] at hj
    split at hj
    · cases hj
    · exact Crowd.spans_concat_self (hfirst n rfl j n' hj)
  | some (.counted n) => exact hflag.trans (hsame nofun nofun)
  | some .ignored => exact hflag.trans (hsame nofun nofun)
  | none => exact hflag.trans (hsame nofun nofun)

/-! ## What the calls, the log and the store have in common -/

variable {b : BlockList} {β : Type}

/-- What there is to say of the call with a number. -/
def ofCall (f : Progress b → Option β) (calls : List (Progress b)) (i : Nat) : Option β := calls[i]?.bind f

theorem ofCall_of_getElem? {calls : List (Progress b)} {k : Nat} {pr : Progress b} (hk : calls[k]? = some pr)
    (f : Progress b → Option β) : ofCall f calls k = f pr := by
  rw [ofCall, hk, Option.bind_some]

theorem ofCall_set {calls : List (Progress b)} {k : Nat} {pr : Progress b} (hk : calls[k]? = some pr)
    (pr' : Progress b) (f : Progress b → Option β) (i : Nat) :
    ofCall f (calls.set k pr') i = if i = k then f pr' else ofCall f calls i := by
  obtain ⟨hlt, -⟩ := List.getElem?_eq_some_iff.1 hk
  unfold ofCall
  by_cases hi : i = k
  · rw [hi, List.getElem?_set_self hlt, if_pos rfl, Option.bind_some]
  · rw [List.getElem?_set_ne (Ne.symm hi), if_neg hi]

/-- Who had a turn has a count, none above the counter, and whoever had a greater one came later. -/
structure Ranks (address : String) (calls : List (Progress b)) (log : List Nat) (m : Memory) (now : Nat) : Prop where
  heard : ∀ i, i ∈ log ↔ ∃ n, ofCall Progress.count? calls i = some n
  latest : ∀ i n, ofCall Progress.count? calls i = some n → n ≤ counter address m now
  rising : ∀ i j n k, ofCall Progress.count? calls i = some n → ofCall Progress.count? calls j = some k → n < k →
    log.idxOf i < log.idxOf j

/-- The log tells whether there is a flag, and the calls whether there is a block. -/
structure Annals (address : String) (flagged blocked : Prop) (calls : List (Progress b)) (log : List Nat) (m : Memory)
    (now : Nat) : Prop where
  available : m.available = true
  ranks : Ranks address calls log m now
  flag : (m.live? now (suspiciousKey address)).isSome = true ↔ FlagLeft flagged log (ofCall Progress.verdict? calls)
  block : (m.live? now (blockedKey address)).isSome = true ↔ blocked ∨ ∃ pr ∈ calls, pr.hasBlocked = true

variable {address : String} {flagged blocked : Prop} {calls : List (Progress b)} {log : List Nat} {m m' : Memory}
  {now later k : Nat} {pr pr' : Progress b}

/-- A call that counts comes after all that have counted before, and its count is greater than theirs. -/
theorem Ranks.advance (h : Ranks address calls log m now) (hk : calls[k]? = some pr)
    (ha : pr.Advance address now m m' pr') : Ranks address (calls.set k pr') (log ++ [k]) m' now := by
  have hself := ofCall_of_getElem? hk Progress.count?
  have hset := ofCall_set hk pr' Progress.count?
  rcases ha.count_cases with ⟨hfresh, hcount, hcounter⟩ | ⟨⟨n, hn, hn'⟩, hcounter⟩
  · have hnew : k ∉ log := by
      rw [h.heard, hself, hfresh]
      rintro ⟨n, hn⟩
      cases hn
    have hcases {i n : Nat} (hi : ofCall Progress.count? (calls.set k pr') i = some n) :
        (i = k ∧ n = counter address m now + 1) ∨ ofCall Progress.count? calls i = some n := by
      rw [hset] at hi
      split at hi
      · exact .inl ⟨‹_›, Option.some.inj (hi.symm.trans hcount)⟩
      · exact .inr hi
    refine ⟨fun i => ?_, fun i n hi => ?_, fun i j n n' hi hj hlt => ?_⟩
    · rw [List.mem_append, List.mem_singleton, hset, h.heard]
      split
      · exact iff_of_true (.inr ‹_›) ⟨_, hcount⟩
      · exact or_iff_left ‹_›
    · rw [hcounter]
      rcases hcases hi with ⟨-, rfl⟩ | hi
      · exact Nat.le_refl _
      · exact (h.latest i n hi).trans (Nat.le_succ _)
    · rcases hcases hj with ⟨rfl, rfl⟩ | hj
      · rcases hcases hi with ⟨-, rfl⟩ | hi
        · exact absurd hlt (Nat.lt_irrefl _)
        · exact Crowd.idxOf_concat_lt_of_notMem ((h.heard i).2 ⟨n, hi⟩) hnew
      · rcases hcases hi with ⟨-, rfl⟩ | hi
        · exact absurd (h.latest j n' hj) (by omega)
        · exact Crowd.idxOf_lt_concat (h.rising i j n n' hi hj hlt) k
  · have hsame (i : Nat) : ofCall Progress.count? (calls.set k pr') i = ofCall Progress.count? calls i := by
      rw [hset]
      split
      · rename_i hi
        rw [hi, hself, hn, hn']
      · rfl
    refine ⟨fun i => ?_, fun i n hi => ?_, fun i j n n' hi hj hlt => ?_⟩
    · rw [List.mem_append, List.mem_singleton, hsame, h.heard]
      refine or_iff_left_of_imp ?_
      rintro rfl
      exact ⟨n, hself.trans hn⟩
    · rw [hcounter]
      exact h.latest i n (hsame i ▸ hi)
    · exact Crowd.idxOf_lt_concat (h.rising i j n n' (hsame i ▸ hi) (hsame j ▸ hj) hlt) k

/-- What a command of a call preserves. -/
theorem Annals.advance (h : Annals address flagged blocked calls log m now) (hk : calls[k]? = some pr)
    (ha : pr.Advance address now m m' pr') :
    Annals address flagged blocked (calls.set k pr') (log ++ [k]) m' now where
  available := ha.available.trans h.available
  ranks := h.ranks.advance hk ha
  flag := by
    rw [ha.live?_suspiciousKey]
    refine flagLeft_concat_iff ?_ (ofCall_set hk pr' Progress.verdict?) ?_ h.flag
    · exact (ofCall_of_getElem? hk _).trans ha.verdict?_eq_none
    -- who flags has counted less than who blocks, and so has counted before
    · intro n hv j n' hj
      obtain ⟨n, hn, hgraded⟩ := ha.graded_of_verdict? hv
      obtain ⟨⟨hfew, -⟩, -⟩ := graded_eq_suspicious_iff.1 hgraded
      obtain ⟨prj, hprj, hvj⟩ := Option.bind_eq_some_iff.1 hj
      obtain ⟨n', hn', hgraded'⟩ := Progress.graded_of_verdict? hvj
      obtain ⟨hmany, -⟩ := graded_eq_blocked_iff.1 hgraded'
      exact h.ranks.rising k j n n' ((ofCall_of_getElem? hk _).trans hn) ((ofCall_of_getElem? hprj _).trans hn')
        (hfew.trans_le hmany)
  block := by
    obtain ⟨hlt, hget⟩ := List.getElem?_eq_some_iff.1 hk
    have hbefore := List.getElem_cons_eraseIdx_perm hlt
    have hafter := List.set_perm_cons_eraseIdx hlt pr'
    have hkept := ha.hasBlocked_of_hasBlocked
    rw [hget] at hbefore
    rw [ha.live?_blockedKey, Bool.or_eq_true, h.block]
    simp only [hafter.mem_iff, ← hbefore.mem_iff, List.mem_cons, exists_eq_or_imp]
    cases hb : pr.hasBlocked with
    | true => simp [hkept hb]
    | false =>
      simp only [Bool.false_eq_true, false_or, Bool.not_false, Bool.and_true]
      rw [or_assoc, @or_comm _ (pr'.hasBlocked = true)]

theorem annals_fresh (hm : m.available = true) (start : Nat) (hfresh : ∀ pr ∈ calls, pr = .fresh) :
    Annals address ((m.live? start (suspiciousKey address)).isSome = true)
      ((m.live? start (blockedKey address)).isSome = true) calls [] m start := by
  have hnone {β : Type} (f : Progress b → Option β) (hf : f .fresh = none) (i : Nat) : ofCall f calls i = none := by
    rw [ofCall, Option.bind_eq_none_iff]
    intro pr hpr
    rw [hfresh pr (List.mem_of_getElem? hpr), hf]
  have hcount := hnone Progress.count? rfl
  have hverdict := hnone Progress.verdict? rfl
  refine ⟨hm, ⟨fun i => ?_, fun i n hi => ?_, fun i j n k hi => ?_⟩, ?_, ?_⟩
  · simp [hcount]
  · rw [hcount] at hi; cases hi
  · rw [hcount] at hi; cases hi
  · simp [FlagLeft, hverdict]
  · refine (or_iff_left ?_).symm
    rintro ⟨pr, hpr, hb⟩
    rw [hfresh pr hpr] at hb
    cases hb

theorem Annals.of_live (h : Annals address flagged blocked calls log m now) (hm : m'.available = true)
    (hlive : ∀ key, KeyOf address key → m'.live? later key = m.live? now key) :
    Annals address flagged blocked calls log m' later where
  available := hm
  ranks := by
    refine ⟨h.ranks.heard, fun i n hi => ?_, h.ranks.rising⟩
    rw [counter, hlive _ (keyOf_violationKey address)]
    exact h.ranks.latest i n hi
  flag := by rw [hlive _ (keyOf_suspiciousKey address)]; exact h.flag
  block := by rw [hlive _ (keyOf_blockedKey address)]; exact h.block

/-! ## Any course -/

/-- Calls on the way, each with its mark, and what they have left to do. -/
structure Chronicle (b : BlockList) (address : String) (flagged blocked : Prop)
    (x : Crowd (Except StoreFault ViolationOutcome)) (log : List Nat) (calls : List (Progress b × String)) : Prop where
  plans : x.plans = calls.map fun call => call.1.plan address call.2
  annals : Annals address flagged blocked (calls.map (·.1)) log x.store x.now

theorem exists_chronicle (hw : b.isWatched address = true) {m : Memory} (hm : m.available = true) {start : Nat}
    {marks : List String} {log : List Nat} {x : Crowd (Except StoreFault ViolationOutcome)}
    (h : Crowd.Recorded (KeyOf address) ⟨marks.map fun mark => (b.recordViolation mark address).run, m, start⟩ log x) :
    ∃ calls, Chronicle b address ((m.live? start (suspiciousKey address)).isSome = true)
      ((m.live? start (blockedKey address)).isSome = true) x log calls := by
  induction h with
  | refl =>
    refine ⟨marks.map fun mark => (.fresh, mark), by rw [List.map_map]; rfl, annals_fresh hm start ?_⟩
    simp
  | wait _ hlater hkeys ih =>
    obtain ⟨calls, hplans, hannals⟩ := ih
    exact ⟨calls, hplans, hannals.of_live hannals.available hkeys⟩
  | elsewhere _ hagree ih =>
    obtain ⟨calls, hplans, hannals⟩ := ih
    exact ⟨calls, hplans, hannals.of_live (hagree.available ▸ hannals.available) fun key hk => (hagree.live? _ hk).symm⟩
  | turn _ i hturn ih =>
    obtain ⟨calls, hplans, hannals⟩ := ih
    obtain ⟨pr, pr', mark, hcall, hadvance, hnow, hplans'⟩ := advance_of_turn hw hannals.available hplans hturn
    have hk : (calls.map (·.1))[i]? = some pr := by rw [List.getElem?_map, hcall]; rfl
    refine ⟨calls.set i (pr', mark), hplans', ?_⟩
    rw [List.map_set, hnow]
    exact hannals.advance hk hadvance

/-! ## Flagged or not -/

variable {x : Crowd (Except StoreFault ViolationOutcome)} {started : List (Progress b × String)}
  {outcomes : List (Except StoreFault ViolationOutcome)}

/-- Calls that are over, one by one. -/
theorem Chronicle.over_cases (h : Chronicle b address flagged blocked x log started)
    (hdone : x.plans = outcomes.map .done) (i : Nat) :
    ((started.map (·.1))[i]? = none ∧ outcomes[i]? = none) ∨ ∃ (pr : Progress b) (mark : String) (outcome : _),
      (started.map (·.1))[i]? = some pr ∧ outcomes[i]? = some outcome ∧ pr.plan address mark = .done outcome := by
  have hi := congrArg (·[i]?) (h.plans.symm.trans hdone)
  simp only [List.getElem?_map] at hi ⊢
  cases hcall : started[i]? with
  | none =>
    rw [hcall, Option.map_none, eq_comm, Option.map_eq_none_iff] at hi
    exact .inl ⟨rfl, hi⟩
  | some call =>
    rw [hcall, Option.map_some, eq_comm, Option.map_eq_some_iff] at hi
    obtain ⟨outcome, houtcome, hplan⟩ := hi
    exact .inr ⟨call.1, call.2, outcome, rfl, houtcome, hplan.symm⟩

theorem Chronicle.verdict_iff (h : Chronicle b address flagged blocked x log started) (hw : b.isWatched address = true)
    (hdone : x.plans = outcomes.map .done) (i : Nat) {o : ViolationOutcome} (ho : ∀ n, o ≠ .counted n) :
    ofCall Progress.verdict? (started.map (·.1)) i = some o ↔ outcomes[i]? = some (.ok o) := by
  rcases h.over_cases hdone i with ⟨hnone, houtcome⟩ | ⟨pr, mark, outcome, hpr, houtcome, hplan⟩
  · rw [ofCall, hnone, houtcome]
    exact iff_of_false nofun nofun
  · rw [ofCall_of_getElem? hpr, houtcome, Option.some.injEq]
    exact (Progress.verdict?_of_done hw hplan ho).symm

theorem Chronicle.hasBlocked_iff (h : Chronicle b address flagged blocked x log started)
    (hw : b.isWatched address = true) (hdone : x.plans = outcomes.map .done) :
    (∃ pr ∈ started.map (·.1), pr.hasBlocked = true) ↔ ∃ i n : Nat, outcomes[i]? = some (.ok (.blocked n)) := by
  have hone (i : Nat) : (∃ pr : Progress b, (started.map (·.1))[i]? = some pr ∧ pr.hasBlocked = true) ↔
      ∃ n, outcomes[i]? = some (.ok (.blocked n)) := by
    rcases h.over_cases hdone i with ⟨hnone, houtcome⟩ | ⟨pr, mark, outcome, hpr, houtcome, hplan⟩
    · simp [hnone, houtcome]
    · simp [hpr, houtcome, Progress.hasBlocked_iff_of_done hw hplan]
  simp only [← hone, List.mem_iff_getElem?]
  constructor
  · rintro ⟨pr, ⟨i, hi⟩, hb⟩
    exact ⟨i, pr, hi, hb⟩
  · rintro ⟨i, pr, hi, hb⟩
    exact ⟨pr, ⟨i, hi⟩, hb⟩

/-- Violations of a watched address that are recorded at the same time, each command at once and nothing about the
address expiring, whatever the store holds before: once all calls are over, the address is flagged exactly if a call
that flags it began before and ended after every call that blocks it, or if it was flagged and no call blocks it; and
it is blocked exactly if a call blocks it or it was blocked before. -/
theorem flagged_iff_spans (hw : b.isWatched address = true) (hm : m.available = true) {start : Nat}
    (marks : List String) (hcourse : Crowd.Recorded (KeyOf address)
      ⟨marks.map fun mark => (b.recordViolation mark address).run, m, start⟩ log x)
    (hdone : x.plans = outcomes.map .done) :
    (((isSuspicious address).run.attempt (serve x.now) x.store).1 = some (.ok true) ↔
      (∃ i n : Nat, outcomes[i]? = some (.ok (.suspicious n)) ∧
        ∀ j n' : Nat, outcomes[j]? = some (.ok (.blocked n')) → Spans log i j) ∨
      ((isSuspicious address).run.attempt (serve start) m).1 = some (.ok true) ∧
        ∀ j n' : Nat, outcomes[j]? ≠ some (.ok (.blocked n'))) ∧
    ((∃ left, ((b.check address).attempt (serve x.now) x.store).1 = some (.blocked left)) ↔
      (∃ j n' : Nat, outcomes[j]? = some (.ok (.blocked n'))) ∨
        ∃ left, ((b.check address).attempt (serve start) m).1 = some (.blocked left)) := by
  obtain ⟨calls, hcalls⟩ := exists_chronicle hw hm hcourse
  have hx := hcalls.annals.available
  have hsuspicious (i n : Nat) := hcalls.verdict_iff hw hdone i (o := .suspicious n) nofun
  have hblocked (i n : Nat) := hcalls.verdict_iff hw hdone i (o := .blocked n) nofun
  constructor
  · rw [isSuspicious_eq_true_iff hw hx, isSuspicious_eq_true_iff hw hm, hcalls.annals.flag]
    unfold FlagLeft
    simp only [Ne, hsuspicious, hblocked]
  · rw [check_eq_blocked_iff hx, check_eq_blocked_iff hm, hcalls.annals.block]
    simp only [hw, true_and, hcalls.hasBlocked_iff hw hdone]
    exact or_comm

/-- The second call looks for a flag before the third one blocks, and puts one after it. -/
theorem flagged_iff_spans_overlap : ∃ x,
    Crowd.Recorded (KeyOf "203.0.113.7") (crowd strict ["a", "b", "c"] .empty) [0, 1, 1, 2, 2, 2, 1] x ∧
    x.plans.map Plan.result? = [some (.ok (.counted 1)), some (.ok (.suspicious 2)), some (.ok (.blocked 3))] ∧
    ((isSuspicious "203.0.113.7").run.attempt (serve x.now) x.store).1 = some (.ok true) ∧
    ∃ left, ((strict.check "203.0.113.7").attempt (serve x.now) x.store).1 = some (.blocked left) := by
  have h : ((crowd strict ["a", "b", "c"] .empty).play [0, 1, 1, 2, 2, 2, 1]).map (·.plans.map Plan.result?) =
      some [some (.ok (.counted 1)), some (.ok (.suspicious 2)), some (.ok (.blocked 3))] := by decide +kernel
  obtain ⟨x, hx, hresults⟩ := Option.map_eq_some_iff.1 h
  have hcourse := Crowd.recorded_of_play (KeyOf "203.0.113.7") hx
  have hdone : x.plans = [.ok (.counted 1), .ok (.suspicious 2), .ok (.blocked 3)].map .done :=
    Plan.eq_done_of_results hresults
  obtain ⟨hflag, hblock⟩ := flagged_iff_spans (b := strict) (by decide +kernel) rfl ["a", "b", "c"] hcourse hdone
  refine ⟨x, hcourse, hresults, hflag.2 (.inl ⟨1, 2, rfl, fun j n hj => ?_⟩), hblock.2 (.inl ⟨2, 3, rfl⟩)⟩
  match j with
  | 0 => cases hj
  | 1 => cases hj
  | 2 => decide
  | j + 3 => cases hj

/-- All calls are over, the address is blocked, and it is flagged. -/
theorem overlap_flags_blocked : ∃ x,
    strict.isWatched "203.0.113.7" = true ∧
    Crowd.Course (KeyOf "203.0.113.7") (crowd strict ["a", "b", "c"] .empty) x ∧
    x.plans.map Plan.result? = [some (.ok (.counted 1)), some (.ok (.suspicious 2)), some (.ok (.blocked 3))] ∧
    (∃ left, ((strict.check "203.0.113.7").attempt (serve x.now) x.store).1 = some (.blocked left)) ∧
    ((isSuspicious "203.0.113.7").run.attempt (serve x.now) x.store).1 = some (.ok true) := by
  have h : ((crowd strict ["a", "b", "c"] .empty).play [0, 1, 1, 2, 2, 2, 1]).map (fun x => (x.plans.map Plan.result?,
        ((strict.check "203.0.113.7").attempt (serve x.now) x.store).1,
        ((isSuspicious "203.0.113.7").run.attempt (serve x.now) x.store).1)) =
      some ([some (.ok (.counted 1)), some (.ok (.suspicious 2)), some (.ok (.blocked 3))],
        some (.blocked 3600000000000), some (.ok true)) := by decide +kernel
  obtain ⟨x, hx, hresult⟩ := Option.map_eq_some_iff.1 h
  obtain ⟨hresults, hblocked, hflagged⟩ := Prod.mk.inj hresult |>.imp_right Prod.mk.inj
  exact ⟨x, by decide +kernel, Crowd.course_of_play _ hx, hresults, ⟨_, hblocked⟩, hflagged⟩

end Tollgate.BlockList
