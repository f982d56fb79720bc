/-
Runs of a block list over a store in memory that answers. What the store holds of an address is what its history
says: whether it was blocked not too long ago, and the window that its violations are in. So every answer is told by
the calls and answers before it, and by those about the same address alone. Where the end of a lifetime cannot be told
there is no answer, but a violation has been counted by then.
-/
import Tollgate.Bytes.Number
import Tollgate.Proofs.Guard.Stored
import Tollgate.Proofs.Guard.Window

namespace Tollgate.BlockList

open Memory (serve)

/-! ## Runs -/

/-- The answer that a reply stands for. -/
def Answer.ofReply {α : Type} (answer : α → Answer) : Except StoreFault α → Answer
  | .ok a => answer a
  | .error f => .fault f

/-- What an operation asks of the store, and its answer. -/
def Operation.plan (b : BlockList) (address : String) : Operation → Plan Answer
  | recordViolation mark => do return .ofReply .outcome (← (b.recordViolation mark address).run)
  | check => do return .decision (← b.check address)
  | block reason => do return .ofReply .flag (← (b.block address reason).run)
  | markSuspicious mark => do return .ofReply (fun _ => .marked) (← (b.markSuspicious mark address).run)
  | unblock => do return .ofReply .flag (← (BlockList.unblock address).run)
  | isSuspicious => do return .ofReply .flag (← (BlockList.isSuspicious address).run)
  | violationCount => do return .ofReply .count (← (BlockList.violationCount address).run)
  | remaining => do return .ofReply .left (← (BlockList.remaining address).run)

/-- A call is carried out at its instant. -/
def Call.run (b : BlockList) (c : Call) (m : Memory) : Option Answer × Memory :=
  (c.operation.plan b c.address).attempt (serve c.time) m

def Call.event (b : BlockList) (c : Call) (m : Memory) : Event := ⟨c, (c.run b m).1⟩

/-- The events of calls one after another. -/
def journal (b : BlockList) : Memory → List Call → List Event
  | _, [] => []
  | m, c :: rest => c.event b m :: journal b (c.run b m).2 rest

@[simp] theorem Call.call_event (b : BlockList) (c : Call) (m : Memory) : (c.event b m).call = c := rfl

theorem map_call_journal (b : BlockList) (m : Memory) (calls : List Call) :
    (journal b m calls).map (·.call) = calls := by
  induction calls generalizing m with
  | nil => rfl
  | cons c rest ih => simp only [journal, List.map_cons, Call.call_event, ih]

theorem Operation.within_plan (b : BlockList) (address : String) (o : Operation) :
    (o.plan b address).Within (KeyOf address) := by
  have hflag (key : String) (h : key = suspiciousKey address) : KeyOf address key := .inr (.inr h)
  cases o with
  | recordViolation mark => exact (within_recordViolation b mark address).bind fun _ => trivial
  | check => exact (within_check b address).bind fun _ => trivial
  | block reason => exact ((within_block b address reason).mono fun _ => BlockKeyOf.keyOf).bind fun _ => trivial
  | markSuspicious mark => exact ((within_markSuspicious b mark address).mono hflag).bind fun _ => trivial
  | unblock => exact (within_unblock address).bind fun _ => trivial
  | isSuspicious => exact ((within_isSuspicious address).mono hflag).bind fun _ => trivial
  | violationCount => exact (within_violationCount address).bind fun _ => trivial
  | remaining => exact (within_remaining address).bind fun _ => trivial

/-- Whether an operation only looks something up. -/
def Operation.looks : Operation → Bool
  | check | isSuspicious | violationCount | remaining => true
  | _ => false

theorem Operation.sends_plan {o : Operation} (h : o.looks = true) (b : BlockList) (address : String) :
    (o.plan b address).Sends (·.isLookup = true) := by
  cases o with
  | check => exact (sends_check b address).bind fun _ => trivial
  | isSuspicious => exact (sends_isSuspicious address).bind fun _ => trivial
  | violationCount => exact (sends_violationCount address).bind fun _ => trivial
  | remaining => exact (sends_remaining address).bind fun _ => trivial
  | _ => cases h

/-- An operation whose lifetimes all have ends that can be told begins no other. -/
theorem Operation.told_plan {b : BlockList} {now : Nat} (h : b.Tells now) (address : String) (o : Operation) :
    (o.plan b address).Sends (·.Told now) := by
  have hlook (o : Operation) (ho : o.looks = true) : (o.plan b address).Sends (·.Told now) :=
    (Operation.sends_plan ho b address).mono fun _ => Command.told_of_isLookup now
  cases o with
  | recordViolation mark => exact (h.sends_recordViolation mark address).bind fun _ => trivial
  | block reason => exact (h.sends_block address reason).bind fun _ => trivial
  | markSuspicious mark => exact (h.sends_markSuspicious mark address).bind fun _ => trivial
  | unblock => exact (sends_unblock address now).bind fun _ => trivial
  | check => exact hlook .check rfl
  | isSuspicious => exact hlook .isSuspicious rfl
  | violationCount => exact hlook .violationCount rfl
  | remaining => exact hlook .remaining rfl

/-! ## Other addresses -/

/-- A call leaves the keys of all other addresses as they are. -/
theorem Call.entry?_run (b : BlockList) (c : Call) (m : Memory) {address key : String} (hk : KeyOf address key)
    (hne : c.address ≠ address) : Memory.entry? (c.run b m).2 key = m.entry? key :=
  Memory.entry?_attempt (c.operation.within_plan b c.address) (fun h => hne (h.unique hk)) m

/-- What is answered about an address is answered in the same way if nothing is asked about others. -/
theorem journal_filter (b : BlockList) (address : String) (calls : List Call) {m m' : Memory}
    (h : Memory.Agree (KeyOf address) m m') :
    (journal b m calls).filter (·.call.address = address) = journal b m' (calls.filter (·.address = address)) := by
  induction calls generalizing m m' with
  | nil => rfl
  | cons c rest ih =>
    by_cases hc : c.address = address
    · have hwithin : (c.operation.plan b c.address).Within (KeyOf address) := hc ▸ c.operation.within_plan b c.address
      obtain ⟨hanswer, hagree⟩ : (c.run b m).1 = (c.run b m').1 ∧
        Memory.Agree (KeyOf address) (c.run b m).2 (c.run b m').2 := h.attempt hwithin
      have hevent : c.event b m = c.event b m' := congrArg (Event.mk c) hanswer
      rw [List.filter_cons_of_pos (by simp [hc]), journal, journal, List.filter_cons_of_pos (by simp [hc]), hevent,
        ih hagree]
    · rw [List.filter_cons_of_neg (by simp [hc]), journal, List.filter_cons_of_neg (by simp [hc])]
      refine ih ⟨?_, fun key hk => ?_⟩
      · rw [← h.available]; exact Memory.available_attempt _ m
      · rw [c.entry?_run b m hk hc, h.entry key hk]

/-! ## What one call leaves -/

variable {b : BlockList} {c : Call} {m : Memory}

theorem Call.available_run (b : BlockList) (c : Call) (m : Memory) : (c.run b m).2.available = m.available :=
  Memory.available_attempt _ m

theorem Call.run_of_looks (h : c.operation.looks = true) (b : BlockList) (m : Memory) :
    ∃ answer, c.run b m = (some answer, m) := Memory.attempt_of_lookups (Operation.sends_plan h b c.address) c.time m

theorem not_isBlank_of_isWatched {address : String} (hw : b.isWatched address = true) : isBlank address = false := by
  have := not_isExempt_of_isWatched hw
  unfold isExempt at this
  exact (Bool.or_eq_false_iff.1 this).1

/-- A plan and then an answer. -/
theorem attempt_answered {α : Type} (p : Plan α) (answer : α → Answer) (now : Nat) (m : Memory) :
    (do return answer (← p) : Plan Answer).attempt (serve now) m =
      ((p.attempt (serve now) m).1.map answer, (p.attempt (serve now) m).2) := by
  rcases h : p.attempt (serve now) m with ⟨_ | a, m'⟩
  · exact Plan.attempt_bind_of_none h
  · exact Plan.attempt_bind_of_some h

theorem Event.none_of_looks {e : Event} (address : String) (h : e.call.operation.looks = true) :
    e.violates address = false ∧ e.unblocks address = false ∧ e.blocks address = false := by
  unfold Event.violates Event.unblocks Event.blocks
  cases ho : e.call.operation <;> simp [ho, Operation.looks] at h ⊢

theorem Event.blocks_recordViolation_iff {time : Nat} {address mark : String}
    {reply : Option (Except StoreFault ViolationOutcome)} :
    (Event.mk ⟨time, address, .recordViolation mark⟩ (reply.map (.ofReply .outcome))).blocks address = true ↔
      ∃ k, reply = some (.ok (.blocked k)) := by
  rcases reply with _ | _ | o
  · simp [blocks]
  · simp [blocks, Answer.ofReply]
  · cases o <;> simp [blocks, Answer.ofReply]

theorem Event.blocks_block_iff {time : Nat} {address reason : String} {reply : Option (Except StoreFault Bool)} :
    (Event.mk ⟨time, address, .block reason⟩ (reply.map (.ofReply .flag))).blocks address = true ↔
      reply = some (.ok true) := by
  rcases reply with _ | _ | done
  · simp [blocks]
  · simp [blocks, Answer.ofReply]
  · cases done <;> simp [blocks, Answer.ofReply]

/-- The entry for a block after a call about a watched address. -/
theorem Call.blocked_run (hm : m.available = true) (hw : b.isWatched c.address = true) :
    Memory.entry? (c.run b m).2 (blockedKey c.address) =
      if (c.event b m).blocks c.address then some ⟨1, some (c.time + b.blockDuration)⟩
      else if (c.event b m).unblocks c.address then none
      else m.entry? (blockedKey c.address) := by
  by_cases hlook : c.operation.looks = true
  · obtain ⟨-, hu, hb⟩ := Event.none_of_looks (e := c.event b m) c.address hlook
    obtain ⟨answer, hrun⟩ := Call.run_of_looks hlook b m
    rw [hb, hu, hrun]
    rfl
  obtain ⟨time, address, operation⟩ := c
  change b.isWatched address = true at hw
  have he := not_isExempt_of_isWatched hw
  cases operation with
  | recordViolation mark =>
    have hblocks : ((b.counted address m time).1.any (b.violationThreshold ≤ ·) ∧ time + b.blockDuration < clockEnd) ↔
        (Call.event b ⟨time, address, .recordViolation mark⟩ m).blocks address = true := by
      rw [Call.event, Call.run, Operation.plan, attempt_answered, Event.blocks_recordViolation_iff, Option.any_eq_true]
      simp only [recordViolation_eq_blocked_iff hm hw, decide_eq_true_eq, ← exists_and_right, and_assoc]
    simp only [Call.run, Operation.plan, attempt_answered, entry?_blockedKey_attempt_recordViolation hm hw]
    rw [if_congr hblocks rfl rfl]
    simp [Event.unblocks]
  | block reason =>
    have hblocks : time + b.blockDuration < clockEnd ↔
        (Call.event b ⟨time, address, .block reason⟩ m).blocks address = true := by
      rw [Call.event, Call.run, Operation.plan, attempt_answered, Event.blocks_block_iff, block_eq_true_iff hm he]
    simp only [Call.run, Operation.plan, attempt_answered, entry?_blockedKey_attempt_block hm he]
    rw [if_congr hblocks rfl rfl]
    simp [Event.unblocks]
  | markSuspicious mark =>
    have hkept : Memory.entry? ((b.markSuspicious mark address).run.attempt (serve time) m).2 (blockedKey address) = _ :=
      Memory.entry?_attempt (within_markSuspicious b mark address) (blockedKey_ne_suspiciousKey address address) m
    simp only [Call.run, Operation.plan, attempt_answered, hkept]
    simp [Event.blocks, Event.unblocks]
  | unblock =>
    have ha := not_isBlank_of_isWatched hw
    simp [Call.run, Operation.plan, attempt_answered, entry?_attempt_unblock hm ha (keyOf_blockedKey address),
      Event.blocks, Event.unblocks]
  | _ => exact absurd rfl hlook

/-- The entry for violations after a call about a watched address. -/
theorem Call.violations_run (hm : m.available = true) (hw : b.isWatched c.address = true) :
    Memory.entry? (c.run b m).2 (violationKey c.address) =
      if (c.event b m).violates c.address then Memory.entry? (b.counted c.address m c.time).2 (violationKey c.address)
      else if (c.event b m).unblocks c.address then none
      else m.entry? (violationKey c.address) := by
  by_cases hlook : c.operation.looks = true
  · obtain ⟨hv, hu, -⟩ := Event.none_of_looks (e := c.event b m) c.address hlook
    obtain ⟨answer, hrun⟩ := Call.run_of_looks hlook b m
    rw [hv, hu, hrun]
    rfl
  obtain ⟨time, address, operation⟩ := c
  change b.isWatched address = true at hw
  cases operation with
  | recordViolation mark =>
    simp only [Call.run, Operation.plan, attempt_answered, entry?_violationKey_attempt_recordViolation hm hw]
    simp [Event.violates]
  | block reason =>
    have hkept : Memory.entry? ((b.block address reason).run.attempt (serve time) m).2 (violationKey address) = _ :=
      Memory.entry?_attempt (within_block b address reason) (not_blockKeyOf_violationKey address address) m
    simp only [Call.run, Operation.plan, attempt_answered, hkept]
    simp [Event.violates, Event.unblocks]
  | markSuspicious mark =>
    have hkept : Memory.entry? ((b.markSuspicious mark address).run.attempt (serve time) m).2 (violationKey address) = _ :=
      Memory.entry?_attempt (within_markSuspicious b mark address) (violationKey_ne_suspiciousKey address address) m
    simp only [Call.run, Operation.plan, attempt_answered, hkept]
    simp [Event.violates, Event.unblocks]
  | unblock =>
    have ha := not_isBlank_of_isWatched hw
    simp [Call.run, Operation.plan, attempt_answered, entry?_attempt_unblock hm ha (keyOf_violationKey address),
      Event.violates, Event.unblocks]
  | _ => exact absurd rfl hlook

/-! ## What the store holds of a history -/

/-- The entry of a window, with its end if that can be told. -/
def Window.entry (b : BlockList) (w : Window) : Entry := ⟨w.count, ending? w.opened b.violationWindow⟩

/-- A store that holds of every watched address what its history says. -/
structure Reflects (b : BlockList) (history : List Event) (m : Memory) : Prop where
  available : m.available = true
  blocked : ∀ address, b.isWatched address = true → ∀ now, (∀ e ∈ history, e.call.time ≤ now) →
    ((m.live? now (blockedKey address)).isSome = true ↔ b.BlockedSince address history now)
  violations : ∀ address, b.isWatched address = true →
    m.entry? (violationKey address) = (b.window? address history).map (Window.entry b)

theorem reflects_empty (b : BlockList) : Reflects b [] .empty where
  available := rfl
  blocked := by
    intro address _ now _
    constructor
    · intro h; cases h
    · intro h; exact absurd h (b.not_blockedSince_nil address now)
  violations := fun _ _ => rfl

theorem one_le_of_window? {address : String} {history : List Event} {w : Window}
    (h : b.window? address history = some w) : 1 ≤ w.count := by
  obtain ⟨before, opening, since, -, -, -, -, hn⟩ := window?_eq_some_iff.1 h
  omega

/-- Until the clock ends, the entry of a window is live as long as the window lasts. -/
theorem Window.isLive_entry (b : BlockList) (w : Window) {now : Nat} (h : now < clockEnd) :
    (w.entry b).isLive now = decide (now < w.opened + b.violationWindow) := by
  unfold entry ending? Entry.isLive
  split
  · rfl
  · exact (decide_eq_true (by omega)).symm

/-- A counter that holds the window before a violation holds the one after it, and its count is told unless it begins a
window whose end cannot be told. -/
theorem counted_of_window {address : String} {history : List Event} {e : Event} (hv : e.violates address = true)
    (hclock : e.call.time < clockEnd)
    (hm : m.entry? (violationKey address) = (b.window? address history).map (Window.entry b)) :
    ∃ w, b.window? address (history ++ [e]) = some w ∧
      (∀ n, (b.counted address m e.call.time).1 = some n ↔
        n = w.count ∧ (n = 1 → e.call.time + b.violationWindow < clockEnd)) ∧
      Memory.entry? (b.counted address m e.call.time).2 (violationKey address) = some (w.entry b) := by
  have hlive : m.live? e.call.time (violationKey address) =
      ((b.window? address history).filter fun w => e.call.time < w.opened + b.violationWindow).map (Window.entry b) := by
    rw [Memory.live?, hm]
    simp only [Option.filter_map, Function.comp_def, Window.isLive_entry b _ hclock]
  unfold counted
  simp only [window?_concat, Memory.increment_fst_eq_some_iff, Memory.entry?_increment, hlive]
  cases hw : b.window? address history with
  | none => exact ⟨_, advance_of_over (w := none) hv nofun, fun _ => Iff.rfl, by simp [Memory.raisedEntry, Window.entry]⟩
  | some w =>
    have hpos := one_le_of_window? hw
    by_cases hlt : e.call.time < w.opened + b.violationWindow
    · refine ⟨_, advance_of_within hv hlt, ?_⟩
      rw [Option.filter_some, if_pos (decide_eq_true hlt)]
      exact ⟨fun _ => Iff.rfl, by simp [Memory.raisedEntry, Window.entry, Nat.ne_of_gt hpos]⟩
    · refine ⟨_, advance_of_over (w := some w) hv fun v he => by cases he; omega, ?_⟩
      rw [Option.filter_some, if_neg (mt of_decide_eq_true hlt)]
      exact ⟨fun _ => Iff.rfl, by simp [Memory.raisedEntry, Window.entry]⟩

/-- An event about another address is none of the three kinds that matter to an address. -/
theorem Event.other {address : String} {e : Event} (h : e.call.address ≠ address) :
    e.violates address = false ∧ e.unblocks address = false ∧ e.blocks address = false := by
  unfold Event.violates Event.unblocks Event.blocks
  simp [h]

/-- One call keeps what the store holds of blocks to the history. -/
theorem Reflects.blocked_step {history : List Event} (h : Reflects b history m) (c : Call)
    (htime : ∀ e ∈ history, e.call.time ≤ c.time) {address : String} (hw : b.isWatched address = true) {now : Nat}
    (hnow : ∀ e ∈ history ++ [c.event b m], e.call.time ≤ now) :
    ((c.run b m).2.live? now (blockedKey address)).isSome = true ↔
      b.BlockedSince address (history ++ [c.event b m]) now := by
  have hbefore := h.blocked address hw now fun e he => hnow e (List.mem_append_left _ he)
  rw [blockedSince_concat, ← hbefore]
  unfold Memory.live? at hbefore ⊢
  by_cases ha : c.address = address
  · subst ha
    rw [Call.blocked_run h.available hw]
    split
    · rename_i hb
      have hlive : ((some (⟨1, some (c.time + b.blockDuration)⟩ : Entry)).filter (·.isLive now)).isSome = true ↔
          now < c.time + b.blockDuration := by
        simp [Option.filter_some, Entry.isLive]
      rw [hlive]
      constructor
      · intro hlt; exact .inl ⟨hb, hlt⟩
      · -- a block that lasted before ends no later than this one
        rintro (⟨-, hlt⟩ | ⟨-, hlt⟩)
        · exact hlt
        · obtain ⟨before, x, after, rfl, -, -, hx⟩ := hbefore.1 hlt
          have := htime x (by simp)
          omega
    split
    · rename_i hb hu
      simp [hb, hu]
    · rename_i hb hu
      simp [hb, hu]
  · obtain ⟨-, hu, hb⟩ := Event.other (e := c.event b m) ha
    rw [c.entry?_run b m (keyOf_blockedKey address) ha, hu, hb]
    simp

/-- One call keeps what the store holds of violations to the history. -/
theorem Reflects.violations_step {history : List Event} (h : Reflects b history m) (c : Call)
    (hclock : c.time < clockEnd) {address : String} (hw : b.isWatched address = true) :
    Memory.entry? (c.run b m).2 (violationKey address) =
      (b.window? address (history ++ [c.event b m])).map (Window.entry b) := by
  have hbefore := h.violations address hw
  by_cases ha : c.address = address
  · subst ha
    rw [Call.violations_run h.available hw]
    split
    · rename_i hv
      obtain ⟨w, hw', -, hentry⟩ := counted_of_window hv hclock hbefore
      rw [hw']
      exact hentry
    split
    · rename_i hu
      rw [window?_concat, advance_of_unblocks hu]; rfl
    · rename_i hv hu
      rw [window?_concat, advance_of_other (Bool.eq_false_iff.2 hv) (Bool.eq_false_iff.2 hu), hbefore]
  · obtain ⟨hv, hu, -⟩ := Event.other (e := c.event b m) ha
    rw [c.entry?_run b m (keyOf_violationKey address) ha, window?_concat, advance_of_other hv hu, hbefore]

/-- One call keeps the store to the history. -/
theorem Reflects.step {history : List Event} (h : Reflects b history m) (c : Call)
    (hclock : c.time < clockEnd) (htime : ∀ e ∈ history, e.call.time ≤ c.time) :
    Reflects b (history ++ [c.event b m]) (c.run b m).2 where
  available := by rw [c.available_run, h.available]
  blocked := fun _ hw _ hnow => h.blocked_step c htime hw hnow
  violations := fun _ hw => h.violations_step c hclock hw

/-- Every event of a run is answered by a store that holds what the history before it says. -/
theorem Reflects.of_journal {history : List Event} (h : Reflects b history m) {calls : List Call}
    (hclock : ∀ c ∈ calls, c.time < clockEnd) (hsorted : calls.Pairwise (·.time ≤ ·.time))
    (htime : ∀ e ∈ history, ∀ c ∈ calls, e.call.time ≤ c.time) {earlier later : List Event} {e : Event}
    (hj : journal b m calls = earlier ++ e :: later) :
    ∃ m', Reflects b (history ++ earlier) m' ∧ (∀ x ∈ history ++ earlier, x.call.time ≤ e.call.time) ∧
      e.call.time < clockEnd ∧ e.answer = (e.call.run b m').1 := by
  induction calls generalizing history m earlier with
  | nil => cases earlier <;> cases hj
  | cons c rest ih =>
    obtain ⟨hfirst, hrest⟩ := List.pairwise_cons.1 hsorted
    obtain ⟨hc, hclock⟩ := List.forall_mem_cons.1 hclock
    rw [journal] at hj
    cases earlier with
    | nil =>
      cases hj
      exact ⟨m, by simpa using h, by simpa using fun x hx => htime x hx c List.mem_cons_self, hc, rfl⟩
    | cons x earlier =>
      obtain ⟨hx, hj⟩ := List.cons.inj hj
      have hstep := h.step c hc fun e he => htime e he c List.mem_cons_self
      rw [hx] at hstep
      have hcall : x.call = c := by rw [← hx]; rfl
      have htime' : ∀ e ∈ history ++ [x], ∀ d ∈ rest, e.call.time ≤ d.time := by
        intro e he d hd
        rcases List.mem_append.1 he with he | he
        · exact htime e he d (List.mem_cons_of_mem _ hd)
        · rw [List.mem_singleton.1 he, hcall]
          exact hfirst d hd
      obtain ⟨m', hm', htime'', hanswer⟩ := ih hstep hclock hrest htime' hj
      rw [List.append_assoc] at hm' htime''
      exact ⟨m', hm', htime'', hanswer⟩

/-! ## What is answered -/

theorem Call.check_run (hm : m.available = true) (ho : c.operation = .check) :
    (∃ left, (c.run b m).1 = some (.decision (.blocked left))) ↔
      b.isWatched c.address = true ∧ (m.live? c.time (blockedKey c.address)).isSome = true := by
  rw [← check_eq_blocked_iff hm]
  unfold Call.run
  rw [ho]
  simp only [Operation.plan, attempt_answered, Option.map_eq_some_iff, Answer.decision.injEq, exists_eq_right]

theorem Call.recordViolation_run (hm : m.available = true) (hw : b.isWatched c.address = true) {mark : String}
    (ho : c.operation = .recordViolation mark) {n : Nat} : (c.run b m).1 = some (.outcome (.blocked n)) ↔
      (b.counted c.address m c.time).1 = some n ∧ b.violationThreshold ≤ n ∧ c.time + b.blockDuration < clockEnd := by
  rw [← recordViolation_eq_blocked_iff hm hw mark]
  unfold Call.run
  rw [ho]
  simp only [Operation.plan, attempt_answered, Option.map_eq_some_iff]
  constructor
  · rintro ⟨_ | o, hreply, ho⟩ <;> cases ho
    exact hreply
  · exact fun h => ⟨_, h, rfl⟩

theorem Call.run_of_tells {b : BlockList} {c : Call} (h : b.Tells c.time) (m : Memory) :
    (c.run b m).1.isSome = true := by
  obtain ⟨answer, m', hrun⟩ := Memory.attempt_of_told (c.operation.told_plan h c.address) m
  rw [Call.run, hrun]
  rfl

/-- The answers of any run from an empty store, one for each call, by the history before them. An address is turned
away exactly if it is watched and was blocked, by itself or for its violations, less than the time of a block ago and
not unblocked since; a violation of a watched address blocks it, and says its number in the window, exactly if the
number reaches the threshold and the ends of the window, if it begins one, and of the block can be told; and nothing
that is asked about other addresses changes any answer about an address. Where all ends can be told every call is
answered. -/
theorem answers_exact (b : BlockList) {calls : List Call} (hsorted : calls.Pairwise (·.time ≤ ·.time))
    (hclock : ∀ c ∈ calls, c.time < clockEnd) :
    (journal b .empty calls).map (·.call) = calls ∧
    (∀ earlier e later, journal b .empty calls = earlier ++ e :: later →
      (b.Tells e.call.time → e.answer.isSome = true) ∧
      (e.call.operation = .check → ((∃ left, e.answer = some (.decision (.blocked left))) ↔
        b.enabled = true ∧ b.isWhitelisted e.call.address = false ∧ b.isExempt e.call.address = false ∧
          b.BlockedSince e.call.address earlier e.call.time)) ∧
      ∀ mark, e.call.operation = .recordViolation mark → b.isWatched e.call.address = true →
        ∀ n, e.answer = some (.outcome (.blocked n)) ↔ b.violationThreshold ≤ n ∧
          (∃ opened, b.InWindow e.call.address (earlier ++ [e]) opened n) ∧
          (n = 1 → e.call.time + b.violationWindow < clockEnd) ∧ e.call.time + b.blockDuration < clockEnd) ∧
    ∀ address, (journal b .empty calls).filter (·.call.address = address) =
      journal b .empty (calls.filter (·.address = address)) := by
  refine ⟨map_call_journal b _ calls, fun earlier e later hj => ?_,
    fun address => journal_filter b address calls (.refl _ _)⟩
  obtain ⟨m, hm, htime, hnow, hanswer⟩ := (reflects_empty b).of_journal hclock hsorted nofun hj
  rw [List.nil_append] at hm htime
  refine ⟨fun h => by rw [hanswer]; exact Call.run_of_tells h m, fun ho => ?_, fun mark ho hw n => ?_⟩
  · rw [hanswer, Call.check_run hm.available ho, isWatched_iff, and_assoc, and_assoc]
    refine and_congr_right fun he => and_congr_right fun hl => and_congr_right fun hx => ?_
    exact hm.blocked e.call.address (isWatched_iff.2 ⟨he, hl, hx⟩) e.call.time htime
  · have hv : e.violates e.call.address = true := by simp [Event.violates, ho]
    obtain ⟨w, hwindow, hcount, -⟩ := counted_of_window hv hnow (hm.violations _ hw)
    -- the window that a history ends in is one only
    have hin : (∃ opened, b.InWindow e.call.address (earlier ++ [e]) opened n) ↔ n = w.count := by
      simp only [← window?_eq_some_iff, hwindow, Option.some.injEq, eq_comm (a := w)]
      exact ⟨fun ⟨_, h⟩ => congrArg Window.count h, fun h => ⟨w.opened, by rw [h]⟩⟩
    rw [hanswer, Call.recordViolation_run hm.available hw ho, hcount, hin]
    constructor
    · rintro ⟨⟨hn, hopen⟩, ht, hblock⟩
      exact ⟨ht, hn, hopen, hblock⟩
    · rintro ⟨ht, hn, hopen, hblock⟩
      exact ⟨⟨hn, hopen⟩, ht, hblock⟩

/-- Thresholds that few violations reach. -/
def strict : BlockList := { default with violationThreshold := 3, suspiciousThreshold := 2 }

/-- Three violations in a row, and a look at what they led to. -/
def escalation : List Call :=
  [⟨0, "203.0.113.7", .recordViolation "a"⟩, ⟨1, "203.0.113.7", .recordViolation "b"⟩,
    ⟨2, "203.0.113.7", .recordViolation "c"⟩, ⟨3, "203.0.113.7", .check⟩]

/-- The violations as they were answered. -/
def escalated : List Event :=
  [⟨⟨0, "203.0.113.7", .recordViolation "a"⟩, some (.outcome (.counted 1))⟩,
    ⟨⟨1, "203.0.113.7", .recordViolation "b"⟩, some (.outcome (.suspicious 2))⟩,
    ⟨⟨2, "203.0.113.7", .recordViolation "c"⟩, some (.outcome (.blocked 3))⟩]

theorem journal_escalation : journal strict .empty escalation =
    escalated ++ [⟨⟨3, "203.0.113.7", .check⟩, some (.decision (.blocked 3599999999999))⟩] := by decide +kernel

theorem answers_exact_escalation : escalation.Pairwise (·.time ≤ ·.time) ∧ (∀ c ∈ escalation, c.time < clockEnd) ∧
    strict.BlockedSince "203.0.113.7" escalated 3 ∧ ∃ opened, strict.InWindow "203.0.113.7" escalated opened 3 := by
  have hsorted : escalation.Pairwise (·.time ≤ ·.time) := by decide
  have hclock : ∀ c ∈ escalation, c.time < clockEnd := by decide +kernel
  obtain ⟨-, hanswers, -⟩ := answers_exact strict hsorted hclock
  rw [journal_escalation] at hanswers
  refine ⟨hsorted, hclock, ?_, ?_⟩
  · exact ((hanswers escalated _ [] rfl).2.1 rfl |>.1 ⟨_, rfl⟩).2.2.2
  · exact (((hanswers (escalated.take 2) _ _ rfl).2.2 "c" rfl (by decide +kernel) 3).1 rfl).2.1

/-- One violation is enough, and the window for it is as long as a duration can be. -/
def endless : BlockList := { default with violationThreshold := 1, violationWindow := Duration.ofSeconds (2 ^ 64 - 1) }

/-- The first violation of a watched address reaches the threshold, and is not answered. -/
theorem endless_unanswered : endless.isWatched "203.0.113.7" = true ∧ endless.violationThreshold ≤ 1 ∧
    journal endless .empty [⟨0, "203.0.113.7", .recordViolation "a"⟩] =
      [⟨⟨0, "203.0.113.7", .recordViolation "a"⟩, none⟩] ∧
    endless.InWindow "203.0.113.7" [⟨⟨0, "203.0.113.7", .recordViolation "a"⟩, none⟩] 0 1 := by
  refine ⟨by decide +kernel, by decide, by decide +kernel, ?_⟩
  exact (Opens.afresh rfl forgotten_nil).inWindow

end Tollgate.BlockList
