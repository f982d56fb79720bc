/-
The block list over a store in memory that answers: what each operation says, and what it leaves under the keys of
blocks and of violations. No operation fails there, but those that begin a lifetime break down over an end that cannot
be told.
-/
import Tollgate.Proofs.Guard.BlockList
import Tollgate.Proofs.Store.Memory

namespace Tollgate

/-- Whether a command begins no lifetime, or one whose end can be told. -/
def Command.Told (now : Nat) : Command → Prop
  | increment _ window => now + window < clockEnd
  | put _ _ duration => now + duration < clockEnd
  | _ => True

theorem Command.told_of_isLookup {c : Command} (now : Nat) (h : c.isLookup = true) : c.Told now := by
  cases c <;> trivial

theorem Memory.serve_of_told {now : Nat} {c : Command} (h : c.Told now) (m : Memory) :
    ∃ reply m', serve now m c = (some reply, m') := by
  cases hm : m.available with
  | false => exact ⟨_, _, serve_of_unavailable hm c⟩
  | true =>
    cases c with
    | contains key => exact ⟨_, _, serve_contains hm key⟩
    | count key => exact ⟨_, _, serve_count hm key⟩
    | lifetime key => exact ⟨_, _, serve_lifetime hm key⟩
    | erase keys => exact ⟨_, _, serve_erase hm keys⟩
    | put key value lifetime => exact ⟨_, _, serve_put_of_lt hm key value h⟩
    | increment key window =>
      have hcount : (m.increment now key window).1 = some ((m.live? now key).elim 0 (·.count) + 1) :=
        increment_fst_eq_some_iff.2 ⟨rfl, fun _ => h⟩
      rw [serve_increment hm, hcount]
      exact ⟨_, _, rfl⟩

/-- A plan whose lifetimes all have ends that can be told comes to its end. -/
theorem Memory.attempt_of_told {α : Type} {now : Nat} {p : Plan α} (h : p.Sends (·.Told now)) (m : Memory) :
    ∃ a m', p.attempt (serve now) m = (some a, m') := by
  induction p generalizing m with
  | done a => exact ⟨a, m, rfl⟩
  | ask c next ih =>
    obtain ⟨reply, m', hreply⟩ := serve_of_told h.1 m
    rw [Plan.attempt_ask_of_some hreply]
    exact ih reply (h.2 reply) m'

namespace BlockList

open Memory (serve)

variable {b : BlockList} {address : String} {m : Memory} {now : Nat}

/-! ## Looking -/

/-- Looking is answered, and changes nothing. -/
theorem attempt_check (b : BlockList) (address : String) (now : Nat) (m : Memory) :
    ∃ d, (b.check address).attempt (serve now) m = (some d, m) :=
  Memory.attempt_of_lookups (b.sends_check address) now m

/-- An address is turned away exactly if it is watched and there is a live entry for its block. -/
theorem check_eq_blocked_iff (hm : m.available = true) :
    (∃ left, ((b.check address).attempt (serve now) m).1 = some (.blocked left)) ↔
      b.isWatched address = true ∧ (m.live? now (blockedKey address)).isSome = true := by
  cases hw : b.isWatched address with
  | false =>
    rw [check_of_not_watched hw, Plan.attempt_done]
    exact iff_of_false (by rintro ⟨left, h⟩; cases h) (by rintro ⟨h, -⟩; cases h)
  | true =>
    obtain ⟨next, hcheck, hlisted, hother⟩ := check_of_watched hw
    rw [hcheck, Plan.attempt_ask_of_some (Memory.serve_contains hm _), and_iff_right rfl]
    cases (m.live? now (blockedKey address)).isSome with
    | true =>
      obtain ⟨left, hleft⟩ := Memory.attempt_of_lookups (sends_remaining address) now m
      rw [hlisted, Plan.attempt_bind_of_some hleft]
      exact iff_of_true ⟨_, rfl⟩ rfl
    | false =>
      rw [hother (.ok false) nofun, Plan.attempt_done]
      exact iff_of_false (by rintro ⟨left, h⟩; cases h) Bool.false_ne_true

theorem not_isExempt_of_isWatched (hw : b.isWatched address = true) : b.isExempt address = false :=
  (isWatched_iff.1 hw).2.2

theorem isSuspicious_eq_true_iff (hw : b.isWatched address = true) (hm : m.available = true) :
    ((isSuspicious address).run.attempt (serve now) m).1 = some (.ok true) ↔
      (m.live? now (suspiciousKey address)).isSome = true := by
  have hblank : isBlank address = false := (Bool.or_eq_false_iff.1 (not_isExempt_of_isWatched hw)).1
  unfold isSuspicious
  simp only [hblank, Bool.false_eq_true, if_false]
  rw [Query.attempt_ask, Memory.serve_contains hm, Option.some.injEq, Except.ok.injEq]

/-! ## Blocking -/

theorem attempt_block_of_lt (hm : m.available = true) (he : b.isExempt address = false) (reason : String)
    (hend : now + b.blockDuration < clockEnd) :
    (b.block address reason).run.attempt (serve now) m = (some (.ok true),
      ((m.set (blockedKey address) ⟨1, some (now + b.blockDuration)⟩).erase now [suspiciousKey address]).2) := by
  have hm' : (m.set (blockedKey address) ⟨1, some (now + b.blockDuration)⟩).available = true := hm
  unfold block
  simp only [he, Bool.false_eq_true, if_false]
  rw [Query.attempt_ask_bind_ok (Memory.serve_put_of_lt hm _ _ hend),
    Query.attempt_ask_bind_ok (Memory.serve_erase hm' _)]
  rfl

/-- A block whose end cannot be told is none. -/
theorem attempt_block_of_le (hm : m.available = true) (he : b.isExempt address = false) (reason : String)
    (hend : clockEnd ≤ now + b.blockDuration) : (b.block address reason).run.attempt (serve now) m = (none, m) := by
  unfold block
  simp only [he, Bool.false_eq_true, if_false]
  exact Query.attempt_ask_bind_none (Memory.serve_put_of_le hm _ _ hend)

theorem block_eq_true_iff (hm : m.available = true) (he : b.isExempt address = false) (reason : String) :
    ((b.block address reason).run.attempt (serve now) m).1 = some (.ok true) ↔ now + b.blockDuration < clockEnd := by
  rcases lt_or_ge (now + b.blockDuration) clockEnd with hend | hend
  · rw [attempt_block_of_lt hm he reason hend]
    exact iff_of_true rfl hend
  · rw [attempt_block_of_le hm he reason hend]
    exact iff_of_false nofun (Nat.not_lt.2 hend)

/-- What a block leaves of the blocks: a fresh entry, if it comes about. -/
theorem entry?_blockedKey_attempt_block (hm : m.available = true) (he : b.isExempt address = false) (reason : String) :
    Memory.entry? ((b.block address reason).run.attempt (serve now) m).2 (blockedKey address) =
      if now + b.blockDuration < clockEnd then some ⟨1, some (now + b.blockDuration)⟩
      else m.entry? (blockedKey address) := by
  split
  · rename_i hend
    rw [attempt_block_of_lt hm he reason hend, Memory.entry?_erase, Memory.entry?_set, if_pos rfl, if_neg]
    exact List.mem_singleton.not.2 (blockedKey_ne_suspiciousKey address address)
  · rename_i hend
    rw [attempt_block_of_le hm he reason (Nat.not_lt.1 hend)]

/-! ## Counting -/

/-- What so many violations lead to. -/
def graded (b : BlockList) (n : Nat) : ViolationOutcome :=
  if b.violationThreshold ≤ n then .blocked n
  else if b.suspiciousThreshold ≤ n then .suspicious n
  else .counted n

theorem graded_eq_blocked_iff {n k : Nat} : b.graded n = .blocked k ↔ b.violationThreshold ≤ n ∧ n = k := by
  unfold graded
  split
  · rename_i h
    simp [h]
  · split <;> simp_all

theorem graded_eq_suspicious_iff {n k : Nat} : b.graded n = .suspicious k ↔
    (n < b.violationThreshold ∧ b.suspiciousThreshold ≤ n) ∧ n = k := by
  unfold graded
  split
  · rename_i h
    simp [Nat.not_lt.2 h]
  · split <;> simp_all

/-- A violation as it is counted, if it is given a number, and the store with it. -/
def counted (b : BlockList) (address : String) (m : Memory) (now : Nat) : Option Nat × Memory :=
  m.increment now (violationKey address) b.violationWindow

theorem available_counted (b : BlockList) (address : String) (m : Memory) (now : Nat) :
    (b.counted address m now).2.available = m.available := by
  unfold counted
  rw [Memory.increment_snd]
  rfl

/-- A violation of a watched address is counted, and what follows goes by the number that it is given. -/
theorem attempt_recordViolation (hm : m.available = true) (hw : b.isWatched address = true) (mark : String) :
    (b.recordViolation mark address).run.attempt (serve now) m =
      match b.counted address m now with
      | (some n, m') => (b.afterCount mark address n).run.attempt (serve now) m'
      | (none, m') => (none, m') := by
  have hserve : serve now m (.increment (violationKey address) b.violationWindow) = _ := Memory.serve_increment hm _ _
  rw [recordViolation_of_watched hw]
  unfold counted
  rcases hc : m.increment now (violationKey address) b.violationWindow with ⟨_ | n, m'⟩ <;> rw [hc] at hserve
  · exact Query.attempt_ask_bind_none hserve
  · exact Query.attempt_ask_bind_ok hserve

/-- What follows a count leads to a block exactly if the count is enough and the end of the block can be told. -/
theorem afterCount_eq_blocked_iff (hm : m.available = true) (he : b.isExempt address = false) (mark : String)
    {n k : Nat} : ((b.afterCount mark address n).run.attempt (serve now) m).1 = some (.ok (.blocked k)) ↔
      n = k ∧ b.violationThreshold ≤ n ∧ now + b.blockDuration < clockEnd := by
  unfold afterCount
  split
  · rename_i hmany
    rcases lt_or_ge (now + b.blockDuration) clockEnd with hend | hend
    · rw [Query.attempt_bind_ok (attempt_block_of_lt hm he _ hend)]
      show some (Except.ok (ViolationOutcome.blocked n)) = some (.ok (.blocked k)) ↔ _
      simp [hmany, hend]
    · rw [Query.attempt_bind_none (attempt_block_of_le hm he _ hend)]
      exact iff_of_false nofun fun h => Nat.not_lt.2 hend h.2.2
  · rename_i hfew
    refine iff_of_false ?_ fun h => hfew h.2.1
    split
    · rw [ExceptT.run_bind, Plan.attempt_bind]
      rcases (b.markSuspicious mark address).run.attempt (serve now) m with ⟨_ | _ | _, m'⟩ <;> nofun
    · nofun

theorem entry?_blockedKey_attempt_afterCount (hm : m.available = true) (he : b.isExempt address = false) (mark : String)
    (n : Nat) : Memory.entry? ((b.afterCount mark address n).run.attempt (serve now) m).2 (blockedKey address) =
      if b.violationThreshold ≤ n ∧ now + b.blockDuration < clockEnd then some ⟨1, some (now + b.blockDuration)⟩
      else m.entry? (blockedKey address) := by
  by_cases hmany : b.violationThreshold ≤ n
  · unfold afterCount
    simp only [hmany, if_true, true_and, ← entry?_blockedKey_attempt_block hm he (reason n)]
    rcases lt_or_ge (now + b.blockDuration) clockEnd with hend | hend
    · rw [Query.attempt_bind_ok (attempt_block_of_lt hm he _ hend), attempt_block_of_lt hm he _ hend]
      rfl
    · rw [Query.attempt_bind_none (attempt_block_of_le hm he _ hend), attempt_block_of_le hm he _ hend]
  · rw [if_neg fun h => hmany h.1]
    have hwithin : (b.afterCount mark address n).run.Within (· = suspiciousKey address) := by
      unfold afterCount
      rw [if_neg hmany]
      split
      · exact Query.Within.bind (within_markSuspicious b mark address) fun _ => trivial
      · trivial
    exact Memory.entry?_attempt hwithin (blockedKey_ne_suspiciousKey _ _) m

/-- A violation leads to a block exactly if its number is enough and the end of the block can be told. -/
theorem recordViolation_eq_blocked_iff (hm : m.available = true) (hw : b.isWatched address = true) (mark : String)
    {k : Nat} : ((b.recordViolation mark address).run.attempt (serve now) m).1 = some (.ok (.blocked k)) ↔
      (b.counted address m now).1 = some k ∧ b.violationThreshold ≤ k ∧ now + b.blockDuration < clockEnd := by
  have hm' := (available_counted b address m now).trans hm
  rw [attempt_recordViolation hm hw]
  rcases hc : b.counted address m now with ⟨_ | n, m'⟩ <;> rw [hc] at hm'
  · exact iff_of_false nofun (by rintro ⟨h, -⟩; cases h)
  · show ((b.afterCount mark address n).run.attempt (serve now) m').1 = _ ↔ some n = some k ∧ _
    rw [afterCount_eq_blocked_iff hm' (not_isExempt_of_isWatched hw), Option.some.injEq]
    exact and_congr_right fun h => by rw [h]

/-- What a violation leaves of the blocks: a fresh entry, if it leads to one. -/
theorem entry?_blockedKey_attempt_recordViolation (hm : m.available = true) (hw : b.isWatched address = true)
    (mark : String) : Memory.entry? ((b.recordViolation mark address).run.attempt (serve now) m).2 (blockedKey address) =
      if (b.counted address m now).1.any (b.violationThreshold ≤ ·) ∧ now + b.blockDuration < clockEnd then
        some ⟨1, some (now + b.blockDuration)⟩
      else m.entry? (blockedKey address) := by
  have hm' := (available_counted b address m now).trans hm
  have hkept : Memory.entry? (b.counted address m now).2 (blockedKey address) = m.entry? (blockedKey address) :=
    Memory.entry?_increment_of_ne m now _ (blockedKey_ne_violationKey address address)
  rw [attempt_recordViolation hm hw]
  rcases hc : b.counted address m now with ⟨_ | n, m'⟩ <;> rw [hc] at hm' hkept
  · simpa using hkept
  · show Memory.entry? ((b.afterCount mark address n).run.attempt (serve now) m').2 _ = _
    rw [entry?_blockedKey_attempt_afterCount hm' (not_isExempt_of_isWatched hw), hkept]
    simp

theorem entry?_violationKey_attempt_recordViolation (hm : m.available = true) (hw : b.isWatched address = true)
    (mark : String) :
    Memory.entry? ((b.recordViolation mark address).run.attempt (serve now) m).2 (violationKey address) =
      Memory.entry? (b.counted address m now).2 (violationKey address) := by
  rw [attempt_recordViolation hm hw]
  rcases b.counted address m now with ⟨_ | n, m'⟩
  · rfl
  · exact Memory.entry?_attempt (within_afterCount b mark address n) (not_blockKeyOf_violationKey _ _) m'

/-- What is known of a watched address does not survive a violation as it was, if the store answers. -/
theorem recordViolation_leaves_iff (hwindow : 0 < b.violationWindow) (mark address : String)
    (m : Memory) (now : Nat) :
    (∀ key, KeyOf address key →
        Memory.entry? ((b.recordViolation mark address).run.attempt (Memory.serve now) m).2 key = m.entry? key) ↔
      ¬ (m.available = true ∧ b.isWatched address = true) := by
  cases hm : m.available with
  | false => simp [Memory.attempt_of_unavailable hm]
  | true =>
    cases hw : b.isWatched address with
    | false =>
      rw [recordViolation_of_not_watched hw]
      exact iff_of_true (fun _ _ => rfl) (by simp)
    | true =>
      refine iff_of_false (fun h => ?_) (by simp)
      have := h (violationKey address) (keyOf_violationKey address)
      rw [entry?_violationKey_attempt_recordViolation hm hw mark] at this
      exact Memory.entry?_increment_ne m now (violationKey address) hwindow this

/-! ## Forgetting -/

theorem entry?_attempt_unblock (hm : m.available = true) (ha : isBlank address = false) {key : String}
    (hk : KeyOf address key) : Memory.entry? ((unblock address).run.attempt (serve now) m).2 key = none := by
  unfold unblock
  simp only [ha, Bool.false_eq_true, if_false]
  rw [Query.attempt_ask_bind_ok (Memory.serve_erase hm _)]
  show Memory.entry? (m.erase now _).2 key = none
  rw [Memory.entry?_erase, if_pos]
  simpa [KeyOf] using hk

theorem sends_unblock (address : String) (now : Nat) : (unblock address).run.Sends (·.Told now) := by
  unfold unblock
  split
  · trivial
  · exact Query.Sends.bind (Query.sends_ask trivial) fun _ => trivial

/-! ## Lifetimes whose ends can be told -/

/-- The ends of all lifetimes that a block list begins at an instant can be told. -/
structure Tells (b : BlockList) (now : Nat) : Prop where
  window : now + b.violationWindow < clockEnd
  block : now + b.blockDuration < clockEnd
  flag : now + b.suspiciousDuration < clockEnd

instance (b : BlockList) (now : Nat) : Decidable (b.Tells now) :=
  decidable_of_iff (now + b.violationWindow < clockEnd ∧ now + b.blockDuration < clockEnd ∧
    now + b.suspiciousDuration < clockEnd) ⟨fun h => ⟨h.1, h.2.1, h.2.2⟩, fun h => ⟨h.1, h.2, h.3⟩⟩

namespace Tells

theorem sends_block (h : b.Tells now) (address reason : String) :
    (b.block address reason).run.Sends (·.Told now) := by
  unfold BlockList.block
  split
  · trivial
  · exact Query.Sends.bind (Query.sends_ask h.block) fun _ =>
      Query.Sends.bind (Query.sends_ask trivial) fun _ => trivial

theorem sends_markSuspicious (h : b.Tells now) (mark address : String) :
    (b.markSuspicious mark address).run.Sends (·.Told now) := by
  unfold markSuspicious
  split
  · trivial
  · refine Query.Sends.bind (Query.sends_ask trivial) fun flagged => ?_
    split
    · trivial
    · exact Query.sends_ask h.flag

theorem sends_recordViolation (h : b.Tells now) (mark address : String) :
    (b.recordViolation mark address).run.Sends (·.Told now) := by
  cases hw : b.isWatched address with
  | false => rw [recordViolation_of_not_watched hw]; trivial
  | true =>
    rw [recordViolation_of_watched hw]
    refine Query.Sends.bind (Query.sends_ask h.window) fun n => ?_
    unfold afterCount
    split
    · exact Query.Sends.bind (h.sends_block address _) fun _ => trivial
    split
    · exact Query.Sends.bind (h.sends_markSuspicious mark address) fun _ => trivial
    · trivial

end Tells

end BlockList

end Tollgate
