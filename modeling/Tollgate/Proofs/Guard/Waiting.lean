/-
How long a blocked client is told to wait. What the store reports to be left of the block is passed on, but a block of
which nothing is left is taken for one without an end. So a client that asks in the last moment of its block is told
to wait for all of the duration again.
-/
import Tollgate.Proofs.Guard.BlockList
import Tollgate.Store.Remote

namespace Tollgate

/-! ## A machine as a store -/

namespace Remote

variable {σ α : Type} (answer : σ → List String → Reply × σ)

/-- Carries out a talk with a machine that is given by how it answers. -/
def Talk.carry : Talk α → σ → Except StoreFault α × σ
  | done result, s => (result, s)
  | send words next, s => carry (next (answer s words).1) (answer s words).2

/-- The store that a machine is. -/
def serve (s : σ) (c : Command) : c.Reply × σ := (talk c).carry answer s

/-- One request is sent for an answer, whatever becomes of it. -/
theorem Talk.carry_ask (words : List String) (read : Reply → Except StoreFault α) (s : σ) :
    ((ask words read).carry answer s).2 = (answer s words).2 ∧
      ((answer s words).1.fault? = none → ((ask words read).carry answer s).1 = read (answer s words).1) := by
  unfold ask request
  simp only [carry]
  cases (answer s words).1.fault? with
  | none => exact ⟨rfl, fun _ => rfl⟩
  | some fault => exact ⟨rfl, nofun⟩

/-- A machine reports in whole seconds what is left; a negative number says that there is no key, or no end. -/
theorem serve_lifetime {s : σ} {key : String} {n : Int} (h : (answer s ["TTL", key]).1 = .integer n) :
    (serve answer s (.lifetime key)).1 = .ok (if 0 ≤ n then some (Duration.ofSeconds n.toNat) else none) := by
  have hreply := (Talk.carry_ask answer ["TTL", key] Reply.lifetime s).2
  rw [h] at hreply
  exact hreply rfl

end Remote

/-! ## What is left of a block -/

namespace BlockList

variable {σ : Type} {serve : σ → (c : Command) → c.Reply × σ} {b : BlockList} {address : String} {s : σ} {retry : Nat}

/-- What the store answers when it is asked how much is left of a block, once it has said that there is one. -/
def leftReply (serve : σ → (c : Command) → c.Reply × σ) (s : σ) (address : String) : Except StoreFault (Option Nat) :=
  (serve (serve s (.contains (blockedKey address))).2 (.lifetime (blockedKey address))).1

/-- What a machine answers to that. -/
def ttlReply (answer : σ → List String → Remote.Reply × σ) (s : σ) (address : String) : Remote.Reply :=
  (answer (answer s ["EXISTS", blockedKey address]).2 ["TTL", blockedKey address]).1

theorem leftReply_of_ttlReply {answer : σ → List String → Remote.Reply × σ} {n : Int}
    (h : ttlReply answer s address = .integer n) :
    leftReply (Remote.serve answer) s address = .ok (if 0 ≤ n then some (Duration.ofSeconds n.toNat) else none) := by
  have hasked : (Remote.serve answer s (.contains (blockedKey address))).2 =
      (answer s ["EXISTS", blockedKey address]).2 := (Remote.Talk.carry_ask answer _ _ s).1
  unfold leftReply
  rw [hasked, Remote.serve_lifetime answer h]

theorem retry_eq (h : ((b.check address).run serve s).1 = .blocked retry) :
    retry = b.retryAfter ((leftReply serve s address).map (·.getD 0)) := by
  obtain ⟨hwatched, hlisted⟩ := (run_check_eq_blocked_iff serve).1 ⟨retry, h⟩
  rw [run_check_of_listed serve hwatched hlisted] at h
  exact (BlockDecision.blocked.inj h).symm

theorem retryAfter_of_pos {left : Nat} (h : 0 < left) : b.retryAfter (.ok left) = left := by
  cases left with
  | zero => cases h
  | succ n => rfl

/-- A client that is turned away is told to wait no longer than what is left of its block, or a second if less than
that is left, unless the store reports that nothing is left. The whole duration is what it is told if nothing is left,
if there is no end or no answer, and if it is what is left; and a machine that is the store reports whole seconds. -/
theorem waits_left_iff (h : ((b.check address).run serve s).1 = .blocked retry) :
    (∀ left, leftReply serve s address = .ok (some left) →
      (retry ≤ max left (Duration.ofSeconds 1) ↔ 0 < left ∨ b.blockDuration ≤ Duration.ofSeconds 1)) ∧
    (retry = b.blockDuration ↔ leftReply serve s address = .ok none ∨
      (∃ fault, leftReply serve s address = .error fault) ∨
      leftReply serve s address = .ok (some 0) ∨ leftReply serve s address = .ok (some b.blockDuration)) ∧
    ∀ answer, serve = Remote.serve answer → ∀ n, ttlReply answer s address = .integer n →
      leftReply serve s address = .ok (if 0 ≤ n then some (Duration.ofSeconds n.toNat) else none) := by
  have hretry := retry_eq h
  refine ⟨fun left hleft => ?_, ?_, ?_⟩
  · rw [hretry, hleft]
    rcases Nat.eq_zero_or_pos left with rfl | hpos
    · show b.blockDuration ≤ _ ↔ _
      simp
    · show b.retryAfter (.ok left) ≤ _ ↔ _
      rw [retryAfter_of_pos hpos]
      exact iff_of_true (le_max_left _ _) (.inl hpos)
  · rw [hretry]
    rcases leftReply serve s address with fault | _ | left
    · exact iff_of_true rfl (.inr (.inl ⟨fault, rfl⟩))
    · exact iff_of_true rfl (.inl rfl)
    · show b.retryAfter (.ok left) = _ ↔ _
      rcases Nat.eq_zero_or_pos left with rfl | hpos
      · exact iff_of_true rfl (.inr (.inr (.inl rfl)))
      · rw [retryAfter_of_pos hpos]
        simp [Nat.pos_iff_ne_zero.1 hpos]
  · rintro answer rfl n hn
    exact leftReply_of_ttlReply hn

/-- A machine that counts every key and reports the same number of seconds to be left of each. -/
def counting (left : Int) (s : Unit) : List String → Remote.Reply × Unit
  | ["TTL", _] => (.integer left, s)
  | _ => (.integer 1, s)

/-- A client with 42 seconds left of its block is told to wait for these. -/
theorem waits_left_iff_counting :
    ((default.check "203.0.113.7").run (Remote.serve (counting 42)) ()).1 = .blocked (Duration.ofSeconds 42) ∧
      leftReply (Remote.serve (counting 42)) () "203.0.113.7" = .ok (some (Duration.ofSeconds 42)) ∧
      Duration.ofSeconds 42 ≤ max (Duration.ofSeconds 42) (Duration.ofSeconds 1) := by
  have h : ((default.check "203.0.113.7").run (Remote.serve (counting 42)) ()).1 =
    .blocked (Duration.ofSeconds 42) := by decide +kernel
  obtain ⟨hiff, -, hmachine⟩ := waits_left_iff h
  have hleft := hmachine (counting 42) rfl 42 rfl
  exact ⟨h, hleft, (hiff _ hleft).2 (.inl (by decide))⟩

/-- A client with nothing left of its block but the moment in which it asks is told to wait for an hour. -/
theorem nothingLeft_waits : ttlReply (counting 0) () "203.0.113.7" = .integer 0 ∧
    ∃ retry, ((default.check "203.0.113.7").run (Remote.serve (counting 0)) ()).1 = .blocked retry ∧
      retry = default.blockDuration ∧ ¬ retry ≤ Duration.ofSeconds (max 0 1) := by
  refine ⟨rfl, Duration.ofSeconds 3600, ?_, rfl, by decide⟩
  decide +kernel

end BlockList

end Tollgate
