/-
The block list's look-up on any store: an address is turned away exactly if it is watched and the store answers
that there is a block for it. How long the block lasts is a second question, and whatever is answered to that
only tells the client when to come back.
-/
import Tollgate.Guard.BlockList
import Tollgate.Proofs.Store.Plan

namespace Tollgate

namespace BlockList

theorem isWatched_iff {b : BlockList} {address : String} : b.isWatched address = true ↔
    b.enabled = true ∧ b.isWhitelisted address = false ∧ b.isExempt address = false := by
  simp [isWatched, and_assoc]

variable {σ : Type} (serve : σ → (c : Command) → c.Reply × σ)

/-- What is left of a block, as the store answers. -/
def left (s : σ) (address : String) : Except StoreFault Nat :=
  (serve s (.lifetime (blockedKey address))).1.map (·.getD 0)

theorem run_remaining (address : String) (s : σ) : (remaining address).run.run serve s =
    (left serve s address, (serve s (.lifetime (blockedKey address))).2) := by
  unfold remaining left
  cases h : serve s (.lifetime (blockedKey address)) with
  | mk reply s' =>
    cases reply with
    | error fault => exact Query.run_bind_error h
    | ok left => exact Query.run_bind_ok h

theorem check_of_not_watched {b : BlockList} {address : String} (h : b.isWatched address = false) :
    b.check address = .done .allow := by
  unfold check; rw [h]; rfl

/-- The store is asked for the block of an address that is watched, and only then when it ends. -/
theorem check_of_watched {b : BlockList} {address : String} (h : b.isWatched address = true) :
    ∃ next, b.check address = .ask (.contains (blockedKey address)) next ∧
      next (.ok true) = (do return .blocked (b.retryAfter (← (remaining address).run))) ∧
      ∀ reply, reply ≠ .ok true → next reply = .done .allow := by
  unfold check
  rw [h]
  refine ⟨_, rfl, rfl, fun reply hr => ?_⟩
  rcases reply with fault | (_ | _)
  · rfl
  · rfl
  · exact absurd rfl hr

theorem run_check_of_listed {b : BlockList} {address : String} {s : σ} (h : b.isWatched address = true)
    (hl : (serve s (.contains (blockedKey address))).1 = .ok true) : (b.check address).run serve s =
      (.blocked (b.retryAfter (left serve (serve s (.contains (blockedKey address))).2 address)),
        (serve (serve s (.contains (blockedKey address))).2 (.lifetime (blockedKey address))).2) := by
  obtain ⟨next, hcheck, hlisted, -⟩ := check_of_watched h
  rw [hcheck, Plan.run_ask, hl, hlisted, Plan.run_bind, run_remaining]
  rfl

theorem run_check_of_not_listed {b : BlockList} {address : String} {s : σ} (h : b.isWatched address = true)
    (hl : (serve s (.contains (blockedKey address))).1 ≠ .ok true) :
    (b.check address).run serve s = (.allow, (serve s (.contains (blockedKey address))).2) := by
  obtain ⟨next, hcheck, -, hother⟩ := check_of_watched h
  rw [hcheck, Plan.run_ask, hother _ hl]
  rfl

/-- An address is turned away exactly if it is watched and the store answers that it is blocked. -/
theorem run_check_eq_blocked_iff {b : BlockList} {address : String} {s : σ} :
    (∃ left, ((b.check address).run serve s).1 = .blocked left) ↔
      b.isWatched address = true ∧ (serve s (.contains (blockedKey address))).1 = .ok true := by
  cases h : b.isWatched address with
  | false => simp [check_of_not_watched h, Plan.run]
  | true =>
    by_cases hl : (serve s (.contains (blockedKey address))).1 = .ok true
    · simp [run_check_of_listed serve h hl, hl]
    · simp [run_check_of_not_listed serve h hl, hl]

/-! ## Keys -/

theorem toList_blockedKey (address : String) :
    (blockedKey address).toList = "security:blocked:ip:".toList ++ address.toList := String.toList_append

theorem toList_violationKey (address : String) :
    (violationKey address).toList = "security:violations:".toList ++ address.toList := String.toList_append

theorem toList_suspiciousKey (address : String) :
    (suspiciousKey address).toList = "security:suspicious:ip:".toList ++ address.toList := String.toList_append

-- the tenth letter tells the three kinds of keys apart, whatever the addresses are

theorem blockedKey_ne_violationKey (a a' : String) : blockedKey a ≠ violationKey a' := by
  intro h
  have := congrArg (fun s => s.toList[9]?) h
  simp [toList_blockedKey, toList_violationKey] at this

theorem blockedKey_ne_suspiciousKey (a a' : String) : blockedKey a ≠ suspiciousKey a' := by
  intro h
  have := congrArg (fun s => s.toList[9]?) h
  simp [toList_blockedKey, toList_suspiciousKey] at this

theorem violationKey_ne_suspiciousKey (a a' : String) : violationKey a ≠ suspiciousKey a' := by
  intro h
  have := congrArg (fun s => s.toList[9]?) h
  simp [toList_violationKey, toList_suspiciousKey] at this

/-- The keys under which the store keeps what is known of an address. -/
def KeyOf (address key : String) : Prop :=
  key = blockedKey address ∨ key = violationKey address ∨ key = suspiciousKey address

/-- No key is one of two addresses. -/
theorem KeyOf.unique {a a' key : String} (h : KeyOf a key) (h' : KeyOf a' key) : a = a' := by
  rcases h with rfl | rfl | rfl <;> rcases h' with h' | h' | h'
  · exact (String.append_right_inj _).1 h'
  · exact absurd h' (blockedKey_ne_violationKey a a')
  · exact absurd h' (blockedKey_ne_suspiciousKey a a')
  · exact absurd h'.symm (blockedKey_ne_violationKey a' a)
  · exact (String.append_right_inj _).1 h'
  · exact absurd h' (violationKey_ne_suspiciousKey a a')
  · exact absurd h'.symm (blockedKey_ne_suspiciousKey a' a)
  · exact absurd h'.symm (violationKey_ne_suspiciousKey a' a)
  · exact (String.append_right_inj _).1 h'

theorem keyOf_blockedKey (address : String) : KeyOf address (blockedKey address) := .inl rfl

theorem keyOf_violationKey (address : String) : KeyOf address (violationKey address) := .inr (.inl rfl)

theorem keyOf_suspiciousKey (address : String) : KeyOf address (suspiciousKey address) := .inr (.inr rfl)

/-! ## The keys of the operations -/

theorem within_remaining (address : String) : (remaining address).run.Within (KeyOf address) :=
  Query.Within.bind (Query.within_ask (by simpa [Command.keys] using keyOf_blockedKey address)) fun _ => trivial

theorem within_check (b : BlockList) (address : String) : (b.check address).Within (KeyOf address) := by
  cases h : b.isWatched address with
  | false => rw [check_of_not_watched h]; trivial
  | true =>
    obtain ⟨next, hcheck, hlisted, hother⟩ := check_of_watched h
    rw [hcheck]
    refine ⟨by simpa [Command.keys] using keyOf_blockedKey address, fun reply => ?_⟩
    by_cases hr : reply = .ok true
    · rw [hr, hlisted]
      exact Plan.Within.bind (within_remaining address) fun _ => trivial
    · rw [hother reply hr]
      trivial

/-- The flag of an address is all that is looked at to tell whether it is flagged. -/
theorem within_isSuspicious (address : String) : (isSuspicious address).run.Within (· = suspiciousKey address) := by
  unfold isSuspicious
  split
  · trivial
  · exact Query.within_ask (by simp [Command.keys])

/-- The flag of an address is all that is touched when it is flagged. -/
theorem within_markSuspicious (b : BlockList) (mark address : String) :
    (b.markSuspicious mark address).run.Within (· = suspiciousKey address) := by
  unfold markSuspicious
  split
  · trivial
  · refine Query.Within.bind (Query.within_ask (by simp [Command.keys])) fun flagged => ?_
    split
    · trivial
    · exact Query.within_ask (by simp [Command.keys])

/-- The keys that a block touches. -/
def BlockKeyOf (address key : String) : Prop := key = blockedKey address ∨ key = suspiciousKey address

theorem BlockKeyOf.keyOf {address key : String} (h : BlockKeyOf address key) : KeyOf address key := h.imp_right .inr

theorem not_blockKeyOf_violationKey (a a' : String) : ¬ BlockKeyOf a (violationKey a') := by
  rintro (h | h)
  · exact blockedKey_ne_violationKey _ _ h.symm
  · exact violationKey_ne_suspiciousKey _ _ h

theorem within_block (b : BlockList) (address reason : String) :
    (b.block address reason).run.Within (BlockKeyOf address) := by
  unfold block
  split
  · trivial
  · refine Query.Within.bind (Query.within_ask (by simp [Command.keys, BlockKeyOf])) fun _ => ?_
    exact Query.Within.bind (Query.within_ask (by simp [Command.keys, BlockKeyOf])) fun _ => trivial

theorem within_unblock (address : String) : (unblock address).run.Within (KeyOf address) := by
  unfold unblock
  split
  · trivial
  · refine Query.Within.bind (Query.within_ask fun key hk => ?_) fun _ => trivial
    simpa [Command.keys, KeyOf] using hk

theorem within_violationCount (address : String) : (violationCount address).run.Within (KeyOf address) :=
  Query.within_ask (by simpa [Command.keys] using keyOf_violationKey address)

/-! ## The counter of an address -/

theorem sends_remaining (address : String) : (remaining address).run.Sends (·.isLookup = true) :=
  Query.Sends.bind (Query.sends_ask rfl) fun _ => trivial

theorem sends_isSuspicious (address : String) : (isSuspicious address).run.Sends (·.isLookup = true) := by
  unfold isSuspicious
  split
  · trivial
  · exact Query.sends_ask rfl

theorem sends_violationCount (address : String) : (violationCount address).run.Sends (·.isLookup = true) :=
  Query.sends_ask rfl

theorem sends_check (b : BlockList) (address : String) : (b.check address).Sends (·.isLookup = true) := by
  cases h : b.isWatched address with
  | false => rw [check_of_not_watched h]; trivial
  | true =>
    obtain ⟨next, hcheck, hlisted, hother⟩ := check_of_watched h
    rw [hcheck]
    refine ⟨rfl, fun reply => ?_⟩
    by_cases hr : reply = .ok true
    · rw [hr, hlisted]
      exact Plan.Sends.bind (sends_remaining address) fun _ => trivial
    · rw [hother reply hr]
      trivial

theorem sends_block (b : BlockList) (address reason : String) :
    (b.block address reason).run.Sends (·.raised = []) := by
  unfold block
  split
  · trivial
  · exact Query.Sends.bind (Query.sends_ask rfl) fun _ => Query.Sends.bind (Query.sends_ask rfl) fun _ => trivial

theorem sends_markSuspicious (b : BlockList) (mark address : String) :
    (b.markSuspicious mark address).run.Sends (·.raised = []) := by
  unfold markSuspicious
  split
  · trivial
  · refine Query.Sends.bind (Query.sends_ask rfl) fun flagged => ?_
    split
    · trivial
    · exact Query.sends_ask rfl

theorem recordViolation_of_not_watched {b : BlockList} {address : String} (h : b.isWatched address = false)
    (mark : String) : b.recordViolation mark address = pure .ignored := by
  unfold recordViolation; rw [h]; rfl

/-- What follows once a violation was counted. -/
def afterCount (b : BlockList) (mark address : String) (n : Nat) : Query ViolationOutcome :=
  if b.violationThreshold ≤ n then do
    let _ ← b.block address (reason n)
    return .blocked n
  else if b.suspiciousThreshold ≤ n then do
    b.markSuspicious mark address
    return .suspicious n
  else return .counted n

theorem recordViolation_of_watched {b : BlockList} {address : String} (h : b.isWatched address = true)
    (mark : String) : b.recordViolation mark address =
      Query.ask (.increment (violationKey address) b.violationWindow) >>= b.afterCount mark address := by
  unfold recordViolation; rw [h]; rfl

theorem within_afterCount (b : BlockList) (mark address : String) (n : Nat) :
    (b.afterCount mark address n).run.Within (BlockKeyOf address) := by
  unfold afterCount
  split
  · exact Query.Within.bind (within_block b address _) fun _ => trivial
  split
  · exact Query.Within.bind ((within_markSuspicious b mark address).mono fun _ => .inr) fun _ => trivial
  · trivial

theorem within_recordViolation (b : BlockList) (mark address : String) :
    (b.recordViolation mark address).run.Within (KeyOf address) := by
  cases h : b.isWatched address with
  | false => rw [recordViolation_of_not_watched h]; trivial
  | true =>
    rw [recordViolation_of_watched h]
    refine Query.Within.bind (Query.within_ask (by simpa [Command.keys] using keyOf_violationKey address)) fun n => ?_
    exact (within_afterCount b mark address n).mono fun _ => BlockKeyOf.keyOf

end BlockList

end Tollgate
