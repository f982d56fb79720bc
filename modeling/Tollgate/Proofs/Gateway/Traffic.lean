/-
The watch over addresses: a client whose address is blocked is refused, and every other request is handed on
once and ends as what lies behind ends it. Counting a violation afterwards changes neither.
-/
import Tollgate.Gateway.Traffic
import Tollgate.Proofs.Gateway.Stage
import Tollgate.Proofs.Guard.BlockList

namespace Tollgate.Gateway.Traffic

open Stage (handed run Refuses exchanges)

variable {σ : Type} (serve : σ → (c : Command) → c.Reply × σ) (behind : Unit → σ → (Ending × List Event) × σ)

/-! ## After a request -/

theorem run_settle (b : BlockList) (mark address : String) (ending : Ending) (s : σ) :
    (run serve behind (settle b mark address ending) s).1.1 = ending := by
  unfold settle
  split
  · rw [Stage.run_ofPlan]; rfl
  · rfl

theorem run_settle_eq (b : BlockList) (mark address : String) (ending : Ending) (s : σ) :
    run serve behind (settle b mark address ending) s =
      if ending.status = tooMany then
        ((ending, [.violation ((b.recordViolation mark address).run.run serve s).1]),
          ((b.recordViolation mark address).run.run serve s).2)
      else ((ending, []), s) := by
  unfold settle
  split
  · rw [Stage.run_ofPlan]; rfl
  · rfl

theorem handed_settle (b : BlockList) (mark address : String) (ending : Ending) (s : σ) :
    handed serve behind (settle b mark address ending) s = [] := by
  unfold settle
  split
  · rw [Stage.handed_ofPlan]; rfl
  · rfl

/-! ## A request of a known client -/

variable {b : BlockList} {mark address : String} {s : σ}

theorem refuses_watchAddress (mark : String) {left : Nat} (h : ((b.check address).run serve s).1 = .blocked left) :
    Refuses serve behind (watchAddress b mark address) s (.addressBlocked (max 1 (Duration.seconds left))) := by
  refine .ofPlan serve behind ?_
  rw [h]
  exact .note _ _ (Stage.refuses_done _ _ _ _)

theorem handed_watchAddress (h : ((b.check address).run serve s).1 = .allow) :
    handed serve behind (watchAddress b mark address) s = [()] := by
  unfold watchAddress
  rw [Stage.handed_ofPlan, h]
  exact congrArg _ (handed_settle serve behind _ _ _ _ _)

theorem run_watchAddress (h : ((b.check address).run serve s).1 = .allow) :
    (run serve behind (watchAddress b mark address) s).1.1 =
      (behind () ((b.check address).run serve s).2).1.1 := by
  unfold watchAddress
  rw [Stage.run_ofPlan, h]
  exact run_settle serve behind _ _ _ _ _

/-! ## Any request -/

variable {trusts : Bool} {r : Request}

theorem watch_of_known (h : Credentials.clientAddress? trusts r = some address) :
    watch b trusts mark r = watchAddress b mark address := by
  unfold watch; rw [h]

theorem watch_of_unknown (h : Credentials.clientAddress? trusts r = none) :
    watch b trusts mark r = .handOn () .done := by
  unfold watch; rw [h]

/-- A request that is not handed on is one of a known client whose address the store says is blocked. -/
theorem blocked_of_handed_watch (h : handed serve behind (watch b trusts mark r) s = []) :
    ∃ address, Credentials.clientAddress? trusts r = some address ∧ b.isWatched address = true ∧
      (serve s (.contains (BlockList.blockedKey address))).1 = .ok true := by
  cases hc : Credentials.clientAddress? trusts r with
  | none => rw [watch_of_unknown hc] at h; cases h
  | some address =>
    rw [watch_of_known hc] at h
    cases hd : ((b.check address).run serve s).1 with
    | allow => rw [handed_watchAddress serve behind hd] at h; cases h
    | blocked left => exact ⟨address, rfl, (BlockList.run_check_eq_blocked_iff serve).1 ⟨left, hd⟩⟩

end Tollgate.Gateway.Traffic
