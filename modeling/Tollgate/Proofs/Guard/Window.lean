/-
Blocks and windows as the history of an address shows them, without regard to any store. A window opens at the first
violation of an address that none counts for any more, and lasts until its time is over or the address is unblocked;
the violations within are numbered from one. A block lasts from the call that set it for its time or until the
address is unblocked.
-/
import Mathlib
import Tollgate.Guard.BlockList

namespace Tollgate.BlockList

/-! ## Calls and their answers -/

/-- What can be asked of a block list about an address. -/
inductive Operation where
  | recordViolation (mark : String)
  | check
  | block (reason : String)
  | markSuspicious (mark : String)
  | unblock
  | isSuspicious
  | violationCount
  | remaining
deriving DecidableEq, Repr

/-- The answers to all operations. -/
inductive Answer where
  | decision (d : BlockDecision)
  | outcome (o : ViolationOutcome)
  | flag (b : Bool)
  | marked
  | count (n : Nat)
  | left (nanos : Nat)
  | fault (f : StoreFault)
deriving DecidableEq, Repr

/-- An operation on an address at an instant. -/
structure Call where
  time : Nat
  address : String
  operation : Operation
deriving DecidableEq, Repr

/-- A call, and its answer if it had one. -/
structure Event where
  call : Call
  answer : Option Answer
deriving DecidableEq, Repr

namespace Event

/-- Whether a violation of an address was to be recorded, answered or not. -/
def violates (address : String) (e : Event) : Bool :=
  e.call.address == address && match e.call.operation with
    | .recordViolation _ => true
    | _ => false

/-- Whether an address was unblocked. -/
def unblocks (address : String) (e : Event) : Bool :=
  e.call.address == address && e.call.operation == .unblock

/-- Whether an address was blocked, by itself or for its violations. -/
def blocks (address : String) (e : Event) : Bool :=
  e.call.address == address && match e.call.operation, e.answer with
    | .block _, some (.flag true) => true
    | .recordViolation _, some (.outcome (.blocked _)) => true
    | _, _ => false

end Event

/-- An event of a history with one more at its end is the last one or was there before. -/
theorem concat_eq_append_cons_iff {history before after : List Event} {e x : Event} :
    history ++ [e] = before ++ x :: after ↔
      (history = before ∧ e = x ∧ after = []) ∨ ∃ rest, after = rest ++ [e] ∧ history = before ++ x :: rest := by
  constructor
  · intro h
    rcases after.eq_nil_or_concat' with rfl | ⟨rest, y, rfl⟩
    · obtain ⟨h, he⟩ := List.append_inj' h rfl
      exact .inl ⟨h, List.singleton_inj.1 he, rfl⟩
    · rw [← List.cons_append, ← List.append_assoc] at h
      obtain ⟨hrest, he⟩ := List.append_inj' h rfl
      cases he
      exact .inr ⟨rest, rfl, hrest⟩
  · rintro (⟨rfl, rfl, rfl⟩ | ⟨rest, rfl, rfl⟩) <;> simp

variable (b : BlockList) (address : String)

/-! ## Blocks -/

/-- An address was blocked not longer ago than a block lasts, and not unblocked since. -/
def BlockedSince (history : List Event) (now : Nat) : Prop :=
  ∃ before x after, history = before ++ x :: after ∧ x.blocks address = true ∧
    (∀ y ∈ after, y.unblocks address = false) ∧ now < x.call.time + b.blockDuration

theorem not_blockedSince_nil (now : Nat) : ¬ b.BlockedSince address [] now := by
  rintro ⟨before, x, after, h, -⟩
  cases before <;> cases h

/-- A block that lasts after one more event was set by it, or lasted before and was not lifted by it. -/
theorem blockedSince_concat (history : List Event) (e : Event) (now : Nat) :
    b.BlockedSince address (history ++ [e]) now ↔
      (e.blocks address = true ∧ now < e.call.time + b.blockDuration) ∨
        (e.unblocks address = false ∧ b.BlockedSince address history now) := by
  constructor
  · rintro ⟨before, x, after, h, hx, hno, hlast⟩
    rcases concat_eq_append_cons_iff.1 h with ⟨-, rfl, -⟩ | ⟨rest, rfl, rfl⟩
    · exact .inl ⟨hx, hlast⟩
    · exact .inr ⟨hno e (by simp), before, x, rest, rfl, hx, fun y hy => hno y (by simp [hy]), hlast⟩
  · rintro (⟨hx, hlast⟩ | ⟨hno, before, x, after, rfl, hx, hafter, hlast⟩)
    · exact ⟨history, e, [], rfl, hx, nofun, hlast⟩
    · exact ⟨before, x, after ++ [e], by simp, hx, by simpa [or_imp, forall_and] using ⟨hafter, hno⟩, hlast⟩

/-! ## Windows -/

/-- No violation counts any more: each was followed by an unblocking. -/
def Forgotten (history : List Event) : Prop :=
  ∀ before x after, history = before ++ x :: after → x.violates address = true →
    ∃ y ∈ after, y.unblocks address = true

/-- What follows the opening of a window lies within it: the address is not unblocked, and every violation of it comes
before the window's time is over. -/
def Lasts (opening : Event) (since : List Event) : Prop :=
  ∀ y ∈ since, y.unblocks address = false ∧
    (y.violates address = true → y.call.time < opening.call.time + b.violationWindow)

/-- A violation that opens a window: none counts any more, or the window before it is over. -/
inductive Opens : List Event → Event → Prop
  | afresh {before : List Event} {x : Event} : x.violates address = true → Forgotten address before → Opens before x
  | next {before since : List Event} {opening x : Event} : x.violates address = true → Opens before opening →
      Lasts b address opening since → opening.call.time + b.violationWindow ≤ x.call.time →
      Opens (before ++ opening :: since) x

/-- A history ends within a window, so many violations after it was opened. -/
def InWindow (history : List Event) (opened n : Nat) : Prop :=
  ∃ before opening since, history = before ++ opening :: since ∧ b.Opens address before opening ∧
    b.Lasts address opening since ∧ opened = opening.call.time ∧ n = 1 + since.countP (·.violates address)

/-- A window that is not over: the instant that it was opened at, and the violations so far. -/
structure Window where
  opened : Nat
  count : Nat
deriving DecidableEq, Repr

/-- The window after one more event. -/
def advance (w : Option Window) (e : Event) : Option Window :=
  if e.violates address then
    match w.filter (e.call.time < ·.opened + b.violationWindow) with
    | some w => some { w with count := w.count + 1 }
    | none => some ⟨e.call.time, 1⟩
  else if e.unblocks address then none
  else w

/-- The window that a history ends in, over or not. -/
def window? (history : List Event) : Option Window := history.foldl (b.advance address) none

theorem window?_concat (history : List Event) (e : Event) :
    b.window? address (history ++ [e]) = b.advance address (b.window? address history) e := by
  unfold window?
  rw [List.foldl_append]
  rfl

theorem not_unblocks_of_violates {address : String} {e : Event} (h : e.violates address = true) :
    e.unblocks address = false := by
  unfold Event.violates at h
  unfold Event.unblocks
  cases ho : e.call.operation <;> simp [ho] at h ⊢

/-! ## Windows by their events -/

variable {b address}

theorem forgotten_nil : Forgotten address [] := by
  rintro before x after h
  cases before <;> cases h

/-- After one more event nothing counts any more if it is an unblocking, or if nothing did before and it is no
violation. -/
theorem forgotten_concat {history : List Event} {e : Event} : Forgotten address (history ++ [e]) ↔
    e.unblocks address = true ∨ (e.violates address = false ∧ Forgotten address history) := by
  constructor
  · intro h
    by_cases hu : e.unblocks address = true
    · exact .inl hu
    refine .inr ⟨?_, fun before x rest hh hx => ?_⟩
    · rw [Bool.eq_false_iff]
      intro hv
      obtain ⟨y, hy, -⟩ := h history e [] rfl hv
      cases hy
    · obtain ⟨y, hy, hyu⟩ := h before x (rest ++ [e]) (by rw [hh]; simp) hx
      rcases List.mem_append.1 hy with hy | hy
      · exact ⟨y, hy, hyu⟩
      · rw [List.mem_singleton.1 hy] at hyu
        exact absurd hyu hu
  · intro h before x after hh hx
    rcases concat_eq_append_cons_iff.1 hh with ⟨-, rfl, -⟩ | ⟨rest, rfl, rfl⟩
    · rcases h with hu | ⟨hv, -⟩
      · rw [not_unblocks_of_violates hx] at hu; cases hu
      · rw [hx] at hv; cases hv
    · rcases h with hu | ⟨-, hf⟩
      · exact ⟨e, by simp, hu⟩
      · obtain ⟨y, hy, hyu⟩ := hf before x rest rfl hx
        exact ⟨y, List.mem_append_left _ hy, hyu⟩

theorem lasts_concat {opening e : Event} {since : List Event} : b.Lasts address opening (since ++ [e]) ↔
    b.Lasts address opening since ∧ e.unblocks address = false ∧
      (e.violates address = true → e.call.time < opening.call.time + b.violationWindow) := by
  unfold Lasts
  rw [List.forall_mem_append, List.forall_mem_singleton]

/-! ## The ways a window goes on -/

theorem advance_of_within {e : Event} {w : Window} (hv : e.violates address = true)
    (hw : e.call.time < w.opened + b.violationWindow) :
    b.advance address (some w) e = some ⟨w.opened, w.count + 1⟩ := by
  have hsome : (some w).filter (e.call.time < ·.opened + b.violationWindow) = some w :=
    Option.filter_some_pos (decide_eq_true hw)
  unfold advance
  simp only [hv, if_true, hsome]

theorem advance_of_over {e : Event} {w : Option Window} (hv : e.violates address = true)
    (hw : ∀ v, w = some v → v.opened + b.violationWindow ≤ e.call.time) :
    b.advance address w e = some ⟨e.call.time, 1⟩ := by
  have hnone : w.filter (e.call.time < ·.opened + b.violationWindow) = none := by
    cases w with
    | none => rfl
    | some v =>
      have := hw v rfl
      simp only [Option.filter_some, ite_eq_right_iff, decide_eq_true_eq]
      omega
  unfold advance
  simp only [hv, if_true, hnone]

theorem advance_of_unblocks {e : Event} {w : Option Window} (hu : e.unblocks address = true) :
    b.advance address w e = none := by
  have hv : e.violates address = false := by
    rw [Bool.eq_false_iff]
    intro hv
    rw [not_unblocks_of_violates hv] at hu; cases hu
  unfold advance
  simp [hv, hu]

theorem advance_of_other {e : Event} {w : Option Window} (hv : e.violates address = false)
    (hu : e.unblocks address = false) : b.advance address w e = w := by
  unfold advance
  simp [hv, hu]

theorem window?_of_forgotten {history : List Event} (h : Forgotten address history) :
    b.window? address history = none := by
  induction history using List.reverseRecOn with
  | nil => rfl
  | append_singleton history e ih =>
    rw [window?_concat]
    rcases forgotten_concat.1 h with hu | ⟨hv, hf⟩
    · exact advance_of_unblocks hu
    · by_cases hu : e.unblocks address = true
      · exact advance_of_unblocks hu
      · rw [advance_of_other hv (Bool.eq_false_iff.2 hu), ih hf]

/-- A window counts the violations within it. -/
theorem window?_of_lasts {before since : List Event} {opening : Event}
    (ho : b.window? address (before ++ [opening]) = some ⟨opening.call.time, 1⟩)
    (h : b.Lasts address opening since) : b.window? address (before ++ opening :: since) =
      some ⟨opening.call.time, 1 + since.countP (·.violates address)⟩ := by
  induction since using List.reverseRecOn with
  | nil => exact ho
  | append_singleton since e ih =>
    obtain ⟨hl, hu, hv⟩ := lasts_concat.1 h
    rw [← List.cons_append, ← List.append_assoc, window?_concat, ih hl, List.countP_append]
    cases hev : e.violates address with
    | true => rw [advance_of_within hev (hv hev)]; simp [hev, Nat.add_assoc]
    | false => rw [advance_of_other hev hu]; simp [hev]

theorem Opens.window? {before : List Event} {x : Event} (h : b.Opens address before x) :
    b.window? address (before ++ [x]) = some ⟨x.call.time, 1⟩ := by
  induction h with
  | afresh hx hf =>
    rw [window?_concat, window?_of_forgotten hf]
    exact advance_of_over hx nofun
  | next hx _ hl hover ih =>
    rw [window?_concat, window?_of_lasts ih hl]
    exact advance_of_over hx fun v hv => by cases hv; exact hover

theorem Opens.inWindow {history : List Event} {e : Event} (h : b.Opens address history e) :
    b.InWindow address (history ++ [e]) e.call.time 1 :=
  ⟨history, e, [], rfl, h, nofun, rfl, rfl⟩

theorem InWindow.concat {history : List Event} {e : Event} {opened n : Nat} (h : b.InWindow address history opened n)
    (hu : e.unblocks address = false) (hv : e.violates address = true → e.call.time < opened + b.violationWindow) :
    b.InWindow address (history ++ [e]) opened (n + if e.violates address then 1 else 0) := by
  obtain ⟨before, opening, since, rfl, ho, hl, rfl, rfl⟩ := h
  refine ⟨before, opening, since ++ [e], by simp, ho, lasts_concat.2 ⟨hl, hu, hv⟩, rfl, ?_⟩
  rw [List.countP_append, List.countP_singleton, Nat.add_assoc]

/-- A history that ends in no window has nothing that counts any more, and otherwise it is in the window. -/
theorem inWindow_of_window? (history : List Event) :
    (b.window? address history = none → Forgotten address history) ∧
      ∀ opened n, b.window? address history = some ⟨opened, n⟩ → b.InWindow address history opened n := by
  induction history using List.reverseRecOn with
  | nil => exact ⟨fun _ => forgotten_nil, nofun⟩
  | append_singleton history e ih =>
    obtain ⟨hnone, hsome⟩ := ih
    rw [window?_concat]
    by_cases hv : e.violates address = true
    · have hu := not_unblocks_of_violates hv
      cases hw : b.window? address history with
      | none =>
        rw [advance_of_over (w := none) hv nofun]
        refine ⟨nofun, fun opened n h => ?_⟩
        cases h
        exact (Opens.afresh hv (hnone hw)).inWindow
      | some w =>
        have hin := hsome w.opened w.count hw
        by_cases hlt : e.call.time < w.opened + b.violationWindow
        · rw [advance_of_within hv hlt]
          refine ⟨nofun, fun opened n h => ?_⟩
          cases h
          simpa [hv] using hin.concat hu fun _ => hlt
        · -- the window before is over
          rw [advance_of_over (w := some w) hv fun v he => by cases he; omega]
          refine ⟨nofun, fun opened n h => ?_⟩
          cases h
          obtain ⟨before, opening, since, rfl, ho, hl, htime, -⟩ := hin
          exact (Opens.next hv ho hl (by omega)).inWindow
    · rw [Bool.not_eq_true] at hv
      by_cases hu : e.unblocks address = true
      · rw [advance_of_unblocks hu]
        exact ⟨fun _ => forgotten_concat.2 (.inl hu), nofun⟩
      · rw [Bool.not_eq_true] at hu
        rw [advance_of_other hv hu]
        refine ⟨fun h => forgotten_concat.2 (.inr ⟨hv, hnone h⟩), fun opened n h => ?_⟩
        simpa [hv] using (hsome opened n h).concat hu fun h => by rw [hv] at h; cases h

theorem window?_eq_some_iff {history : List Event} {opened n : Nat} :
    b.window? address history = some ⟨opened, n⟩ ↔ b.InWindow address history opened n := by
  constructor
  · exact (inWindow_of_window? history).2 opened n
  · rintro ⟨before, opening, since, rfl, ho, hl, rfl, rfl⟩
    exact window?_of_lasts ho.window? hl

end Tollgate.BlockList
