/-
Several callers of one store at once. Each carries out a plan of its own, the commands take turns in any order, and
every command is answered at once. A course is told for some keys: nothing under them expires, and of what the store
does for anybody else in between only that matters which is done to them, which is nothing. Every course can be told
along with whose turns there were.
-/
import Tollgate.Proofs.Store.Memory

namespace Tollgate

variable {α : Type} {keys : String → Prop}

/-- Whether what a command writes is there for some time; what is not is gone at once. -/
def Command.lasts : Command → Bool
  | increment _ window => 0 < window
  | put _ _ duration => 0 < duration
  | _ => true

/-- What callers have left to do, their store, and the instant. -/
structure Crowd (α : Type) where
  plans : List (Plan α)
  store : Memory
  now : Nat

namespace Crowd

/-- The next command of one of the callers, if it has any left and is answered. -/
def turn? (x : Crowd α) (i : Nat) : Option (Crowd α) :=
  match x.plans[i]? with
  | some (.ask c next) =>
    match Memory.serve x.now x.store c with
    | (some reply, store) => if c.lasts then some ⟨x.plans.set i (next reply), store, x.now⟩ else none
    | (none, _) => none
  | _ => none

inductive Step (keys : String → Prop) (x : Crowd α) : Crowd α → Prop
  | turn {y : Crowd α} (i : Nat) (h : x.turn? i = some y) : Step keys x y
  | wait {later : Nat} (h : x.now ≤ later)
      (hkeys : ∀ key, keys key → x.store.live? later key = x.store.live? x.now key) :
      Step keys x { x with now := later }
  | elsewhere {store : Memory} (h : Memory.Agree keys x.store store) : Step keys x { x with store }

def Course (keys : String → Prop) : Crowd α → Crowd α → Prop := Relation.ReflTransGen (Step keys)

theorem turn?_eq_some_iff {x y : Crowd α} {i : Nat} : x.turn? i = some y ↔
    ∃ c next reply store, x.plans[i]? = some (.ask c next) ∧ c.lasts = true ∧
      Memory.serve x.now x.store c = (some reply, store) ∧ y = ⟨x.plans.set i (next reply), store, x.now⟩ := by
  unfold turn?
  constructor
  · intro h
    split at h
    · rename_i c next hplan
      split at h
      · rename_i reply store hserve
        split at h
        · rename_i hl
          exact ⟨c, next, reply, store, hplan, hl, hserve, (Option.some.inj h).symm⟩
        · cases h
      · cases h
    · cases h
  · rintro ⟨c, next, reply, store, hplan, hl, hserve, rfl⟩
    simp only [hplan, hserve, hl, if_true]

/-- Callers taking turns as they are listed. -/
def play (x : Crowd α) : List Nat → Option (Crowd α)
  | [] => some x
  | i :: rest => (x.turn? i).bind (play · rest)

/-! ## Whose turns -/

/-- A course along with whose turns there were, in their order. -/
inductive Recorded (keys : String → Prop) (x : Crowd α) : List Nat → Crowd α → Prop
  | refl : Recorded keys x [] x
  | turn {log : List Nat} {y z : Crowd α} (h : Recorded keys x log y) (i : Nat) (hturn : y.turn? i = some z) :
      Recorded keys x (log ++ [i]) z
  | wait {log : List Nat} {y : Crowd α} {later : Nat} (h : Recorded keys x log y) (hlater : y.now ≤ later)
      (hkeys : ∀ key, keys key → y.store.live? later key = y.store.live? y.now key) :
      Recorded keys x log { y with now := later }
  | elsewhere {log : List Nat} {y : Crowd α} {store : Memory} (h : Recorded keys x log y)
      (hagree : Memory.Agree keys y.store store) : Recorded keys x log { y with store }

theorem course_iff_recorded {x y : Crowd α} : Course keys x y ↔ ∃ log, Recorded keys x log y := by
  constructor
  · intro h
    induction h with
    | refl => exact ⟨[], .refl⟩
    | tail _ hs ih =>
      obtain ⟨log, h⟩ := ih
      cases hs with
      | turn i hturn => exact ⟨log ++ [i], .turn h i hturn⟩
      | wait hlater hkeys => exact ⟨log, .wait h hlater hkeys⟩
      | elsewhere hagree => exact ⟨log, .elsewhere h hagree⟩
  · rintro ⟨log, h⟩
    induction h with
    | refl => exact .refl
    | turn _ i hturn ih => exact .tail ih (.turn i hturn)
    | wait _ hlater hkeys ih => exact .tail ih (.wait hlater hkeys)
    | elsewhere _ hagree ih => exact .tail ih (.elsewhere hagree)

theorem Recorded.play {x y z : Crowd α} {log turns : List Nat} (h : Recorded keys x log y)
    (hplay : y.play turns = some z) : Recorded keys x (log ++ turns) z := by
  induction turns generalizing log y with
  | nil => cases hplay; rwa [List.append_nil]
  | cons i rest ih =>
    obtain ⟨next, hturn, hrest⟩ := Option.bind_eq_some_iff.1 hplay
    rw [List.append_cons]
    exact ih (h.turn i hturn) hrest

theorem recorded_of_play (keys : String → Prop) {x y : Crowd α} {turns : List Nat} (h : x.play turns = some y) :
    Recorded keys x turns y := Recorded.refl.play h

theorem course_of_play (keys : String → Prop) {x y : Crowd α} {turns : List Nat} (h : x.play turns = some y) :
    Course keys x y := course_iff_recorded.2 ⟨turns, recorded_of_play keys h⟩

/-- The turns of `i` begin before those of `j` and end after them. -/
def Spans (log : List Nat) (i j : Nat) : Prop :=
  log.idxOf i < log.idxOf j ∧ log.reverse.idxOf i < log.reverse.idxOf j

instance (log : List Nat) (i j : Nat) : Decidable (Spans log i j) := inferInstanceAs (Decidable (_ ∧ _))

theorem idxOf_lt_concat {log : List Nat} {i j : Nat} (h : log.idxOf i < log.idxOf j) (k : Nat) :
    (log ++ [k]).idxOf i < (log ++ [k]).idxOf j := by
  have hi : i ∈ log := List.idxOf_lt_length_iff.1 (h.trans_le List.idxOf_le_length)
  rw [List.idxOf_append_of_mem hi, List.idxOf_append]
  split
  · exact h
  · exact (List.idxOf_lt_length_iff.2 hi).trans_le (Nat.le_add_left _ _)

theorem idxOf_concat_lt_of_notMem {log : List Nat} {i k : Nat} (hi : i ∈ log) (hk : k ∉ log) :
    (log ++ [k]).idxOf i < (log ++ [k]).idxOf k := by
  rw [List.idxOf_append_of_mem hi, List.idxOf_append_of_notMem hk]
  exact (List.idxOf_lt_length_iff.2 hi).trans_le (Nat.le_add_right _ _)

/-- A turn of somebody else makes no difference. -/
theorem spans_concat_iff (log : List Nat) {i j k : Nat} (hi : i ≠ k) (hj : j ≠ k) :
    Spans (log ++ [k]) i j ↔ Spans log i j := by
  have hlast : (log ++ [k]).reverse.idxOf i < (log ++ [k]).reverse.idxOf j ↔
      log.reverse.idxOf i < log.reverse.idxOf j := by
    rw [List.reverse_concat, List.idxOf_cons_ne _ hi.symm, List.idxOf_cons_ne _ hj.symm]
    exact Nat.succ_lt_succ_iff
  have hmem {l : List Nat} (h : l.idxOf i < l.idxOf j) : i ∈ l :=
    List.idxOf_lt_length_iff.1 (h.trans_le List.idxOf_le_length)
  refine and_congr ⟨fun h => ?_, fun h => idxOf_lt_concat h k⟩ hlast
  have hilog : i ∈ log := by simpa [hi] using hmem h
  by_cases hjlog : j ∈ log
  · rwa [List.idxOf_append_of_mem hilog, List.idxOf_append_of_mem hjlog] at h
  · rw [List.idxOf_eq_length hjlog]
    exact List.idxOf_lt_length_iff.2 hilog

theorem not_spans_concat (log : List Nat) (i k : Nat) : ¬ Spans (log ++ [k]) i k := by
  rintro ⟨-, h⟩
  rw [List.reverse_concat, List.idxOf_cons_self] at h
  exact absurd h (Nat.not_lt_zero _)

/-- Who began before somebody spans them with the turn that is the last one. -/
theorem spans_concat_self {log : List Nat} {j k : Nat} (h : log.idxOf k < log.idxOf j) : Spans (log ++ [k]) k j := by
  have hne : k ≠ j := by rintro rfl; exact absurd h (Nat.lt_irrefl _)
  refine ⟨idxOf_lt_concat h k, ?_⟩
  rw [List.reverse_concat, List.idxOf_cons_self, List.idxOf_cons_ne _ hne]
  exact Nat.succ_pos _

end Crowd

/-! ## Results -/

def Plan.result? : Plan α → Option α
  | done a => some a
  | ask _ _ => none

theorem Plan.eq_done_of_results {plans : List (Plan α)} {results : List α}
    (h : plans.map Plan.result? = results.map some) : plans = results.map .done := by
  induction plans generalizing results with
  | nil => rw [List.map_eq_nil_iff.1 h.symm]; rfl
  | cons p rest ih =>
    cases results with
    | nil => cases h
    | cons a results =>
      obtain ⟨hp, hrest⟩ := List.cons.inj h
      cases p with
      | ask c next => cases hp
      | done a' => rw [ih hrest, Option.some.inj hp]; rfl

end Tollgate
