/-
Stores that are kept by key. A command is answered by what is held under its keys and changes that and nothing else,
so what is told apart by some keys only is not changed by anybody who keeps to others. A store in memory is one.
-/
import Tollgate.Proofs.Store.Memory

namespace Tollgate

/-- A store that is kept by key. Besides what it holds under the keys of a command its answer may depend on something
that no command changes, such as whether the store can be reached. Keys may also be entered without a command. -/
structure KeyedStore where
  State : Type
  Cell : Type
  Common : Type
  cell : State → String → Cell
  common : State → Common
  serve : Nat → State → (c : Command) → c.Reply × State
  enter : Nat → State → String → Nat → State
  serve_common : ∀ now s c, common (serve now s c).2 = common s
  serve_cell : ∀ now s c key, key ∉ c.keys → cell (serve now s c).2 key = cell s key
  serve_local : ∀ now s s' c, common s = common s' → (∀ key ∈ c.keys, cell s key = cell s' key) →
    (serve now s c).1 = (serve now s' c).1 ∧
      ∀ key ∈ c.keys, cell (serve now s c).2 key = cell (serve now s' c).2 key
  enter_common : ∀ now s key lifetime, common (enter now s key lifetime) = common s
  enter_cell : ∀ now s key lifetime other, other ≠ key → cell (enter now s key lifetime) other = cell s other
  enter_local : ∀ now s s' key lifetime, common s = common s' → cell s key = cell s' key →
    cell (enter now s key lifetime) key = cell (enter now s' key lifetime) key

namespace KeyedStore

variable {store : KeyedStore} {keys : String → Prop} {s s' : store.State}

/-! ## States that some keys do not tell apart -/

structure Agree (store : KeyedStore) (keys : String → Prop) (s s' : store.State) : Prop where
  common : store.common s = store.common s'
  cell : ∀ key, keys key → store.cell s key = store.cell s' key

namespace Agree

theorem refl (keys : String → Prop) (s : store.State) : Agree store keys s s := ⟨rfl, fun _ _ => rfl⟩

/-- A command on these keys is answered in the same way, and they still do not tell the states apart. -/
theorem serve (h : Agree store keys s s') (now : Nat) {c : Command} (hc : ∀ key ∈ c.keys, keys key) :
    (store.serve now s c).1 = (store.serve now s' c).1 ∧
      Agree store keys (store.serve now s c).2 (store.serve now s' c).2 := by
  obtain ⟨hreply, hcells⟩ := store.serve_local now s s' c h.common fun key hk => h.cell key (hc key hk)
  refine ⟨hreply, ?_, fun key hk => ?_⟩
  · rw [store.serve_common, store.serve_common, h.common]
  · by_cases hmem : key ∈ c.keys
    · exact hcells key hmem
    · rw [store.serve_cell now s c key hmem, store.serve_cell now s' c key hmem, h.cell key hk]

/-- A command on other keys makes no difference to these. -/
theorem serve_elsewhere (h : Agree store keys s s') (now : Nat) {c : Command} (hc : ∀ key ∈ c.keys, ¬ keys key) :
    Agree store keys (store.serve now s c).2 s' where
  common := (store.serve_common now s c).trans h.common
  cell key hk := (store.serve_cell now s c key fun hmem => hc key hmem hk).trans (h.cell key hk)

theorem enter (h : Agree store keys s s') (now : Nat) (key : String) (hk : keys key) (lifetime : Nat) :
    Agree store keys (store.enter now s key lifetime) (store.enter now s' key lifetime) where
  common := by rw [store.enter_common, store.enter_common, h.common]
  cell other ho := by
    by_cases he : other = key
    · rw [he]
      exact store.enter_local now s s' key lifetime h.common (h.cell key hk)
    · rw [store.enter_cell now s key lifetime other he, store.enter_cell now s' key lifetime other he, h.cell other ho]

theorem enter_elsewhere (h : Agree store keys s s') (now : Nat) {key : String} (hk : ¬ keys key) (lifetime : Nat) :
    Agree store keys (store.enter now s key lifetime) s' where
  common := (store.enter_common now s key lifetime).trans h.common
  cell other ho :=
    (store.enter_cell now s key lifetime other fun he => hk (he ▸ ho)).trans (h.cell other ho)

end Agree

/-! ## Callers that take turns -/

variable {α : Type}

/-- The next command of one of some plans, if it has any left. -/
def advance (store : KeyedStore) (now : Nat) (plans : List (Plan α)) (s : store.State) (i : Nat) :
    List (Plan α) × store.State :=
  match plans[i]? with
  | some (.ask c next) => (plans.set i (next (store.serve now s c).1), (store.serve now s c).2)
  | _ => (plans, s)

/-- Nothing is left to do, or one command that is answered. -/
theorem advance_cases (store : KeyedStore) (now : Nat) (plans : List (Plan α)) (i : Nat) :
    (∀ s : store.State, advance store now plans s i = (plans, s)) ∨
      ∃ c next, .ask c next ∈ plans ∧ ∀ s : store.State,
        advance store now plans s i = (plans.set i (next (store.serve now s c).1), (store.serve now s c).2) := by
  unfold advance
  split
  · rename_i c next h
    exact .inr ⟨c, next, List.mem_of_getElem? h, fun _ => rfl⟩
  · exact .inl fun _ => rfl

theorem within_advance {plans : List (Plan α)} (h : ∀ p ∈ plans, p.Within keys) (now : Nat) (s : store.State) (i : Nat) :
    ∀ p ∈ (advance store now plans s i).1, p.Within keys := by
  rcases advance_cases store now plans i with hrest | ⟨c, next, hmem, hnext⟩
  · rw [hrest]
    exact h
  · rw [hnext]
    intro p hp
    rcases List.mem_or_eq_of_mem_set hp with hp | rfl
    · exact h p hp
    · exact (h _ hmem).2 _

/-- Plans that keep to some keys go on in the same way from states that these do not tell apart. -/
theorem Agree.advance {plans : List (Plan α)} (h : Agree store keys s s') (hp : ∀ p ∈ plans, p.Within keys) (now i : Nat) :
    (store.advance now plans s i).1 = (store.advance now plans s' i).1 ∧
      Agree store keys (store.advance now plans s i).2 (store.advance now plans s' i).2 := by
  rcases advance_cases store now plans i with hrest | ⟨c, next, hmem, hnext⟩
  · rw [hrest, hrest]
    exact ⟨rfl, h⟩
  · obtain ⟨hreply, hagree⟩ := h.serve now (hp _ hmem).1
    rw [hnext, hnext, hreply]
    exact ⟨rfl, hagree⟩

theorem Agree.advance_elsewhere {plans : List (Plan α)} {others : String → Prop} (h : Agree store keys s s')
    (hp : ∀ p ∈ plans, p.Within others) (hapart : ∀ key, others key → ¬ keys key) (now i : Nat) :
    Agree store keys (store.advance now plans s i).2 s' := by
  rcases advance_cases store now plans i with hrest | ⟨c, next, hmem, hnext⟩
  · rw [hrest]
    exact h
  · rw [hnext]
    exact h.serve_elsewhere now fun key hk => hapart key ((hp _ hmem).1 key hk)

end KeyedStore

/-! ## A store in memory -/

/-- A store in memory is kept by key. The deny list's owner enters keys whether it answers or not. -/
def Memory.keyed : KeyedStore where
  State := Memory
  Cell := Option Entry
  Common := Bool
  cell := Memory.entry?
  common := Memory.available
  serve := Memory.steady
  enter now m key lifetime := (m.insert now key (some lifetime)).getD m
  serve_common now m c := available_serve m now c
  serve_cell _ _ _ _ h := entry?_serve_of_notMem h
  serve_local now m m' c hcommon hcells := by
    have h : Memory.Agree (· ∈ c.keys) m m' := ⟨hcommon, hcells⟩
    obtain ⟨hreply, hagree⟩ := h.serve now fun _ h => h
    exact ⟨congrArg (Option.getD · _) hreply, hagree.entry⟩
  enter_common now m key lifetime := by
    rcases lt_or_ge (now + lifetime) clockEnd with h | h
    · rw [insert_eq_some_iff.2 ⟨h, rfl⟩]; rfl
    · rw [insert_eq_none h]; rfl
  enter_cell now m key lifetime other ho := by
    rcases lt_or_ge (now + lifetime) clockEnd with h | h
    · rw [insert_eq_some_iff.2 ⟨h, rfl⟩, Option.getD_some, entry?_set, if_neg ho]
    · rw [insert_eq_none h, Option.getD_none]
  enter_local now m m' key lifetime _ hcell := by
    rcases lt_or_ge (now + lifetime) clockEnd with h | h
    · rw [insert_eq_some_iff.2 ⟨h, rfl⟩, insert_eq_some_iff.2 ⟨h, rfl⟩, Option.getD_some, Option.getD_some, entry?_set,
        entry?_set, if_pos rfl, if_pos rfl]
    · rw [insert_eq_none h, insert_eq_none h]
      exact hcell

end Tollgate
