/-
What a stage hands on. A run ends in a result and in what was counted; what reached the stage behind is seen
only by whoever stands there. `handed` names it.
-/
import Tollgate.Gateway.Stage
import Tollgate.Proofs.Store.Plan

namespace Tollgate.Gateway

namespace Stage

variable {σ ι α : Type} (serve : σ → (c : Command) → c.Reply × σ)
  (behind : ι → σ → (Ending × List Event) × σ)

/-- What a run hands on to what lies behind the stage, in order. -/
def handed : Stage ι α → σ → List ι
  | done _, _ => []
  | ask c next, s => handed (next (serve s c).1) (serve s c).2
  | note _ rest, s => handed rest s
  | handOn x next, s => x :: handed (next (behind x s).1.1) (behind x s).2

/-- Nothing behind a stage, for where only what is handed on matters. -/
def absent {σ ι : Type} (_ : ι) (s : σ) : (Ending × List Event) × σ := ((.error 503, []), s)

/-! ## Plans in a stage -/

theorem run_ofPlan {β : Type} (p : Plan β) (next : β → Stage ι α) (s : σ) :
    run serve behind (ofPlan p next) s = run serve behind (next (p.run serve s).1) (p.run serve s).2 := by
  induction p generalizing s with
  | done b => rfl
  | ask c rest ih => simp only [ofPlan, run, Plan.run]; rw [ih]

theorem handed_ofPlan {β : Type} (p : Plan β) (next : β → Stage ι α) (s : σ) :
    handed serve behind (ofPlan p next) s = handed serve behind (next (p.run serve s).1) (p.run serve s).2 := by
  induction p generalizing s with
  | done b => rfl
  | ask c rest ih => simp only [ofPlan, handed, Plan.run]; rw [ih]

/-! ## Exchanges with the store -/

/-- What passes between a stage and its store in a run; what lies behind is left out. -/
def exchanges : Stage ι α → σ → List Exchange
  | done _, _ => []
  | ask c next, s => ⟨c, (serve s c).1⟩ :: exchanges (next (serve s c).1) (serve s c).2
  | note _ rest, s => exchanges rest s
  | handOn x next, s => exchanges (next (behind x s).1.1) (behind x s).2

theorem exchanges_ofPlan {β : Type} (p : Plan β) (next : β → Stage ι α) (s : σ) :
    exchanges serve behind (ofPlan p next) s =
      p.exchanges serve s ++ exchanges serve behind (next (p.run serve s).1) (p.run serve s).2 := by
  induction p generalizing s with
  | done b => rfl
  | ask c rest ih => exact congrArg _ (ih (serve s c).1 (serve s c).2)

/-! ## Endings -/

/-- How what lies behind a stage ends in a run, each time that it is handed something. -/
def endings : Stage ι α → σ → List Ending
  | done _, _ => []
  | ask c next, s => endings (next (serve s c).1) (serve s c).2
  | note _ rest, s => endings rest s
  | handOn x next, s => (behind x s).1.1 :: endings (next (behind x s).1.1) (behind x s).2

/-- A stage that hands nothing on, and ends in a refusal. -/
structure Refuses (stage : Stage ι Ending) (s : σ) (f : Refusal) : Prop where
  handed : handed serve behind stage s = []
  ending : (run serve behind stage s).1.1 = .refusal f

theorem Refuses.ofPlan {β : Type} {p : Plan β} {next : β → Stage ι Ending} {s : σ} {f : Refusal}
    (h : Refuses serve behind (next (p.run serve s).1) (p.run serve s).2 f) :
    Refuses serve behind (ofPlan p next) s f :=
  ⟨by rw [handed_ofPlan]; exact h.handed, by rw [run_ofPlan]; exact h.ending⟩

theorem Refuses.note {e : Event} {stage : Stage ι Ending} {s : σ} {f : Refusal}
    (h : Refuses serve behind stage s f) : Refuses serve behind (note e stage) s f :=
  ⟨h.handed, h.ending⟩

theorem refuses_done (s : σ) (f : Refusal) : Refuses serve behind (done (.refusal f)) s f := ⟨rfl, rfl⟩

/-! ## Stages that hand on for good -/

/-- A stage that ends in refusals of its own, or as what lies behind it ends. -/
def Gates : Stage ι Ending → Prop
  | .done ending => ∃ f, ending = .refusal f
  | .ask _ next => ∀ reply, (next reply).Gates
  | .note _ rest => rest.Gates
  | .handOn _ next => next = .done

/-- Whatever is answered, a stage sends no commands but some. -/
def Sends (allowed : Command → Prop) : Stage ι α → Prop
  | .done _ => True
  | .ask c next => allowed c ∧ ∀ reply, (next reply).Sends allowed
  | .note _ rest => rest.Sends allowed
  | .handOn _ next => ∀ ending, (next ending).Sends allowed

theorem Gates.ofPlan {β : Type} {p : Plan β} {next : β → Stage ι Ending} (h : ∀ b, (next b).Gates) :
    (ofPlan p next).Gates := by
  induction p with
  | done b => exact h b
  | ask c rest ih => exact ih

theorem Sends.ofPlan {β : Type} {allowed : Command → Prop} {p : Plan β} {next : β → Stage ι α}
    (hp : p.Sends allowed) (h : ∀ b, (next b).Sends allowed) : (ofPlan p next).Sends allowed := by
  induction p with
  | done b => exact h b
  | ask c rest ih => exact ⟨hp.1, fun reply => ih reply (hp.2 reply)⟩

theorem Gates.run {stage : Stage ι Ending} (h : stage.Gates) (s : σ) :
    (∃ f, (run serve behind stage s).1.1 = .refusal f) ∨
      ∃ x s', (run serve behind stage s).1.1 = (behind x s').1.1 ∧
        (behind x s').1.2 ⊆ (run serve behind stage s).1.2 := by
  induction stage generalizing s with
  | done ending => exact .inl h
  | ask c next ih => exact ih _ (h _) _
  | note e rest ih =>
    rcases ih h s with hf | ⟨x, s', hending, hevents⟩
    · exact .inl hf
    · exact .inr ⟨x, s', hending, List.subset_cons_of_subset _ hevents⟩
  | handOn x next ih =>
    obtain rfl : next = .done := h
    exact .inr ⟨x, s, rfl, List.subset_append_left _ _⟩

variable {serve behind} in
/-- What the commands of a stage do not change, nor what lies behind it, a run does not. -/
theorem view_run {τ : Type} {view : σ → τ} {allowed : Command → Prop}
    (hserve : ∀ s c, allowed c → view (serve s c).2 = view s) (hbehind : ∀ x s, view (behind x s).2 = view s)
    {stage : Stage ι α} (h : stage.Sends allowed) (s : σ) : view (Stage.run serve behind stage s).2 = view s := by
  induction stage generalizing s with
  | done a => rfl
  | ask c next ih => exact (ih _ (h.2 _) _).trans (hserve s c h.1)
  | note e rest ih => exact ih h s
  | handOn x next ih => exact (ih _ (h _) _).trans (hbehind x s)

end Stage

end Tollgate.Gateway
