/-
Plans on any store. A plan after another one starts from its result and in the state that it left; a query
ends at its first fault. What passes between a plan and the store is a list of exchanges, one for each command
in turn, and the keys of the commands are all that a plan can touch. On a store that can break down a plan goes on
as long as it is answered, and what such a store answers is all that a plan needs of any other.
-/
import Mathlib
import Tollgate.Store.Plan

namespace Tollgate

variable {σ α β : Type} (serve : σ → (c : Command) → c.Reply × σ)

/-! ## One plan after another -/

namespace Plan

theorem run_ask (c : Command) (next : c.Reply → Plan α) (s : σ) :
    (ask c next).run serve s = (next (serve s c).1).run serve (serve s c).2 := rfl

theorem run_bind (p : Plan α) (next : α → Plan β) (s : σ) :
    (p >>= next).run serve s = (next (p.run serve s).1).run serve (p.run serve s).2 := by
  show (p.bind next).run serve s = _
  induction p generalizing s with
  | done a => rfl
  | ask c rest ih => exact ih (serve s c).1 (serve s c).2

end Plan

namespace Query

variable {serve} in
theorem run_bind_ok {q : Query α} {next : α → Query β} {s s' : σ} {a : α}
    (h : q.run.run serve s = (.ok a, s')) : (q >>= next).run.run serve s = (next a).run.run serve s' := by
  rw [ExceptT.run_bind, Plan.run_bind, h]

variable {serve} in
theorem run_bind_error {q : Query α} {next : α → Query β} {s s' : σ} {fault : StoreFault}
    (h : q.run.run serve s = (.error fault, s')) : (q >>= next).run.run serve s = (.error fault, s') := by
  rw [ExceptT.run_bind, Plan.run_bind, h]
  rfl

end Query

/-! ## What passes between a plan and the store -/

/-- A command, and what the store answered. -/
structure Exchange where
  command : Command
  reply : command.Reply

/-- The exchanges of a plan, in order. -/
def Plan.exchanges : Plan α → σ → List Exchange
  | .done _, _ => []
  | .ask c next, s => ⟨c, (serve s c).1⟩ :: exchanges (next (serve s c).1) (serve s c).2

theorem Plan.exchanges_bind (p : Plan α) (next : α → Plan β) (s : σ) :
    (p >>= next).exchanges serve s =
      p.exchanges serve s ++ (next (p.run serve s).1).exchanges serve (p.run serve s).2 := by
  show (p.bind next).exchanges serve s = _
  induction p generalizing s with
  | done a => rfl
  | ask c rest ih => exact congrArg _ (ih (serve s c).1 (serve s c).2)

/-! ## The keys that a plan is about -/

/-- The keys that a command names. -/
def Command.keys : Command → List String
  | contains key => [key]
  | increment key _ => [key]
  | count key => [key]
  | put key _ _ => [key]
  | erase keys => keys
  | lifetime key => [key]

/-- Whatever the store answers, a plan names no keys but some. -/
def Plan.Within (keys : String → Prop) : Plan α → Prop
  | done _ => True
  | ask c next => (∀ key ∈ c.keys, keys key) ∧ ∀ reply, Within keys (next reply)

theorem Plan.Within.mono {keys keys' : String → Prop} (hk : ∀ key, keys key → keys' key) {p : Plan α}
    (h : p.Within keys) : p.Within keys' := by
  induction p with
  | done a => trivial
  | ask c next ih => exact ⟨fun key hm => hk key (h.1 key hm), fun reply => ih reply (h.2 reply)⟩

theorem Plan.Within.bind {keys : String → Prop} {p : Plan α} {next : α → Plan β} (h : p.Within keys)
    (hnext : ∀ a, (next a).Within keys) : (p >>= next).Within keys := by
  show (p.bind next).Within keys
  induction p with
  | done a => exact hnext a
  | ask c rest ih => exact ⟨h.1, fun reply => ih reply (h.2 reply)⟩

theorem Query.within_ask {keys : String → Prop} {c : Command} (h : ∀ key ∈ c.keys, keys key) :
    (ask c).run.Within keys := ⟨h, fun _ => trivial⟩

theorem Query.Within.bind {keys : String → Prop} {q : Query α} {next : α → Query β} (h : q.run.Within keys)
    (hnext : ∀ a, (next a).run.Within keys) : (q >>= next).run.Within keys := by
  rw [ExceptT.run_bind]
  refine Plan.Within.bind h fun reply => ?_
  cases reply with
  | ok a => exact hnext a
  | error fault => trivial

/-! ## The commands that a plan sends -/

/-- Whatever the store answers, a plan sends no commands but some. -/
def Plan.Sends (allowed : Command → Prop) : Plan α → Prop
  | done _ => True
  | ask c next => allowed c ∧ ∀ reply, Sends allowed (next reply)

theorem Plan.Sends.mono {allowed allowed' : Command → Prop} (hc : ∀ c, allowed c → allowed' c) {p : Plan α}
    (h : p.Sends allowed) : p.Sends allowed' := by
  induction p with
  | done a => trivial
  | ask c next ih => exact ⟨hc c h.1, fun reply => ih reply (h.2 reply)⟩

theorem Plan.Sends.bind {allowed : Command → Prop} {p : Plan α} {next : α → Plan β} (h : p.Sends allowed)
    (hnext : ∀ a, (next a).Sends allowed) : (p >>= next).Sends allowed := by
  show (p.bind next).Sends allowed
  induction p with
  | done a => exact hnext a
  | ask c rest ih => exact ⟨h.1, fun reply => ih reply (h.2 reply)⟩

theorem Query.sends_ask {allowed : Command → Prop} {c : Command} (h : allowed c) :
    (ask c).run.Sends allowed := ⟨h, fun _ => trivial⟩

theorem Query.Sends.bind {allowed : Command → Prop} {q : Query α} {next : α → Query β} (h : q.run.Sends allowed)
    (hnext : ∀ a, (next a).run.Sends allowed) : (q >>= next).run.Sends allowed := by
  rw [ExceptT.run_bind]
  refine Plan.Sends.bind h fun reply => ?_
  cases reply with
  | ok a => exact hnext a
  | error fault => trivial

theorem Plan.Within.sends {keys : String → Prop} {p : Plan α} (h : p.Within keys) :
    p.Sends fun c => ∀ key ∈ c.keys, keys key := by
  induction p with
  | done a => trivial
  | ask c next ih => exact ⟨h.1, fun reply => ih reply (h.2 reply)⟩

/-- Whether a command only looks something up. -/
def Command.isLookup : Command → Bool
  | contains _ | count _ | lifetime _ => true
  | _ => false

/-- The counter that a command raises, if it is such a command. -/
def Command.raised : Command → List String
  | increment key _ => [key]
  | _ => []

/-- The counters that are raised by the commands of some exchanges, in order. -/
def raised (exchanges : List Exchange) : List String := exchanges.flatMap (·.command.raised)

section

variable {τ : Type} {attempted : τ → (c : Command) → Option c.Reply × τ} {t t' : τ}

namespace Plan

theorem attempt_done (a : α) (t : τ) : (done a).attempt attempted t = (some a, t) := rfl

theorem attempt_ask_of_some {c : Command} {next : c.Reply → Plan α} {reply : c.Reply}
    (h : attempted t c = (some reply, t')) :
    (ask c next).attempt attempted t = (next reply).attempt attempted t' := by
  rw [attempt, h]

theorem attempt_ask_of_none {c : Command} {next : c.Reply → Plan α} (h : attempted t c = (none, t')) :
    (ask c next).attempt attempted t = (none, t') := by
  rw [attempt, h]

/-- What follows a plan begins with its result, if it has one. -/
theorem attempt_bind (p : Plan α) (next : α → Plan β) (t : τ) : (p >>= next).attempt attempted t =
    match p.attempt attempted t with
    | (some a, t') => (next a).attempt attempted t'
    | (none, t') => (none, t') := by
  show (p.bind next).attempt attempted t = _
  induction p generalizing t with
  | done a => rfl
  | ask c rest ih =>
    rcases h : attempted t c with ⟨_ | reply, t'⟩
    · rw [attempt_ask_of_none h]
      exact attempt_ask_of_none h
    · rw [attempt_ask_of_some h, ← ih reply]
      exact attempt_ask_of_some h

theorem attempt_bind_of_some {p : Plan α} {next : α → Plan β} {a : α} (h : p.attempt attempted t = (some a, t')) :
    (p >>= next).attempt attempted t = (next a).attempt attempted t' := by
  rw [attempt_bind, h]

theorem attempt_bind_of_none {p : Plan α} {next : α → Plan β} (h : p.attempt attempted t = (none, t')) :
    (p >>= next).attempt attempted t = (none, t') := by
  rw [attempt_bind, h]

variable {serve} in
/-- A plan that comes to its end does so in the same way on a store that answers likewise where the other one answers. -/
theorem run_of_attempt {view : σ → τ} (h : ∀ s c reply t, attempted (view s) c = (some reply, t) →
      (serve s c).1 = reply ∧ view (serve s c).2 = t)
    {p : Plan α} {s : σ} {a : α} (hp : p.attempt attempted (view s) = (some a, t')) :
    (p.run serve s).1 = a ∧ view (p.run serve s).2 = t' := by
  induction p generalizing s with
  | done b => cases hp; exact ⟨rfl, rfl⟩
  | ask c next ih =>
    rcases hc : attempted (view s) c with ⟨_ | reply, t⟩
    · rw [attempt_ask_of_none hc] at hp
      cases hp
    · rw [attempt_ask_of_some hc] at hp
      obtain ⟨hreply, hview⟩ := h s c reply t hc
      rw [← hview] at hp
      rw [run_ask, hreply]
      exact ih reply hp

/-- What commands do not change, plans of such commands do not. -/
theorem Sends.view_attempt {υ : Type} (view : τ → υ) {allowed : Command → Prop}
    (h : ∀ t c, allowed c → view (attempted t c).2 = view t) {p : Plan α} (hp : p.Sends allowed) (t : τ) :
    view (p.attempt attempted t).2 = view t := by
  induction p generalizing t with
  | done a => rfl
  | ask c next ih =>
    have hkept := h t c hp.1
    rcases hc : attempted t c with ⟨_ | reply, t'⟩ <;> rw [hc] at hkept
    · rw [attempt_ask_of_none hc]
      exact hkept
    · rw [attempt_ask_of_some hc, ih reply (hp.2 reply)]
      exact hkept

end Plan

namespace Query

theorem attempt_bind_ok {q : Query α} {next : α → Query β} {a : α}
    (h : q.run.attempt attempted t = (some (.ok a), t')) :
    (q >>= next).run.attempt attempted t = (next a).run.attempt attempted t' := by
  rw [ExceptT.run_bind, Plan.attempt_bind_of_some h]

theorem attempt_bind_none {q : Query α} {next : α → Query β} (h : q.run.attempt attempted t = (none, t')) :
    (q >>= next).run.attempt attempted t = (none, t') := by
  rw [ExceptT.run_bind, Plan.attempt_bind_of_none h]

theorem attempt_ask (c : Command) (t : τ) : (ask c).run.attempt attempted t = attempted t c := by
  rcases h : attempted t c with ⟨_ | reply, t'⟩
  · exact Plan.attempt_ask_of_none h
  · exact Plan.attempt_ask_of_some h

theorem attempt_ask_bind_ok {c : Command} {next : c.Answer → Query β} {a : c.Answer}
    (h : attempted t c = (some (.ok a), t')) :
    (ask c >>= next).run.attempt attempted t = (next a).run.attempt attempted t' :=
  attempt_bind_ok ((attempt_ask c t).trans h)

theorem attempt_ask_bind_none {c : Command} {next : c.Answer → Query β} (h : attempted t c = (none, t')) :
    (ask c >>= next).run.attempt attempted t = (none, t') := attempt_bind_none ((attempt_ask c t).trans h)

end Query

end

end Tollgate
