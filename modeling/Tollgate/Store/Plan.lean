/-
Plans over a key store: what an operation asks of the store, one command at a time, and what it does
with each answer. A plan says nothing about the store that answers; a store that fails or does not
answer in time is one that answers with a fault. Because every command is a step of its own, the plans
of several callers can be interleaved.
-/
namespace Tollgate

/-- Why a store gives no answer. -/
inductive StoreFault where
  | connection (detail : String)
  | timeout
  | backend (detail : String)
deriving DecidableEq, Repr

/-- What is said of a store that gives no answer. -/
def StoreFault.message : StoreFault → String
  | .connection detail => "denylist connection failed: " ++ detail
  | .timeout => "denylist lookup timed out"
  | .backend detail => "denylist backend error: " ++ detail

/-- A command to a store of counters that expire. Lifetimes are in nanoseconds. -/
inductive Command where
  | contains (key : String)
  /-- adds one; the first time it starts the window -/
  | increment (key : String) (window : Nat)
  | count (key : String)
  | put (key value : String) (lifetime : Nat)
  | erase (keys : List String)
  /-- what is left of a key's lifetime, if it has one -/
  | lifetime (key : String)
deriving DecidableEq, Repr

/-- The kind of answer to a command. -/
abbrev Command.Answer : Command → Type
  | contains _ => Bool
  | increment _ _ => Nat
  | count _ => Nat
  | put _ _ _ => Unit
  | erase _ => Nat
  | lifetime _ => Option Nat

/-- The answer to a command, or why there is none. -/
abbrev Command.Reply (c : Command) : Type := Except StoreFault c.Answer

/-- A course of commands that ends in a result. -/
inductive Plan (α : Type) where
  | done (result : α)
  | ask (c : Command) (next : c.Reply → Plan α)

namespace Plan

/-- One plan after another. -/
def bind {α β : Type} : Plan α → (α → Plan β) → Plan β
  | done a, next => next a
  | ask c rest, next => ask c fun reply => (rest reply).bind next

instance : Monad Plan where
  pure := done
  bind := bind

/-- One command, and its reply. -/
def query (c : Command) : Plan c.Reply := ask c done

/-- Carries out a plan on a store that is given by how it answers. -/
def run {σ α : Type} (serve : σ → (c : Command) → c.Reply × σ) : σ → Plan α → α × σ
  | s, done a => (a, s)
  | s, ask c next =>
    let (reply, s') := serve s c
    run serve s' (next reply)

/-- Carries out a plan on a store that can break down over a command; then there is no result. -/
def attempt {σ α : Type} (serve : σ → (c : Command) → Option c.Reply × σ) : σ → Plan α → Option α × σ
  | s, done a => (some a, s)
  | s, ask c next =>
    match serve s c with
    | (some reply, s') => attempt serve s' (next reply)
    | (none, s') => (none, s')

/-- A store that never answers in time. -/
def stalled (s : Unit) (c : Command) : c.Reply × Unit := (.error .timeout, s)

end Plan

/-- A plan that stops at the first fault. -/
abbrev Query := ExceptT StoreFault Plan

/-- One command; a fault ends the plan. -/
def Query.ask (c : Command) : Query c.Answer := ExceptT.mk (Plan.query c)

end Tollgate
