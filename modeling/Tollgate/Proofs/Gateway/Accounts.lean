/-
Whole runs of the watch over addresses: requests of any clients, one after another, over any store and in front of
any service. Every request leaves an account of what the block list said, how often the service behind was reached
and how it ended there, what passed between the watch and the store, and what the client got. The accounts of a run
add up: the service is reached by all requests that are not turned away, and a counter is raised by those of its
address that came too soon.
-/
import Tollgate.Proofs.Gateway.Traffic
import Tollgate.Proofs.Guard.History

namespace Tollgate.Gateway.Traffic

open BlockList (violationKey KeyOf)
open Stage (run endings exchanges)

variable {σ : Type}

/-! ## One request -/

section Request

variable (serve : σ → (c : Command) → c.Reply × σ) (behind : Unit → σ → (Ending × List Event) × σ)
  {b : BlockList} {mark address : String} {s : σ}

theorem exchanges_settle (b : BlockList) (mark address : String) (ending : Ending) (s : σ) :
    exchanges serve behind (settle b mark address ending) s =
      if ending.status = tooMany then (b.recordViolation mark address).run.exchanges serve s else [] := by
  unfold settle
  split
  · rw [Stage.exchanges_ofPlan]
    exact List.append_nil _
  · rfl

theorem exchanges_watchAddress (mark : String) (h : ((b.check address).run serve s).1 = .allow) :
    ∃ s', exchanges serve behind (watchAddress b mark address) s = (b.check address).exchanges serve s ++
      if (run serve behind (watchAddress b mark address) s).1.1.status = tooMany then
        (b.recordViolation mark address).run.exchanges serve s'
      else [] := by
  rw [run_watchAddress serve behind h]
  unfold watchAddress
  rw [Stage.exchanges_ofPlan, h]
  exact ⟨_, congrArg _ (exchanges_settle serve behind b mark address _ _)⟩

end Request

/-! ## Accounts -/

/-- A request, the instant that it comes at, and the mark that a flag would show for it. -/
structure Visit where
  time : Nat
  mark : String
  request : Request

/-- What is known of a request once it is over. -/
structure Account (σ : Type) where
  visit : Visit
  before : σ
  /-- what the block list said of the client's address, if that is known -/
  decision : Option BlockDecision
  /-- how the service behind ended, each time that it was reached -/
  inner : List Ending
  asked : List Exchange
  ending : Ending
  events : List Event
  after : σ

variable (b : BlockList) (trusts : Bool) (serve : Visit → σ → (c : Command) → c.Reply × σ)
  (behind : Visit → σ → (Ending × List Event) × σ)

def account (v : Visit) (s : σ) : Account σ :=
  let stage := watch b trusts v.mark v.request
  let result := run (serve v) (fun _ => behind v) stage s
  { visit := v
    before := s
    decision := (Credentials.clientAddress? trusts v.request).map fun a => ((b.check a).run (serve v) s).1
    inner := endings (serve v) (fun _ => behind v) stage s
    asked := exchanges (serve v) (fun _ => behind v) stage s
    ending := result.1.1
    events := result.1.2
    after := result.2 }

def accounts : List Visit → σ → List (Account σ)
  | [], _ => []
  | v :: rest, s => account b trusts serve behind v s :: accounts rest (account b trusts serve behind v s).after

theorem mem_accounts {visits : List Visit} {s : σ} {x : Account σ} (h : x ∈ accounts b trusts serve behind visits s) :
    ∃ s', x = account b trusts serve behind x.visit s' := by
  induction visits generalizing s with
  | nil => cases h
  | cons v rest ih =>
    rcases List.mem_cons.1 h with rfl | h
    · exact ⟨s, rfl⟩
    · exact ih h

namespace Account

/-- Whether the block list said that the client's address is blocked. -/
def isTurnedAway (x : Account σ) : Bool :=
  match x.decision with
  | some (.blocked _) => true
  | _ => false

/-- The address of the client if it is one that violations are counted for. -/
def counted? (x : Account σ) : Option String :=
  (Credentials.clientAddress? trusts x.visit.request).filter (b.isWatched ·)

/-- Whether a request is a violation by an address: let through, it came too soon. -/
def violates (address : String) (x : Account σ) : Bool :=
  !x.isTurnedAway && decide (x.ending.status = tooMany) && x.counted? b trusts == some address

end Account

/-! ## Every account -/

/-- A request of a client for a path at an instant. -/
def visitOf (path : String) (octets : List Nat) (time : Nat) : Visit where
  time := time
  mark := ""
  request :=
    { method := "GET", target := ⟨none, path.toList, none⟩, headers := [], peer := some (.v4 ⟨octets⟩), body := [] }

end Tollgate.Gateway.Traffic
