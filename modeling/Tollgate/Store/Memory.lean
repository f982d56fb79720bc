/-
A store in memory. Entries past their time stay until somebody purges them or writes their key anew, so
every look-up asks whether the entry is still live. A lifetime begins with working out the instant that it
ends at, and whoever begins one that the clock cannot follow to its end breaks down over that.
-/
import Tollgate.Store.Plan
import Tollgate.Time.Duration

namespace Tollgate

/-- The first instant that the clock cannot tell: its seconds have 64 bits, one of them for the sign. -/
def clockEnd : Nat := Duration.ofSeconds (2 ^ 63)

/-- The instant that a lifetime ends at, if the clock can tell it. -/
def ending? (now lifetime : Nat) : Option Nat :=
  if now + lifetime < clockEnd then some (now + lifetime) else none

/-- A counter, and the instant it vanishes at. -/
structure Entry where
  count : Nat
  expiresAt : Option Nat
deriving DecidableEq, Repr

/-- Whether an entry is still there. -/
def Entry.isLive (e : Entry) (now : Nat) : Bool := e.expiresAt.all (now < ·)

/-- The entries by key, each key once, and whether the store answers. -/
structure Memory where
  entries : List (String × Entry)
  available : Bool
deriving DecidableEq, Repr

namespace Memory

/-- A store without entries. -/
def empty : Memory := ⟨[], true⟩

/-- The entry of a key, live or not. -/
def entry? (m : Memory) (key : String) : Option Entry := m.entries.lookup key

/-- The entry of a key as long as it is live. -/
def live? (m : Memory) (now : Nat) (key : String) : Option Entry := (m.entry? key).filter (·.isLive now)

/-- Forgets a key. -/
def remove (m : Memory) (key : String) : Memory :=
  { m with entries := m.entries.filter fun e => e.1 ≠ key }

/-- Gives a key an entry. -/
def set (m : Memory) (key : String) (e : Entry) : Memory :=
  { m with entries := (key, e) :: (m.remove key).entries }

/-- Enters a key, for a lifetime or for good. A lifetime whose end cannot be told leaves no entry. -/
def insert (m : Memory) (now : Nat) (key : String) : Option Nat → Option Memory
  | none => some (m.set key ⟨1, none⟩)
  | some lifetime => (ending? now lifetime).map fun at_ => m.set key ⟨1, some at_⟩

/-- Forgets the entries that are no longer live, and counts them. -/
def purge (m : Memory) (now : Nat) : Nat × Memory :=
  let kept := m.entries.filter fun e => e.2.isLive now
  (m.entries.length - kept.length, { m with entries := kept })

/-- Makes the store answer or fail. -/
def setAvailable (m : Memory) (available : Bool) : Memory := { m with available }

/-- Adds one to a counter, and tells its count. An entry that is no longer live counts as none; the first
violation starts the window, later ones do not move its end. If that end cannot be told the violation is
counted nevertheless, without an end and without an answer. -/
def increment (m : Memory) (now : Nat) (key : String) (window : Nat) : Option Nat × Memory :=
  let e := (m.live? now key).getD ⟨0, none⟩
  let counted : Entry := { e with count := e.count + 1 }
  if counted.count = 1 then
    match ending? now window with
    | some at_ => (some 1, m.set key { counted with expiresAt := some at_ })
    | none => (none, m.set key counted)
  else (some counted.count, m.set key counted)

/-- Forgets keys, and counts those whose entries were live. -/
def erase (m : Memory) (now : Nat) : List String → Nat × Memory
  | [] => (0, m)
  | key :: rest =>
    let (n, m') := (m.remove key).erase now rest
    (n + if (m.live? now key).isSome then 1 else 0, m')

/-- What a store says that has been made to fail. -/
def unavailable : StoreFault := .connection "in-memory denylist marked unavailable"

/-- Answers a command at an instant, or breaks down over it. -/
def serve (now : Nat) (m : Memory) (c : Command) : Option c.Reply × Memory :=
  if !m.available then (some (.error unavailable), m)
  else match c with
  | .contains key => (some (.ok (m.live? now key).isSome), m)
  | .increment key window => let (n, m') := m.increment now key window; (n.map .ok, m')
  | .count key => (some (.ok ((m.live? now key).elim 0 (·.count))), m)
  | .put key _ lifetime =>
    match m.insert now key (some lifetime) with
    | some m' => (some (.ok ()), m')
    | none => (none, m)
  | .erase keys => let (n, m') := m.erase now keys; (some (.ok n), m')
  | .lifetime key => (some (.ok (((m.live? now key).bind (·.expiresAt)).map (· - now))), m)

end Memory

end Tollgate
