/-
A store on another machine. Each command becomes one or two requests, lists of words, and each request
is answered by a value. A counter that is new gets its lifetime by a request of its own.
-/
import Tollgate.Bytes.Utf8
import Tollgate.Store.Plan
import Tollgate.Text.Integer

namespace Tollgate.Remote

/-- What the machine answers to a request. -/
inductive Reply where
  | nil
  | integer (n : Int)
  /-- a short text that tells of a state -/
  | state (s : String)
  | octets (b : Bytes)
  | refused (detail : String)
  /-- the connection is gone -/
  | dropped
  /-- no answer in time -/
  | late
deriving DecidableEq, Repr

/-- A course of requests that ends in an answer. -/
inductive Talk (α : Type) where
  | done (result : Except StoreFault α)
  | send (words : List String) (next : Reply → Talk α)

namespace Reply

/-- What the machine cannot have meant. -/
def unfit {α : Type} : Except StoreFault α := .error (.backend "reply of another kind")

/-- A reply that is none, or that tells of a failure, whatever was asked. -/
def fault? : Reply → Option StoreFault
  | refused detail => some (.backend detail)
  | dropped => some (.connection "connection dropped")
  | late => some .timeout
  | _ => none

/-- Yes or no. -/
def flag : Reply → Except StoreFault Bool
  | nil => .ok false
  | integer n => .ok (n ≠ 0)
  | state s => if s = "1" ∨ s = "OK" then .ok true else if s = "0" then .ok false else unfit
  | octets b => if b = [0x31] then .ok true else if b = [0x30] then .ok false else unfit
  | _ => unfit

/-- The digits of a number. -/
def digits? : Reply → Option (List Char)
  | state s => some s.toList
  | octets b => (Utf8.text? b).map String.toList
  | _ => none

/-- A number of 64 bits without a sign; one with a sign is taken by its bits. -/
def natural (r : Reply) : Except StoreFault Nat :=
  match r with
  | integer n => .ok (n % 2 ^ 64).toNat
  | r => ((r.digits?.bind (Text.unsigned? 64)).map .ok).getD unfit

/-- A number of 64 bits with a sign. -/
def signed (r : Reply) : Except StoreFault Int :=
  match r with
  | integer n => .ok n
  | r => ((r.digits?.bind Text.int64?).map .ok).getD unfit

/-- A count; nothing counts as zero. -/
def count : Reply → Except StoreFault Nat
  | nil => .ok 0
  | r => r.natural

/-- What is left of a lifetime in nanoseconds: negative numbers say that there is no key, or no end. -/
def lifetime (r : Reply) : Except StoreFault (Option Nat) :=
  r.signed.map fun n => if 0 ≤ n then some (n.toNat * 1000000000) else none

end Reply

namespace Talk

/-- One request, and what its reply means unless it tells of a failure. -/
def request {α : Type} (words : List String) (next : Reply → Talk α) : Talk α :=
  send words fun reply =>
    match reply.fault? with
    | some fault => done (.error fault)
    | none => next reply

/-- One request with an answer. -/
def ask {α : Type} (words : List String) (read : Reply → Except StoreFault α) : Talk α :=
  request words fun reply => done (read reply)

/-- What is sent and what comes of it, if these are the replies in turn; no reply is no connection. -/
def run {α : Type} : Talk α → List Reply → Except StoreFault α × List (List String)
  | done result, _ => (result, [])
  | send words next, [] =>
    match next .dropped with
    | done result => (result, [words])
    | send _ _ => (.error (.connection "connection dropped"), [words])
  | send words next, reply :: replies =>
    let (result, sent) := (next reply).run replies
    (result, words :: sent)

end Talk

/-- A lifetime in whole seconds, at least one. -/
def seconds (nanos : Nat) : String := (max 1 (nanos / 1000000000)).repr

/-- A window in whole seconds, at least one and within 64 bits. -/
def window (nanos : Nat) : String := (min (2 ^ 63 - 1) (max 1 (nanos / 1000000000))).repr

/-- How a command is carried out. -/
def talk : (c : Command) → Talk c.Answer
  | .contains key => .ask ["EXISTS", key] Reply.flag
  | .increment key lifetime =>
    .request ["INCRBY", key, "1"] fun reply =>
      match reply.natural with
      | .error fault => .done (.error fault)
      | .ok n => if n = 1 then .ask ["EXPIRE", key, window lifetime] fun _ => .ok n else .done (.ok n)
  | .count key => .ask ["GET", key] Reply.count
  | .put key value lifetime => .ask ["SETEX", key, seconds lifetime, value] fun _ => .ok ()
  | .erase keys => .ask ("DEL" :: keys) Reply.natural
  | .lifetime key => .ask ["TTL", key] Reply.lifetime

end Tollgate.Remote
