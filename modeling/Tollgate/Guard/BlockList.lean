/-
The block list of client addresses. Violations are counted within a window; some of them flag an
address, more of them block it for a while. The list lives in the same store as the deny list, under
keys of its own.
-/
import Tollgate.Store.Plan
import Tollgate.Text.Blank
import Tollgate.Time.Duration

namespace Tollgate

/-- What the block list says of an address. -/
inductive BlockDecision where
  | allow
  /-- refused; nanoseconds until the next try makes sense -/
  | blocked (retryAfter : Nat)
deriving DecidableEq, Repr

/-- What a violation led to. -/
inductive ViolationOutcome where
  | ignored
  | counted (n : Nat)
  | suspicious (n : Nat)
  | blocked (n : Nat)
deriving DecidableEq, Repr

/-- The settings of a block list; durations in nanoseconds. -/
structure BlockList where
  enabled : Bool
  /-- whether the own host may be blocked -/
  blocksLocalhost : Bool
  violationThreshold : Nat
  violationWindow : Nat
  blockDuration : Nat
  suspiciousThreshold : Nat
  suspiciousDuration : Nat
  /-- addresses that are never looked at -/
  whitelist : List String
deriving DecidableEq, Repr

namespace BlockList

/-- The settings unless others are given. -/
def default : BlockList where
  enabled := true
  blocksLocalhost := false
  violationThreshold := 10
  violationWindow := Duration.ofSeconds 300
  blockDuration := Duration.ofSeconds 3600
  suspiciousThreshold := 5
  suspiciousDuration := Duration.ofSeconds 1800
  whitelist := []

/-- The key of a block. -/
def blockedKey (address : String) : String := "security:blocked:ip:" ++ address

/-- The key of a violation counter. -/
def violationKey (address : String) : String := "security:violations:" ++ address

/-- The key of a flag. -/
def suspiciousKey (address : String) : String := "security:suspicious:ip:" ++ address

/-- Whether a text names the own host in one of its usual spellings. -/
def isLocalhost (address : String) : Bool :=
  address == "127.0.0.1" || address == "::1" || address == "0:0:0:0:0:0:0:1" ||
    Text.lowered address == "localhost"

/-- Whether a text names no address. -/
def isBlank (address : String) : Bool := (Text.trimmed address.toList).isEmpty

/-- Whether an address is one of those that are never looked at. -/
def isWhitelisted (b : BlockList) (address : String) : Bool := b.whitelist.contains address

/-- Whether an address cannot be blocked. -/
def isExempt (b : BlockList) (address : String) : Bool :=
  isBlank address || (isLocalhost address && !b.blocksLocalhost)

/-- Whether an address is looked at when it comes in. -/
def isWatched (b : BlockList) (address : String) : Bool :=
  b.enabled && !b.isWhitelisted address && !b.isExempt address

/-- What is left of a block; nothing if there is none or it has no end. -/
def remaining (address : String) : Query Nat := do
  return (← Query.ask (.lifetime (blockedKey address))).getD 0

/-- How long a blocked client is told to wait: what is left of the block, or all of its duration if
that is not known. -/
def retryAfter (b : BlockList) : Except StoreFault Nat → Nat
  | .ok 0 => b.blockDuration
  | .ok left => left
  | .error _ => b.blockDuration

/-- Whether requests of an address may go on. A store that gives no answer lets them. -/
def check (b : BlockList) (address : String) : Plan BlockDecision := do
  if !b.isWatched address then return .allow
  match ← Plan.query (.contains (blockedKey address)) with
  | .ok true => return .blocked (b.retryAfter (← remaining address))
  | _ => return .allow

/-- Whether an address is flagged. -/
def isSuspicious (address : String) : Query Bool := do
  if isBlank address then return false
  Query.ask (.contains (suspiciousKey address))

/-- Blocks an address, and takes its flag away. Says whether the address could be blocked. -/
def block (b : BlockList) (address reason : String) : Query Bool := do
  if b.isExempt address then return false
  let _ ← Query.ask (.put (blockedKey address) reason b.blockDuration)
  let _ ← Query.ask (.erase [suspiciousKey address])
  return true

/-- Flags an address with a mark, unless it is flagged already. -/
def markSuspicious (b : BlockList) (mark address : String) : Query Unit := do
  if b.isExempt address then return
  if ← Query.ask (.contains (suspiciousKey address)) then return
  Query.ask (.put (suspiciousKey address) mark b.suspiciousDuration)

/-- The reason given for a block. -/
def reason (count : Nat) : String := "Exceeded rate limit violations: " ++ count.repr

/-- Counts a violation, and flags or blocks the address at the thresholds. The mark is what a flag
shows. -/
def recordViolation (b : BlockList) (mark address : String) : Query ViolationOutcome := do
  if !b.isWatched address then return .ignored
  let count ← Query.ask (.increment (violationKey address) b.violationWindow)
  if b.violationThreshold ≤ count then
    let _ ← b.block address (reason count)
    return .blocked count
  else if b.suspiciousThreshold ≤ count then
    b.markSuspicious mark address
    return .suspicious count
  else
    return .counted count

/-- Lifts a block and forgets the address. Says whether there was anything to forget. -/
def unblock (address : String) : Query Bool := do
  if isBlank address then return false
  let erased ← Query.ask (.erase [blockedKey address, violationKey address, suspiciousKey address])
  return 0 < erased

/-- The violations counted in the current window. -/
def violationCount (address : String) : Query Nat := Query.ask (.count (violationKey address))

end BlockList

end Tollgate
