/-
The key set in service, and how it is renewed. Readers take the snapshot as it is and see to it that
somebody renews it when that is due; a renewal that fails leaves the snapshot alone. Readers and
renewals go on side by side, so what each of them does next is a step of its own: a run of the system
is any order of such steps.
-/
import Tollgate.Keys.KeySet

namespace Tollgate

/-- A key set as it was put into service, with the number of the fetch that brought it; the set that
the cache was started with has none. -/
structure Snapshot where
  keys : KeySet
  fetch : Option Nat

/-- What readers and renewals share. -/
structure KeyCache where
  /-- nanoseconds between two renewals that nobody asked for -/
  minRefresh : Nat
  current : Option Snapshot
  lastAttempt : Option Nat
  /-- whether a renewal in the background is under way -/
  refreshing : Bool

/-- A fetch of the published keys, and what came of it. -/
abbrev FetchOutcome := Except FetchFault (List PublishedKey)

namespace KeyCache

/-- A cache without keys. -/
def empty (minRefresh : Nat) : KeyCache := ⟨minRefresh, none, none, false⟩

/-- A cache that starts with keys; the next renewal is due one interval from now. -/
def withKeys (minRefresh now : Nat) (keys : KeySet) : KeyCache :=
  ⟨minRefresh, some ⟨keys, none⟩, some now, false⟩

/-- Whether a renewal is due. -/
def refreshDue (c : KeyCache) (now : Nat) : Bool :=
  c.lastAttempt.all fun attempt => c.minRefresh ≤ now - attempt

/-- Puts the keys of a fetch into service, if there are any. -/
def install (c : KeyCache) (fetch : Nat) (outcome : FetchOutcome) : Except FetchFault Snapshot × KeyCache :=
  match outcome >>= KeySet.ofPublished with
  | .ok keys => let s : Snapshot := ⟨keys, some fetch⟩; (.ok s, { c with current := some s })
  | .error fault => (.error fault, c)

end KeyCache

/-! ## Runs -/

/-- What a reader has got to: the start, a snapshot in hand, a renewal found due, the end. -/
inductive Reader where
  | start
  | holding (s : Snapshot)
  | due (s : Snapshot)
  | finished (result : Except FetchFault Snapshot)

/-- What a renewal has got to: the start, the attempt noted, a fetch under way, its result in service,
the end. -/
inductive Renewal where
  | start
  | noted
  | fetching (fetch : Nat)
  | installed (result : Except FetchFault Snapshot)
  | finished (result : Except FetchFault Snapshot)

/-- Somebody at work on the cache. A renewal in the background was started by a reader, one in the
foreground by a caller who waits for it. -/
inductive Worker where
  | reader (r : Reader)
  | renewal (background : Bool) (r : Renewal)

/-- A fetch that has begun: when, and whether a reader's renewal began it. -/
structure FetchRecord where
  at_ : Nat
  background : Bool
deriving DecidableEq, Repr

/-- The cache, everybody at work on it, the fetches begun so far and the time. -/
structure KeyService where
  cache : KeyCache
  workers : List Worker
  fetches : List FetchRecord
  now : Nat
  /-- whether readers can start renewals at all -/
  spawns : Bool

/-- What may happen next: time passes, somebody comes, or a worker takes its next step. The outcome
matters only to a worker whose fetch is under way. -/
inductive KeyEvent where
  | elapse (nanos : Nat)
  | read
  | renew
  | step (worker : Nat) (outcome : FetchOutcome)

namespace KeyService

/-- A cache with nobody at work on it. -/
def ofCache (cache : KeyCache) (now : Nat) (spawns : Bool) : KeyService := ⟨cache, [], [], now, spawns⟩

/-- Puts a worker in place of another. -/
def put (s : KeyService) (i : Nat) (w : Worker) : KeyService := { s with workers := s.workers.set i w }

/-- A reader's next step: take the snapshot, see whether a renewal is due, and start one if nobody
else has. -/
def stepReader (s : KeyService) (i : Nat) : Reader → KeyService
  | .start =>
    match s.cache.current with
    | some snapshot => s.put i (.reader (.holding snapshot))
    | none => s.put i (.reader (.finished (.error .notInitialized)))
  | .holding snapshot =>
    s.put i (.reader (if s.cache.refreshDue s.now then .due snapshot else .finished (.ok snapshot)))
  | .due snapshot =>
    let s := s.put i (.reader (.finished (.ok snapshot)))
    if s.spawns && !s.cache.refreshing then
      { s with
        cache := { s.cache with refreshing := true }
        workers := s.workers ++ [.renewal true .start] }
    else s
  | .finished result => s.put i (.reader (.finished result))

/-- A renewal's next step: note the attempt, begin the fetch, put its result into service, and in the
background make room for the next renewal. -/
def stepRenewal (s : KeyService) (i : Nat) (background : Bool) (outcome : FetchOutcome) :
    Renewal → KeyService
  | .start =>
    { s with cache := { s.cache with lastAttempt := some s.now } }.put i (.renewal background .noted)
  | .noted =>
    { s with fetches := s.fetches ++ [FetchRecord.mk s.now background] }.put i
      (.renewal background (.fetching s.fetches.length))
  | .fetching fetch =>
    let (result, cache) := s.cache.install fetch outcome
    { s with cache }.put i (.renewal background (.installed result))
  | .installed result =>
    let cache := if background then { s.cache with refreshing := false } else s.cache
    { s with cache }.put i (.renewal background (.finished result))
  | .finished result => s.put i (.renewal background (.finished result))

/-- What happens next. -/
def step (s : KeyService) : KeyEvent → KeyService
  | .elapse nanos => { s with now := s.now + nanos }
  | .read => { s with workers := s.workers ++ [.reader .start] }
  | .renew => { s with workers := s.workers ++ [.renewal false .start] }
  | .step i outcome =>
    match s.workers[i]? with
    | some (.reader r) => s.stepReader i r
    | some (.renewal background r) => s.stepRenewal i background outcome r
    | none => s

/-- What has happened after a course of events. -/
def run (s : KeyService) (events : List KeyEvent) : KeyService := events.foldl step s

end KeyService

end Tollgate
