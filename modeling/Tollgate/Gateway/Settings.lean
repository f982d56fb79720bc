/-
The settings of the gateway, and the rules on paths that follow from them: which are public, and which
scope a path requires.
-/
import Tollgate.Guard.BlockList
import Tollgate.Guard.Denylist
import Tollgate.Settings.Report
import Tollgate.Settings.Variables
import Tollgate.Time.Duration

namespace Tollgate.Gateway

/-- Paths that begin in a certain way require a scope. -/
structure ScopeRule where
  beginning : String
  scope : String
deriving DecidableEq, Repr

/-- Where the deny list is kept. -/
inductive StoreKind where
  | remote
  /-- in the memory of the gateway, where nobody else writes to it -/
  | memory
deriving DecidableEq, Repr

/-- Where the deny list is found; durations are in nanoseconds. -/
structure StoreSettings where
  kind : StoreKind
  endpoint : String
  stem : String
  database : Option Int
  timeout : Nat
deriving DecidableEq, Repr

/-- The settings of the gateway; durations are in nanoseconds. -/
structure Settings where
  /-- the number that connections come in at -/
  listensAt : Nat
  /-- where requests are passed on to -/
  backendUrl : String
  backendTimeout : Nat
  keysUrl : String
  keysMinRefresh : Nat
  /-- widens the window of tokens -/
  clockSkew : Nat
  store : StoreSettings
  publicBeginnings : List String
  /-- requests a minute -/
  rateLimit : Nat
  blockList : BlockList
  trustsForwarded : Bool
  scopeRules : List ScopeRule
  metricsToken : Option String
deriving DecidableEq, Repr

/-- Whether a path begins in a certain way. -/
def beginsWith (beginning : String) (path : List Char) : Bool := beginning.toList.isPrefixOf path

/-- Of rules that fit a path the one with the longest beginning, and of equal ones the last. -/
def longest : Option ScopeRule → List ScopeRule → Option ScopeRule
  | best, [] => best
  | none, rule :: rest => longest (some rule) rest
  | some best, rule :: rest =>
    longest (some (if rule.beginning.length < best.beginning.length then best else rule)) rest

namespace StoreSettings

/-- The address of the store; a scheme may be left out. -/
def url (s : StoreSettings) : String :=
  if hasMark s.endpoint.toList then s.endpoint else "redis://" ++ s.endpoint
where
  /-- Whether there is a mark between scheme and host. -/
  hasMark : List Char → Bool
    | ':' :: '/' :: '/' :: _ => true
    | _ :: rest => hasMark rest
    | [] => false

end StoreSettings

namespace Settings

/-- The scope that a path requires. -/
def requiredScope? (s : Settings) (path : List Char) : Option String :=
  (longest none (s.scopeRules.filter fun rule => beginsWith rule.beginning path)).map (·.scope)

/-- The paths that are always public. -/
def alwaysPublic : List String := ["/health", "/metrics"]

/-- Whether a path begins like a public one. -/
def beginsPublic (s : Settings) (path : List Char) : Bool := s.publicBeginnings.any (beginsWith · path)

/-- Whether a path needs no token. One that requires a scope does, unless it is always public. -/
def isPublic (s : Settings) (path : List Char) : Bool :=
  alwaysPublic.contains (String.ofList path) || (s.beginsPublic path && (s.requiredScope? path).isNone)

/-! ## Reading -/

/-- What public paths begin with unless something else is asked for. -/
def defaultPublicBeginnings : List String :=
  ["/api/v1/auth/request", "/api/v1/auth/verify", "/api/v1/auth/refresh", "/api/v1/auth/resend-otp",
    "/api/v1/pin/reset/request", "/api/v1/pin/reset/verify", "/oauth2/jwks"]

/-- The rule of an entry `beginning=scope`. -/
def scopeRule? (entry : String) : Option ScopeRule := do
  let (beginning, scope) ← Text.cutAt? (· == '=') entry.toList
  let beginning := Text.trimmed beginning
  let scope := Text.trimmed scope
  if beginning.head? = some '/' ∧ scope ≠ [] then some ⟨String.ofList beginning, String.ofList scope⟩
  else none

/-- All rules, or the first entry that is none. -/
def readScopeRules (vars : Variables) : Except SettingsFault (List ScopeRule) :=
  (vars.list "SCOPE_RULES" []).mapM fun entry =>
    match scopeRule? entry with
    | some rule => .ok rule
    | none => .error (.invalidValue "SCOPE_RULES" entry)

/-- The kind of store by name. -/
def storeKind? (s : List Char) : Option StoreKind :=
  if s = "redis".toList then some .remote
  else if s = "memory".toList then some .memory
  else none

/-- The number of a database. -/
def database? (s : List Char) : Option Int := (Text.int64? s).filter (0 ≤ ·)

/-- The settings of the store. -/
def readStore (vars : Variables) : Except SettingsFault StoreSettings := do
  return {
    kind := ← vars.read storeKind? "DENYLIST_BACKEND" .remote
    database := ← vars.read (fun s => (database? s).map some) "DENYLIST_DB" none
    endpoint := (vars.value? "DENYLIST_ENDPOINT").getD "redis://127.0.0.1:6379"
    stem := (vars.value? "DENYLIST_KEY_PREFIX").getD Denylist.defaultStem
    timeout := Duration.ofMillis (← vars.natural 64 "DENYLIST_TIMEOUT_MS" 500) }

/-- The settings of the block list. -/
def readBlockList (vars : Variables) : Except SettingsFault BlockList := do
  let d := BlockList.default
  return {
    enabled := ← vars.flag "IP_BLOCKING_ENABLED" d.enabled
    blocksLocalhost := ← vars.flag "IP_BLOCKING_ALLOW_LOCALHOST" d.blocksLocalhost
    violationThreshold := ← vars.positive 64 "IP_VIOLATION_THRESHOLD" d.violationThreshold
    violationWindow := ← seconds "IP_VIOLATION_WINDOW_SECS" d.violationWindow
    blockDuration := ← seconds "IP_BLOCK_DURATION_SECS" d.blockDuration
    suspiciousThreshold := ← vars.positive 64 "IP_SUSPICIOUS_THRESHOLD" d.suspiciousThreshold
    suspiciousDuration := ← seconds "IP_SUSPICIOUS_DURATION_SECS" d.suspiciousDuration
    whitelist := vars.list "IP_WHITELIST" [] }
where
  /-- A duration in seconds. -/
  seconds (key : String) (default : Nat) : Except SettingsFault Nat :=
    (vars.positive 64 key (Duration.seconds default)).map Duration.ofSeconds

/-- The settings of variables. What is looked at first is what an error is about. -/
def read (vars : Variables) : Except SettingsFault Settings := do
  return {
    backendUrl := ← vars.url "UPSTREAM_URL"
    keysUrl := ← vars.url "JWKS_URL"
    listensAt := ← vars.natural 16 "PORT" 8080
    backendTimeout := Duration.ofSeconds (← vars.natural 64 "UPSTREAM_TIMEOUT_SECS" 30)
    keysMinRefresh := Duration.ofSeconds (← vars.natural 64 "JWKS_MIN_REFRESH_SECS" 900)
    clockSkew := Duration.ofSeconds (← vars.natural 64 "JWT_CLOCK_SKEW_SECS" 0)
    store := ← readStore vars
    publicBeginnings := vars.list "PUBLIC_PATH_PREFIXES" defaultPublicBeginnings
    rateLimit := ← vars.positive 32 "RATE_LIMIT_RPM" 600
    blockList := ← readBlockList vars
    trustsForwarded := ← vars.flag "TRUST_FORWARDED_FOR" false
    scopeRules := ← readScopeRules vars
    metricsToken := vars.value? "METRICS_TOKEN" }

/-! ## The report -/

/-- The form of a rule. -/
def showRule (rule : ScopeRule) : String :=
  Report.record "ScopeRule"
    [("path_prefix", Text.quoted rule.beginning), ("scope", Text.quoted rule.scope)]

/-- The form of the block list's settings; its lookups have the time that the store's have. -/
def showBlockList (b : BlockList) (timeout : Nat) : String :=
  Report.record "IpBlockConfig"
    [("enabled", Report.flag b.enabled), ("allow_localhost_blocking", Report.flag b.blocksLocalhost),
      ("violation_threshold", b.violationThreshold.repr),
      ("violation_window", Duration.shown b.violationWindow),
      ("block_duration", Duration.shown b.blockDuration),
      ("suspicious_threshold", b.suspiciousThreshold.repr),
      ("suspicious_duration", Duration.shown b.suspiciousDuration),
      ("whitelisted_ips", Report.list (b.whitelist.map Text.quoted)),
      ("lookup_timeout", Duration.shown timeout)]

/-- The form of a kind of store. -/
def showKind : StoreKind → String
  | .remote => "Redis"
  | .memory => "Memory"

/-- All settings, without secrets. -/
def report (s : Settings) : String :=
  Report.record "GatewayConfig"
    [("port", s.listensAt.repr), ("upstream_url", Text.quoted s.backendUrl),
      ("upstream_timeout", Duration.shown s.backendTimeout), ("jwks_url", Text.quoted s.keysUrl),
      ("jwks_min_refresh", Duration.shown s.keysMinRefresh),
      ("clock_skew", Duration.shown s.clockSkew), ("denylist_kind", showKind s.store.kind),
      ("denylist_endpoint", Text.quoted (Report.endpoint s.store.endpoint)),
      ("denylist_prefix", Text.quoted s.store.stem),
      ("denylist_db", Report.optional (s.store.database.map fun n => toString n)),
      ("public_path_prefixes", Report.list (s.publicBeginnings.map Text.quoted)),
      ("rate_limit_rpm", s.rateLimit.repr), ("ip_block", showBlockList s.blockList s.store.timeout),
      ("trust_forwarded_for", Report.flag s.trustsForwarded),
      ("scope_rules", Report.list (s.scopeRules.map showRule)),
      ("metrics_token", Report.secret s.metricsToken)]

end Settings

end Tollgate.Gateway
