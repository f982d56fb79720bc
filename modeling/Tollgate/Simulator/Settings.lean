/-
The settings of the payment simulator.
-/
import Tollgate.Settings.Report
import Tollgate.Settings.Variables
import Tollgate.Time.Duration

namespace Tollgate.Simulator

/-- The settings of the payment simulator; durations are in nanoseconds. -/
structure Settings where
  /-- the number that connections come in at -/
  listensAt : Nat
  keysUrl : String
  keysMinRefresh : Nat
  /-- widens the window of tokens -/
  clockSkew : Nat
  /-- where notices go -/
  receiverUrl : String
  /-- what notices are signed with -/
  secret : String
  deliveryTimeout : Nat
  /-- what references begin with -/
  referenceStem : String
  metricsToken : Option String
deriving DecidableEq, Repr

namespace Settings

/-- The settings of variables. What is looked at first is what an error is about. -/
def read (vars : Variables) : Except SettingsFault Settings := do
  return {
    keysUrl := ← vars.url "JWKS_URL"
    receiverUrl := ← vars.url "CALLBACK_URL"
    secret := ← vars.required "CALLBACK_SECRET"
    listensAt := ← vars.natural 16 "PORT" 8090
    keysMinRefresh := Duration.ofSeconds (← vars.natural 64 "JWKS_MIN_REFRESH_SECS" 900)
    clockSkew := Duration.ofSeconds (← vars.natural 64 "JWT_CLOCK_SKEW_SECS" 0)
    deliveryTimeout := Duration.ofSeconds (← vars.positive 64 "CALLBACK_TIMEOUT_SECS" 10)
    referenceStem := (vars.value? "REFERENCE_PREFIX").getD "mock-ref-"
    metricsToken := vars.value? "METRICS_TOKEN" }

/-- All settings, without secrets. -/
def report (s : Settings) : String :=
  Report.record "PaySimConfig"
    [("port", s.listensAt.repr), ("jwks_url", Text.quoted s.keysUrl),
      ("jwks_min_refresh", Duration.shown s.keysMinRefresh),
      ("clock_skew", Duration.shown s.clockSkew), ("callback_url", Text.quoted s.receiverUrl),
      ("callback_secret", Text.quoted Report.hidden),
      ("callback_timeout", Duration.shown s.deliveryTimeout),
      ("reference_prefix", Text.quoted s.referenceStem),
      ("metrics_token", Report.secret s.metricsToken)]

end Settings

end Tollgate.Simulator
