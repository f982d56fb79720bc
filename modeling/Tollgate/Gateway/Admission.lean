/-
Admission: a request on a protected path needs a token that verifies, is not on the deny list and grants
the scope that the path requires. What fails first is what the client is told.
-/
import Tollgate.Gateway.Credentials
import Tollgate.Gateway.Path
import Tollgate.Gateway.Settings
import Tollgate.Gateway.Stage

namespace Tollgate.Gateway

/-- What admission goes by: the settings, the keys in service if there are any, and the time in
seconds. -/
structure Gate where
  settings : Settings
  keys : Option KeySet
  now : Int

namespace Gate

/-- The deny list. -/
def denylist (g : Gate) : Denylist := ⟨g.settings.store.stem⟩

/-- The verified token of a request. -/
def authenticate (g : Gate) (h : Headers) : Except Refusal VerifiedToken :=
  match Credentials.bearer? h with
  | .error fault => .error (.tokenInvalid fault.message)
  | .ok none => .error .tokenMissing
  | .ok (some token) =>
    match g.keys with
    | none => .error (.ofFetchFault .notInitialized)
    | some keys =>
      (Token.verify token keys (Duration.seconds g.settings.clockSkew) g.now).mapError .ofTokenFault

/-- The token that a request is judged by: none on a public path. -/
def identify (g : Gate) (path : List Char) (h : Headers) : Except Refusal (Option VerifiedToken) :=
  if g.settings.isPublic path then .ok none else (g.authenticate h).map some

/-- Refuses a request before or after the deny list was asked, and counts that. -/
def refuse (r : Refusal) : Stage (Option VerifiedToken) Ending :=
  .note (.refusal r.code) (.done (.refusal r))

/-- Hands a request on if its token grants the scope that the path requires. -/
def enforce (g : Gate) (path : List Char) (token : Option VerifiedToken) :
    Stage (Option VerifiedToken) Ending :=
  match g.settings.requiredScope? path with
  | none => .handOn token .done
  | some scope =>
    if token.any (·.hasScope scope) then .handOn token .done else refuse (.insufficientScope scope)

/-- What the deny list leads to. -/
def afterCheck (g : Gate) (path : List Char) (token : Option VerifiedToken) (a : Admission) :
    Stage (Option VerifiedToken) Ending :=
  .note (.admission a) (if a.isRejected then .done (.refusal .tokenRevoked) else g.enforce path token)

/-- Admission of a request. The token is handed on with it. -/
def admission (g : Gate) (r : Request) : Stage (Option VerifiedToken) Ending :=
  match Path.check r.target.path with
  | .error fault => refuse (.invalidPath fault.message)
  | .ok path =>
    match g.identify path r.headers with
    | .error refusal => refuse refusal
    | .ok token => .ofPlan (g.denylist.admission token) (g.afterCheck path token)

end Gate

end Tollgate.Gateway
