/-
What refusals keep to themselves. Two requests on one protected path whose credentials are spurious, each in its own
way and each before keys of its own, are told the same, and so are two callers whose payments could not be reported,
whatever their receivers did. The causes are carried along in the refusals, but a response is made of the kind of the
refusal only.
-/
import Tollgate.Proofs.Gateway.Relay
import Tollgate.Proofs.Gateway.Traffic
import Tollgate.Proofs.Simulator.Payment

namespace Tollgate

namespace Gateway

/-! ## Spurious credentials -/

/-- The credentials of a request fail for themselves: they are no bearer token, or their token cannot be read or no
key in service has signed it. They are neither lacking nor out of time, and it is not the keys that are lacking. -/
inductive Gate.Spurious (g : Gate) (h : Headers) : Prop where
  | header {value fault} (first : h.first? "authorization" = some value)
      (other : Credentials.ofValue value = .error fault) : Spurious g h
  | token {value token keys fault} (first : h.first? "authorization" = some value)
      (bearer : Credentials.ofValue value = .ok token) (present : g.keys = some keys)
      (refused : Token.verify token keys (Duration.seconds g.settings.clockSkew) g.now = .error fault)
      (window : ∀ w, fault ≠ .outsideWindow w) : Spurious g h

theorem Gate.Spurious.lacks {g : Gate} {h : Headers} (hs : g.Spurious h) :
    ∃ detail, g.Lacks h (.tokenInvalid detail) := by
  cases hs with
  | header hf ho => exact ⟨_, .bearer hf ho⟩
  | token hf hb hk hv hw =>
    rename_i fault
    have hdetail : Refusal.ofTokenFault fault = .tokenInvalid fault.message := by
      cases fault with
      | outsideWindow w => exact absurd rfl (hw w)
      | malformed part => rfl
      | badSignature => rfl
    have hl := Lacks.verification hf hb hk hv
    rw [hdetail] at hl
    exact ⟨_, hl⟩

/-- What a request on a protected path is told of spurious credentials, and of its path if that is refused first. -/
def told (path : List Char) : Refusal :=
  match Path.check path with
  | .error fault => .invalidPath fault.message
  | .ok _ => .tokenInvalid ""

variable {σ : Type} {g : Gate} {r : Request}

open Stage (run)

/-- Spurious credentials end a request on a protected path in a way that hangs on the path alone. Nothing is looked
up, and nothing is handed on. -/
theorem Gate.run_admission_of_spurious (serve : σ → (c : Command) → c.Reply × σ)
    (behind : Option VerifiedToken → σ → (Ending × List Event) × σ) (hp : g.settings.Protected r.target.path)
    (hs : g.Spurious r.headers) (s : σ) : run serve behind (g.admission r) s =
      ((.refusal (told r.target.path), [.refusal (told r.target.path).code]), s) := by
  unfold told
  cases hc : Path.check r.target.path with
  | error fault =>
    rw [Gate.admission_of_fault hc]
    rfl
  | ok path =>
    obtain ⟨detail, hl⟩ := hs.lacks
    rw [Gate.admission_of_lacks (by rw [hc, Path.check_eq_ok hc]) hp hl]
    rfl

namespace Service

/-- A request comes as far as admission: the rate limiter has nothing against it, and its address, if it is known, is
not blocked. -/
def LetsThrough (w : Surroundings σ) (g : Gate) (r : Request) (s : σ) : Prop :=
  w.limiter r = none ∧ ∀ address, Credentials.clientAddress? g.settings.trustsForwarded r = some address →
    ((g.settings.blockList.check address).run w.blockList s).1 = .allow

theorem serve_of_spurious {w : Surroundings σ} {s : σ} (hl : LetsThrough w g r s)
    (hp : g.settings.Protected r.target.path) (hs : g.Spurious r.headers) (mark loadedAt exposition : String) :
    (serve w g mark loadedAt exposition r s).1.1 = .refusal (told r.target.path) := by
  -- what lies behind the watch, in any state
  have hbehind : ∀ s, (limited w r (admitted w g r fun _ => route g r loadedAt exposition (relayed w g r)) s).1.1 =
      .refusal (told r.target.path) := by
    intro s
    rw [limited, hl.1]
    show (run _ _ _ _).1.1 = _
    rw [Gate.run_admission_of_spurious _ _ hp hs]
  unfold serve watched
  cases hc : Credentials.clientAddress? g.settings.trustsForwarded r with
  | none =>
    rw [Traffic.watch_of_unknown hc]
    exact hbehind s
  | some address =>
    rw [Traffic.watch_of_known hc, Traffic.run_watchAddress _ _ (hl.2 address hc)]
    exact hbehind _

end Service

end Gateway

namespace Simulator.Counter

/-! ## Payments that could not be reported -/

/-- A request to pay is accepted: its body is taken in, and it is the order of a payment. -/
structure Accepts (c : Counter) (r : Request) : Prop where
  path : Endpoint.isFor r "/pay" = true
  takes : Endpoint.Takes Endpoint.maxBody r
  order : ∃ token p, c.Orders r token p

/-- The receiver does not acknowledge what is sent for a request: it cannot be reached, does not respond, or responds
with anything but success. -/
def Unacknowledged {σ : Type} (c : Counter) (r : Request) (identifier exposition : String)
    (respond : σ → Outgoing → Option Incoming × σ) (s : σ) : Prop :=
  ∀ o i, (o, some i) ∈ (c.serve identifier exposition r).exchanges respond s → ¬ (200 ≤ i.status ∧ i.status < 300)

theorem run_of_unacknowledged {σ : Type} {respond : σ → Outgoing → Option Incoming × σ} {c : Counter} {r : Request}
    {identifier exposition : String} {s : σ} (ha : c.Accepts r)
    (hu : c.Unacknowledged r identifier exposition respond s) : ∃ fault,
      ((c.serve identifier exposition r).run respond s).1 =
        some ((Refusal.callbackFailed fault).response, [.callbackFailed]) := by
  obtain ⟨token, p, ho⟩ := ha.order
  have hserve : c.serve identifier exposition r = c.pay identifier r := by rw [serve, if_pos ha.path]
  unfold Unacknowledged at hu
  rw [hserve] at hu ⊢
  obtain ⟨told, hanswer, -, -, -, -, hstatus, hfailed⟩ := run_of_orders identifier respond ha.takes ho s
  obtain ⟨fault, -, -, rfl⟩ := hfailed fun h200 => by
    obtain ⟨o, i, hsent, hsuccess⟩ := hstatus.1 h200
    exact hu o i (by rw [hsent]; exact List.mem_singleton_self _) hsuccess
  exact ⟨fault, hanswer⟩

end Simulator.Counter

/-! ## What is told -/

open Gateway (Gate Stage)
open Gateway.Service (Surroundings LetsThrough)
open Simulator (Counter)

/-- Refusals tell no details. Whatever the keys, the stores, the times and the servers behind are, spurious credentials
on one protected path end in the same response and are counted alike, at admission and at the whole gateway if
admission is reached; and so do accepted payments that the receiver does not acknowledge. -/
theorem refusals_alike {σ τ : Type} :
    (∀ serve serve' behind behind' (g g' : Gate) (r r' : Request) (s : σ) (s' : τ),
      r.target.path = r'.target.path → g.settings.Protected r.target.path → g'.settings.Protected r'.target.path →
      g.Spurious r.headers → g'.Spurious r'.headers →
      (Stage.run serve behind (g.admission r) s).1 = (Stage.run serve' behind' (g'.admission r') s').1) ∧
    (∀ (w : Surroundings σ) (w' : Surroundings τ) (g g' : Gate) (r r' : Request) (s : σ) (s' : τ)
        (mark mark' loadedAt loadedAt' exposition exposition' : String),
      r.target.path = r'.target.path → g.settings.Protected r.target.path → g'.settings.Protected r'.target.path →
      g.Spurious r.headers → g'.Spurious r'.headers → LetsThrough w g r s → LetsThrough w' g' r' s' →
      (Gateway.Service.serve w g mark loadedAt exposition r s).1.1 =
        (Gateway.Service.serve w' g' mark' loadedAt' exposition' r' s').1.1) ∧
    (∀ respond respond' (c c' : Counter) (r r' : Request) (s : σ) (s' : τ)
        (identifier identifier' exposition exposition' : String),
      c.Accepts r → c'.Accepts r' → c.Unacknowledged r identifier exposition respond s →
      c'.Unacknowledged r' identifier' exposition' respond' s' →
      ((c.serve identifier exposition r).run respond s).1 =
        ((c'.serve identifier' exposition' r').run respond' s').1) := by
  refine ⟨?_, ?_, ?_⟩
  · intro serve serve' behind behind' g g' r r' s s' hpath hp hp' hs hs'
    rw [Gate.run_admission_of_spurious serve behind hp hs, Gate.run_admission_of_spurious serve' behind' hp' hs', hpath]
  · intro w w' g g' r r' s s' mark mark' loadedAt loadedAt' exposition exposition' hpath hp hp' hs hs' hl hl'
    rw [Gateway.Service.serve_of_spurious hl hp hs, Gateway.Service.serve_of_spurious hl' hp' hs', hpath]
  · intro respond respond' c c' r r' s s' identifier identifier' exposition exposition' ha ha' hu hu'
    obtain ⟨fault, h⟩ := Counter.run_of_unacknowledged ha hu
    obtain ⟨fault', h'⟩ := Counter.run_of_unacknowledged ha' hu'
    rw [h, h']
    -- the fault is not part of the response
    rfl

/-! ## Two requests and two receivers -/

/-- A request for the wallets with some credentials. -/
def walletsWith (credentials : String) : Request where
  method := "GET"
  target := ⟨none, "/api/v1/wallets".toList, none⟩
  headers := [⟨"authorization", Bytes.ofText credentials⟩]
  peer := none
  body := []

/-- Surroundings without limits, in which no store and no server answers. -/
def desolate : Surroundings Unit := ⟨Plan.stalled, Plan.stalled, fun _ => none, fun s _ => (none, s)⟩

/-- A receiver that answers everything with one status, or not at all. -/
def receiving (status : Option Nat) (_ : Unit) (_ : Outgoing) : Option Incoming × Unit :=
  (status.map fun n => ⟨n, [], none, []⟩, ())

/-- Credentials of another scheme are told apart from a broken token as little as a receiver that is broken from one
that is silent. -/
theorem refusals_alike_samples : ∃ settings, Gateway.Settings.read Gateway.plainGateway = .ok settings ∧
    (Stage.run Plan.stalled Stage.absent ((Gateway.sampleGate settings).admission (walletsWith "Basic eDp5")) ()).1 =
      (Stage.run Plan.stalled Stage.absent ((Gateway.sampleGate settings).admission (walletsWith "Bearer a.b")) ()).1 ∧
    (Gateway.Service.serve desolate (Gateway.sampleGate settings) "" "" "" (walletsWith "Basic eDp5") ()).1.1 =
      (Gateway.Service.serve desolate (Gateway.sampleGate settings) "" "" "" (walletsWith "Bearer a.b") ()).1.1 ∧
    ((Counter.sampleCounter.serve "1" "" Counter.sampleOrder).run (receiving none) ()).1 =
      ((Counter.sampleCounter.serve "2" "" Counter.sampleOrder).run (receiving (some 503)) ()).1 := by
  obtain ⟨settings, hr, -, -, hskew, hpublic⟩ := Gateway.read_plainGateway
  have hp : ∀ credentials, settings.Protected (walletsWith credentials).target.path := fun _ =>
    Gateway.Settings.isPublic_eq_false_iff.1 hpublic
  have hother : (Gateway.sampleGate settings).Spurious (walletsWith "Basic eDp5").headers :=
    .header rfl (show Gateway.Credentials.ofValue _ = .error (.otherScheme "Basic") by decide +kernel)
  have hbroken : (Gateway.sampleGate settings).Spurious (walletsWith "Bearer a.b").headers := by
    have hbearer : Gateway.Credentials.ofValue (Bytes.ofText "Bearer a.b") = .ok "a.b" := by decide +kernel
    have hread : (Token.read "a.b").toOption.isNone = true := by decide +kernel
    cases ht : Token.read "a.b" with
    | ok parts => rw [ht] at hread; cases hread
    | error part =>
      have hverify : ∀ leeway now, Token.verify "a.b" Token.sampleKeys leeway now = .error (.malformed part) := by
        intro leeway now
        rw [Token.verify_eq, ht]
      exact .token rfl hbearer rfl (hverify _ _) fun _ => nofun
  have hlets : ∀ credentials, LetsThrough desolate (Gateway.sampleGate settings) (walletsWith credentials) () := by
    intro credentials
    have hunknown : ∀ trusts, Gateway.Credentials.clientAddress? trusts (walletsWith credentials) = none := by
      intro trusts
      cases trusts <;> rfl
    refine ⟨rfl, fun address h => ?_⟩
    rw [hunknown] at h
    cases h
  have haccepts : Counter.sampleCounter.Accepts Counter.sampleOrder :=
    ⟨by decide +kernel, Counter.takes_sampleOrder, _, _, Counter.orders_sampleOrder⟩
  have hun : ∀ identifier status, (∀ n ∈ status, 300 ≤ n) →
      Counter.sampleCounter.Unacknowledged Counter.sampleOrder identifier "" (receiving status) () := by
    intro identifier status hstatus o i hm hs
    obtain ⟨_, hreply⟩ := Errand.reply_of_mem hm
    obtain ⟨n, hn, rfl⟩ := Option.map_eq_some_iff.1 hreply.symm
    exact absurd hs.2 (Nat.not_lt.2 (hstatus n hn))
  obtain ⟨hadmission, hservice, hpayment⟩ := @refusals_alike Unit Unit
  exact ⟨settings, hr, hadmission _ _ _ _ _ _ _ _ _ _ rfl (hp _) (hp _) hother hbroken,
    hservice _ _ _ _ _ _ _ _ _ _ _ _ _ _ rfl (hp _) (hp _) hother hbroken (hlets _) (hlets _),
    hpayment _ _ _ _ _ _ _ _ _ _ _ _ haccepts haccepts (hun _ _ nofun) (hun _ _ (by simp))⟩

end Tollgate
