/-
What comes of a payment request. A payment that a verified caller reports is passed on in one call of the emitter,
together with the token that was verified, and its caller is told of success exactly if the receiver has acknowledged
it. Every other request is answered by the first check that fails: the token, the method, the body. Before all of them
the server refuses bodies that are too long or cannot be read. There is no answer if reading the body of a known caller
stops.
-/
import Tollgate.Proofs.Net.Endpoint
import Tollgate.Proofs.Payment.Delivery
import Tollgate.Proofs.Payment.Wire
import Tollgate.Proofs.Text.Trim
import Tollgate.Proofs.Token.Verification
import Tollgate.Simulator.Service

namespace Tollgate

namespace Simulator

/-! ## Refusals and events -/

theorem Refusal.status_response (f : Refusal) : f.response.status = f.status := by
  cases f <;> rfl

theorem Refusal.status_response_ne (f : Refusal) : f.response.status ≠ 200 := by
  rw [status_response]
  cases f <;> simp only [status, ne_eq, Nat.reduceEqDiff, not_false_eq_true]

/-- Whether an event is that a delivery was tried. -/
def Event.isTry : Event → Bool
  | .invalid => false
  | .success | .callbackFailed => true

namespace Counter

variable (c : Counter)

/-! ## The caller -/

/-- Header fields bear a token: the first field of credentials is a text that names the scheme, and the token is what
is left behind that, without the white space around it. -/
def Bears (h : Headers) (token : String) : Prop :=
  ∃ value rest, h.first? "authorization" = some value ∧ Headers.text? value = some ("Bearer " ++ rest) ∧
    token = Text.trim rest ∧ token ≠ ""

/-- The keys in service verify a token now. -/
def Verifies (token : String) : Prop :=
  ∃ keys t, c.keys = some keys ∧ Token.verify token keys (Duration.seconds c.settings.clockSkew) c.now.secs = .ok t

theorem bearer_eq_ok_iff {h : Headers} {token : String} : bearer h = .ok token ↔ Bears h token := by
  have hlength : "Bearer ".toList.length = 7 := rfl
  unfold bearer Bears
  constructor
  · intro ho
    split at ho
    · cases ho
    rename_i value hf
    split at ho
    · cases ho
    rename_i text ht
    simp only at ho
    split at ho
    · rename_i hp
      rw [Bool.and_eq_true, Bool.not_eq_true', List.isPrefixOf_iff_prefix] at hp
      obtain ⟨⟨rest, hr⟩, hne⟩ := hp
      cases ho
      have htext : text = "Bearer " ++ String.ofList rest := by
        rw [← String.toList_inj, String.toList_append, String.toList_ofList (l := rest), hr]
      rw [← hr, ← hlength, List.drop_left] at hne ⊢
      refine ⟨value, String.ofList rest, hf, by rw [ht, htext], by rw [Text.trim, String.toList_ofList], ?_⟩
      rw [ne_eq, String.ofList_eq_empty_iff]
      exact List.isEmpty_eq_false_iff.1 hne
    · cases ho
  · rintro ⟨value, rest, hf, ht, rfl, hne⟩
    have hp : "Bearer ".toList.isPrefixOf ("Bearer " ++ rest).toList = true := by
      rw [List.isPrefixOf_iff_prefix, String.toList_append]
      exact List.prefix_append _ _
    have hdrop : ("Bearer " ++ rest).toList.drop 7 = rest.toList := by
      rw [String.toList_append, ← hlength, List.drop_left]
    have hfull : (Text.trimmed rest.toList).isEmpty = false := by
      rw [List.isEmpty_eq_false_iff]
      intro he
      rw [Text.trim, he] at hne
      exact hne rfl
    rw [hf]
    simp only [ht, hdrop, hp, hfull, Bool.not_false, Bool.and_self, if_true]
    rfl

/-- Credentials that are made of a token bear it. -/
theorem bears_bearer {token : String} (h : token.toList.all isVisible = true) (hn : token ≠ "") :
    Bears [⟨"authorization", Bytes.ofText ("Bearer " ++ token)⟩] token :=
  ⟨_, token, rfl, Headers.text?_bearer h, by rw [Text.trim, Text.trimmed_of_visible h, String.ofList_toList], hn⟩

/-- A token that was received can be passed on. -/
theorem Bears.isValue {h : Headers} {token : String} (hb : Bears h token) :
    Headers.isValue (Bytes.ofText ("Bearer " ++ token)) = true := by
  obtain ⟨value, rest, -, ht, rfl, -⟩ := hb
  refine Headers.isValue_ofText fun c hc => (Headers.text?_eq_some_iff.1 ht).2 c ?_
  rw [String.toList_append, List.mem_append] at hc ⊢
  refine hc.imp_right fun hc => ?_
  rw [Text.trim, String.toList_ofList] at hc
  exact Text.mem_of_mem_trimmed hc

theorem authenticate_eq (h : Headers) : c.authenticate h = match bearer h with
    | .error refusal => .error refusal
    | .ok token => match c.keys with
      | none => .error (.ofFetchFault .notInitialized)
      | some keys => match Token.verify token keys (Duration.seconds c.settings.clockSkew) c.now.secs with
        | .error fault => .error (.ofTokenFault fault)
        | .ok _ => .ok token := by
  unfold authenticate
  cases bearer h with
  | error refusal => rfl
  | ok token =>
    cases c.keys with
    | none => rfl
    | some keys =>
      cases hv : Token.verify token keys (Duration.seconds c.settings.clockSkew) c.now.secs with
      | error fault => simp only [bind, Except.bind, hv, Except.mapError]
      | ok t => simp only [bind, Except.bind, hv, Except.mapError]; rfl

variable {c} in
theorem authenticate_of_verifies {h : Headers} {token : String} (hb : Bears h token) (hv : c.Verifies token) :
    c.authenticate h = .ok token := by
  obtain ⟨keys, t, hk, hv⟩ := hv
  rw [authenticate_eq, bearer_eq_ok_iff.2 hb, hk]
  simp only [hv]

/-- A request is the order of a payment: its caller is known by a token, its method is the one of orders, and its body
is read as a payment into an account that is not blank. -/
structure Orders (r : Request) (token : String) (p : Payment) : Prop where
  bears : Bears r.headers token
  verifies : c.Verifies token
  method : r.method = "POST"
  payment : (Json.Tree.ofBytes? r.body).bind Payment.ofTree? = some p
  account : (Text.trimmed p.account.toList).isEmpty = false

variable {c} {r : Request} (identifier : String)

/-- An order is one call of the emitter. -/
theorem pay_of_orders {token : String} {p : Payment} (ht : Endpoint.Takes Endpoint.maxBody r)
    (h : c.Orders r token p) : c.pay identifier r =
      (c.emitter.emit p token identifier c.now).map fun result => some (delivered result) := by
  rw [pay, Endpoint.body_of_takes ht]
  simp only [authenticate_of_verifies h.bears h.verifies]
  simp only [payAs, h.method, not_true_eq_false, if_false, ne_eq, Counter.payment,
    Payment.stops_eq_false_of_read h.payment, h.payment, h.account, Bool.false_eq_true]

/-- A known caller orders a payment by writing it. -/
theorem orders_of_toText {token : String} {p : Payment} (hb : Bears r.headers token) (hv : c.Verifies token)
    (hm : r.method = "POST") (hbody : r.body = Bytes.ofText p.toText)
    (ha : (Text.trimmed p.account.toList).isEmpty = false) : c.Orders r token p where
  bears := hb
  verifies := hv
  method := hm
  payment := by
    rw [hbody, Json.Tree.ofBytes?_ofText]
    exact p.ofText?_toText
  account := ha

theorem status_delivered_eq_iff {result : Except Delivery.Fault Receipt} :
    (delivered result).1.status = 200 ↔ ∃ receipt, result = .ok receipt := by
  cases result with
  | ok receipt => exact ⟨fun _ => ⟨receipt, rfl⟩, fun _ => rfl⟩
  | error fault =>
    exact iff_of_false (Refusal.status_response_ne _) nofun

theorem countP_delivered (result : Except Delivery.Fault Receipt) : (delivered result).2.countP Event.isTry = 1 := by
  cases result <;> rfl

variable {σ : Type} (respond : σ → Outgoing → Option Incoming × σ)

open Emitter (Call) in
/-- What passes for an order, and what it ends with: one request that carries the notice of the payment and the token
of the caller, or none if the receiver's URL is not one of the web. It succeeds if the receiver has acknowledged the
notice, and otherwise it is the delivery that has failed, never the making of the notice. -/
theorem run_of_orders {token : String} {p : Payment} (ht : Endpoint.Takes Endpoint.maxBody r)
    (h : c.Orders r token p) (s : σ) :
    let sent := (c.pay identifier r).exchanges respond s
    ∃ told, ((c.pay identifier r).run respond s).1 = some told ∧ told.2.countP Event.isTry = 1 ∧
    sent.length ≤ 1 ∧
    (sent ≠ [] ↔ ∃ u, Url.ofText? c.settings.receiverUrl = some u ∧ Url.IsWeb u.scheme) ∧
    (∀ o reply, (o, reply) ∈ sent → ∃ n, Notice.ofPayment p (c.emitter.reference identifier) c.now = .ok n ∧
      c.emitter.Carries token n o) ∧
    (told.1.status = 200 ↔ ∃ o i, sent = [(o, some i)] ∧ 200 ≤ i.status ∧ i.status < 300) ∧
    (told.1.status ≠ 200 → ∃ fault, (∀ b, fault ≠ .build b) ∧ told.1.status = 500 ∧
      told = ((Refusal.callbackFailed fault).response, [.callbackFailed])) := by
  let call := Call.emit p identifier c.now
  have hnotice := Notice.ofPayment_eq_ok h.account (c.emitter.reference identifier) c.now
  have hn : call.notice? c.emitter = (Notice.ofPayment p (c.emitter.reference identifier) c.now).toOption := rfl
  have hsome : (call.notice? c.emitter).isSome = true := by rw [hn, hnotice]; rfl
  have hpay : c.pay identifier r = (call.errand c.emitter token).map fun result => some (delivered result) :=
    pay_of_orders identifier ht h
  rw [hpay, Errand.exchanges_map, Errand.run_map]
  refine ⟨_, rfl, countP_delivered _, Call.length_exchanges_le c.emitter token respond call s, ?_, ?_, ?_, ?_⟩
  · rw [Call.exchanges_ne_nil_iff]
    exact ⟨fun hr => hr.2.1, fun hu => ⟨hsome, hu, h.bears.isValue⟩⟩
  · intro o reply hm
    obtain ⟨n, hc, ho⟩ := Call.carries_of_mem c.emitter token hm
    rw [hn, hnotice] at hc
    cases hc
    exact ⟨_, hnotice, ho⟩
  · rw [status_delivered_eq_iff]
    exact Call.succeeds_iff c.emitter token respond call s
  · intro hno
    have hbuild := Call.ne_build token respond hsome s
    cases hresult : ((call.errand c.emitter token).run respond s).1 with
    | ok receipt => exact absurd (status_delivered_eq_iff.2 ⟨receipt, hresult⟩) hno
    | error fault =>
      refine ⟨fault, fun b hb => hbuild b (by rw [hresult, hb]), ?_, rfl⟩
      exact Refusal.status_response _

/-- A simulator with a key in service. -/
def sampleCounter : Counter where
  settings := {
    listensAt := 8090
    keysUrl := "http://keys/jwks.json"
    keysMinRefresh := 0
    clockSkew := 0
    receiverUrl := "http://receiver/callback"
    secret := "secret-key-for-dev"
    deliveryTimeout := Emitter.defaultTimeout
    referenceStem := Emitter.defaultStem
    metricsToken := none }
  keys := some Token.sampleKeys
  now := ⟨1800000000, 0⟩

/-- The order of a payment, by a caller with a token that verifies. -/
def sampleOrder : Request where
  method := "POST"
  target := ⟨none, "/pay".toList, none⟩
  headers := [⟨"authorization", Bytes.ofText ("Bearer " ++ Token.sampleToken)⟩]
  peer := none
  body := Bytes.ofText (Payment.toText ⟨"VA1", ⟨50000, 0⟩⟩)

theorem orders_sampleOrder : sampleCounter.Orders sampleOrder Token.sampleToken ⟨"VA1", ⟨50000, 0⟩⟩ := by
  obtain ⟨t, ht, -⟩ := Token.verify_sampleToken
  refine orders_of_toText ?_ ⟨_, t, rfl, ht⟩ rfl rfl (by decide)
  exact bears_bearer (by decide +kernel) (by decide +kernel)

theorem takes_sampleOrder : Endpoint.Takes Endpoint.maxBody sampleOrder :=
  Endpoint.takes_of_unannounced rfl (by decide +kernel) rfl

end Counter

end Simulator

end Tollgate
