/-
Which header fields of a response the client sees. Each field that is relayed takes the place of the one before it
that has its name, and a value that is not plain text is left out. So the client sees all the values of a name exactly
if there is at most one and it is plain; of several it sees the last that is.
-/
import Tollgate.Proofs.Gateway.Relay

namespace Tollgate

theorem getLast?_filter_eq_self_iff {α : Type} {p : α → Bool} {l : List α} :
    (l.filter p).getLast?.toList = l ↔ l.length ≤ 1 ∧ ∀ a ∈ l, p a = true := by
  constructor
  · intro h
    refine ⟨by rw [← h]; exact Option.length_toList_le, fun a ha => ?_⟩
    rw [← h, Option.mem_toList] at ha
    exact List.of_mem_filter (List.mem_of_getLast? ha)
  · rintro ⟨hlen, hp⟩
    rw [List.filter_eq_self.2 hp]
    cases l with
    | nil => rfl
    | cons a l => rw [List.length_eq_zero_iff.1 (Nat.le_zero.1 (Nat.le_of_succ_le_succ hlen))]; rfl

namespace Gateway

/-! ## What is relayed of a response -/

namespace Relay

theorem values_relayedHeaders {name : String} (hn : name ∈ relayedNames) (h : Headers) :
    (relayedHeaders h).values name = ((h.values name).filter (·.all Headers.isPlain)).getLast?.toList := by
  have hsplit : h.filter (fun f => relayedNames.contains f.name && (Headers.text? f.value).isSome) =
      (h.filter fun f => f.value.all Headers.isPlain).filter fun f => relayedNames.contains f.name := by
    rw [List.filter_filter]
    exact List.filter_congr fun f _ => by rw [Headers.isSome_text?]
  unfold relayedHeaders
  rw [hsplit, Headers.values_foldl_set, Headers.values_filter (List.contains_iff_mem.2 hn),
    Headers.values_filter_value (·.all Headers.isPlain)]
  cases ((h.values name).filter (·.all Headers.isPlain)).getLast? <;> rfl

theorem mem_of_mem_relayedHeaders {h : Headers} {f : HeaderField} (hf : f ∈ relayedHeaders h) :
    f.name ∈ relayedNames ∧ f ∈ h := by
  rcases Headers.mem_of_mem_foldl_set hf with hf | hf
  · cases hf
  · rw [List.mem_filter, Bool.and_eq_true, List.contains_iff_mem] at hf
    exact ⟨hf.2.1, hf.1⟩

end Relay

namespace Service

variable {σ : Type} {respond : σ → Outgoing → Option Incoming × σ} {s : σ} {g : Gate} {r : Request} {o : Outgoing}
  {i : Incoming} {body : Bytes}

/-- How a request ends that is passed on and answered with a body that can be read. -/
theorem run_forward_of_sent (ho : o ∈ (forward g r).sent []) (hi : (respond s o).1 = some i)
    (hb : Body.read Relay.maxBody i = .ok body) :
    ((forward g r).run respond s).1 = (⟨i.status, Relay.relayedHeaders i.headers, body⟩, [.relayed]) := by
  obtain ⟨htakes, url, hurl, hr⟩ := mem_sent_forward_iff.1 ho
  unfold forward
  simp only [Endpoint.body_of_takes htakes, hurl]
  rw [Errand.run_map, Relay.relay]
  simp only [hr, Errand.run, hi, Relay.response, hb]

/-- Of a response whose body is relayed, the client sees the values of a name that is relayed, all of them and as they
were, exactly if there is at most one and it is plain text. What it sees is the last value that is plain, and of other
names it sees nothing. -/
theorem values_relayed_iff (ho : o ∈ (forward g r).sent []) (hi : (respond s o).1 = some i)
    (hb : Body.read Relay.maxBody i = .ok body) :
    ∃ response, ((forward g r).run respond s).1 = (response, [.relayed]) ∧ response.status = i.status ∧
      response.body = body ∧
      (∀ name ∈ Relay.relayedNames,
        response.headers.values name = ((i.headers.values name).filter (·.all Headers.isPlain)).getLast?.toList ∧
        (response.headers.values name = i.headers.values name ↔
          (i.headers.values name).length ≤ 1 ∧ ∀ v ∈ i.headers.values name, v.all Headers.isPlain = true)) ∧
      ∀ f ∈ response.headers, f.name ∈ Relay.relayedNames ∧ f ∈ i.headers := by
  refine ⟨_, run_forward_of_sent ho hi hb, rfl, rfl, fun name hn => ⟨Relay.values_relayedHeaders hn _, ?_⟩,
    fun f hf => Relay.mem_of_mem_relayedHeaders hf⟩
  show (Relay.relayedHeaders i.headers).values name = _ ↔ _
  rw [Relay.values_relayedHeaders hn]
  exact getLast?_filter_eq_self_iff

/-- A response without a body that varies by what is asked for, as two fields say or one. -/
def varying (values : List String) : Incoming where
  status := 200
  headers := values.map fun value => ⟨"vary", Bytes.ofText value⟩
  announced := some 0
  chunks := []

/-- Servers that all answer alike. -/
def alike (i : Incoming) (s : Unit) : Outgoing → Option Incoming × Unit := fun _ => (some i, s)

/-- What is said in one field is seen by the client as it was said. -/
theorem values_relayed_iff_oneField : ∃ settings, ∃ o : Outgoing, Settings.read plainGateway = .ok settings ∧
    o ∈ (forward (sampleGate settings) twoTokens).sent [] ∧ Body.read Relay.maxBody (varying ["origin"]) = .ok [] ∧
    ∃ response, ((forward (sampleGate settings) twoTokens).run (alike (varying ["origin"])) ()).1 =
      (response, [.relayed]) ∧ response.headers.values "vary" = [Bytes.ofText "origin"] := by
  obtain ⟨settings, -, o, hr, -, -, ho⟩ := twoTokens_relayed
  have hb : Body.read Relay.maxBody (varying ["origin"]) = .ok [] := by decide +kernel
  have hi : (alike (varying ["origin"]) () o).1 = some (varying ["origin"]) := rfl
  obtain ⟨response, hrun, -, -, hvalues, -⟩ := values_relayed_iff ho hi hb
  have hwhole := (hvalues "vary" (by decide)).2.2 (by decide +kernel)
  exact ⟨settings, o, hr, ho, hb, response, hrun, hwhole.trans (by decide +kernel)⟩

/-- Of what is said in two fields the client sees only the second. -/
theorem twoFields_not_whole : ∃ settings, ∃ o : Outgoing, Settings.read plainGateway = .ok settings ∧
    o ∈ (forward (sampleGate settings) twoTokens).sent [] ∧ "vary" ∈ Relay.relayedNames ∧
    ∃ response, ((forward (sampleGate settings) twoTokens).run
        (alike (varying ["accept-encoding", "origin"])) ()).1 = (response, [.relayed]) ∧
      response.headers.values "vary" = [Bytes.ofText "origin"] ∧
      response.headers.values "vary" ≠ (varying ["accept-encoding", "origin"]).headers.values "vary" := by
  obtain ⟨settings, -, o, hr, -, -, ho⟩ := twoTokens_relayed
  have hb : Body.read Relay.maxBody (varying ["accept-encoding", "origin"]) = .ok [] := by decide +kernel
  have hi : (alike (varying ["accept-encoding", "origin"]) () o).1 = some (varying ["accept-encoding", "origin"]) := rfl
  exact ⟨settings, o, hr, ho, by decide, _, run_forward_of_sent ho hi hb, by decide +kernel, by decide +kernel⟩

end Service

end Gateway

end Tollgate
