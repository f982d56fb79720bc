/-
Bodies of responses, and the limit on their length. A body is read piece by piece, but what becomes of it depends only
on the octets that arrive, in order, and on whether the connection breaks off: it is relayed whole exactly if it
arrives whole and neither it nor the length that the head tells of is over the limit, and otherwise nothing of it is.
-/
import Mathlib
import Tollgate.Gateway.Relay

namespace Tollgate

/-! ## What arrives -/

/-- The octets that arrive before the connection breaks off, if it does. -/
def Chunk.arrived : List Chunk → Bytes
  | [] => []
  | .broken :: _ => []
  | .octets b :: rest => b ++ arrived rest

theorem Chunk.arrived_octets (pieces : List Bytes) : arrived (pieces.map .octets) = pieces.flatten := by
  induction pieces with
  | nil => rfl
  | cons b pieces ih => rw [List.map_cons, arrived, ih, List.flatten_cons]

theorem Chunk.not_mem_octets (pieces : List Bytes) : Chunk.broken ∉ pieces.map Chunk.octets := by
  simp

namespace Body

variable {limit : Nat} {got body : Bytes} {chunks : List Chunk} {i : Incoming}

/-- Pieces are gathered to all that arrives, if the connection holds and there is room for it. -/
theorem gather_eq_ok_iff (h : got.length ≤ limit) : gather limit got chunks = .ok body ↔
    .broken ∉ chunks ∧ body = got ++ Chunk.arrived chunks ∧ body.length ≤ limit := by
  induction chunks generalizing got with
  | nil =>
    rw [gather, Chunk.arrived, List.append_nil, Except.ok.injEq]
    constructor
    · rintro rfl; exact ⟨List.not_mem_nil, rfl, h⟩
    · rintro ⟨-, rfl, -⟩; rfl
  | cons chunk rest ih =>
    cases chunk with
    | broken => exact ⟨nofun, fun hall => absurd List.mem_cons_self hall.1⟩
    | octets b =>
      rw [gather, Chunk.arrived, ← List.append_assoc]
      have hmem : Chunk.broken ∉ Chunk.octets b :: rest ↔ Chunk.broken ∉ rest := by simp
      split
      · rename_i hlong
        constructor
        · nofun
        · rintro ⟨-, heq, hle⟩
          -- what does not fit by itself does not fit with what comes after it
          rw [heq, List.length_append, List.length_append] at hle
          omega
      · rename_i hshort
        rw [ih (by rw [List.length_append]; omega), hmem]

/-- Gathering stops for want of room exactly if more arrives than there is room for. -/
theorem gather_eq_tooLong_iff (h : got.length ≤ limit) : gather limit got chunks = .error .tooLong ↔
    limit < (got ++ Chunk.arrived chunks).length := by
  induction chunks generalizing got with
  | nil =>
    rw [gather, Chunk.arrived, List.append_nil]
    exact ⟨nofun, fun hlt => absurd h (Nat.not_le.2 hlt)⟩
  | cons chunk rest ih =>
    cases chunk with
    | broken =>
      rw [gather, Chunk.arrived, List.append_nil]
      exact ⟨nofun, fun hlt => absurd h (Nat.not_le.2 hlt)⟩
    | octets b =>
      rw [gather, Chunk.arrived, ← List.append_assoc]
      split
      · rename_i hlong
        constructor
        · intro _
          rw [List.length_append, List.length_append]
          omega
        · intro _
          rfl
      · rename_i hshort
        exact ih (by rw [List.length_append]; omega)

theorem read_of_announced (h : ∃ n ∈ i.announced, limit < n) : read limit i = .error .tooLong := by
  unfold read
  rw [if_pos]
  simpa [Option.any_eq_true] using h

theorem read_of_not_announced (h : ∀ n ∈ i.announced, n ≤ limit) : read limit i = gather limit [] i.chunks := by
  unfold read
  rw [if_neg]
  simpa [Option.any_eq_true] using h

theorem announced_cases (limit : Nat) (i : Incoming) :
    (∃ n ∈ i.announced, limit < n) ∨ ∀ n ∈ i.announced, n ≤ limit := by
  by_cases h : ∃ n ∈ i.announced, limit < n
  · exact .inl h
  · exact .inr fun n hn => Nat.not_lt.1 fun hlt => h ⟨n, hn, hlt⟩

/-- A body is read exactly if it arrives whole and neither it nor the length that is told of is over the limit. -/
theorem read_eq_ok_iff : read limit i = .ok body ↔
    (∀ n ∈ i.announced, n ≤ limit) ∧ .broken ∉ i.chunks ∧ body = Chunk.arrived i.chunks ∧ body.length ≤ limit := by
  rcases announced_cases limit i with ⟨n, hn, hlt⟩ | hfits
  · rw [read_of_announced ⟨n, hn, hlt⟩]
    exact ⟨nofun, fun h => absurd (h.1 n hn) (Nat.not_le.2 hlt)⟩
  · rw [read_of_not_announced hfits, gather_eq_ok_iff (Nat.zero_le _), List.nil_append]
    exact ⟨fun h => ⟨hfits, h⟩, fun h => h.2⟩

theorem read_eq_tooLong_iff : read limit i = .error .tooLong ↔
    (∃ n ∈ i.announced, limit < n) ∨ limit < (Chunk.arrived i.chunks).length := by
  rcases announced_cases limit i with hover | hfits
  · rw [read_of_announced hover]
    exact ⟨fun _ => .inl hover, fun _ => rfl⟩
  · rw [read_of_not_announced hfits, gather_eq_tooLong_iff (Nat.zero_le _), List.nil_append]
    constructor
    · exact .inr
    · rintro (⟨n, hn, hlt⟩ | hlong)
      · exact absurd (hfits n hn) (Nat.not_le.2 hlt)
      · exact hlong

end Body

/-! ## What is relayed -/

/-- Octets that arrive as a body, in pieces of any lengths, under a head that tells of their number or of none. -/
structure Incoming.Delivers (i : Incoming) (octets : Bytes) : Prop where
  pieces : ∃ pieces : List Bytes, i.chunks = pieces.map .octets ∧ pieces.flatten = octets
  announced : i.announced = none ∨ i.announced = some octets.length

namespace Incoming.Delivers

variable {i : Incoming} {octets : Bytes}

theorem arrived (h : i.Delivers octets) : Chunk.arrived i.chunks = octets := by
  obtain ⟨pieces, hchunks, rfl⟩ := h.pieces
  rw [hchunks, Chunk.arrived_octets]

theorem not_broken (h : i.Delivers octets) : .broken ∉ i.chunks := by
  obtain ⟨pieces, hchunks, -⟩ := h.pieces
  rw [hchunks]
  exact Chunk.not_mem_octets pieces

theorem eq_of_announced (h : i.Delivers octets) {n : Nat} (hn : n ∈ i.announced) : n = octets.length := by
  rcases h.announced with hnone | hsome
  · rw [hnone] at hn; cases hn
  · rw [hsome] at hn; exact (Option.mem_some.1 hn).symm

theorem read_eq_ok_iff {limit : Nat} (h : i.Delivers octets) :
    Body.read limit i = .ok octets ↔ octets.length ≤ limit := by
  rw [Body.read_eq_ok_iff]
  constructor
  · rintro ⟨-, -, -, hle⟩
    exact hle
  · intro hle
    refine ⟨?_, h.not_broken, h.arrived.symm, hle⟩
    intro n hn
    rw [h.eq_of_announced hn]; exact hle

theorem read_eq_tooLong_iff {limit : Nat} (h : i.Delivers octets) :
    Body.read limit i = .error .tooLong ↔ limit < octets.length := by
  rw [Body.read_eq_tooLong_iff, h.arrived]
  constructor
  · rintro (⟨n, hn, hlt⟩ | hlt)
    · rwa [h.eq_of_announced hn] at hlt
    · exact hlt
  · exact .inr

end Incoming.Delivers

namespace Gateway.Relay

variable {i : Incoming}

theorem response_eq_of_read {body : Bytes} (h : Body.read maxBody i = .ok body) :
    response (some i) = .ok ⟨i.status, relayedHeaders i.headers, body⟩ := by
  simp only [response, h]

theorem response_eq_of_fault {fault : BodyFault} (h : Body.read maxBody i = .error fault) :
    response (some i) = .error (.relayFailed (bodyMessage fault)) := by
  simp only [response, h]

/-- However a body is divided into pieces, and whether or not the head tells of its length, it is relayed whole and in
order exactly if it is not over the limit, and refused for its length otherwise. If the head tells of more than the
limit, or the connection breaks off anywhere, the response is refused whatever has arrived, and no part of it is
relayed. -/
theorem relayed_whatever_pieces (i : Incoming) :
    (∀ octets, i.Delivers octets →
      (Body.read maxBody i = .ok octets ↔ octets.length ≤ maxBody) ∧
      (octets.length ≤ maxBody → response (some i) = .ok ⟨i.status, relayedHeaders i.headers, octets⟩) ∧
      (maxBody < octets.length → Body.read maxBody i = .error .tooLong ∧
        response (some i) = .error (.relayFailed "upstream body exceeds limit"))) ∧
    ((∃ n ∈ i.announced, maxBody < n) → Body.read maxBody i = .error .tooLong ∧
      response (some i) = .error (.relayFailed "upstream body exceeds limit")) ∧
    (.broken ∈ i.chunks → ∃ fault, Body.read maxBody i = .error fault ∧
      response (some i) = .error (.relayFailed (bodyMessage fault))) := by
  refine ⟨?_, ?_, ?_⟩
  · intro octets h
    refine ⟨h.read_eq_ok_iff, ?_, ?_⟩
    · intro hle
      exact response_eq_of_read (h.read_eq_ok_iff.2 hle)
    · intro hlt
      have hread := h.read_eq_tooLong_iff.2 hlt
      exact ⟨hread, response_eq_of_fault hread⟩
  · intro hover
    have hread := Body.read_of_announced hover
    exact ⟨hread, response_eq_of_fault hread⟩
  · intro hbroken
    cases hread : Body.read maxBody i with
    | ok body => exact absurd hbroken (Body.read_eq_ok_iff.1 hread).2.1
    | error fault => exact ⟨fault, rfl, response_eq_of_fault hread⟩

/-- A response whose body is zeros, in pieces of these lengths. -/
def zeros (announced : Option Nat) (lengths : List Nat) : Incoming where
  status := 200
  headers := []
  announced := announced
  chunks := lengths.map fun n => .octets (List.replicate n 0)

theorem delivers_zeros {announced : Option Nat} {lengths : List Nat}
    (h : announced = none ∨ announced = some lengths.sum) :
    (zeros announced lengths).Delivers (List.replicate lengths.sum 0) := by
  refine ⟨⟨lengths.map fun n => List.replicate n 0, ?_, ?_⟩, ?_⟩
  · rw [List.map_map]; rfl
  · clear h
    induction lengths with
    | nil => rfl
    | cons n lengths ih =>
      rw [List.map_cons, List.flatten_cons, ih, List.sum_cons, List.replicate_append_replicate]
  · rwa [List.length_replicate]

/-- As many zeros as the limit allows are relayed, and one more is not; neither is a body that is said to be longer than
it is, nor one that breaks off after its first octet. -/
theorem relayed_whatever_pieces_zeros :
    (zeros none [1, 0, maxBody - 1]).Delivers (List.replicate maxBody 0) ∧
    response (some (zeros none [1, 0, maxBody - 1])) = .ok ⟨200, [], List.replicate maxBody 0⟩ ∧
    (zeros (some (maxBody + 1)) [maxBody, 1]).Delivers (List.replicate (maxBody + 1) 0) ∧
    response (some (zeros (some (maxBody + 1)) [maxBody, 1])) =
      .error (.relayFailed "upstream body exceeds limit") ∧
    response (some (zeros (some (maxBody + 1)) [1])) = .error (.relayFailed "upstream body exceeds limit") ∧
    ∃ fault, response (some { zeros none [1] with chunks := [.octets [0], .broken] }) =
      .error (.relayFailed (bodyMessage fault)) := by
  have hfull : (zeros none [1, 0, maxBody - 1]).Delivers (List.replicate maxBody 0) := delivers_zeros (.inl rfl)
  have hmore : (zeros (some (maxBody + 1)) [maxBody, 1]).Delivers (List.replicate (maxBody + 1) 0) :=
    delivers_zeros (.inr rfl)
  have hlength : (List.replicate maxBody (0 : UInt8)).length ≤ maxBody := List.length_replicate.le
  have hlonger : maxBody < (List.replicate (maxBody + 1) (0 : UInt8)).length := by
    rw [List.length_replicate]
    exact Nat.lt_succ_self maxBody
  obtain ⟨fault, -, hbroken⟩ :=
    (relayed_whatever_pieces { zeros none [1] with chunks := [.octets [0], .broken] }).2.2 (by simp)
  exact ⟨hfull, ((relayed_whatever_pieces _).1 _ hfull).2.1 hlength, hmore,
    (((relayed_whatever_pieces _).1 _ hmore).2.2 hlonger).2,
    ((relayed_whatever_pieces (zeros (some (maxBody + 1)) [1])).2.1 ⟨_, rfl, Nat.lt_succ_self maxBody⟩).2, fault,
    hbroken⟩

end Gateway.Relay

end Tollgate
