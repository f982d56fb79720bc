/-
Bodies of requests as services take them in. A body is taken in as it was read, or a response stands for all that the
service would do with the request: too much was announced or came, or not all of it could be read.
-/
import Tollgate.Net.Endpoint

namespace Tollgate.Endpoint

variable {limit : Nat} {r : Request}

/-- A service with a limit takes the body of a request in: what is announced of it is a length within the limit, as its
own is, and all of it could be read. -/
structure Takes (limit : Nat) (r : Request) : Prop where
  announced : ∃ length, Endpoint.announced r = .ok length ∧ ∀ n ∈ length, n ≤ limit
  length : r.body.length ≤ limit
  whole : r.fault = none

theorem takes_iff {length : Option Nat} (ha : announced r = .ok length) : Takes limit r ↔
    (length.any (limit < ·) || decide (limit < r.body.length)) = false ∧ r.fault = none := by
  have hwithin : (length.any (limit < ·) || decide (limit < r.body.length)) = false ↔
      (∀ n ∈ length, n ≤ limit) ∧ r.body.length ≤ limit := by
    cases length <;> simp
  rw [hwithin]
  constructor
  · rintro ⟨⟨length', ha', hannounced⟩, hlength, hwhole⟩
    cases ha.symm.trans ha'
    exact ⟨⟨hannounced, hlength⟩, hwhole⟩
  · rintro ⟨⟨hannounced, hlength⟩, hwhole⟩
    exact ⟨⟨length, ha, hannounced⟩, hlength, hwhole⟩

theorem announced_cases (r : Request) :
    (∃ length, announced r = .ok length) ∨ ∃ detail, announced r = .error (unread detail) := by
  unfold announced
  split
  · exact .inl ⟨_, rfl⟩
  · split
    · exact .inr ⟨_, rfl⟩
    · exact .inl ⟨_, rfl⟩

/-- A body is taken in as it is, or the response tells that it is too long or that it cannot be read. -/
theorem body_cases (limit : Nat) (r : Request) : (Takes limit r ∧ body limit r = .ok r.body) ∨
    ¬ Takes limit r ∧ ∃ response, body limit r = .error response ∧
      (response = tooLong ∨ ∃ detail, response = unread detail) := by
  rcases announced_cases r with ⟨length, ha⟩ | ⟨detail, ha⟩
  · rw [takes_iff ha]
    unfold body
    simp only [ha, bind, Except.bind]
    cases length.any (limit < ·) || decide (limit < r.body.length) with
    | true => exact .inr ⟨nofun, tooLong, rfl, .inl rfl⟩
    | false =>
      cases r.fault with
      | none => exact .inl ⟨⟨rfl, rfl⟩, rfl⟩
      | some detail => exact .inr ⟨nofun, unread detail, rfl, .inr ⟨detail, rfl⟩⟩
  · refine .inr ⟨?_, unread detail, ?_, .inr ⟨detail, rfl⟩⟩
    · rintro ⟨⟨length, ha', -⟩, -, -⟩
      cases ha.symm.trans ha'
    · unfold body
      rw [ha]
      rfl

theorem body_of_takes (h : Takes limit r) : body limit r = .ok r.body := by
  rcases body_cases limit r with ⟨-, hbody⟩ | ⟨hnot, -⟩
  · exact hbody
  · exact absurd h hnot

theorem announced_of_none (h : r.headers.first? "content-length" = none) : announced r = .ok none := by
  unfold announced
  rw [h]

/-- Where nothing is announced of a body, it is judged by itself. -/
theorem takes_of_unannounced (h : r.headers.first? "content-length" = none) (hlength : r.body.length ≤ limit)
    (hwhole : r.fault = none) : Takes limit r :=
  ⟨⟨none, announced_of_none h, nofun⟩, hlength, hwhole⟩

end Tollgate.Endpoint
