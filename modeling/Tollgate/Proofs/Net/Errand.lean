/-
Requests to other servers. A request takes the credentials of its URL into its first header field, and the fields
that are added to it come after that one. What passes between an errand and the servers is a list of exchanges, one
for each request in turn, and another result in place of the errand's own changes none of them.
-/
import Tollgate.Net.Errand
import Tollgate.Proofs.Net.Headers
import Tollgate.Proofs.Net.Url

namespace Tollgate

/-! ## What is sent -/

namespace Outgoing

theorem values_sentHeaders (o : Outgoing) {name : String} (hn : name ≠ "accept") :
    o.sentHeaders.values name = o.headers.values name := by
  unfold sentHeaders
  split
  · rfl
  · rw [Headers.values_append, Headers.values_of_ne (h := [⟨"accept", Bytes.ofText "*/*"⟩]), List.append_nil]
    intro f hf
    rw [List.mem_singleton.1 hf]; exact hn.symm

theorem credentials?_basic {u : Url} {value : String} (h : credentials? u = some value) :
    ∃ name password, value = basic name password := by
  unfold credentials? at h
  simp only [Option.bind_eq_bind, Option.bind_eq_some_iff] at h
  obtain ⟨name, -, h⟩ := h
  split at h
  · cases h
  · cases h; exact ⟨_, _, rfl⟩

/-- Where a request for a URL goes: the credentials of the URL are left out. -/
def address (u : Url) : Url :=
  if (credentials? u).isSome then { u with username := [], password := none } else u

/-- The header field that the credentials of a URL become. -/
def userField (u : Url) : Headers := ((credentials? u).map fun value => ⟨"authorization", Bytes.ofText value⟩).toList

theorem values_userField (u : Url) :
    (userField u).values "authorization" = ((credentials? u).map Bytes.ofText).toList := by
  unfold userField
  cases credentials? u <;> rfl

theorem name_of_mem_userField {u : Url} {f : HeaderField} (h : f ∈ userField u) : f.name = "authorization" := by
  unfold userField at h
  cases hc : credentials? u with
  | none => rw [hc] at h; cases h
  | some value => rw [hc] at h; exact congrArg HeaderField.name (List.mem_singleton.1 h)

/-- A request can be begun for the URLs of the web, and for no others. -/
theorem begin?_eq_some_iff {method : String} {url : List Char} {o : Outgoing} : begin? method url = some o ↔
    ∃ u, Url.ofChars? url = some u ∧ Url.IsWeb u.scheme ∧ o = ⟨method, address u, userField u, []⟩ := by
  unfold begin?
  simp only [Option.bind_eq_bind, Option.bind_eq_some_iff, Option.guard_eq_some', Option.pure_def, Option.some.injEq,
    exists_const]
  refine exists_congr fun u => and_congr_right fun _ => and_congr_right fun _ => ?_
  unfold address userField
  cases credentials? u <;> exact eq_comm

theorem headers_add? {o o' : Outgoing} {fields : Headers} (h : o.add? fields = some o') :
    o'.headers = o.headers ++ fields := by
  unfold add? at h
  split at h
  · cases h; rfl
  · cases h

end Outgoing

/-! ## What passes between an errand and the servers -/

namespace Errand

variable {σ α β : Type} (respond : σ → Outgoing → Option Incoming × σ)

theorem sent_map (f : α → β) (e : Errand α) (replies : List (Option Incoming)) :
    (e.map f).sent replies = e.sent replies := by
  induction e generalizing replies with
  | done a => rfl
  | send o next ih =>
    cases replies with
    | nil => rfl
    | cons reply replies => rw [map, sent, sent, ih]

variable {respond} in
theorem view_run {τ : Type} {view : σ → τ} (h : ∀ s o, view (respond s o).2 = view s) (e : Errand α) (s : σ) :
    view (e.run respond s).2 = view s := by
  induction e generalizing s with
  | done a => rfl
  | send o next ih => exact (ih _ _).trans (h s o)

/-- The requests of an errand, in order, each with what came back. -/
def exchanges : Errand α → σ → List (Outgoing × Option Incoming)
  | done _, _ => []
  | send o next, s => (o, (respond s o).1) :: exchanges (next (respond s o).1) (respond s o).2

variable {respond} in
theorem reply_of_mem {e : Errand α} {s : σ} {o : Outgoing} {reply : Option Incoming}
    (h : (o, reply) ∈ e.exchanges respond s) : ∃ s', reply = (respond s' o).1 := by
  induction e generalizing s with
  | done a => cases h
  | send o' next ih =>
    rcases List.mem_cons.1 h with h | h
    · cases h
      exact ⟨s, rfl⟩
    · exact ih _ h

theorem run_map (f : α → β) (e : Errand α) (s : σ) :
    (e.map f).run respond s = (f (e.run respond s).1, (e.run respond s).2) := by
  induction e generalizing s with
  | done a => rfl
  | send o next ih => exact ih _ _

theorem exchanges_map (f : α → β) (e : Errand α) (s : σ) :
    (e.map f).exchanges respond s = e.exchanges respond s := by
  induction e generalizing s with
  | done a => rfl
  | send o next ih => exact congrArg _ (ih _ _)

end Errand

end Tollgate
