/-
What credentials are a bearer token: those of that scheme. Every text of visible characters is the token of
credentials that are made of it, and the credentials that a URL holds are of another scheme.
-/
import Tollgate.Gateway.Credentials
import Tollgate.Net.Errand
import Tollgate.Proofs.Net.Headers
import Tollgate.Proofs.Net.Percent
import Tollgate.Proofs.Text.Cut

namespace Tollgate

namespace Gateway

/-! ## Bearer tokens -/

/-- A bearer token follows a scheme of that name and a space. -/
theorem scheme_of_ofValue {value : Bytes} {token : String} (h : Credentials.ofValue value = .ok token) :
    ∃ text scheme rest, Headers.text? value = some text ∧
      Text.cutAt? (· == ' ') text.toList = some (scheme, rest) ∧ scheme.map Char.toLower = "bearer".toList := by
  unfold Credentials.ofValue at h
  split at h
  · rename_i text ht
    split at h
    · rename_i scheme rest hc
      refine ⟨text, scheme, rest, ht, hc, ?_⟩
      by_cases hs : scheme.map Char.toLower = "bearer".toList
      · exact hs
      · rw [if_pos hs] at h; cases h
    · cases h
  · cases h

/-- Credentials that are made of a token carry it. -/
theorem ofValue_bearer {token : String} (h : token.toList.all isVisible = true) (hn : token ≠ "") :
    Credentials.ofValue (Bytes.ofText ("Bearer " ++ token)) = .ok token := by
  have hb : "Bearer ".toList = ['B', 'e', 'a', 'r', 'e', 'r', ' '] := rfl
  have hc : Text.cutAt? (· == ' ') ("Bearer " ++ token).toList =
      some (['B', 'e', 'a', 'r', 'e', 'r'], token.toList) := by
    rw [String.toList_append, hb]
    rfl
  have hs : ['B', 'e', 'a', 'r', 'e', 'r'].map Char.toLower = "bearer".toList := rfl
  have he : token.toList.isEmpty = false := by
    rw [List.isEmpty_eq_false_iff, ne_eq, String.toList_eq_nil_iff]; exact hn
  unfold Credentials.ofValue
  simp only [Headers.text?_bearer h, hc, hs, Text.trimmed_of_visible h, he, String.ofList_toList, ne_eq,
    not_true_eq_false, if_false, Bool.false_eq_true]
  rfl

/-- The credentials of a URL are no bearer token. -/
theorem ofValue_basic (name : String) (password : Option String) (token : String) :
    Credentials.ofValue (Bytes.ofText (Outgoing.basic name password)) ≠ .ok token := by
  intro h
  obtain ⟨text, scheme, rest, ht, hc, hs⟩ := scheme_of_ofValue h
  obtain ⟨octets, ho⟩ : ∃ octets,
      Bytes.ofText (Outgoing.basic name password) = Bytes.ofText "Basic " ++ octets := by
    unfold Outgoing.basic Bytes.ofText
    rw [String.toList_append, List.flatMap_append]
    exact ⟨_, rfl⟩
  unfold Headers.text? at ht
  split at ht
  · rw [← Option.some.inj ht, ho, String.toList_ofList, List.map_append] at hc
    have hb : (Bytes.ofText "Basic ").map (fun b => Char.ofNat b.toNat) = ['B', 'a', 's', 'i', 'c', ' '] := by
      decide
    rw [hb] at hc
    simp only [List.cons_append, List.nil_append, Text.cutAt?, Char.reduceBEq, Bool.false_eq_true, if_false,
      if_true, Option.map_some, Option.some.injEq, Prod.mk.injEq] at hc
    obtain ⟨rfl, -⟩ := hc
    revert hs; decide
  · cases ht

end Gateway

end Tollgate
