/-
Which scopes a claim grants. A text grants the words that stand in it between commas and white space, in their order,
and nothing that is only a part of a word or holds more than one. An array grants its texts as they are, in their
order, so an array of the words of a text grants what the text does; whatever else stands in an array, and any other
claim, grants nothing.
-/
import Tollgate.Proofs.Text.Words
import Tollgate.Token.Verify

namespace Tollgate

open Json (Value)
open Text (IsWord StandsIn Words)

namespace Claims

/-! ## Texts -/

theorem scopeWords_eq (s : String) : scopeWords s = (Text.words isSeparator s.toList).map String.ofList := rfl

theorem mem_scopeWords_iff {s w : String} :
    w ∈ scopeWords s ↔ IsWord isSeparator w.toList ∧ StandsIn isSeparator w.toList s.toList := by
  rw [← Text.mem_words_iff, scopeWords_eq, List.mem_map]
  constructor
  · rintro ⟨word, hword, rfl⟩
    rwa [String.toList_ofList]
  · intro h
    exact ⟨w.toList, h, String.ofList_toList⟩

/-- The words of a text are what is granted, in the order of the text. -/
theorem scopeWords_eq_iff {s : String} {ws : List String} :
    scopeWords s = ws ↔ Words isSeparator s.toList (ws.map String.toList) := by
  have hback : (scopeWords s).map String.toList = Text.words isSeparator s.toList := by
    rw [scopeWords_eq, List.map_map]
    exact List.map_id'' (fun _ => String.toList_ofList) _
  constructor
  · rintro rfl
    rw [hback]
    exact Text.words_words s.toList
  · intro h
    exact (List.map_injective_iff.2 fun _ _ => String.toList_inj.1) (hback.trans h.eq.symm)

/-! ## Arrays -/

/-- Whether a value is a text. -/
def isText (v : Value) : Bool := (text? v).isSome

theorem text?_eq_some_iff {v : Value} {s : String} : text? v = some s ↔ v = .text s := by
  cases v <;> simp [text?]

/-- The scopes of an array are its texts in order, and nothing else that stands in it. -/
theorem map_text_filterMap (items : List Value) : (items.filterMap text?).map .text = items.filter isText := by
  induction items with
  | nil => rfl
  | cons v items ih =>
    cases v with
    | text s => exact congrArg (List.cons _) ih
    | null => exact ih
    | bool b => exact ih
    | number n => exact ih
    | array vs => exact ih
    | object ms => exact ih

theorem mem_filterMap_text?_iff {items : List Value} {w : String} : w ∈ items.filterMap text? ↔ .text w ∈ items := by
  rw [List.mem_filterMap]
  simp only [text?_eq_some_iff, exists_eq_right]

theorem filterMap_text?_map (ws : List String) : (ws.map Value.text).filterMap text? = ws := by
  rw [List.filterMap_map]
  exact List.filterMap_some

end Claims

namespace VerifiedToken

open Claims (isSeparator isText)

/-- The claim that scopes are granted by. -/
def scopeClaim? (t : VerifiedToken) : Option Value := t.claims.extra.lookup "scope"

theorem scopes_eq {t : VerifiedToken} {v : Option Value} (h : t.scopeClaim? = v) :
    t.claims.scopes = Claims.scopesOf v := by
  rw [← h]; rfl

theorem hasScope_iff {t : VerifiedToken} {w : String} : t.hasScope w = true ↔ w ∈ t.claims.scopes :=
  List.contains_iff_mem

/-- A text grants a scope exactly if that is a word which stands in the text between separators or ends. The scopes are
the words of the text in order, and an array of these grants the same ones in the same order. Of an array the texts are
granted, each as it is and in its place, and nothing else; a claim that is neither text nor array grants nothing. -/
theorem scopes_alike {t : VerifiedToken} {s : String} (ht : t.scopeClaim? = some (.text s)) :
    (∀ w, t.hasScope w = true ↔ IsWord isSeparator w.toList ∧ StandsIn isSeparator w.toList s.toList) ∧
    (∀ ws : List String, t.claims.scopes = ws ↔ Words isSeparator s.toList (ws.map String.toList)) ∧
    (∀ (t' : VerifiedToken) (ws : List String), Words isSeparator s.toList (ws.map String.toList) →
      t'.scopeClaim? = some (.array (ws.map .text)) → t'.claims.scopes = t.claims.scopes) ∧
    (∀ (t' : VerifiedToken) items, t'.scopeClaim? = some (.array items) →
      t'.claims.scopes.map .text = items.filter isText ∧ ∀ w, t'.hasScope w = true ↔ .text w ∈ items) ∧
    ∀ t' : VerifiedToken, (∀ s, t'.scopeClaim? ≠ some (.text s)) → (∀ items, t'.scopeClaim? ≠ some (.array items)) →
      t'.claims.scopes = [] ∧ ∀ w, t'.hasScope w = false := by
  refine ⟨fun w => ?_, fun ws => ?_, fun t' ws hws ht' => ?_, fun t' items ht' => ?_, fun t' htext harray => ?_⟩
  · rw [hasScope_iff, scopes_eq ht]
    exact Claims.mem_scopeWords_iff
  · rw [scopes_eq ht]
    exact Claims.scopeWords_eq_iff
  · rw [scopes_eq ht', scopes_eq ht]
    exact (Claims.filterMap_text?_map ws).trans (Claims.scopeWords_eq_iff.2 hws).symm
  · refine ⟨?_, fun w => ?_⟩
    · rw [scopes_eq ht']
      exact Claims.map_text_filterMap items
    · rw [hasScope_iff, scopes_eq ht']
      exact Claims.mem_filterMap_text?_iff
  · have hnone : t'.claims.scopes = [] := by
      cases hclaim : t'.scopeClaim? with
      | none => exact scopes_eq hclaim
      | some v =>
        rw [scopes_eq hclaim]
        cases v with
        | text s => exact absurd hclaim (htext s)
        | array items => exact absurd hclaim (harray items)
        | null => rfl
        | bool b => rfl
        | number n => rfl
        | object ms => rfl
    refine ⟨hnone, fun w => ?_⟩
    rw [← Bool.not_eq_true, hasScope_iff, hnone]
    exact List.not_mem_nil

/-- A token that a claim grants scopes by. -/
def granting (v : Value) : VerifiedToken := ⟨⟨none, none, none, none, none, none, [("scope", v)]⟩, none, .eddsa, 0⟩

/-- A list with separators of several kinds, some of them in a row and one at the end. -/
def mixedList : String := "wallet:read,\u2003wallet:write\tadmin,"

theorem scopes_alike_mixed : (granting (.text mixedList)).hasScope "admin" = true ∧
    (granting (.text mixedList)).hasScope "wallet" = false ∧
    ∀ t' : VerifiedToken,
      t'.scopeClaim? = some (.array [.text "wallet:read", .text "wallet:write", .text "admin"]) →
      t'.claims.scopes = (granting (.text mixedList)).claims.scopes := by
  have hlist : Claims.scopeWords mixedList = ["wallet:read", "wallet:write", "admin"] := by decide +kernel
  obtain ⟨hgrants, hwords, harray, -⟩ := scopes_alike (t := granting (.text mixedList)) rfl
  have hscopes : (granting (.text mixedList)).claims.scopes = ["wallet:read", "wallet:write", "admin"] := hlist
  refine ⟨(hgrants "admin").2 ?_, ?_, fun t' => harray t' _ ((hwords _).1 hscopes)⟩
  · rw [← Claims.mem_scopeWords_iff, hlist]
    decide
  · rw [← Bool.not_eq_true, hasScope_iff, hscopes]
    decide

end VerifiedToken

end Tollgate
