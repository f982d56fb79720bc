/-
Header fields. A request holds the values of a name in the order of its fields; of fields that are set one after
another only the last of a name remains. A value is sent as its octets and received as a text: a text whose characters
stand for themselves comes back as it was, and what has been received as a text can be sent on.
-/
import Tollgate.Net.Message
import Tollgate.Proofs.Bytes.Utf8
import Tollgate.Proofs.Text.Visible

namespace Tollgate.Headers

/-! ## Fields of one name -/

theorem values_cons (f : HeaderField) (h : Headers) (name : String) :
    values (f :: h) name = (if f.name = name then [f.value] else []) ++ h.values name := by
  unfold values
  by_cases hn : f.name = name
  · simp [hn]
  · simp [hn]

theorem values_append (h k : Headers) (name : String) : (h ++ k).values name = h.values name ++ k.values name := by
  unfold values
  rw [List.filter_append, List.map_append]

theorem values_of_ne {h : Headers} {name : String} (hn : ∀ f ∈ h, f.name ≠ name) : h.values name = [] := by
  unfold values
  rw [List.filter_eq_nil_iff.2 (by simpa using hn), List.map_nil]

/-- Fields that are dropped by their names leave the values of all other names. -/
theorem values_filter {h : Headers} {p : String → Bool} {name : String} (hp : p name = true) :
    values (h.filter fun f => p f.name) name = h.values name := by
  unfold values
  rw [List.filter_filter]
  congr 1
  refine List.filter_congr fun f _ => ?_
  by_cases hf : f.name = name
  · simp [hf, hp]
  · simp [hf]

theorem values_filter_value (q : Bytes → Bool) (h : Headers) (name : String) :
    values (h.filter fun f => q f.value) name = (h.values name).filter q := by
  unfold values
  rw [List.filter_map, List.filter_filter, List.filter_filter]
  congr 1
  exact List.filter_congr fun f _ => Bool.and_comm _ _

/-! ## Fields that are set one after another -/

theorem values_set (h : Headers) (f : HeaderField) (name : String) :
    (h.set f.name f.value).values name = if f.name = name then [f.value] else h.values name := by
  unfold set
  rw [values_append, values_cons]
  by_cases hn : f.name = name
  · rw [if_pos hn, if_pos hn, values_of_ne]
    · rfl
    · intro g hg
      rw [List.mem_filter, bne_iff_ne, hn] at hg
      exact hg.2
  · rw [if_neg hn, if_neg hn, values_filter (p := (· != f.name)) (by simpa using Ne.symm hn)]
    exact List.append_nil _

/-- The last value of a name is what is left of all that were set. -/
theorem values_foldl_set (name : String) (fields out : Headers) :
    (fields.foldl (fun out f => out.set f.name f.value) out).values name =
      ((fields.values name).getLast?.map ([·])).getD (out.values name) := by
  induction fields generalizing out with
  | nil => rfl
  | cons f fields ih =>
    rw [List.foldl_cons, ih, values_set, values_cons]
    by_cases hn : f.name = name
    · rw [if_pos hn, if_pos hn, List.singleton_append, List.getLast?_cons]
      cases (values fields name).getLast? <;> rfl
    · rw [if_neg hn, if_neg hn, List.nil_append]

theorem mem_of_mem_foldl_set {f : HeaderField} {fields out : Headers}
    (h : f ∈ fields.foldl (fun out f => out.set f.name f.value) out) : f ∈ out ∨ f ∈ fields := by
  induction fields generalizing out with
  | nil => exact .inl h
  | cons g fields ih =>
    rcases ih h with h | h
    · unfold set at h
      rw [List.mem_append, List.mem_singleton] at h
      rcases h with h | rfl
      · exact .inl (List.mem_of_mem_filter h)
      · exact .inr List.mem_cons_self
    · exact .inr (List.mem_cons_of_mem g h)

/-! ## Values as texts -/

/-- Whether a character stands for itself in the value of a header field. -/
def IsSendable (c : Char) : Prop := (0x20 ≤ c.toNat ∧ c.toNat < 0x7f) ∨ c = '\t'

theorem IsSendable.ascii {c : Char} (h : IsSendable c) : c.toNat < 0x80 := by
  rcases h with h | rfl
  · exact Nat.lt_succ_of_lt h.2
  · decide

theorem isSendable_of_isVisible {c : Char} (h : isVisible c = true) : IsSendable c := by
  obtain ⟨h1, h2⟩ := isVisible_iff.1 h
  exact .inl ⟨Nat.le_of_succ_le h1, h2⟩

theorem isPlain_ofNat {c : Char} (h : IsSendable c) : isPlain (UInt8.ofNat c.toNat) = true := by
  have hn := toNat_ofNat_of_ascii h.ascii
  simp only [isPlain, Bool.or_eq_true, Bool.and_eq_true, decide_eq_true_eq, beq_iff_eq]
  rcases h with h | rfl
  · refine .inl ⟨UInt8.le_iff_toNat_le.2 ?_, UInt8.lt_iff_toNat_lt.2 ?_⟩
    · rw [hn]; exact h.1
    · rw [hn]; exact h.2
  · exact .inr rfl

theorem isSendable_ofNat {b : UInt8} (h : isPlain b = true) : IsSendable (Char.ofNat b.toNat) := by
  simp only [isPlain, Bool.or_eq_true, Bool.and_eq_true, decide_eq_true_eq, beq_iff_eq] at h
  rcases h with ⟨h1, h2⟩ | rfl
  · refine .inl ?_
    rw [Char.toNat_ofNat, if_pos (.inl (Nat.lt_trans b.toNat_lt (by decide)))]
    exact ⟨UInt8.le_iff_toNat_le.1 h1, UInt8.lt_iff_toNat_lt.1 h2⟩
  · exact .inr rfl

/-- A value is a text if it is the octets of that text, each of which stands for itself. -/
theorem text?_eq_some_iff {value : Bytes} {text : String} :
    text? value = some text ↔ value = Bytes.ofText text ∧ ∀ c ∈ text.toList, IsSendable c := by
  unfold text?
  constructor
  · intro h
    split at h
    · rename_i hplain
      cases h
      have hs : ∀ c ∈ (String.ofList (value.map fun b => Char.ofNat b.toNat)).toList, IsSendable c := by
        intro c hc
        rw [String.toList_ofList] at hc
        obtain ⟨b, hb, rfl⟩ := List.mem_map.1 hc
        exact isSendable_ofNat (List.all_eq_true.1 hplain b hb)
      refine ⟨?_, hs⟩
      rw [Bytes.ofText_of_ascii fun c hc => (hs c hc).ascii, String.toList_ofList, List.map_map]
      refine (List.map_id' value).symm.trans (List.map_congr_left fun b _ => ?_)
      rw [Function.comp, Char.toNat_ofNat, if_pos (.inl (Nat.lt_trans b.toNat_lt (by decide))), UInt8.ofNat_toNat]
    · cases h
  · rintro ⟨rfl, hs⟩
    rw [Bytes.ofText_of_ascii fun c hc => (hs c hc).ascii, if_pos]
    · rw [List.map_map, List.map_congr_left (g := id), List.map_id, String.ofList_toList]
      intro c hc
      rw [Function.comp, toNat_ofNat_of_ascii (hs c hc).ascii, Char.ofNat_toNat, id]
    · rw [List.all_map, List.all_eq_true]
      exact fun c hc => isPlain_ofNat (hs c hc)

theorem isSome_text? (value : Bytes) : (text? value).isSome = value.all isPlain := by
  unfold text?
  cases value.all isPlain <;> rfl

/-- What has been received as a text can be sent. -/
theorem isValue_of_text? {value : Bytes} {text : String} (h : text? value = some text) : isValue value = true := by
  unfold text? at h
  split at h
  · rename_i hplain
    refine List.all_eq_true.2 fun b hb => ?_
    have := List.all_eq_true.1 hplain b hb
    simp only [isPlain, Bool.or_eq_true, Bool.and_eq_true, decide_eq_true_eq, bne_iff_ne] at this ⊢
    exact this.imp_left fun hr => ⟨hr.1, fun he => absurd hr.2 (by rw [he]; decide)⟩
  · cases h

theorem isValue_ofText {s : String} (h : ∀ c ∈ s.toList, IsSendable c) : isValue (Bytes.ofText s) = true :=
  isValue_of_text? (text?_eq_some_iff.2 ⟨rfl, h⟩)

/-- Credentials that are made of a token of visible characters are received as they were made. -/
theorem text?_bearer {token : String} (h : token.toList.all isVisible = true) :
    text? (Bytes.ofText ("Bearer " ++ token)) = some ("Bearer " ++ token) := by
  refine text?_eq_some_iff.2 ⟨rfl, fun c hc => ?_⟩
  rw [String.toList_append, List.mem_append] at hc
  rcases hc with hc | hc
  · have hb : "Bearer ".toList.all (fun c => isVisible c || c == ' ') = true := rfl
    have := List.all_eq_true.1 hb c hc
    rw [Bool.or_eq_true, beq_iff_eq] at this
    rcases this with hv | rfl
    · exact isSendable_of_isVisible hv
    · exact .inl (by decide)
  · exact isSendable_of_isVisible (List.all_eq_true.1 h c hc)

end Tollgate.Headers
