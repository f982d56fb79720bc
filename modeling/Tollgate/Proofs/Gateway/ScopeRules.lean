/-
Rules on scopes as they are written. A text of rules is read as a whole or not at all: each of its pieces that says
something is a rule, in order, or the first that is none is what reading fails at. Of the rules that fit a path the
longest decides; if no two begin alike, their order makes no difference.
-/
import Tollgate.Proofs.Gateway.Reading
import Tollgate.Proofs.Gateway.Rules
import Tollgate.Proofs.Settings.Entries

namespace Tollgate

/-! ## Lists that are read item by item -/

section Items

variable {ε α β : Type} (f : α → Except ε β)

theorem mapM_of_forall₂ {xs : List α} {ys : List β} (h : List.Forall₂ (fun x y => f x = .ok y) xs ys) :
    xs.mapM f = .ok ys := by
  induction h with
  | nil => rfl
  | cons hx _ ih =>
    rw [List.mapM_cons, hx, ih]
    rfl

/-- Either every item can be read, or reading fails at the first one that cannot. -/
theorem mapM_cases (xs : List α) :
    (∃ ys, List.Forall₂ (fun x y => f x = .ok y) xs ys) ∨
      ∃ before x after e, xs = before ++ x :: after ∧ (∀ y ∈ before, ∃ b, f y = .ok b) ∧ f x = .error e ∧
        xs.mapM f = .error e := by
  induction xs with
  | nil => exact .inl ⟨[], .nil⟩
  | cons x xs ih =>
    cases hx : f x with
    | error e => exact .inr ⟨[], x, xs, e, rfl, nofun, hx, by rw [List.mapM_cons, hx]; rfl⟩
    | ok b =>
      rcases ih with ⟨ys, hys⟩ | ⟨before, y, after, e, rfl, hbefore, hy, hfail⟩
      · exact .inl ⟨b :: ys, .cons hx hys⟩
      · refine .inr ⟨x :: before, y, after, e, rfl, ?_, hy, by rw [List.mapM_cons, hx, hfail]; rfl⟩
        exact List.forall_mem_cons.2 ⟨⟨b, hx⟩, hbefore⟩

end Items

namespace Gateway

open Text Variables

/-! ## One rule -/

/-- A text that says a rule: what paths begin with, which has a slash in front, and behind the first equals sign the
scope, which is not blank. White space around both does not count. -/
def Says (piece : List Char) (rule : ScopeRule) : Prop :=
  ∃ before after, piece = before ++ '=' :: after ∧ '=' ∉ before ∧ trimmed before = rule.beginning.toList ∧
    trimmed after = rule.scope.toList ∧ rule.beginning.toList.head? = some '/' ∧ rule.scope.toList ≠ []

theorem cutAt?_equals_iff {piece before after : List Char} :
    cutAt? (· == '=') piece = some (before, after) ↔ piece = before ++ '=' :: after ∧ '=' ∉ before := by
  rw [cutAt?_eq_some_iff]
  simp only [beq_iff_eq, exists_eq_left, free_beq_iff]

theorem scopeRule?_ofList_iff {piece : List Char} {rule : ScopeRule} :
    Settings.scopeRule? (String.ofList piece) = some rule ↔ Says piece rule := by
  unfold Settings.scopeRule? Says
  rw [String.toList_ofList]
  simp only [Option.bind_eq_bind, Option.bind_eq_some_iff, Prod.exists, cutAt?_equals_iff]
  refine exists_congr fun before => exists_congr fun after => ?_
  rw [and_assoc]
  refine and_congr_right fun _ => and_congr_right fun _ => ?_
  constructor
  · intro h
    split at h
    · rename_i hform
      cases h
      simpa using hform
    · cases h
  · rintro ⟨hbeginning, hscope, hslash, hne⟩
    rw [hbeginning, hscope, if_pos ⟨hslash, hne⟩, String.ofList_toList, String.ofList_toList]

/-- White space around a rule does not count. -/
theorem says_trimmed_iff {piece : List Char} {rule : ScopeRule} : Says (trimmed piece) rule ↔ Says piece rule := by
  obtain ⟨lead, tail, hpiece, hlead, htail⟩ := exists_around_trimmed piece
  have hequals : ∀ {s : List Char}, (∀ c ∈ s, isBlank c = true) → '=' ∉ s := fun hs hm =>
    absurd (hs '=' hm) (by decide)
  generalize trimmed piece = core at hpiece
  subst hpiece
  constructor
  · rintro ⟨before, after, rfl, hfree, hbeginning, hscope, hform⟩
    refine ⟨lead ++ before, after ++ tail, by simp, ?_, ?_, ?_, hform⟩
    · simp [hfree, hequals hlead]
    · rw [trimmed_lead_append hlead, hbeginning]
    · rw [trimmed_append_tail htail, hscope]
  · rintro ⟨before, after, hcut, hfree, hbeginning, hscope, hform⟩
    -- the sign stands in the core, as there is none in white space
    have hmem : '=' ∈ core := by
      have : '=' ∈ lead ++ core ++ tail := by rw [hcut]; simp
      simpa [hequals hlead, hequals htail] using this
    obtain ⟨front, back, rfl, hfront⟩ := List.eq_append_cons_of_mem hmem
    have hfirst : cutAt? (· == '=') (lead ++ (front ++ '=' :: back) ++ tail) = some (lead ++ front, back ++ tail) :=
      cutAt?_equals_iff.2 ⟨by simp, by simp [hfront, hequals hlead]⟩
    rw [hcut, cutAt?_equals_iff.2 ⟨rfl, hfree⟩] at hfirst
    cases hfirst
    rw [trimmed_lead_append hlead] at hbeginning
    rw [trimmed_append_tail htail] at hscope
    exact ⟨front, back, rfl, hfront, hbeginning, hscope, hform⟩

/-! ## All rules -/

namespace Settings

/-- The rule of an entry, or what is said of an entry that is none. -/
def readRule (entry : String) : Except SettingsFault ScopeRule :=
  match scopeRule? entry with
  | some rule => .ok rule
  | none => .error (.invalidValue "SCOPE_RULES" entry)

theorem readRule_eq_ok_iff {entry : String} {rule : ScopeRule} :
    readRule entry = .ok rule ↔ scopeRule? entry = some rule := by
  unfold readRule
  cases scopeRule? entry <;> simp

theorem readRule_eq_error {entry : String} {fault : SettingsFault} (h : readRule entry = .error fault) :
    scopeRule? entry = none ∧ fault = .invalidValue "SCOPE_RULES" entry := by
  unfold readRule at h
  cases hrule : scopeRule? entry with
  | none =>
    rw [hrule] at h
    cases h
    exact ⟨rfl, rfl⟩
  | some rule =>
    rw [hrule] at h
    cases h

theorem readRule_trimmed_iff {piece : List Char} {rule : ScopeRule} :
    readRule (String.ofList (trimmed piece)) = .ok rule ↔ Says piece rule := by
  rw [readRule_eq_ok_iff, scopeRule?_ofList_iff, says_trimmed_iff]

/-- A piece that says something, and no rule. -/
def Spoils (pieces : List (List Char)) (piece : List Char) : Prop :=
  ∃ before after, spoken pieces = before ++ piece :: after ∧ (∀ p ∈ before, ∃ rule, Says p rule) ∧
    ∀ rule, ¬ Says piece rule

variable {vars : Variables} {text : String} {pieces : List (List Char)}

theorem readScopeRules_eq (ht : vars "SCOPE_RULES" = some text) (hp : Joins ',' pieces text.toList) :
    readScopeRules vars = (spoken pieces).mapM fun piece => readRule (String.ofList (trimmed piece)) := by
  unfold readScopeRules
  rw [list_of_some ht, entries_of_joins hp, List.mapM_map]
  rfl

theorem readScopeRules_of_says {rules : List ScopeRule} (ht : vars "SCOPE_RULES" = some text)
    (hp : Joins ',' pieces text.toList) (hr : List.Forall₂ Says (spoken pieces) rules) :
    readScopeRules vars = .ok rules := by
  rw [readScopeRules_eq ht hp]
  exact mapM_of_forall₂ _ (hr.imp fun _ _ => readRule_trimmed_iff.2)

/-- The rules of a text are those that its pieces say, or there is a first piece that says none. -/
theorem readScopeRules_cases (ht : vars "SCOPE_RULES" = some text) (hp : Joins ',' pieces text.toList) :
    (∃ rules, List.Forall₂ Says (spoken pieces) rules ∧ readScopeRules vars = .ok rules) ∨
      ∃ piece, Spoils pieces piece ∧
        readScopeRules vars = .error (.invalidValue "SCOPE_RULES" (String.ofList (trimmed piece))) := by
  rcases mapM_cases (fun piece => readRule (String.ofList (trimmed piece))) (spoken pieces) with
    ⟨rules, hrules⟩ | ⟨before, piece, after, fault, hsplit, hbefore, hpiece, herror⟩
  · have hsays : List.Forall₂ Says (spoken pieces) rules := hrules.imp fun _ _ => readRule_trimmed_iff.1
    exact .inl ⟨rules, hsays, readScopeRules_of_says ht hp hsays⟩
  · obtain ⟨hnone, rfl⟩ := readRule_eq_error hpiece
    rw [← readScopeRules_eq ht hp] at herror
    refine .inr ⟨piece, ⟨before, after, hsplit, fun p hb => ?_, fun rule hrule => ?_⟩, herror⟩
    · obtain ⟨rule, hrule⟩ := hbefore p hb
      exact ⟨rule, readRule_trimmed_iff.1 hrule⟩
    · rw [readRule_trimmed_iff.2 hrule] at hpiece
      cases hpiece

/-! ## Rules in another order -/

variable {s : Settings} {path : List Char}

theorem eq_of_fits {rule other : ScopeRule} (hr : rule.Fits path) (ho : other.Fits path)
    (hlen : other.beginning.length = rule.beginning.length) : other.beginning = rule.beginning := by
  have hlists : other.beginning.toList.length = rule.beginning.toList.length := by
    rw [String.length_toList, String.length_toList, hlen]
  have hbegins := List.prefix_of_prefix_length_le ho hr (Nat.le_of_eq hlists)
  exact String.toList_injective (hbegins.eq_of_length hlists)

/-- If no two rules begin alike, a path is governed by the longest of those that fit it, wherever it stands. -/
theorem governs_iff_of_nodup (hn : (s.scopeRules.map (·.beginning)).Nodup) {rule : ScopeRule} :
    s.Governs path rule ↔ rule ∈ s.scopeRules ∧ rule.Fits path ∧
      ∀ other ∈ s.scopeRules, other.Fits path → other.beginning.length ≤ rule.beginning.length := by
  constructor
  · rintro ⟨before, after, he, hfit, hbefore, hafter⟩
    rw [he]
    refine ⟨by simp, hfit, fun other ho hf => ?_⟩
    rcases List.mem_append.1 ho with ho | ho
    · exact hbefore other ho hf
    · rcases List.mem_cons.1 ho with rfl | ho
      · exact Nat.le_refl _
      · exact Nat.le_of_lt (hafter other ho hf)
  · rintro ⟨hm, hfit, hlongest⟩
    obtain ⟨before, after, he⟩ := List.append_of_mem hm
    have hbehind : ∀ other ∈ after, other.beginning ≠ rule.beginning := by
      rw [he, List.map_append, List.map_cons, List.nodup_append, List.nodup_cons] at hn
      intro other ho hsame
      exact hn.2.1.1 (hsame ▸ List.mem_map_of_mem ho)
    refine ⟨before, after, he, hfit, fun other ho => hlongest other (by rw [he]; simp [ho]), fun other ho hf => ?_⟩
    refine Nat.lt_of_le_of_ne (hlongest other (by rw [he]; simp [ho]) hf) fun hlen => ?_
    exact hbehind other ho (eq_of_fits hfit hf hlen)

/-- If no two rules begin alike, their order makes no difference to what a path requires. -/
theorem requiredScope?_eq_of_perm {s' : Settings} (hn : (s.scopeRules.map (·.beginning)).Nodup)
    (hp : s'.scopeRules.Perm s.scopeRules) (path : List Char) : s'.requiredScope? path = s.requiredScope? path := by
  have hn' : (s'.scopeRules.map (·.beginning)).Nodup := (hp.map _).nodup_iff.2 hn
  apply Option.ext
  intro scope
  rw [requiredScope?_eq_some_iff, requiredScope?_eq_some_iff]
  refine exists_congr fun rule => and_congr_left fun _ => ?_
  rw [governs_iff_of_nodup hn, governs_iff_of_nodup hn', hp.mem_iff]
  simp only [hp.mem_iff]

/-! ## Settings with rules -/

theorem read_of_rules {rules : List ScopeRule} {vars : Variables} {text : Option String}
    (h : readScopeRules (vars.set "SCOPE_RULES" text) = .ok rules) :
    read (vars.set "SCOPE_RULES" text) =
      (fun s => { s with scopeRules := rules }) <$> read (vars.set "SCOPE_RULES" none) := by
  rw [read_set_rules, h]
  cases read (vars.set "SCOPE_RULES" none) <;> rfl

theorem read_of_fault {fault : SettingsFault} {vars : Variables} {text : Option String}
    (h : readScopeRules (vars.set "SCOPE_RULES" text) = .error fault) (s : Settings) :
    (read (vars.set "SCOPE_RULES" text) ≠ .ok s) ∧
      (read (vars.set "SCOPE_RULES" none) = .ok s → read (vars.set "SCOPE_RULES" text) = .error fault) := by
  rw [read_set_rules, h]
  constructor
  · intro hs
    obtain ⟨_, -, hf⟩ := bind_eq_ok_iff.1 hs
    cases hf
  · intro hs
    rw [hs]
    rfl

/-- Pieces in another order say the same rules in another order. -/
theorem readScopeRules_of_perm {vars : Variables} {text : String} {pieces pieces' : List (List Char)}
    {rules : List ScopeRule} (hrules : List.Forall₂ Says (spoken pieces) rules) (ht : vars "SCOPE_RULES" = some text)
    (hp : Joins ',' pieces' text.toList) (hperm : (spoken pieces').Perm (spoken pieces)) :
    ∃ rules', readScopeRules vars = .ok rules' ∧ rules'.Perm rules := by
  obtain ⟨rules', hrules', hsame⟩ := List.perm_comp_forall₂ hperm hrules
  exact ⟨rules', readScopeRules_of_says ht hp hrules', hsame⟩

/-- Rules on scopes are read as a whole or not at all. Put together from pieces between commas, a text has a first
piece that says something and no rule, and then the gateway has no settings; or else every piece that says something
says a rule, and the settings have these rules in order and are as without a text otherwise. Then a path requires the
scope of the longest of the rules that fit it, of equal ones the last, and none if no rule fits; and if no two rules
begin alike the same pieces in another order, and with other blank ones between them, require the same. -/
theorem scope_rules_complete (vars : Variables) (text : String) :
    ∃ pieces, Joins ',' pieces text.toList ∧
      ((∃ piece, Spoils pieces piece ∧ (∀ s, read (vars.set "SCOPE_RULES" (some text)) ≠ .ok s) ∧
          ∀ s, read (vars.set "SCOPE_RULES" none) = .ok s → read (vars.set "SCOPE_RULES" (some text)) =
            .error (.invalidValue "SCOPE_RULES" (String.ofList (trimmed piece)))) ∨
        ∃ rules, List.Forall₂ Says (spoken pieces) rules ∧
          read (vars.set "SCOPE_RULES" (some text)) =
            (fun s => { s with scopeRules := rules }) <$> read (vars.set "SCOPE_RULES" none) ∧
          ∀ s, read (vars.set "SCOPE_RULES" (some text)) = .ok s → s.scopeRules = rules ∧ ∀ path,
            (∀ scope, s.requiredScope? path = some scope ↔ ∃ rule, s.Governs path rule ∧ rule.scope = scope) ∧
            (s.requiredScope? path = none ↔ ∀ rule ∈ rules, ¬ rule.Fits path) ∧
            ((rules.map (·.beginning)).Nodup → ∀ text' pieces', Joins ',' pieces' text'.toList →
              (spoken pieces').Perm (spoken pieces) → ∃ s', read (vars.set "SCOPE_RULES" (some text')) = .ok s' ∧
                s'.requiredScope? path = s.requiredScope? path)) := by
  obtain ⟨pieces, hpieces⟩ : ∃ pieces, Joins ',' pieces text.toList := ⟨_, joins_iff.2 rfl⟩
  refine ⟨pieces, hpieces, ?_⟩
  rcases readScopeRules_cases (vars.set_self "SCOPE_RULES" (some text)) hpieces with
    ⟨rules, hrules, hok⟩ | ⟨piece, hspoils, hfault⟩
  · have hread := read_of_rules hok
    refine .inr ⟨rules, hrules, hread, fun s hs => ?_⟩
    obtain ⟨-, -, -, hown, -⟩ := parts_of_read hs
    obtain rfl : s.scopeRules = rules := Except.ok.inj (hown.symm.trans hok)
    refine ⟨rfl, fun path => ⟨fun scope => requiredScope?_eq_some_iff, ?_, ?_⟩⟩
    · rw [requiredScope?_eq_none_iff, Ruled]
      simp only [not_exists, not_and]
    · intro hnodup text' pieces' hp' hperm
      obtain ⟨rules', hok', hsame⟩ := readScopeRules_of_perm hrules (vars.set_self _ _) hp' hperm
      rw [read_set_rules, bind_eq_ok_iff] at hs
      obtain ⟨s₀, hs₀, -⟩ := hs
      refine ⟨{ s₀ with scopeRules := rules' }, ?_, requiredScope?_eq_of_perm hnodup hsame path⟩
      rw [read_of_rules hok', hs₀]
      rfl
  · exact .inl ⟨piece, hspoils, fun s => (read_of_fault hfault s).1, fun s => (read_of_fault hfault s).2⟩

example : readScopeRules (fun _ => some " /a = x ,, /a/b=y=z,") = .ok [⟨"/a", "x"⟩, ⟨"/a/b", "y=z"⟩] := by
  decide +kernel

end Settings

end Gateway

end Tollgate
