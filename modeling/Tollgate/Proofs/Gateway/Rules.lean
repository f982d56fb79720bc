/-
The rules on paths, exactly. Of the scope rules that fit a path the longest one governs it, and of equal
ones the last; a path is open if it is public and no rule fits it, and protected if the gateway asks for a
token there. Between the two stand the gateway's own endpoints under a rule: no token is asked for there,
and none that is sent counts.
-/
import Mathlib
import Tollgate.Gateway.Backend
import Tollgate.Gateway.Settings

namespace Tollgate.Gateway

/-! ## The longest of several rules -/

/-- A rule of a list that none is longer than, and none behind it as long as. -/
def Longest (rules : List ScopeRule) (rule : ScopeRule) : Prop :=
  ∃ before after, rules = before ++ rule :: after ∧
    (∀ other ∈ before, other.beginning.length ≤ rule.beginning.length) ∧
    ∀ other ∈ after, other.beginning.length < rule.beginning.length

theorem Longest.unique {rules : List ScopeRule} {r r' : ScopeRule} (h : Longest rules r)
    (h' : Longest rules r') : r = r' := by
  obtain ⟨b, a, rfl, hb, ha⟩ := h
  obtain ⟨b', a', he, hb', ha'⟩ := h'
  rcases List.append_eq_append_iff.1 he with ⟨m, rfl, hm⟩ | ⟨m, rfl, hm⟩
  · cases m with
    | nil => cases hm; rfl
    | cons x m =>
      -- the second rule stands behind the first one, and the first one before it
      cases hm
      have := ha r' (by simp)
      have := hb' r (by simp)
      omega
  · cases m with
    | nil => cases hm; rfl
    | cons x m =>
      cases hm
      have := ha' r (by simp)
      have := hb r' (by simp)
      omega

/-- The longest rule stays so when a rule is put behind the first one that is shorter than it. -/
theorem Longest.insert {best next rule : ScopeRule} {rest : List ScopeRule}
    (hlt : next.beginning.length < best.beginning.length) (h : Longest (best :: rest) rule) :
    Longest (best :: next :: rest) rule := by
  obtain ⟨before, after, he, hb, ha⟩ := h
  cases before with
  | nil =>
    cases he
    exact ⟨[], next :: rest, rfl, nofun, List.forall_mem_cons.2 ⟨hlt, ha⟩⟩
  | cons x before =>
    cases he
    have hbest := hb best List.mem_cons_self
    refine ⟨best :: next :: before, after, rfl, ?_, ha⟩
    rw [List.forall_mem_cons, List.forall_mem_cons]
    exact ⟨hbest, by omega, fun other ho => hb other (List.mem_cons_of_mem _ ho)⟩

/-- The longest rule stays so when a rule is put before the first one that is not longer than it. -/
theorem Longest.cons {best next rule : ScopeRule} {rest : List ScopeRule}
    (hle : best.beginning.length ≤ next.beginning.length) (h : Longest (next :: rest) rule) :
    Longest (best :: next :: rest) rule := by
  obtain ⟨before, after, he, hb, ha⟩ := h
  refine ⟨best :: before, after, by rw [he]; rfl, List.forall_mem_cons.2 ⟨?_, hb⟩, ha⟩
  cases before with
  | nil => cases he; exact hle
  | cons x before =>
    cases he
    exact Nat.le_trans hle (hb next List.mem_cons_self)

/-- The search keeps the longest rule that it met, and ends with the longest of all. -/
theorem longest_some (best : ScopeRule) (rules : List ScopeRule) :
    ∃ rule, longest (some best) rules = some rule ∧ Longest (best :: rules) rule := by
  induction rules generalizing best with
  | nil => exact ⟨best, rfl, [], [], rfl, nofun, nofun⟩
  | cons next rest ih =>
    rw [longest]
    split
    · rename_i hlt
      obtain ⟨rule, hr, hl⟩ := ih best
      exact ⟨rule, hr, hl.insert hlt⟩
    · rename_i hle
      obtain ⟨rule, hr, hl⟩ := ih next
      exact ⟨rule, hr, hl.cons (Nat.not_lt.1 hle)⟩

theorem longest_eq_some_iff {rules : List ScopeRule} {rule : ScopeRule} :
    longest none rules = some rule ↔ Longest rules rule := by
  cases rules with
  | nil => simp [longest, Longest]
  | cons first rest =>
    obtain ⟨r, hr, hl⟩ := longest_some first rest
    rw [longest, hr, Option.some.injEq]
    constructor
    · rintro rfl; exact hl
    · intro h; exact hl.unique h

theorem longest_eq_none_iff {rules : List ScopeRule} : longest none rules = none ↔ rules = [] := by
  cases rules with
  | nil => simp [longest]
  | cons first rest =>
    obtain ⟨r, hr, -⟩ := longest_some first rest
    simp [longest, hr]

/-! ## The rule that governs a path -/

/-- A rule whose beginning a path has. -/
def ScopeRule.Fits (rule : ScopeRule) (path : List Char) : Prop := rule.beginning.toList <+: path

namespace Settings

/-- The rule that a path is governed by: it fits, none that fits is longer, and none behind it that fits is
as long. -/
def Governs (s : Settings) (path : List Char) (rule : ScopeRule) : Prop :=
  ∃ before after, s.scopeRules = before ++ rule :: after ∧ rule.Fits path ∧
    (∀ other ∈ before, other.Fits path → other.beginning.length ≤ rule.beginning.length) ∧
    ∀ other ∈ after, other.Fits path → other.beginning.length < rule.beginning.length

/-- Whether some rule fits a path. -/
def Ruled (s : Settings) (path : List Char) : Prop := ∃ rule ∈ s.scopeRules, rule.Fits path

theorem beginsWith_iff {beginning : String} {path : List Char} :
    beginsWith beginning path = true ↔ beginning.toList <+: path := by
  unfold beginsWith; rw [List.isPrefixOf_iff_prefix]

theorem longest_filter_iff {s : Settings} {path : List Char} {rule : ScopeRule} :
    Longest (s.scopeRules.filter fun r => beginsWith r.beginning path) rule ↔ s.Governs path rule := by
  constructor
  · rintro ⟨before, after, he, hb, ha⟩
    obtain ⟨l, m, hl, rfl, hm⟩ := List.filter_eq_append_iff.1 he
    obtain ⟨l', m', rfl, hno, hfit, rfl⟩ := List.filter_eq_cons_iff.1 hm
    refine ⟨l ++ l', m', by rw [hl]; simp, beginsWith_iff.1 hfit, ?_, ?_⟩
    · intro other ho hf
      rcases List.mem_append.1 ho with ho | ho
      · exact hb other (List.mem_filter.2 ⟨ho, beginsWith_iff.2 hf⟩)
      · exact absurd (beginsWith_iff.2 hf) (hno other ho)
    · intro other ho hf
      exact ha other (List.mem_filter.2 ⟨ho, beginsWith_iff.2 hf⟩)
  · rintro ⟨before, after, he, hfit, hb, ha⟩
    refine ⟨before.filter fun r => beginsWith r.beginning path,
      after.filter fun r => beginsWith r.beginning path, ?_, ?_, ?_⟩
    · rw [he, List.filter_append, List.filter_cons, if_pos (beginsWith_iff.2 hfit)]
    · intro other ho
      exact hb other (List.mem_filter.1 ho).1 (beginsWith_iff.1 (List.mem_filter.1 ho).2)
    · intro other ho
      exact ha other (List.mem_filter.1 ho).1 (beginsWith_iff.1 (List.mem_filter.1 ho).2)

/-- The scope that a path requires is that of the rule that governs it. -/
theorem requiredScope?_eq_some_iff {s : Settings} {path : List Char} {scope : String} :
    s.requiredScope? path = some scope ↔ ∃ rule, s.Governs path rule ∧ rule.scope = scope := by
  unfold requiredScope?
  simp only [Option.map_eq_some_iff, longest_eq_some_iff, longest_filter_iff]

/-- No scope is required where no rule fits. -/
theorem requiredScope?_eq_none_iff {s : Settings} {path : List Char} :
    s.requiredScope? path = none ↔ ¬ s.Ruled path := by
  unfold requiredScope? Ruled ScopeRule.Fits
  simp only [Option.map_eq_none_iff, longest_eq_none_iff, List.filter_eq_nil_iff, beginsWith_iff,
    not_exists, not_and]

theorem Governs.unique {s : Settings} {path : List Char} {r r' : ScopeRule} (h : s.Governs path r)
    (h' : s.Governs path r') : r = r' :=
  (longest_filter_iff.2 h).unique (longest_filter_iff.2 h')

theorem Governs.ruled {s : Settings} {path : List Char} {rule : ScopeRule} (h : s.Governs path rule) :
    s.Ruled path := by
  obtain ⟨before, after, he, hfit, -⟩ := h
  exact ⟨rule, by rw [he]; simp, hfit⟩

theorem Ruled.exists_governs {s : Settings} {path : List Char} (h : s.Ruled path) :
    ∃ rule, s.Governs path rule := by
  cases hq : s.requiredScope? path with
  | none => exact absurd h (requiredScope?_eq_none_iff.1 hq)
  | some scope =>
    obtain ⟨rule, hg, -⟩ := requiredScope?_eq_some_iff.1 hq
    exact ⟨rule, hg⟩

/-! ## Open and protected paths -/

/-- One of the gateway's own endpoints. -/
def Own (path : List Char) : Prop := ∃ endpoint ∈ alwaysPublic, path = endpoint.toList

/-- A path that is public: one of the gateway's own, or one with a public beginning. -/
def Public (s : Settings) (path : List Char) : Prop :=
  Own path ∨ ∃ beginning ∈ s.publicBeginnings, beginning.toList <+: path

/-- A path that everybody may ask for: a public one that no rule fits. -/
def Open (s : Settings) (path : List Char) : Prop := s.Public path ∧ ¬ s.Ruled path

/-- A path that a token is asked for on: none of the gateway's own, and not public unless a rule fits it. -/
def Protected (s : Settings) (path : List Char) : Prop := ¬ Own path ∧ (s.Public path → s.Ruled path)

theorem own_iff {path : List Char} : alwaysPublic.contains (String.ofList path) = true ↔ Own path := by
  unfold Own
  rw [List.contains_iff_mem]
  constructor
  · intro h; exact ⟨_, h, by simp⟩
  · rintro ⟨endpoint, he, rfl⟩; simpa using he

theorem beginsPublic_iff {s : Settings} {path : List Char} :
    s.beginsPublic path = true ↔ ∃ beginning ∈ s.publicBeginnings, beginning.toList <+: path := by
  unfold beginsPublic
  simp only [List.any_eq_true, beginsWith_iff]

/-- A token is asked for exactly on protected paths. -/
theorem isPublic_eq_false_iff {s : Settings} {path : List Char} :
    s.isPublic path = false ↔ s.Protected path := by
  have hrule : (s.requiredScope? path).isNone = false ↔ s.Ruled path := by
    rw [Option.isNone_eq_false_iff, Option.isSome_iff_ne_none, ne_eq, requiredScope?_eq_none_iff,
      Classical.not_not]
  unfold isPublic Protected Public
  rw [← own_iff, ← beginsPublic_iff, ← hrule]
  cases alwaysPublic.contains (String.ofList path) <;> cases s.beginsPublic path <;> simp

/-- A path that no rule fits and no token is asked for on is open. -/
theorem open_of_not_protected {s : Settings} {path : List Char} (hp : ¬ s.Protected path)
    (hr : ¬ s.Ruled path) : s.Open path := by
  refine ⟨Classical.byContradiction fun hn => hp ⟨fun ho => hn (.inl ho), fun h => absurd h hn⟩, hr⟩

theorem Open.not_protected {s : Settings} {path : List Char} (h : s.Open path) : ¬ s.Protected path := by
  rintro ⟨-, hr⟩; exact h.2 (hr h.1)

end Settings

/-! ## Paths that are let pass -/

theorem Path.check_eq_ok {path p : List Char} (h : check path = .ok p) : p = path := by
  unfold check at h
  split at h
  · cases h
  · split at h
    · cases h
    · cases h; rfl

theorem Path.check_of_url {base : String} {target : Target} {url : List Char}
    (h : Backend.url base target = .ok url) : check target.path = .ok target.path := by
  unfold Backend.url at h
  cases hp : check target.path with
  | error fault => rw [hp] at h; cases h
  | ok path => rw [check_eq_ok hp]

end Tollgate.Gateway
