/-
Counters on another machine, raised by several callers at once. A counter that is new gets its lifetime by a request
of its own, which its caller sends once it was told that the counter is new. Every request may fail, and a caller may
be told of a failure although its request was carried out. So a counter expires exactly if a request for that was
carried out after the one that it came to be by.
-/
import Mathlib
import Tollgate.Bytes.Number
import Tollgate.Store.Remote

namespace Tollgate.Remote

/-! ## The machine -/

structure Counter where
  value : Int
  expires : Bool
deriving DecidableEq

/-- A machine: what it answers, what it holds, and what may become of it by the time. -/
structure Server (σ : Type) where
  answer : σ → List String → Reply × σ
  counter? : σ → String → Option Counter
  Ages : σ → σ → Prop

def raising (key : String) : List String := ["INCRBY", key, "1"]

def limiting (key : String) (nanos : Nat) : List String := ["EXPIRE", key, window nanos]

namespace Server

variable {σ : Type} (v : Server σ)

/-- A request is refused, and changes nothing. -/
def Refuses (s : σ) (words : List String) : Prop :=
  (v.answer s words).1.fault?.isSome = true ∧ ∀ key, v.counter? (v.answer s words).2 key = v.counter? s key

/-- A request changes a key, and no other. -/
def Changes (s : σ) (words : List String) (key : String) (c : Option Counter) : Prop :=
  v.counter? (v.answer s words).2 key = c ∧
    ∀ other, other ≠ key → v.counter? (v.answer s words).2 other = v.counter? s other

/-- What the machine is documented to do. A key that is raised and not there is one of zero without an end, the end of
one that is there stays as it is, numbers have 64 bits, and only what has an end goes by itself. -/
structure Lawful : Prop where
  raises : ∀ s key, v.Refuses s (raising key) ∨ ∃ c, c = (v.counter? s key).getD ⟨0, false⟩ ∧
    (v.answer s (raising key)).1 = .integer (c.value + 1) ∧ c.value + 1 < 2 ^ 63 ∧
    v.Changes s (raising key) key (some ⟨c.value + 1, c.expires⟩)
  limits : ∀ s key nanos, v.Refuses s (limiting key nanos) ∨
    (v.answer s (limiting key nanos)).1.fault? = none ∧
    v.Changes s (limiting key nanos) key ((v.counter? s key).map fun c => ⟨c.value, true⟩)
  ages : ∀ s s', v.Ages s s' → ∀ key, v.counter? s' key = v.counter? s key ∨
    v.counter? s' key = none ∧ ∃ c, v.counter? s key = some c ∧ c.expires = true

def Lasting (s : σ) (key : String) : Prop := ∃ c, v.counter? s key = some c ∧ c.expires = false

end Server

/-! ## What a caller does -/

/-- What a caller does with the answer to its first request. -/
def afterRaising (key : String) (nanos : Nat) (reply : Reply) : Talk Nat :=
  match reply.fault? with
  | some fault => .done (.error fault)
  | none =>
    match reply.natural with
    | .error fault => .done (.error fault)
    | .ok n => if n = 1 then .ask (limiting key nanos) fun _ => .ok n else .done (.ok n)

theorem talk_increment (key : String) (nanos : Nat) :
    talk (.increment key nanos) = .send (raising key) (afterRaising key nanos) := rfl

/-- What is left to do for a caller that was told that its counter is new. -/
def told (key : String) (nanos : Nat) : Talk Nat := .ask (limiting key nanos) fun _ => .ok 1

theorem afterRaising_one (key : String) (nanos : Nat) : afterRaising key nanos (.integer 1) = told key nanos := rfl

theorem afterRaising_more (key : String) (nanos : Nat) {n : Int} (h : 1 < n) (h' : n < 2 ^ 63) :
    ∃ result, afterRaising key nanos (.integer n) = .done result := by
  refine ⟨.ok (n % 2 ^ 64).toNat, ?_⟩
  show (if (n % 2 ^ 64).toNat = 1 then _ else _) = _
  rw [if_neg]
  omega

theorem afterRaising_fault (key : String) (nanos : Nat) {reply : Reply} (h : reply.fault?.isSome = true) :
    ∃ result, afterRaising key nanos reply = .done result := by
  obtain ⟨fault, hf⟩ := Option.isSome_iff_exists.1 h
  exact ⟨.error fault, by unfold afterRaising; rw [hf]⟩

theorem told_eq (key : String) (nanos : Nat) : ∃ next, told key nanos = .send (limiting key nanos) next ∧
    ∀ reply, ∃ result, next reply = .done result := by
  refine ⟨_, rfl, fun reply => ?_⟩
  dsimp only
  split
  · exact ⟨_, rfl⟩
  · exact ⟨_, rfl⟩

/-! ## Several callers -/

/-- A request that the machine carried out for a caller, and what it answered. -/
structure Entry where
  caller : Nat
  words : List String
  reply : Reply
deriving DecidableEq

/-- A machine, what its callers have left to do, and what it has carried out. -/
structure Callers (σ : Type) where
  server : σ
  talks : List (Talk Nat)
  log : List Entry

/-- What can happen next: the request of a caller is answered, or is carried out and the answer lost, or is lost
itself; or time passes. -/
inductive Step {σ : Type} (v : Server σ) (x : Callers σ) : Callers σ → Prop
  | answered {i : Nat} {words : List String} {next : Reply → Talk Nat} (h : x.talks[i]? = some (.send words next)) :
      Step v x ⟨(v.answer x.server words).2, x.talks.set i (next (v.answer x.server words).1),
        x.log ++ [⟨i, words, (v.answer x.server words).1⟩]⟩
  | unheard {i : Nat} {words : List String} {next : Reply → Talk Nat} (h : x.talks[i]? = some (.send words next))
      {failure : Reply} (hf : failure.fault?.isSome = true) :
      Step v x ⟨(v.answer x.server words).2, x.talks.set i (next failure),
        x.log ++ [⟨i, words, (v.answer x.server words).1⟩]⟩
  | undone {i : Nat} {words : List String} {next : Reply → Talk Nat} (h : x.talks[i]? = some (.send words next))
      {failure : Reply} (hf : failure.fault?.isSome = true) :
      Step v x { x with talks := x.talks.set i (next failure) }
  | aged {s : σ} (h : v.Ages x.server s) : Step v x { x with server := s }

def Course {σ : Type} (v : Server σ) : Callers σ → Callers σ → Prop := Relation.ReflTransGen (Step v)

/-- Callers that are about to raise counters, each with its window. -/
def callers {σ : Type} (s : σ) (calls : List (String × Nat)) : Callers σ :=
  ⟨s, calls.map fun c => talk (.increment c.1 c.2), []⟩

/-! ## What was carried out -/

/-- A counter came to be by a request. -/
def Entry.Creates (e : Entry) (key : String) : Prop := e.words = raising key ∧ e.reply = .integer 1

def Entry.Limits (e : Entry) (key : String) : Prop := e.words.take 2 = ["EXPIRE", key] ∧ e.reply.fault? = none

/-- A counter came to be and was given no end since. -/
def Unlimited (key : String) : List Entry → Prop
  | [] => False
  | e :: later => (e.Creates key ∧ ∀ x ∈ later, ¬ x.Limits key) ∨ Unlimited key later

instance (e : Entry) (key : String) : Decidable (e.Creates key) := inferInstanceAs (Decidable (_ ∧ _))

instance (e : Entry) (key : String) : Decidable (e.Limits key) := inferInstanceAs (Decidable (_ ∧ _))

instance decidableUnlimited (key : String) : (log : List Entry) → Decidable (Unlimited key log)
  | [] => inferInstanceAs (Decidable False)
  | _ :: later =>
    have := decidableUnlimited key later
    inferInstanceAs (Decidable ((_ ∧ _) ∨ _))

theorem unlimited_concat {key : String} {log : List Entry} {e : Entry} :
    Unlimited key (log ++ [e]) ↔ e.Creates key ∨ Unlimited key log ∧ ¬ e.Limits key := by
  induction log with
  | nil => simp [Unlimited]
  | cons x log ih =>
    simp only [List.cons_append, Unlimited, ih, List.mem_append, List.mem_singleton, or_imp, forall_and, forall_eq]
    tauto

theorem creates_iff {i : Nat} {key other : String} {reply : Reply} :
    Entry.Creates ⟨i, raising key, reply⟩ other ↔ other = key ∧ reply = .integer 1 := by
  simp [Entry.Creates, raising, eq_comm]

theorem not_limits_raising {i : Nat} {key other : String} {reply : Reply} :
    ¬ Entry.Limits ⟨i, raising key, reply⟩ other := by
  simp [Entry.Limits, raising]

theorem limits_iff {i : Nat} {key other : String} {nanos : Nat} {reply : Reply} :
    Entry.Limits ⟨i, limiting key nanos, reply⟩ other ↔ other = key ∧ reply.fault? = none := by
  simp [Entry.Limits, limiting, eq_comm]

theorem not_creates_limiting {i : Nat} {key other : String} {nanos : Nat} {reply : Reply} :
    ¬ Entry.Creates ⟨i, limiting key nanos, reply⟩ other := by
  simp [Entry.Creates, limiting, raising]

/-! ## What the machine and the log have in common -/

variable {σ : Type} {v : Server σ}

/-- All counters are positive, and those without an end are those that came to be and were given none since. -/
structure Tallies (v : Server σ) (s : σ) (log : List Entry) : Prop where
  positive : ∀ key c, v.counter? s key = some c → 1 ≤ c.value
  lasting : ∀ key, v.Lasting s key ↔ Unlimited key log

namespace Tallies

variable {s s' : σ} {log : List Entry}

theorem aged (hv : v.Lawful) (h : Tallies v s log) (ha : v.Ages s s') : Tallies v s' log where
  positive key c hc := by
    rcases hv.ages s s' ha key with hsame | ⟨hgone, -⟩
    · exact h.positive key c (hsame ▸ hc)
    · rw [hgone] at hc; cases hc
  lasting key := by
    rw [← h.lasting key]
    unfold Server.Lasting
    rcases hv.ages s s' ha key with hsame | ⟨hgone, c, hc, hexpires⟩
    · rw [hsame]
    · simp [hgone, hc, hexpires]

theorem refused {words : List String} (h : Tallies v s log) (hr : v.Refuses s words) (i : Nat) :
    Tallies v (v.answer s words).2 (log ++ [⟨i, words, (v.answer s words).1⟩]) where
  positive key c hc := h.positive key c (by rw [← hr.2 key]; exact hc)
  lasting key := by
    -- an entry for a request that was refused neither creates nor limits anything
    have hnone : ¬ Entry.Creates ⟨i, words, (v.answer s words).1⟩ key := by
      rintro ⟨-, hone⟩
      have := hr.1
      rw [show (v.answer s words).1 = _ from hone] at this
      cases this
    have hlimits : ¬ Entry.Limits ⟨i, words, (v.answer s words).1⟩ key := by
      rintro ⟨-, hok⟩
      have := hr.1
      rw [show (v.answer s words).1.fault? = _ from hok] at this
      cases this
    rw [unlimited_concat, ← h.lasting key]
    unfold Server.Lasting
    simp [hr.2 key, hnone, hlimits]

/-- A counter that was raised is new exactly if the answer is one, and it then has no end. -/
theorem raised (hv : v.Lawful) (h : Tallies v s log) (key : String) (i : Nat) :
    Tallies v (v.answer s (raising key)).2 (log ++ [⟨i, raising key, (v.answer s (raising key)).1⟩]) := by
  rcases hv.raises s key with hr | ⟨c, hc, hreply, -, hkey, hother⟩
  · exact h.refused hr i
  -- the counter that was raised is either not there yet, or positive, so that it is not raised to one
  have hcases : v.counter? s key = none ∧ c.value = 0 ∧ c.expires = false ∨
      v.counter? s key = some c ∧ 1 ≤ c.value := by
    cases hs : v.counter? s key with
    | none => rw [hs] at hc; exact .inl ⟨rfl, by rw [hc]; rfl, by rw [hc]; rfl⟩
    | some c' =>
      rw [hs] at hc
      obtain rfl : c = c' := hc
      exact .inr ⟨rfl, h.positive key c hs⟩
  constructor
  · intro other c' hc'
    by_cases ho : other = key
    · subst ho
      rw [hkey] at hc'
      cases hc'
      rcases hcases with ⟨-, h0, -⟩ | ⟨-, h1⟩
      · show 1 ≤ c.value + 1
        omega
      · show 1 ≤ c.value + 1
        omega
    · rw [hother other ho] at hc'
      exact h.positive other c' hc'
  · intro other
    rw [unlimited_concat, creates_iff, ← h.lasting other, hreply]
    simp only [not_limits_raising, not_false_eq_true, and_true, Reply.integer.injEq]
    unfold Server.Lasting
    by_cases ho : other = key
    · subst ho
      rw [hkey]
      rcases hcases with ⟨hs, h0, hexpires⟩ | ⟨hs, h1⟩
      · simp [h0, hexpires]
      · have : c.value + 1 ≠ 1 := by omega
        simp [hs, this]
    · simp [hother other ho, ho]

/-- A key that was given an end has one. -/
theorem limited (hv : v.Lawful) (h : Tallies v s log) (key : String) (nanos : Nat) (i : Nat) :
    Tallies v (v.answer s (limiting key nanos)).2
      (log ++ [⟨i, limiting key nanos, (v.answer s (limiting key nanos)).1⟩]) := by
  rcases hv.limits s key nanos with hr | ⟨hreply, hkey, hother⟩
  · exact h.refused hr i
  constructor
  · intro other c hc
    by_cases ho : other = key
    · subst ho
      rw [hkey, Option.map_eq_some_iff] at hc
      obtain ⟨c', hc', rfl⟩ := hc
      exact h.positive other c' hc'
    · rw [hother other ho] at hc
      exact h.positive other c hc
  · intro other
    rw [unlimited_concat, limits_iff, ← h.lasting other]
    simp only [not_creates_limiting, false_or, hreply, and_true]
    unfold Server.Lasting
    by_cases ho : other = key
    · subst ho
      rw [hkey]
      cases v.counter? s other <;> simp
    · simp [hother other ho, ho]

end Tallies

/-! ## Any course -/

/-- What a caller can be at, who was told of a new counter if the log says so. -/
inductive Standing (log : List Entry) (i : Nat) : Talk Nat → Prop
  | begun (key : String) (nanos : Nat) : Standing log i (talk (.increment key nanos))
  | told (key : String) (nanos : Nat) (h : ⟨i, raising key, .integer 1⟩ ∈ log) : Standing log i (told key nanos)
  | done (result : Except StoreFault Nat) : Standing log i (.done result)

theorem Standing.mono {log log' : List Entry} {i : Nat} {p : Talk Nat} (h : Standing log i p) (hl : log ⊆ log') :
    Standing log' i p := by
  cases h with
  | begun key nanos => exact .begun key nanos
  | told key nanos h => exact .told key nanos (hl h)
  | done result => exact .done result

/-- Whoever limits a counter was told before that it is new. -/
def Founded (log : List Entry) : Prop :=
  ∀ earlier e key, earlier ++ [e] <+: log → e.words.take 2 = ["EXPIRE", key] →
    ⟨e.caller, raising key, .integer 1⟩ ∈ earlier

theorem Founded.concat {log : List Entry} (h : Founded log) {e : Entry}
    (he : ∀ key, e.words.take 2 = ["EXPIRE", key] → ⟨e.caller, raising key, .integer 1⟩ ∈ log) :
    Founded (log ++ [e]) := by
  intro earlier e' key hp hw
  rcases List.prefix_concat_iff.1 hp with hall | hp
  · obtain ⟨rfl, he'⟩ := List.append_inj' hall rfl
    obtain rfl := List.singleton_inj.1 he'
    exact he key hw
  · exact h earlier e' key hp hw

/-- What holds of callers on the way. -/
structure Sound (v : Server σ) (x : Callers σ) : Prop where
  tallies : Tallies v x.server x.log
  founded : Founded x.log
  standing : ∀ i p, x.talks[i]? = some p → Standing x.log i p

theorem sound_callers {s : σ} (h : ∀ key c, v.counter? s key = some c → 1 ≤ c.value ∧ c.expires = true)
    (calls : List (String × Nat)) : Sound v (callers s calls) where
  tallies := by
    refine ⟨fun key c hc => (h key c hc).1, fun key => iff_of_false ?_ id⟩
    rintro ⟨c, hc, hlasting⟩
    rw [(h key c hc).2] at hlasting
    cases hlasting
  founded := by
    intro earlier e key hp
    exact absurd (List.prefix_nil.1 hp) (by simp)
  standing := by
    intro i p hp
    obtain ⟨c, -, rfl⟩ := Option.map_eq_some_iff.1 ((List.getElem?_map ..).symm.trans hp)
    exact .begun c.1 c.2

/-- What a caller does next: it raises a counter or limits one that it was told is new. -/
theorem Standing.send {log : List Entry} {i : Nat} {words : List String} {next : Reply → Talk Nat}
    (h : Standing log i (.send words next)) :
    (∃ key nanos, words = raising key ∧ next = afterRaising key nanos) ∨
      ∃ key nanos, words = limiting key nanos ∧ Talk.send words next = Remote.told key nanos ∧
        ⟨i, raising key, .integer 1⟩ ∈ log ∧ ∀ reply, ∃ result, next reply = .done result := by
  generalize hp : Talk.send words next = p at h
  cases h with
  | begun key nanos =>
    rw [talk_increment] at hp
    cases hp
    exact .inl ⟨key, nanos, rfl, rfl⟩
  | told key nanos h =>
    obtain ⟨next', htold, hdone⟩ := told_eq key nanos
    rw [htold] at hp
    cases hp
    exact .inr ⟨key, nanos, rfl, rfl, h, hdone⟩
  | done result => cases hp

namespace Sound

variable {x y : Callers σ} {i : Nat} {words : List String} {next : Reply → Talk Nat}

theorem carried (hv : v.Lawful) (h : Sound v x) (hi : x.talks[i]? = some (.send words next)) :
    Tallies v (v.answer x.server words).2 (x.log ++ [⟨i, words, (v.answer x.server words).1⟩]) ∧
      Founded (x.log ++ [⟨i, words, (v.answer x.server words).1⟩]) := by
  rcases (h.standing i _ hi).send with ⟨key, nanos, rfl, -⟩ | ⟨key, nanos, rfl, -, htold, -⟩
  · refine ⟨h.tallies.raised hv key i, h.founded.concat ?_⟩
    intro other hw
    simp [raising] at hw
  · refine ⟨h.tallies.limited hv key nanos i, h.founded.concat ?_⟩
    intro other hw
    obtain rfl : key = other := by simpa [limiting] using hw
    exact htold

/-- A caller that is told of a failure is at its end. -/
theorem next_failed (h : Sound v x) (hi : x.talks[i]? = some (.send words next)) {failure : Reply}
    (hf : failure.fault?.isSome = true) : ∃ result, next failure = .done result := by
  rcases (h.standing i _ hi).send with ⟨key, nanos, -, rfl⟩ | ⟨-, -, -, -, -, hdone⟩
  · exact afterRaising_fault key nanos hf
  · exact hdone failure

/-- A caller that is answered was told that its counter is new, which was not there, or is at its end. -/
theorem next_answered (hv : v.Lawful) (h : Sound v x) (hi : x.talks[i]? = some (.send words next)) :
    (∃ key nanos, words = raising key ∧ v.counter? x.server key = none ∧
      (v.answer x.server words).1 = .integer 1 ∧ next (v.answer x.server words).1 = told key nanos) ∨
      ∃ result, next (v.answer x.server words).1 = .done result := by
  rcases (h.standing i _ hi).send with ⟨key, nanos, rfl, rfl⟩ | ⟨-, -, -, -, -, hdone⟩
  · rcases hv.raises x.server key with hr | ⟨c, hc, hreply, hbound, -⟩
    · exact .inr (h.next_failed hi hr.1)
    · rw [hreply]
      cases hs : v.counter? x.server key with
      | none =>
        rw [hs] at hc
        subst hc
        exact .inl ⟨key, nanos, rfl, hs, rfl, afterRaising_one key nanos⟩
      | some held =>
        rw [hs] at hc
        obtain rfl : c = held := hc
        -- the answer is more than one and has not wrapped around, so the caller takes it for no new counter
        have := h.tallies.positive key c hs
        exact .inr (afterRaising_more key nanos (by omega) hbound)
  · exact .inr (hdone _)

theorem standing_failed (h : Sound v x) (hi : x.talks[i]? = some (.send words next)) {failure : Reply}
    (hf : failure.fault?.isSome = true) (log : List Entry) : Standing log i (next failure) := by
  obtain ⟨result, hresult⟩ := h.next_failed hi hf
  rw [hresult]
  exact .done result

theorem standing_answered (hv : v.Lawful) (h : Sound v x) (hi : x.talks[i]? = some (.send words next)) :
    Standing (x.log ++ [⟨i, words, (v.answer x.server words).1⟩]) i (next (v.answer x.server words).1) := by
  rcases h.next_answered hv hi with ⟨key, nanos, rfl, -, hreply, htold⟩ | ⟨result, hresult⟩
  · rw [htold]
    exact .told key nanos (by rw [hreply]; simp)
  · rw [hresult]
    exact .done result

theorem standing_set (h : Sound v x) {p : Talk Nat} {log : List Entry} (hl : x.log ⊆ log) (hp : Standing log i p) :
    ∀ j q, (x.talks.set i p)[j]? = some q → Standing log j q := by
  intro j q hj
  by_cases hji : i = j
  · subst hji
    obtain ⟨-, rfl⟩ : i < x.talks.length ∧ p = q := by simpa [List.getElem?_set, ite_eq_iff] using hj
    exact hp
  · rw [List.getElem?_set_ne hji] at hj
    exact (h.standing j q hj).mono hl

theorem step (hv : v.Lawful) (h : Sound v x) (hs : Step v x y) : Sound v y := by
  cases hs with
  | answered hi =>
    obtain ⟨htallies, hfounded⟩ := h.carried hv hi
    exact ⟨htallies, hfounded, h.standing_set (List.subset_append_left _ _) (h.standing_answered hv hi)⟩
  | unheard hi hf =>
    obtain ⟨htallies, hfounded⟩ := h.carried hv hi
    exact ⟨htallies, hfounded, h.standing_set (List.subset_append_left _ _) (h.standing_failed hi hf _)⟩
  | undone hi hf => exact ⟨h.tallies, h.founded, h.standing_set (List.Subset.refl _) (h.standing_failed hi hf _)⟩
  | aged ha => exact ⟨h.tallies.aged hv ha, h.founded, h.standing⟩

theorem course (hv : v.Lawful) (h : Sound v x) (hc : Course v x y) : Sound v y := by
  induction hc with
  | refl => exact h
  | tail _ hs ih => exact ih.step hv hs

end Sound

/-- Any callers that raise counters on a machine that starts with none but positive ones that expire, whatever becomes
of their requests: every counter that is there expires exactly if after the request that it came to be by one was
carried out that limits it; and such a request is only sent by a caller that was told before that the counter is new. -/
theorem expires_iff (hv : v.Lawful) {s : σ}
    (h : ∀ key c, v.counter? s key = some c → 1 ≤ c.value ∧ c.expires = true) (calls : List (String × Nat))
    {x : Callers σ} (hx : Course v (callers s calls) x) :
    (∀ key, (∀ c, v.counter? x.server key = some c → c.expires = true) ↔ ¬ Unlimited key x.log) ∧
    Founded x.log := by
  have hsound := (sound_callers h calls).course hv hx
  refine ⟨fun key => ?_, hsound.founded⟩
  rw [← hsound.tallies.lasting key]
  simp [Server.Lasting]

/-! ## A machine that keeps a table -/

def raise (s : List (String × Counter)) (key : String) : Reply × List (String × Counter) :=
  let c := (s.lookup key).getD ⟨0, false⟩
  if c.value + 1 < 2 ^ 63 then (.integer (c.value + 1), (key, ⟨c.value + 1, c.expires⟩) :: s)
  else (.refused "ERR increment or decrement would overflow", s)

def limit (s : List (String × Counter)) (key : String) : Reply × List (String × Counter) :=
  match s.lookup key with
  | none => (.integer 0, s)
  | some c => (.integer 1, (key, ⟨c.value, true⟩) :: s)

def table : Server (List (String × Counter)) where
  answer s
    | ["INCRBY", key, "1"] => raise s key
    | ["EXPIRE", key, _] => limit s key
    | _ => (.refused "ERR unknown command", s)
  counter? s key := s.lookup key
  Ages s s' := ∀ key, s'.lookup key = s.lookup key ∨
    s'.lookup key = none ∧ ∃ c, s.lookup key = some c ∧ c.expires = true

theorem lookup_cons_of_ne {s : List (String × Counter)} {key other : String} (c : Counter) (h : other ≠ key) :
    ((key, c) :: s).lookup other = s.lookup other := by
  rw [List.lookup_cons, beq_eq_false_iff_ne.2 h]

theorem lawful_table : table.Lawful where
  raises s key := by
    have hanswer : table.answer s (raising key) = raise s key := rfl
    unfold Server.Refuses Server.Changes
    rw [hanswer]
    unfold raise
    by_cases h : ((s.lookup key).getD ⟨0, false⟩).value + 1 < 2 ^ 63
    · rw [if_pos h]
      exact .inr ⟨_, rfl, rfl, h, List.lookup_cons_self, fun _ ho => lookup_cons_of_ne _ ho⟩
    · rw [if_neg h]
      exact .inl ⟨rfl, fun _ => rfl⟩
  limits s key nanos := by
    have hanswer : table.answer s (limiting key nanos) = limit s key := rfl
    have hheld : table.counter? s key = s.lookup key := rfl
    unfold Server.Changes
    rw [hanswer, hheld]
    unfold limit
    cases h : s.lookup key with
    | none => exact .inr ⟨rfl, h, fun _ _ => rfl⟩
    | some c => exact .inr ⟨rfl, List.lookup_cons_self, fun _ ho => lookup_cons_of_ne _ ho⟩
  ages s s' h := h

/-! ## Runs -/

inductive Fate where
  | answered
  | unheard (failure : Reply)
  | undone (failure : Reply)

/-- The next request of one of the callers, if it has any left. -/
def turn? (v : Server σ) (x : Callers σ) (i : Nat) (fate : Fate) : Option (Callers σ) :=
  match x.talks[i]?, fate with
  | some (.send words next), .answered =>
    some ⟨(v.answer x.server words).2, x.talks.set i (next (v.answer x.server words).1),
      x.log ++ [⟨i, words, (v.answer x.server words).1⟩]⟩
  | some (.send words next), .unheard failure =>
    if failure.fault?.isSome then
      some ⟨(v.answer x.server words).2, x.talks.set i (next failure),
        x.log ++ [⟨i, words, (v.answer x.server words).1⟩]⟩
    else none
  | some (.send _ next), .undone failure =>
    if failure.fault?.isSome then some { x with talks := x.talks.set i (next failure) } else none
  | _, _ => none

theorem step_of_turn? {x y : Callers σ} {i : Nat} {fate : Fate} (h : turn? v x i fate = some y) : Step v x y := by
  unfold turn? at h
  split at h
  · cases h
    exact .answered ‹_›
  · split at h
    · cases h
      exact .unheard ‹_› ‹_›
    · cases h
  · split at h
    · cases h
      exact .undone ‹_› ‹_›
    · cases h
  · cases h

/-- Callers whose requests meet their fates as these are listed. -/
def play (v : Server σ) (x : Callers σ) : List (Nat × Fate) → Option (Callers σ)
  | [] => some x
  | (i, fate) :: rest => (turn? v x i fate).bind (play v · rest)

theorem course_of_play {x y : Callers σ} {turns : List (Nat × Fate)} (h : play v x turns = some y) :
    Course v x y := by
  induction turns generalizing x with
  | nil => cases h; exact .refl
  | cons turn rest ih =>
    obtain ⟨z, hz, h⟩ := Option.bind_eq_some_iff.1 h
    exact .head (step_of_turn? hz) (ih h)

/-- What a caller came to, if it is at its end. -/
def Talk.result? {α : Type} : Talk α → Option (Except StoreFault α)
  | done result => some result
  | send _ _ => none

def violations : String := "security:violations:203.0.113.7"

def bothRaise : Callers (List (String × Counter)) :=
  callers [] [(violations, 300000000000), (violations, 300000000000)]

theorem expires_iff_bothRaise : ∃ x, Course table bothRaise x ∧
    x.talks.map Talk.result? = [some (.ok 1), some (.ok 2)] ∧
    ∀ c, table.counter? x.server violations = some c → c.expires = true := by
  have h : (play table bothRaise [(0, .answered), (1, .answered), (0, .answered)]).map
      (fun x => (x.talks.map Talk.result?, decide (Unlimited violations x.log))) =
      some ([some (.ok 1), some (.ok 2)], false) := by decide +kernel
  obtain ⟨x, hx, hresult⟩ := Option.map_eq_some_iff.1 h
  obtain ⟨hresults, hlimited⟩ := Prod.mk.inj hresult
  have hcourse := course_of_play hx
  refine ⟨x, hcourse, hresults, ?_⟩
  exact ((expires_iff lawful_table (fun _ _ h => by cases h) _ hcourse).1 violations).2 (of_decide_eq_false hlimited)

/-- A caller that is not answered in time when it limits the counter that it began leaves one that never expires: the
next one is told that it is not new. -/
theorem bothRaise_not_expires : ∃ x, Course table bothRaise x ∧
    x.talks.map Talk.result? = [some (.error .timeout), some (.ok 2)] ∧
    table.counter? x.server violations = some ⟨2, false⟩ := by
  have h : (play table bothRaise [(0, .answered), (0, .undone .late), (1, .answered)]).map
      (fun x => (x.talks.map Talk.result?, table.counter? x.server violations)) =
      some ([some (.error .timeout), some (.ok 2)], some ⟨2, false⟩) := by decide +kernel
  obtain ⟨x, hx, hresult⟩ := Option.map_eq_some_iff.1 h
  obtain ⟨hresults, hcounter⟩ := Prod.mk.inj hresult
  exact ⟨x, course_of_play hx, hresults, hcounter⟩

end Tollgate.Remote
