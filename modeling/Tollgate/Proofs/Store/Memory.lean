/-
A store in memory, key by key. A command is answered by the entries of its keys and changes no others, so a plan
gets the same answers from two stores that agree on its keys, and leaves all other keys as they are. Only a command
that begins a lifetime can go without an answer, and does exactly if the end of that lifetime cannot be told.
-/
import Tollgate.Proofs.Store.Plan
import Tollgate.Store.Memory

namespace Tollgate.Memory

/-! ## Entries -/

theorem entry?_remove (m : Memory) (key other : String) :
    Memory.entry? (m.remove key) other = if other = key then none else m.entry? other := by
  unfold Memory.entry? remove
  generalize m.entries = entries
  induction entries with
  | nil => simp
  | cons e rest ih =>
    obtain ⟨k, e⟩ := e
    by_cases hk : k = key
    · rw [List.filter_cons_of_neg (by simp [hk]), ih]
      by_cases ho : other = key
      · simp only [ho, if_true]
      · simp only [ho, if_false, List.lookup_cons, hk, beq_eq_false_iff_ne.2 ho]
    · rw [List.filter_cons_of_pos (by simp [hk]), List.lookup_cons, List.lookup_cons, ih]
      by_cases ho : other = key
      · simp only [ho, if_true, beq_eq_false_iff_ne.2 (Ne.symm hk)]
      · simp only [ho, if_false]

theorem entry?_set (m : Memory) (key other : String) (e : Entry) :
    Memory.entry? (m.set key e) other = if other = key then some e else m.entry? other := by
  have hrest := entry?_remove m key other
  unfold Memory.entry? at hrest ⊢
  unfold set
  rw [List.lookup_cons, hrest]
  by_cases ho : other = key
  · simp only [ho, if_true, beq_self_eq_true]
  · simp only [ho, if_false, beq_eq_false_iff_ne.2 ho]

theorem ending?_of_lt {now lifetime : Nat} (h : now + lifetime < clockEnd) :
    ending? now lifetime = some (now + lifetime) := if_pos h

theorem ending?_of_le {now lifetime : Nat} (h : clockEnd ≤ now + lifetime) : ending? now lifetime = none :=
  if_neg (Nat.not_lt.2 h)

theorem insert_eq_some_iff {m m' : Memory} {now lifetime : Nat} {key : String} :
    m.insert now key (some lifetime) = some m' ↔
      now + lifetime < clockEnd ∧ m' = m.set key ⟨1, some (now + lifetime)⟩ := by
  show (ending? now lifetime).map (fun at_ => m.set key ⟨1, some at_⟩) = some m' ↔ _
  unfold ending?
  split
  · rename_i h
    rw [Option.map_some, Option.some.injEq, and_iff_right h, eq_comm]
  · rename_i h
    exact iff_of_false nofun fun h' => h h'.1

theorem insert_eq_none {m : Memory} {now lifetime : Nat} {key : String} (h : clockEnd ≤ now + lifetime) :
    m.insert now key (some lifetime) = none := by
  show (ending? now lifetime).map _ = none
  rw [ending?_of_le h]
  rfl

/-- What a counter is when it is raised: a window that begins has an end if that can be told. -/
def raisedEntry (e : Entry) (now window : Nat) : Entry :=
  ⟨e.count + 1, if e.count = 0 then (ending? now window).or e.expiresAt else e.expiresAt⟩

theorem raisedEntry_absent_of_lt {now window : Nat} (h : now + window < clockEnd) :
    raisedEntry ⟨0, none⟩ now window = ⟨1, some (now + window)⟩ := by
  simp [raisedEntry, ending?_of_lt h]

theorem raisedEntry_absent_of_le {now window : Nat} (h : clockEnd ≤ now + window) :
    raisedEntry ⟨0, none⟩ now window = ⟨1, none⟩ := by
  simp [raisedEntry, ending?_of_le h]

theorem raisedEntry_of_pos {e : Entry} {now window : Nat} (h : 0 < e.count) :
    raisedEntry e now window = ⟨e.count + 1, e.expiresAt⟩ := by
  simp [raisedEntry, Nat.ne_of_gt h]

theorem increment_snd (m : Memory) (now : Nat) (key : String) (window : Nat) :
    (m.increment now key window).2 = m.set key (raisedEntry ((m.live? now key).getD ⟨0, none⟩) now window) := by
  unfold increment raisedEntry
  generalize (m.live? now key).getD ⟨0, none⟩ = e
  by_cases he : e.count = 0
  · simp only [he, Nat.zero_add, if_true]
    cases ending? now window <;> rfl
  · simp [he]

/-- A counter that is raised tells its count, unless it begins a window whose end cannot be told. -/
theorem increment_fst_eq_some_iff {m : Memory} {now : Nat} {key : String} {window n : Nat} :
    (m.increment now key window).1 = some n ↔
      n = (m.live? now key).elim 0 (·.count) + 1 ∧ (n = 1 → now + window < clockEnd) := by
  have hcount : (m.live? now key).elim 0 (·.count) = ((m.live? now key).getD ⟨0, none⟩).count := by
    cases m.live? now key <;> rfl
  rw [hcount]
  unfold increment
  generalize (m.live? now key).getD ⟨0, none⟩ = e
  by_cases he : e.count = 0
  · by_cases hend : now + window < clockEnd
    · simp [he, ending?_of_lt hend, hend, eq_comm]
    · simp [he, ending?_of_le (Nat.not_lt.1 hend), hend]
  · simp only [Nat.add_eq_right, he, if_false, Option.some.injEq]
    omega

theorem entry?_increment (m : Memory) (now : Nat) (key : String) (window : Nat) :
    Memory.entry? (m.increment now key window).2 key =
      some (raisedEntry ((m.live? now key).getD ⟨0, none⟩) now window) := by
  rw [increment_snd, entry?_set, if_pos rfl]

theorem entry?_increment_of_ne (m : Memory) (now : Nat) {key other : String} (window : Nat) (h : other ≠ key) :
    Memory.entry? (m.increment now key window).2 other = m.entry? other := by
  rw [increment_snd, entry?_set, if_neg h]

/-- A counter that is raised is live, whether its window has an end or not. -/
theorem isLive_raisedEntry (m : Memory) (now : Nat) (key : String) {window : Nat} (h : 0 < window) :
    (raisedEntry ((m.live? now key).getD ⟨0, none⟩) now window).isLive now = true := by
  have hlive : ((m.live? now key).getD ⟨0, none⟩).isLive now = true := by
    cases he : m.live? now key with
    | none => rfl
    | some e => exact (Option.filter_eq_some_iff.1 he).2
  unfold raisedEntry ending?
  unfold Entry.isLive at hlive ⊢
  split
  · split
    · simp [h]
    · exact hlive
  · exact hlive

/-- A counter that is raised does not stay as it was. -/
theorem entry?_increment_ne (m : Memory) (now : Nat) (key : String) {window : Nat} (h : 0 < window) :
    Memory.entry? (m.increment now key window).2 key ≠ m.entry? key := by
  rw [entry?_increment]
  have hlive := isLive_raisedEntry m now key h
  intro heq
  generalize hr : raisedEntry ((m.live? now key).getD ⟨0, none⟩) now window = e at hlive heq
  -- it is live, and so was the one before if they are the same; but then it counts one more
  have hsame : m.live? now key = some e := by
    unfold live?
    rw [← heq]
    exact Option.filter_some_pos (p := fun e : Entry => e.isLive now) hlive
  rw [hsame] at hr
  exact absurd (congrArg Entry.count hr) (Nat.succ_ne_self _)

theorem entry?_erase (m : Memory) (now : Nat) (keys : List String) (other : String) :
    Memory.entry? (m.erase now keys).2 other = if other ∈ keys then none else m.entry? other := by
  induction keys generalizing m with
  | nil => simp [erase]
  | cons key rest ih =>
    rw [erase, ih, entry?_remove]
    by_cases ho : other = key
    · simp [ho]
    · simp [ho]

theorem available_erase (m : Memory) (now : Nat) (keys : List String) :
    (m.erase now keys).2.available = m.available := by
  induction keys generalizing m with
  | nil => rfl
  | cons key rest ih => exact ih (m.remove key)

/-! ## Commands -/

variable {m m' : Memory} {now : Nat}

theorem serve_of_unavailable (h : m.available = false) (c : Command) :
    serve now m c = (some (.error unavailable), m) := by
  unfold serve
  rw [h]; rfl

theorem serve_contains (h : m.available = true) (key : String) :
    serve now m (.contains key) = (some (.ok (m.live? now key).isSome), m) := by
  unfold serve
  rw [h]; rfl

theorem serve_increment (h : m.available = true) (key : String) (window : Nat) :
    serve now m (.increment key window) =
      ((m.increment now key window).1.map .ok, (m.increment now key window).2) := by
  unfold serve
  rw [h]; rfl

theorem serve_count (h : m.available = true) (key : String) :
    serve now m (.count key) = (some (.ok ((m.live? now key).elim 0 (·.count))), m) := by
  unfold serve
  rw [h]; rfl

theorem serve_put_of_lt (h : m.available = true) (key value : String) {lifetime : Nat}
    (hend : now + lifetime < clockEnd) :
    serve now m (.put key value lifetime) = (some (.ok ()), m.set key ⟨1, some (now + lifetime)⟩) := by
  unfold serve
  simp only [h, Bool.not_true, Bool.false_eq_true, if_false, insert_eq_some_iff.2 ⟨hend, rfl⟩]

theorem serve_put_of_le (h : m.available = true) (key value : String) {lifetime : Nat}
    (hend : clockEnd ≤ now + lifetime) : serve now m (.put key value lifetime) = (none, m) := by
  unfold serve insert
  simp only [h, Bool.not_true, Bool.false_eq_true, if_false, ending?_of_le hend, Option.map_none]

theorem serve_erase (h : m.available = true) (keys : List String) :
    serve now m (.erase keys) = (some (.ok (m.erase now keys).1), (m.erase now keys).2) := by
  unfold serve
  rw [h]; rfl

theorem serve_lifetime (h : m.available = true) (key : String) :
    serve now m (.lifetime key) = (some (.ok (((m.live? now key).bind (·.expiresAt)).map (· - now))), m) := by
  unfold serve
  rw [h]; rfl

/-- A value that is entered has an end that can be told. -/
theorem put_of_serve (h : m.available = true) {key value : String} {lifetime : Nat}
    {reply : (Command.put key value lifetime).Reply} (hs : serve now m (.put key value lifetime) = (some reply, m')) :
    reply = .ok () ∧ m' = m.set key ⟨1, some (now + lifetime)⟩ := by
  rcases lt_or_ge (now + lifetime) clockEnd with hend | hend
  · rw [serve_put_of_lt h key value hend] at hs
    cases hs
    exact ⟨rfl, rfl⟩
  · rw [serve_put_of_le h key value hend] at hs
    cases hs

/-- What a command writes, if anything, it writes under its own keys. -/
theorem serve_cases (now : Nat) (m : Memory) (c : Command) : (serve now m c).2 = m ∨
    (∃ key ∈ c.keys, ∃ e, (serve now m c).2 = m.set key e) ∨
    ∃ keys, c = .erase keys ∧ (serve now m c).2 = (m.erase now keys).2 := by
  cases hm : m.available with
  | false => exact .inl (congrArg Prod.snd (serve_of_unavailable hm c))
  | true =>
    cases c with
    | contains key => exact .inl (congrArg Prod.snd (serve_contains hm key))
    | count key => exact .inl (congrArg Prod.snd (serve_count hm key))
    | lifetime key => exact .inl (congrArg Prod.snd (serve_lifetime hm key))
    | erase keys => exact .inr (.inr ⟨keys, rfl, congrArg Prod.snd (serve_erase hm keys)⟩)
    | increment key window =>
      have hs := (congrArg Prod.snd (serve_increment hm key window)).trans (increment_snd m now key window)
      exact .inr (.inl ⟨key, List.mem_cons_self, _, hs⟩)
    | put key value lifetime =>
      rcases lt_or_ge (now + lifetime) clockEnd with hend | hend
      · exact .inr (.inl ⟨key, List.mem_cons_self, _, congrArg Prod.snd (serve_put_of_lt hm key value hend)⟩)
      · exact .inl (congrArg Prod.snd (serve_put_of_le hm key value hend))

/-- Looking is answered, and changes nothing. -/
theorem serve_of_isLookup {c : Command} (h : c.isLookup = true) (now : Nat) (m : Memory) :
    ∃ reply, serve now m c = (some reply, m) := by
  cases hm : m.available with
  | false => exact ⟨_, serve_of_unavailable hm c⟩
  | true =>
    cases c with
    | contains key => exact ⟨_, serve_contains hm key⟩
    | count key => exact ⟨_, serve_count hm key⟩
    | lifetime key => exact ⟨_, serve_lifetime hm key⟩
    | _ => cases h

theorem available_serve (m : Memory) (now : Nat) (c : Command) : (serve now m c).2.available = m.available := by
  rcases serve_cases now m c with h | ⟨key, -, e, h⟩ | ⟨keys, -, h⟩
  · rw [h]
  · rw [h]; rfl
  · rw [h, available_erase]

/-- A command leaves the keys that it does not name as they are. -/
theorem entry?_serve_of_notMem {c : Command} {key : String} (h : key ∉ c.keys) :
    Memory.entry? (serve now m c).2 key = m.entry? key := by
  rcases serve_cases now m c with hs | ⟨other, hother, e, hs⟩ | ⟨keys, rfl, hs⟩
  · rw [hs]
  · rw [hs, entry?_set, if_neg]
    rintro rfl
    exact h hother
  · rw [hs, entry?_erase, if_neg (show key ∉ keys from h)]

/-! ## Live entries -/

theorem live?_congr {key : String} (h : m'.entry? key = m.entry? key) (now : Nat) :
    m'.live? now key = m.live? now key := by
  unfold live?
  rw [h]

theorem live?_set (m : Memory) (now : Nat) (key : String) {e : Entry} (h : e.isLive now = true) :
    Memory.live? (m.set key e) now key = some e := by
  unfold live?
  rw [entry?_set, if_pos rfl]
  exact Option.filter_some_pos (p := fun e : Entry => e.isLive now) h

/-- What is entered for some time is there for now. -/
theorem live?_set_lasting (m : Memory) (now : Nat) (key : String) {lifetime : Nat} (h : 0 < lifetime) :
    Memory.live? (m.set key ⟨1, some (now + lifetime)⟩) now key = some ⟨1, some (now + lifetime)⟩ :=
  live?_set m now key (by simpa [Entry.isLive] using h)

theorem live?_set_of_ne (m : Memory) (now : Nat) {key other : String} (e : Entry) (h : other ≠ key) :
    Memory.live? (m.set key e) now other = m.live? now other :=
  live?_congr (by rw [entry?_set, if_neg h]) now

theorem live?_erase_of_notMem (m : Memory) (now later : Nat) {keys : List String} {other : String}
    (h : other ∉ keys) : Memory.live? (m.erase now keys).2 later other = m.live? later other :=
  live?_congr (by rw [entry?_erase, if_neg h]) later

theorem live?_increment_of_ne (m : Memory) (now later : Nat) {key other : String} (window : Nat) (h : other ≠ key) :
    Memory.live? (m.increment now key window).2 later other = m.live? later other :=
  live?_congr (entry?_increment_of_ne m now window h) later

/-- A counter that was raised is live, and holds one more. -/
theorem live?_increment (m : Memory) (now : Nat) (key : String) {window : Nat} (h : 0 < window) :
    (Memory.live? (m.increment now key window).2 now key).elim 0 (·.count) =
      (m.live? now key).elim 0 (·.count) + 1 := by
  rw [increment_snd, live?_set _ _ _ (isLive_raisedEntry m now key h)]
  cases m.live? now key <;> rfl

/-! ## Stores that agree on some keys -/

/-- Two stores that cannot be told apart by some keys. -/
structure Agree (keys : String → Prop) (m m' : Memory) : Prop where
  available : m.available = m'.available
  entry : ∀ key, keys key → m.entry? key = m'.entry? key

namespace Agree

variable {keys : String → Prop}

theorem refl (keys : String → Prop) (m : Memory) : Agree keys m m := ⟨rfl, fun _ _ => rfl⟩

theorem live? (h : Agree keys m m') (now : Nat) {key : String} (hk : keys key) :
    m.live? now key = m'.live? now key := by
  unfold Memory.live?
  rw [h.entry key hk]

theorem remove (h : Agree keys m m') (key : String) : Agree keys (m.remove key) (m'.remove key) where
  available := h.available
  entry := by
    intro other ho
    rw [entry?_remove, entry?_remove, h.entry other ho]

theorem set (h : Agree keys m m') (key : String) (e : Entry) : Agree keys (m.set key e) (m'.set key e) where
  available := h.available
  entry := by
    intro other ho
    rw [entry?_set, entry?_set, h.entry other ho]

theorem increment (h : Agree keys m m') (now : Nat) {key : String} (hk : keys key) (window : Nat) :
    (m.increment now key window).1 = (m'.increment now key window).1 ∧
      Agree keys (m.increment now key window).2 (m'.increment now key window).2 := by
  refine ⟨Option.ext fun n => ?_, ?_⟩
  · rw [increment_fst_eq_some_iff, increment_fst_eq_some_iff, h.live? now hk]
  · rw [increment_snd, increment_snd, h.live? now hk]
    exact h.set key _

theorem erase (h : Agree keys m m') (now : Nat) {ks : List String} (hk : ∀ key ∈ ks, keys key) :
    (m.erase now ks).1 = (m'.erase now ks).1 ∧ Agree keys (m.erase now ks).2 (m'.erase now ks).2 := by
  induction ks generalizing m m' with
  | nil => exact ⟨rfl, h⟩
  | cons key rest ih =>
    obtain ⟨hkey, hrest⟩ := List.forall_mem_cons.1 hk
    obtain ⟨hcount, hagree⟩ := ih (h.remove key) hrest
    simp only [Memory.erase, hcount, h.live? now hkey]
    exact ⟨trivial, hagree⟩

/-- A command on keys that two stores agree on is answered by both in the same way, and they still agree. -/
theorem serve (h : Agree keys m m') (now : Nat) {c : Command} (hk : ∀ key ∈ c.keys, keys key) :
    (Memory.serve now m c).1 = (Memory.serve now m' c).1 ∧
      Agree keys (Memory.serve now m c).2 (Memory.serve now m' c).2 := by
  cases hm : m.available with
  | false =>
    rw [serve_of_unavailable hm, serve_of_unavailable (h.available ▸ hm)]
    exact ⟨rfl, h⟩
  | true =>
    have hm' : m'.available = true := h.available ▸ hm
    cases c with
    | contains key =>
      rw [serve_contains hm, serve_contains hm', h.live? now (hk key List.mem_cons_self)]
      exact ⟨rfl, h⟩
    | count key =>
      rw [serve_count hm, serve_count hm', h.live? now (hk key List.mem_cons_self)]
      exact ⟨rfl, h⟩
    | lifetime key =>
      rw [serve_lifetime hm, serve_lifetime hm', h.live? now (hk key List.mem_cons_self)]
      exact ⟨rfl, h⟩
    | put key value lifetime =>
      rcases lt_or_ge (now + lifetime) clockEnd with hend | hend
      · rw [serve_put_of_lt hm key value hend, serve_put_of_lt hm' key value hend]
        exact ⟨rfl, h.set key _⟩
      · rw [serve_put_of_le hm key value hend, serve_put_of_le hm' key value hend]
        exact ⟨rfl, h⟩
    | increment key window =>
      obtain ⟨hcount, hagree⟩ := h.increment now (hk key List.mem_cons_self) window
      rw [serve_increment hm, serve_increment hm', hcount]
      exact ⟨rfl, hagree⟩
    | erase ks =>
      obtain ⟨hcount, hagree⟩ := h.erase now hk
      rw [serve_erase hm, serve_erase hm']
      exact ⟨congrArg (fun n => some (Except.ok n)) hcount, hagree⟩

end Agree

/-! ## A store that always answers -/

/-- The same store if whoever it breaks down over is told of a fault. -/
def steady (now : Nat) (m : Memory) (c : Command) : c.Reply × Memory :=
  ((serve now m c).1.getD (.error .timeout), (serve now m c).2)

theorem steady_of_serve {c : Command} {reply : c.Reply} (h : serve now m c = (some reply, m')) :
    steady now m c = (reply, m') := by
  unfold steady
  rw [h]; rfl

/-! ## Plans -/

variable {α : Type} {keys : String → Prop}

theorem available_attempt (p : Plan α) (m : Memory) :
    (p.attempt (serve now) m).2.available = m.available := by
  have hp : p.Sends fun _ => True := by
    induction p with
    | done a => trivial
    | ask c next ih => exact ⟨trivial, ih⟩
  exact hp.view_attempt Memory.available (fun m c _ => available_serve m now c) m

/-- A store that is made to fail stays as it is. -/
theorem attempt_of_unavailable (h : m.available = false) (p : Plan α) : (p.attempt (serve now) m).2 = m := by
  induction p with
  | done a => rfl
  | ask c next ih =>
    rw [Plan.attempt_ask_of_some (serve_of_unavailable h c)]
    exact ih _

/-- Looking is answered, and changes nothing. -/
theorem attempt_of_lookups {p : Plan α} (h : p.Sends (·.isLookup = true)) (now : Nat) (m : Memory) :
    ∃ a, p.attempt (serve now) m = (some a, m) := by
  induction p with
  | done a => exact ⟨a, rfl⟩
  | ask c next ih =>
    obtain ⟨reply, hreply⟩ := serve_of_isLookup h.1 now m
    rw [Plan.attempt_ask_of_some hreply]
    exact ih reply (h.2 reply)

/-- A plan on keys that two stores agree on ends in the same way on both, and they still agree. -/
theorem Agree.attempt {p : Plan α} (hp : p.Within keys) (h : Agree keys m m') :
    (p.attempt (Memory.serve now) m).1 = (p.attempt (Memory.serve now) m').1 ∧
      Agree keys (p.attempt (Memory.serve now) m).2 (p.attempt (Memory.serve now) m').2 := by
  induction p generalizing m m' with
  | done a => exact ⟨rfl, h⟩
  | ask c next ih =>
    obtain ⟨hreply, hagree⟩ := h.serve now hp.1
    rcases hm : Memory.serve now m c with ⟨_ | reply, after⟩ <;>
      rcases hm' : Memory.serve now m' c with ⟨reply', after'⟩ <;>
      rw [hm, hm'] at hreply hagree <;> cases hreply
    · rw [Plan.attempt_ask_of_none hm, Plan.attempt_ask_of_none hm']
      exact ⟨rfl, hagree⟩
    · rw [Plan.attempt_ask_of_some hm, Plan.attempt_ask_of_some hm']
      exact ih reply (hp.2 reply) hagree

/-- A plan leaves all keys but its own as they are. -/
theorem entry?_attempt {p : Plan α} (hp : p.Within keys) {key : String} (hk : ¬ keys key) (m : Memory) :
    Memory.entry? (p.attempt (serve now) m).2 key = m.entry? key := by
  have hkept (m : Memory) (c : Command) (hc : ∀ key ∈ c.keys, keys key) :
      Memory.entry? (serve now m c).2 key = m.entry? key := entry?_serve_of_notMem fun hmem => hk (hc key hmem)
  exact hp.sends.view_attempt (Memory.entry? · key) hkept m

end Tollgate.Memory
