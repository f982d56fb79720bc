/-
A store in memory as what it stands for: a map from keys to counters from which an entry is gone once its time has
come. The store keeps such entries on and passes over them, and forgets them when it is told to, or when their key is
written anew; none of this can be told from its answers. The store parts with the map where a lifetime begins whose end
cannot be told: it breaks down over that, and a counter that begins with such a window stays without an end.
-/
import Tollgate.Bytes.Number
import Tollgate.Proofs.Store.Memory

namespace Tollgate

/-! ## The map -/

/-- The counters by key, with the instants that they end at, and whether the map can be asked. -/
@[ext]
structure Ledger where
  entry : String → Option Entry
  available : Bool

namespace Ledger

/-- A map without entries. -/
def empty : Ledger := ⟨fun _ => none, true⟩

/-- An instant has come: the entries that end there or ended before are gone. -/
def pass (now : Nat) (l : Ledger) : Ledger :=
  { l with entry := fun key => (l.entry key).filter fun e => !e.expiresAt.any (· ≤ now) }

/-- Gives a key an entry. -/
def put (l : Ledger) (key : String) (e : Entry) : Ledger :=
  { l with entry := fun other => if other = key then some e else l.entry other }

/-- Takes the entries of keys away. -/
def drop (l : Ledger) (keys : List String) : Ledger :=
  { l with entry := fun other => if other ∈ keys then none else l.entry other }

/-- Answers a command at an instant that has come. A counter that is absent starts at one with the end of its window,
one that is present keeps its end; of some keys those are counted that are present. -/
def serve (now : Nat) (l : Ledger) (c : Command) : c.Reply × Ledger :=
  if !l.available then (.error Memory.unavailable, l)
  else match c with
  | .contains key => (.ok (l.entry key).isSome, l)
  | .increment key window =>
    match l.entry key with
    | none => (.ok 1, l.put key ⟨1, some (now + window)⟩)
    | some e => (.ok (e.count + 1), l.put key { e with count := e.count + 1 })
  | .count key => (.ok ((l.entry key).elim 0 (·.count)), l)
  | .put key _ lifetime => (.ok (), l.put key ⟨1, some (now + lifetime)⟩)
  | .erase keys => (.ok (keys.toFinset.filter fun key => (l.entry key).isSome = true).card, l.drop keys)
  | .lifetime key => (.ok (((l.entry key).bind (·.expiresAt)).map (· - now)), l)

end Ledger

/-! ## Courses of operations -/

/-- What is done with a store: its owner enters or forgets a key or makes it fail, or a command is asked. -/
inductive Act where
  | insert (key : String) (lifetime : Option Nat)
  | remove (key : String)
  | setAvailable (available : Bool)
  | ask (c : Command)

/-- What happens to a store at an instant: something is done with it, or it is purged. -/
inductive Turn where
  | act (now : Nat) (a : Act)
  | purge (now : Nat)

namespace Turn

/-- When it happens. -/
def time : Turn → Nat
  | act now _ => now
  | purge now => now

/-- Whether something is done. -/
def isAct : Turn → Bool
  | act _ _ => true
  | purge _ => false

/-- What is done, and when. -/
def acts : List Turn → List (Nat × Act)
  | [] => []
  | act now a :: rest => (now, a) :: acts rest
  | purge _ :: rest => acts rest

theorem acts_filter (turns : List Turn) : acts (turns.filter (·.isAct)) = acts turns := by
  induction turns with
  | nil => rfl
  | cons turn rest ih =>
    cases turn with
    | act now a => exact congrArg ((now, a) :: ·) ih
    | purge now => exact ih

end Turn

/-- What comes of something that is done. -/
inductive Outcome where
  | done
  | answered (x : Exchange)
  /-- it broke down, and there is no answer -/
  | broken

namespace Ledger

/-- What comes of something that is done with the map, and what it is then. -/
def perform (now : Nat) (l : Ledger) : Act → Outcome × Ledger
  | .insert key lifetime => (.done, l.put key ⟨1, lifetime.map (now + ·)⟩)
  | .remove key => (.done, l.drop [key])
  | .setAvailable available => (.done, { l with available })
  | .ask c => (.answered ⟨c, (l.serve now c).1⟩, (l.serve now c).2)

/-- The lifetime that begins with something that is done, if one does. -/
def begins (l : Ledger) : Act → Option Nat
  | .insert _ lifetime => lifetime
  | .ask (.put _ _ lifetime) => if l.available then some lifetime else none
  | .ask (.increment key window) => if l.available && (l.entry key).isNone then some window else none
  | _ => none

/-- Whether the end of the lifetime that begins, if one does, can be told. -/
def tells (now : Nat) (l : Ledger) (a : Act) : Bool := (l.begins a).all fun lifetime => now + lifetime < clockEnd

/-- What is left of the map by something that broke down: a counter has counted, and has no end. -/
def breakDown (l : Ledger) : Act → Ledger
  | .ask (.increment key _) => l.put key ⟨1, none⟩
  | _ => l

/-- What comes of something that is done with the map if it breaks down over ends that cannot be told. -/
def attempt (now : Nat) (l : Ledger) (a : Act) : Outcome × Ledger :=
  if l.tells now a then l.perform now a else (.broken, l.breakDown a)

/-- What comes of all that is done with the map, each thing at its instant. -/
def answers (step : Nat → Ledger → Act → Outcome × Ledger) : Ledger → List (Nat × Act) → List Outcome
  | _, [] => []
  | l, (now, a) :: rest => (step now (l.pass now) a).1 :: answers step (step now (l.pass now) a).2 rest

/-- The end of every lifetime that begins can be told. -/
def Tells : Ledger → List (Nat × Act) → Prop
  | _, [] => True
  | l, (now, a) :: rest => (l.pass now).tells now a = true ∧ Tells ((l.pass now).perform now a).2 rest

end Ledger

namespace Memory

/-- What comes of something that is done with the store, and what it is then. -/
def perform (now : Nat) (m : Memory) : Act → Outcome × Memory
  | .insert key lifetime =>
    match m.insert now key lifetime with
    | some m' => (.done, m')
    | none => (.broken, m)
  | .remove key => (.done, m.remove key)
  | .setAvailable available => (.done, m.setAvailable available)
  | .ask c =>
    match m.serve now c with
    | (some reply, m') => (.answered ⟨c, reply⟩, m')
    | (none, m') => (.broken, m')

/-- What comes of all that is done with the store, with purges in between. -/
def answers : Memory → List Turn → List Outcome
  | _, [] => []
  | m, .act now a :: rest => (m.perform now a).1 :: answers (m.perform now a).2 rest
  | m, .purge now :: rest => answers (m.purge now).2 rest

end Memory

/-! ## Time passes -/

theorem Entry.isLive_eq (e : Entry) (now : Nat) : e.isLive now = !e.expiresAt.any (· ≤ now) := by
  unfold isLive
  cases e.expiresAt with
  | none => rfl
  | some until_ =>
    rw [Option.all_some, Option.any_some, ← decide_not]
    exact decide_eq_decide.2 Nat.not_le.symm

/-- What is live at an instant was live before. -/
theorem Entry.isLive_of_le {e : Entry} {now later : Nat} (hle : now ≤ later) (h : e.isLive later = true) :
    e.isLive now = true := by
  unfold isLive at h ⊢
  cases he : e.expiresAt with
  | none => rfl
  | some until_ =>
    rw [he, Option.all_some, decide_eq_true_eq] at h
    rw [Option.all_some, decide_eq_true_eq]
    omega

theorem Entry.filter_isLive {now later : Nat} (hle : now ≤ later) (e : Option Entry) :
    (e.filter (·.isLive now)).filter (·.isLive later) = e.filter (·.isLive later) := by
  cases e with
  | none => rfl
  | some e =>
    rw [Option.filter_some, Option.filter_some]
    split
    · rfl
    · rename_i hnow
      rw [if_neg (mt (Entry.isLive_of_le hle) hnow)]
      rfl

namespace Ledger

variable {now later : Nat}

theorem pass_eq (now : Nat) (l : Ledger) :
    l.pass now = { l with entry := fun key => (l.entry key).filter (·.isLive now) } := by
  unfold pass
  simp only [Entry.isLive_eq]

theorem pass_pass (hle : now ≤ later) (l : Ledger) : (l.pass now).pass later = l.pass later := by
  simp only [pass_eq, Entry.filter_isLive hle]

/-! ## Ends that can be told -/

theorem perform_ne_broken (now : Nat) (l : Ledger) (a : Act) : (l.perform now a).1 ≠ .broken := by
  cases a <;> nofun

/-- The map with breakdowns is the one without as long as all ends can be told, and no longer. -/
theorem answers_attempt_iff (l : Ledger) (acts : List (Nat × Act)) :
    l.answers attempt acts = l.answers perform acts ↔ l.Tells acts := by
  induction acts generalizing l with
  | nil => exact iff_of_true rfl trivial
  | cons act rest ih =>
    obtain ⟨now, a⟩ := act
    unfold answers Tells
    rw [List.cons.injEq]
    unfold attempt
    cases (l.pass now).tells now a with
    | true =>
      simp only [if_true, true_and]
      exact ih _
    | false =>
      simp only [Bool.false_eq_true, if_false, false_and, iff_false, not_and]
      exact fun h => absurd h.symm (perform_ne_broken now _ a)

end Ledger

namespace Memory

variable {m : Memory} {now later : Nat}

/-! ## What a store stands for -/

/-- The map that a store stands for at an instant. -/
def view (now : Nat) (m : Memory) : Ledger := ⟨m.live? now, m.available⟩

theorem pass_view (hle : now ≤ later) (m : Memory) : (view now m).pass later = view later m := by
  rw [Ledger.pass_eq]
  unfold view live?
  simp only [Entry.filter_isLive hle]

/-- Stores whose entries differ as those of two maps stand for these maps once what has ended is left out. -/
theorem view_eq_pass {l : Ledger} (havailable : m.available = l.available)
    (hentry : ∀ key, m.live? now key = (l.entry key).filter (·.isLive now)) : view now m = l.pass now := by
  rw [Ledger.pass_eq]
  exact Ledger.ext (funext hentry) havailable

theorem filter_live? (m : Memory) (now : Nat) (key : String) :
    (m.live? now key).filter (·.isLive now) = (m.entry? key).filter (·.isLive now) :=
  Entry.filter_isLive le_rfl _

theorem view_set (m : Memory) (now : Nat) (key : String) (e : Entry) :
    view now (m.set key e) = ((view now m).put key e).pass now := by
  refine view_eq_pass rfl fun other => ?_
  show Option.filter _ (Memory.entry? (m.set key e) other) =
    Option.filter _ (if other = key then some e else m.live? now other)
  rw [entry?_set]
  split
  · rfl
  · rw [filter_live?]

theorem view_remove (m : Memory) (now : Nat) (key : String) :
    view now (m.remove key) = ((view now m).drop [key]).pass now := by
  refine view_eq_pass rfl fun other => ?_
  show Option.filter _ (Memory.entry? (m.remove key) other) =
    Option.filter _ (if other ∈ [key] then none else m.live? now other)
  simp only [entry?_remove, List.mem_singleton]
  split
  · rfl
  · rw [filter_live?]

theorem view_erase (m : Memory) (now : Nat) (keys : List String) :
    view now (m.erase now keys).2 = ((view now m).drop keys).pass now := by
  refine view_eq_pass (available_erase m now keys) fun other => ?_
  show Option.filter _ (Memory.entry? (m.erase now keys).2 other) =
    Option.filter _ (if other ∈ keys then none else m.live? now other)
  rw [entry?_erase]
  split
  · rfl
  · rw [filter_live?]

theorem live?_remove (m : Memory) (now : Nat) (key other : String) :
    Memory.live? (m.remove key) now other = if other = key then none else m.live? now other := by
  unfold live?
  rw [entry?_remove]
  split <;> rfl

/-- Of the keys that are erased those are counted that are live, each once. -/
theorem count_erase (m : Memory) (now : Nat) (keys : List String) :
    (m.erase now keys).1 = (keys.toFinset.filter fun key => (m.live? now key).isSome = true).card := by
  induction keys generalizing m with
  | nil => rfl
  | cons key rest ih =>
    -- a key that is named again is no longer live by then
    have hrest : (rest.toFinset.filter fun other => (Memory.live? (m.remove key) now other).isSome = true) =
        (rest.toFinset.filter fun other => (m.live? now other).isSome = true).erase key := by
      ext other
      rw [Finset.mem_erase, Finset.mem_filter, Finset.mem_filter, live?_remove]
      by_cases ho : other = key
      · simp [ho]
      · simp [ho]
    rw [erase, List.toFinset_cons, Finset.filter_insert]
    dsimp only
    rw [ih (m.remove key), hrest]
    split
    · rw [← Finset.erase_insert_eq_erase, Finset.card_erase_add_one (Finset.mem_insert_self _ _)]
    · rename_i hkey
      have habsent : key ∉ rest.toFinset.filter fun other => (m.live? now other).isSome = true :=
        fun h => hkey (Finset.mem_filter.1 h).2
      rw [Finset.erase_eq_of_notMem habsent]
      rfl

/-! ## Stores as they come about -/

/-- Of keys that are entered once it does not matter whether entries are left out before or after the look-up. -/
theorem lookup_filter {entries : List (String × Entry)} (h : (entries.map (·.1)).Nodup) (p : Entry → Bool)
    (key : String) : (entries.filter fun e => p e.2).lookup key = (entries.lookup key).filter p := by
  induction entries with
  | nil => rfl
  | cons e rest ih =>
    obtain ⟨k, e⟩ := e
    rw [List.map_cons, List.nodup_cons] at h
    rw [List.filter_cons]
    cases hp : p e with
    | true =>
      rw [if_pos rfl, List.lookup_cons, List.lookup_cons, ih h.2]
      split
      · rw [Option.filter_some, if_pos hp]
      · rfl
    | false =>
      rw [if_neg Bool.false_ne_true, List.lookup_cons, ih h.2]
      split
      · rename_i hkey
        -- no other entry of the key comes to light
        have hnone : rest.lookup key = none := by
          refine List.lookup_eq_none_iff.2 fun x hx => ?_
          rw [beq_iff_eq] at hkey
          rw [hkey, bne_iff_ne]
          rintro rfl
          exact h.1 (List.mem_map.2 ⟨x, hx, rfl⟩)
        rw [hnone, Option.filter_some, if_neg (by simp [hp])]; rfl
      · rfl

/-- Every key is entered once, and every counter has counted something. -/
structure Sound (m : Memory) : Prop where
  distinct : (m.entries.map (·.1)).Nodup
  counted : ∀ e ∈ m.entries, 0 < e.2.count

namespace Sound

theorem empty : Sound Memory.empty := ⟨List.nodup_nil, fun _ h => nomatch h⟩

theorem of_sublist {entries : List (String × Entry)} (h : m.Sound) (hs : entries.Sublist m.entries) (available : Bool) :
    Sound ⟨entries, available⟩ where
  distinct := h.distinct.sublist (hs.map _)
  counted e he := h.counted e (hs.subset he)

theorem remove (h : m.Sound) (key : String) : (m.remove key).Sound := h.of_sublist List.filter_sublist _

theorem purge (h : m.Sound) (now : Nat) : (m.purge now).2.Sound := h.of_sublist List.filter_sublist _

theorem set (h : m.Sound) (key : String) {e : Entry} (he : 0 < e.count) : (m.set key e).Sound where
  distinct := by
    show (key :: (m.remove key).entries.map (·.1)).Nodup
    refine List.nodup_cons.2 ⟨?_, (h.remove key).distinct⟩
    intro hmem
    obtain ⟨⟨k, e⟩, hk, rfl⟩ := List.mem_map.1 hmem
    simp [Memory.remove] at hk
  counted x hx := by
    rcases List.mem_cons.1 hx with rfl | hx
    · exact he
    · exact (h.remove key).counted x hx

theorem erase (h : m.Sound) (now : Nat) (keys : List String) : (m.erase now keys).2.Sound := by
  induction keys generalizing m with
  | nil => exact h
  | cons key rest ih => exact ih (h.remove key)

theorem serve (h : m.Sound) (now : Nat) (c : Command) : (Memory.serve now m c).2.Sound := by
  cases hm : m.available with
  | false => rw [serve_of_unavailable hm]; exact h
  | true =>
    cases c with
    | contains key => rw [serve_contains hm]; exact h
    | count key => rw [serve_count hm]; exact h
    | lifetime key => rw [serve_lifetime hm]; exact h
    | erase keys => rw [serve_erase hm]; exact h.erase now keys
    | increment key window =>
      rw [serve_increment hm, increment_snd]
      exact h.set key (Nat.succ_pos _)
    | put key value lifetime =>
      rcases lt_or_ge (now + lifetime) clockEnd with hend | hend
      · rw [serve_put_of_lt hm key value hend]
        exact h.set key Nat.one_pos
      · rw [serve_put_of_le hm key value hend]
        exact h

theorem insert (h : m.Sound) {key : String} {lifetime : Option Nat} {m' : Memory}
    (hm : m.insert now key lifetime = some m') : m'.Sound := by
  cases lifetime with
  | none =>
    cases hm
    exact h.set key Nat.one_pos
  | some lifetime =>
    obtain ⟨-, rfl⟩ := insert_eq_some_iff.1 hm
    exact h.set key Nat.one_pos

theorem perform (h : m.Sound) (now : Nat) (a : Act) : (m.perform now a).2.Sound := by
  cases a with
  | insert key lifetime =>
    rw [Memory.perform]
    split
    · rename_i m' hm
      exact h.insert hm
    · exact h
  | remove key => exact h.remove key
  | setAvailable available => exact ⟨h.distinct, h.counted⟩
  | ask c =>
    have hserve := h.serve now c
    rw [Memory.perform]
    rcases hc : m.serve now c with ⟨_ | reply, m'⟩ <;> rw [hc] at hserve <;> exact hserve

theorem count_pos (h : m.Sound) {key : String} {e : Entry} (he : m.live? now key = some e) : 0 < e.count := by
  have hentry := (Option.filter_eq_some_iff.1 he).1
  obtain ⟨before, after, hentries, -⟩ := List.lookup_eq_some_iff.1 hentry
  exact h.counted (key, e) (by rw [hentries]; exact List.mem_append_right _ List.mem_cons_self)

/-- A purge takes away what is passed over anyway. -/
theorem view_purge (h : m.Sound) (now : Nat) : view now (m.purge now).2 = view now m := by
  refine Ledger.ext (funext fun key => ?_) rfl
  show Option.filter (·.isLive now) ((m.entries.filter fun e => e.2.isLive now).lookup key) = m.live? now key
  rw [lookup_filter h.distinct (·.isLive now)]
  exact filter_live? m now key

end Sound

/-! ## One step, and all of them -/

/-- A counter that is absent starts as in the map if the end of its window can be told. -/
theorem increment_of_absent {key : String} {window : Nat} (he : m.live? now key = none)
    (hend : now + window < clockEnd) : (m.increment now key window).1 = some 1 ∧
      view now (m.increment now key window).2 = ((view now m).put key ⟨1, some (now + window)⟩).pass now := by
  rw [increment_snd, he, Option.getD_none, raisedEntry_absent_of_lt hend]
  exact ⟨increment_fst_eq_some_iff.2 ⟨by rw [he]; rfl, fun _ => hend⟩, view_set m now key _⟩

/-- If the end of its window cannot be told it starts without one, and nobody is told. -/
theorem increment_of_endless {key : String} {window : Nat} (he : m.live? now key = none)
    (hend : clockEnd ≤ now + window) : (m.increment now key window).1 = none ∧
      view now (m.increment now key window).2 = ((view now m).put key ⟨1, none⟩).pass now := by
  rw [increment_snd, he, Option.getD_none, raisedEntry_absent_of_le hend]
  refine ⟨Option.eq_none_iff_forall_not_mem.2 fun n hn => ?_, view_set m now key _⟩
  obtain ⟨hn, hlt⟩ := increment_fst_eq_some_iff.1 hn
  rw [he] at hn
  exact absurd (hlt hn) (Nat.not_lt.2 hend)

/-- A counter that is live is raised as in the map: it has counted something, so its window has begun. -/
theorem increment_of_live (h : m.Sound) {key : String} {e : Entry} (he : m.live? now key = some e) (window : Nat) :
    (m.increment now key window).1 = some (e.count + 1) ∧
      view now (m.increment now key window).2 = ((view now m).put key { e with count := e.count + 1 }).pass now := by
  have hpos := h.count_pos he
  rw [increment_snd, he, Option.getD_some, raisedEntry_of_pos hpos]
  exact ⟨increment_fst_eq_some_iff.2 ⟨by rw [he]; rfl, fun h => absurd h (by omega)⟩, view_set m now key _⟩

/-- A command that begins no lifetime, or one whose end can be told, is answered as by the map that the store stands
for, and what the store stands for then is what becomes of that map. -/
theorem serve_view (h : m.Sound) (now : Nat) (c : Command) (ht : (view now m).tells now (.ask c) = true) :
    (serve now m c).1 = some ((view now m).serve now c).1 ∧
      view now (serve now m c).2 = ((view now m).serve now c).2.pass now := by
  unfold Ledger.serve
  cases hm : m.available with
  | false =>
    have hview : (!(view now m).available) = true := by
      show (!m.available) = true
      rw [hm]; rfl
    rw [serve_of_unavailable hm, if_pos hview]
    exact ⟨rfl, (pass_view le_rfl m).symm⟩
  | true =>
    have hview : ¬ (!(view now m).available) = true := by
      show ¬ (!m.available) = true
      rw [hm]; exact Bool.false_ne_true
    rw [if_neg hview]
    cases c with
    | contains key =>
      rw [serve_contains hm]
      exact ⟨rfl, (pass_view le_rfl m).symm⟩
    | count key =>
      rw [serve_count hm]
      exact ⟨rfl, (pass_view le_rfl m).symm⟩
    | lifetime key =>
      rw [serve_lifetime hm]
      exact ⟨rfl, (pass_view le_rfl m).symm⟩
    | erase keys =>
      rw [serve_erase hm]
      exact ⟨congrArg (fun n => some (Except.ok n)) (count_erase m now keys), view_erase m now keys⟩
    | put key value lifetime =>
      have hend : now + lifetime < clockEnd := by simpa [Ledger.tells, Ledger.begins, view, hm] using ht
      rw [serve_put_of_lt hm key value hend]
      exact ⟨rfl, view_set m now key _⟩
    | increment key window =>
      rw [serve_increment hm]
      cases he : m.live? now key with
      | none =>
        have hend : now + window < clockEnd := by simpa [Ledger.tells, Ledger.begins, view, hm, he] using ht
        obtain ⟨hcount, hnext⟩ := increment_of_absent he hend
        simp only [show (view now m).entry key = none from he, hcount, Option.map_some, hnext, and_self]
      | some e =>
        obtain ⟨hcount, hnext⟩ := increment_of_live h he window
        simp only [show (view now m).entry key = some e from he, hcount, Option.map_some, hnext, and_self]

/-- A command that begins a lifetime whose end cannot be told is not answered. -/
theorem serve_of_not_tells {c : Command} (ht : (view now m).tells now (.ask c) = false) :
    (serve now m c).1 = none ∧ view now (serve now m c).2 = ((view now m).breakDown (.ask c)).pass now := by
  have hm : m.available = true := by
    rw [← Bool.not_eq_false]
    intro hm
    cases c <;> simp [Ledger.tells, Ledger.begins, view, hm] at ht
  cases c with
  | put key value lifetime =>
    have hend : clockEnd ≤ now + lifetime := by simpa [Ledger.tells, Ledger.begins, view, hm] using ht
    rw [serve_put_of_le hm key value hend]
    exact ⟨rfl, (pass_view le_rfl m).symm⟩
  | increment key window =>
    obtain ⟨he, hend⟩ : m.live? now key = none ∧ clockEnd ≤ now + window := by
      cases he : m.live? now key with
      | some e => simp [Ledger.tells, Ledger.begins, view, hm, he] at ht
      | none => simpa [Ledger.tells, Ledger.begins, view, hm, he] using ht
    obtain ⟨hcount, hnext⟩ := increment_of_endless he hend
    rw [serve_increment hm, hcount]
    exact ⟨rfl, hnext⟩
  | _ => cases ht

/-- One thing that is done comes to what it comes to for the map that the store stands for, breakdowns included. -/
theorem perform_view (h : m.Sound) (now : Nat) (a : Act) :
    (m.perform now a).1 = ((view now m).attempt now a).1 ∧
      view now (m.perform now a).2 = ((view now m).attempt now a).2.pass now := by
  unfold Ledger.attempt
  cases a with
  | remove key => exact ⟨rfl, view_remove m now key⟩
  | setAvailable available =>
    refine ⟨rfl, view_eq_pass rfl fun key => ?_⟩
    exact (filter_live? m now key).symm
  | insert key lifetime =>
    cases lifetime with
    | none => exact ⟨rfl, view_set m now key _⟩
    | some lifetime =>
      rw [perform]
      have ht : (view now m).tells now (.insert key (some lifetime)) = decide (now + lifetime < clockEnd) := rfl
      rw [ht]
      rcases lt_or_ge (now + lifetime) clockEnd with hend | hend
      · rw [insert_eq_some_iff.2 ⟨hend, rfl⟩, if_pos (decide_eq_true hend)]
        exact ⟨rfl, view_set m now key _⟩
      · rw [insert_eq_none hend, decide_eq_false (Nat.not_lt.2 hend), if_neg Bool.false_ne_true]
        exact ⟨rfl, (pass_view le_rfl m).symm⟩
  | ask c =>
    rw [perform]
    cases ht : (view now m).tells now (.ask c) with
    | true =>
      obtain ⟨hreply, hview⟩ := serve_view h now c ht
      rcases hc : serve now m c with ⟨reply, m'⟩
      rw [hc] at hreply hview
      cases hreply
      exact ⟨rfl, hview⟩
    | false =>
      obtain ⟨hreply, hview⟩ := serve_of_not_tells ht
      rcases hc : serve now m c with ⟨reply, m'⟩
      rw [hc] at hreply hview
      cases hreply
      exact ⟨rfl, hview⟩

/-- A store that stands for a map at some instant goes on as the map does from then on, however often it is purged. -/
theorem answers_eq {l : Ledger} (h : m.Sound) (hview : view now m = l.pass now) {turns : List Turn}
    (hlater : ∀ turn ∈ turns, now ≤ turn.time) (hsorted : (turns.map Turn.time).Pairwise (· ≤ ·)) :
    m.answers turns = l.answers Ledger.attempt (Turn.acts turns) := by
  induction turns generalizing m l now with
  | nil => rfl
  | cons turn rest ih =>
    obtain ⟨hle, -⟩ := List.forall_mem_cons.1 hlater
    obtain ⟨hfirst, hrest⟩ := List.pairwise_cons.1 hsorted
    have hafter : ∀ t ∈ rest, turn.time ≤ t.time := fun t ht => hfirst _ (List.mem_map_of_mem ht)
    have hnow : view turn.time m = l.pass turn.time := by
      rw [← pass_view hle, hview, Ledger.pass_pass hle]
    cases turn with
    | act at_ a =>
      obtain ⟨hanswer, hnext⟩ := perform_view h at_ a
      rw [show view at_ m = l.pass at_ from hnow] at hanswer hnext
      show _ :: _ = _ :: _
      rw [hanswer, ih (h.perform at_ a) hnext hafter hrest]
    | purge at_ => exact ih (h.purge at_) ((h.view_purge at_).trans hnow) hafter hrest

/-- Whatever is done with a store at instants that do not go back, and whenever it is purged: what comes of it is the
same without the purges, and the same as for a map from which every entry is gone once its time has come and that
breaks down over ends that cannot be told; and it is what comes of it for the map that never breaks down exactly if the
end of every lifetime that begins can be told. -/
theorem answers_as_ledger (turns : List Turn) (h : (turns.map Turn.time).Pairwise (· ≤ ·)) :
    empty.answers turns = empty.answers (turns.filter (·.isAct)) ∧
      empty.answers turns = Ledger.empty.answers Ledger.attempt (Turn.acts turns) ∧
      (empty.answers turns = Ledger.empty.answers Ledger.perform (Turn.acts turns) ↔
        Ledger.empty.Tells (Turn.acts turns)) := by
  have hview : view 0 empty = Ledger.empty.pass 0 := rfl
  have hall : ∀ turns : List Turn, (turns.map Turn.time).Pairwise (· ≤ ·) →
      empty.answers turns = Ledger.empty.answers Ledger.attempt (Turn.acts turns) :=
    fun turns => answers_eq .empty hview fun _ _ => Nat.zero_le _
  refine ⟨?_, hall turns h, ?_⟩
  · rw [hall turns h, hall _ (h.sublist (List.filter_sublist.map _)), Turn.acts_filter]
  · rw [hall turns h]
    exact Ledger.answers_attempt_iff _ _

/-- A counter is erased, named twice and next to a key whose time is over; it starts anew, and again when its window
ends; then the store fails. -/
def restarts : List Turn :=
  [.act 0 (.ask (.increment "a" 10)), .act 4 (.ask (.increment "a" 10)), .act 5 (.insert "b" (some 3)), .purge 8,
    .act 9 (.ask (.erase ["a", "b", "a"])), .act 9 (.ask (.increment "a" 10)), .act 19 (.ask (.increment "a" 10)),
    .act 19 (.setAvailable false), .purge 30, .act 30 (.ask (.count "a"))]

theorem answers_as_ledger_restarts : (restarts.map Turn.time).Pairwise (· ≤ ·) ∧
    empty.answers (restarts.filter (·.isAct)) = Ledger.empty.answers Ledger.perform (Turn.acts restarts) ∧
    empty.answers restarts =
      [.answered ⟨.increment "a" 10, .ok 1⟩, .answered ⟨.increment "a" 10, .ok 2⟩, .done,
        .answered ⟨.erase ["a", "b", "a"], .ok 1⟩, .answered ⟨.increment "a" 10, .ok 1⟩,
        .answered ⟨.increment "a" 10, .ok 1⟩, .done, .answered ⟨.count "a", .error unavailable⟩] := by
  have hsorted : (restarts.map Turn.time).Pairwise (· ≤ ·) := by decide
  obtain ⟨hpurges, -, hledger⟩ := answers_as_ledger restarts hsorted
  have htells : Ledger.empty.Tells (Turn.acts restarts) := ⟨rfl, rfl, rfl, rfl, rfl, rfl, rfl, rfl, trivial⟩
  exact ⟨hsorted, hpurges.symm.trans (hledger.2 htells), rfl⟩

/-- A window as long as a duration can be, and then a shorter one. -/
def endless : List Turn :=
  [.act 0 (.ask (.increment "a" (Duration.ofSeconds (2 ^ 64 - 1)))), .act 1 (.ask (.increment "a" 10)),
    .act 30 (.ask (.count "a"))]

/-- The first increment of an absent key is not answered, and its window does not end. -/
theorem endless_broken : (endless.map Turn.time).Pairwise (· ≤ ·) ∧
    empty.answers endless = [.broken, .answered ⟨.increment "a" 10, .ok 2⟩, .answered ⟨.count "a", .ok 2⟩] ∧
    empty.answers endless ≠ Ledger.empty.answers Ledger.perform (Turn.acts endless) := by
  refine ⟨by decide, rfl, ?_⟩
  show [Outcome.broken, _, _] ≠ [Outcome.answered _, _, _]
  intro h
  cases h

end Memory

end Tollgate
