/-
The deny list and the block list in one store. Each looks under keys of its own as long as what the deny list's keys
begin with and what the block list's keys begin with do not begin with one another. Then neither can tell what the
other does, whatever the identifiers and addresses are; otherwise an address can be made up that takes a token off the
deny list.
-/
import Tollgate.Proofs.Guard.Denylist
import Tollgate.Proofs.Guard.History
import Tollgate.Proofs.Store.Keyed
import Tollgate.Proofs.Text.Trim

namespace Tollgate

/-! ## Keys -/

namespace BlockList

/-- What the keys of the block list begin with. -/
def stems : List String := ["security:blocked:ip:", "security:violations:", "security:suspicious:ip:"]

/-- The three keys of an address. -/
def keys (address : String) : List String := [blockedKey address, violationKey address, suspiciousKey address]

theorem keyOf_iff {address key : String} : KeyOf address key ↔ ∃ stem ∈ stems, key = stem ++ address := by
  constructor
  · rintro (rfl | rfl | rfl)
    exacts [⟨_, .head _, rfl⟩, ⟨_, .tail _ (.head _), rfl⟩, ⟨_, .tail _ (.tail _ (.head _)), rfl⟩]
  · rintro ⟨stem, hstem, rfl⟩
    rcases hstem with _ | ⟨_, _ | ⟨_, _ | ⟨_, ⟨⟩⟩⟩⟩
    exacts [.inl rfl, .inr (.inl rfl), .inr (.inr rfl)]

/-- The keys of two addresses are six different ones. -/
theorem nodup_keys_append_iff {a a' : String} : (keys a ++ keys a').Nodup ↔ a ≠ a' := by
  have hself (a : String) : (keys a).Nodup := by
    simp [keys, blockedKey_ne_violationKey, blockedKey_ne_suspiciousKey, violationKey_ne_suspiciousKey]
  rw [List.nodup_append]
  constructor
  · rintro ⟨-, -, h⟩ rfl
    exact h (blockedKey a) List.mem_cons_self (blockedKey a) List.mem_cons_self rfl
  · refine fun hne => ⟨hself a, hself a', ?_⟩
    rintro key hkey _ hkey' rfl
    exact hne (KeyOf.unique (by simpa [keys, KeyOf] using hkey) (by simpa [keys, KeyOf] using hkey'))

end BlockList

namespace Denylist

/-- Neither do the deny list's keys begin like some of the block list, nor the other way round. -/
def Apart (d : Denylist) : Prop :=
  ∀ stem ∈ BlockList.stems, ¬ stem.toList <+: d.stem.toList ∧ ¬ d.stem.toList <+: stem.toList

instance (d : Denylist) : Decidable d.Apart := inferInstanceAs (Decidable (∀ _ ∈ _, _ ∧ _))

/-- The keys that the deny list looks under. -/
def Owns (d : Denylist) (key : String) : Prop := ∃ jti, key = d.key jti

/-- Then no key is both of the deny list and of the block list. -/
theorem Apart.not_keyOf {d : Denylist} (h : d.Apart) {key : String} (hk : d.Owns key) (address : String) :
    ¬ BlockList.KeyOf address key := by
  obtain ⟨jti, rfl⟩ := hk
  intro hkey
  obtain ⟨stem, hstem, heq⟩ := BlockList.keyOf_iff.1 hkey
  have hleft : d.stem.toList <+: (d.key jti).toList := ⟨jti.toList, String.toList_append.symm⟩
  have hright : stem.toList <+: (d.key jti).toList := ⟨address.toList, by rw [heq, String.toList_append]⟩
  rcases List.prefix_or_prefix_of_prefix hright hleft with hp | hp
  · exact (h stem hstem).1 hp
  · exact (h stem hstem).2 hp

/-- Otherwise there is a key that is both, of an address that can be forgotten. -/
theorem exists_keyOf_of_not_apart {d : Denylist} (h : ¬ d.Apart) :
    ∃ jti address, BlockList.isBlank address = false ∧ BlockList.KeyOf address (d.key jti) := by
  have hvisible (lead : List Char) : BlockList.isBlank (String.ofList (lead ++ ['x'])) = false := by
    rw [BlockList.isBlank, String.toList_ofList, List.isEmpty_eq_false_iff]
    intro hnil
    have := Text.isBlank_of_trimmed_eq_nil hnil 'x' (by simp)
    exact absurd this (by decide)
  unfold Apart at h
  push Not at h
  obtain ⟨stem, hstem, h⟩ := h
  by_cases hp : stem.toList <+: d.stem.toList
  · obtain ⟨lead, hlead⟩ := hp
    refine ⟨String.ofList ['x'], String.ofList (lead ++ ['x']), hvisible lead,
      BlockList.keyOf_iff.2 ⟨stem, hstem, String.toList_injective ?_⟩⟩
    rw [key, String.toList_append, String.toList_append, String.toList_ofList, String.toList_ofList, ← hlead,
      List.append_assoc]
  · obtain ⟨lead, hlead⟩ := h hp
    refine ⟨String.ofList (lead ++ ['x']), String.ofList ['x'], hvisible [],
      BlockList.keyOf_iff.2 ⟨stem, hstem, String.toList_injective ?_⟩⟩
    rw [key, String.toList_append, String.toList_append, String.toList_ofList, String.toList_ofList, ← hlead,
      List.append_assoc]

theorem within_check (d : Denylist) (jti : String) : (d.check jti).Within d.Owns :=
  Plan.Within.bind (Query.within_ask (by simpa [Command.keys] using ⟨jti, rfl⟩)) fun _ => trivial

end Denylist

/-! ## Turns -/

/-- Look-ups of the deny list and calls of the block list on their way, and the store that they share. -/
structure Sharing (store : KeyedStore) where
  lookups : List (Plan Listing)
  calls : List (Plan BlockList.Answer)
  state : store.State

namespace Sharing

open KeyedStore (Agree)

/-- Whose next command it is, or a token that is revoked for some time. -/
inductive Turn where
  | lookup (i : Nat)
  | call (i : Nat)
  | revoke (jti : String) (lifetime : Nat)

def Turn.isCall : Turn → Bool
  | call _ => true
  | _ => false

variable {store : KeyedStore}

def turn (d : Denylist) (now : Nat) (x : Sharing store) : Turn → Sharing store
  | .lookup i =>
    let (lookups, state) := store.advance now x.lookups x.state i
    { x with lookups, state }
  | .call i =>
    let (calls, state) := store.advance now x.calls x.state i
    { x with calls, state }
  | .revoke jti lifetime => { x with state := store.enter now x.state (d.key jti) lifetime }

/-- Turns in any order, each at its instant. -/
def run (d : Denylist) (x : Sharing store) : List (Nat × Turn) → Sharing store
  | [] => x
  | (now, t) :: rest => (x.turn d now t).run d rest

/-- Look-ups and calls that are about to begin. -/
def start (d : Denylist) (b : BlockList) (jtis : List String) (calls : List (String × BlockList.Operation))
    (s : store.State) : Sharing store :=
  ⟨jtis.map d.check, calls.map fun c => c.2.plan b c.1, s⟩

/-- What a relation between two courses survives if the turns of a kind are left out of one of them. -/
theorem run_filter (d : Denylist) (related : Sharing store → Sharing store → Prop) (kept : Turn → Bool)
    (hkept : ∀ x x' now t, kept t = true → related x x' → related (x.turn d now t) (x'.turn d now t))
    (hleft : ∀ x x' now t, kept t = false → related x x' → related (x.turn d now t) x')
    {x x' : Sharing store} (h : related x x') (turns : List (Nat × Turn)) :
    related (x.run d turns) (x'.run d (turns.filter fun t => kept t.2)) := by
  induction turns generalizing x x' with
  | nil => exact h
  | cons first rest ih =>
    obtain ⟨now, t⟩ := first
    rw [List.filter_cons]
    cases hk : kept t with
    | true => exact ih (hkept x x' now t hk h)
    | false => exact ih (hleft x x' now t hk h)

/-- Every party keeps to its keys. -/
structure Tidy (d : Denylist) (x : Sharing store) : Prop where
  lookups : ∀ p ∈ x.lookups, p.Within d.Owns
  calls : ∀ p ∈ x.calls, p.Within fun key => ∃ address, BlockList.KeyOf address key

theorem tidy_start (d : Denylist) (b : BlockList) (jtis : List String) (calls : List (String × BlockList.Operation))
    (s : store.State) : Tidy d (start d b jtis calls s) where
  lookups := List.forall_mem_map.2 fun jti _ => d.within_check jti
  calls := List.forall_mem_map.2 fun c _ => (c.2.within_plan b c.1).mono fun _ h => ⟨c.1, h⟩

theorem Tidy.turn {d : Denylist} {x : Sharing store} (h : Tidy d x) (now : Nat) (t : Turn) : Tidy d (x.turn d now t) := by
  cases t with
  | lookup i => exact ⟨KeyedStore.within_advance h.lookups now x.state i, h.calls⟩
  | call i => exact ⟨h.lookups, KeyedStore.within_advance h.calls now x.state i⟩
  | revoke jti lifetime => exact ⟨h.lookups, h.calls⟩

/-- Two courses that look-ups cannot tell apart. -/
structure AgreeLookups (d : Denylist) (x x' : Sharing store) : Prop where
  tidy : Tidy d x
  lookups : x.lookups = x'.lookups
  state : Agree store d.Owns x.state x'.state

/-- Two courses that calls cannot tell apart. -/
structure AgreeCalls (d : Denylist) (x x' : Sharing store) : Prop where
  tidy : Tidy d x
  calls : x.calls = x'.calls
  state : Agree store (fun key => ∃ address, BlockList.KeyOf address key) x.state x'.state

variable {d : Denylist} {x x' : Sharing store}

theorem AgreeLookups.kept (h : AgreeLookups d x x') (now : Nat) {t : Turn} (ht : t.isCall = false) :
    AgreeLookups d (x.turn d now t) (x'.turn d now t) := by
  cases t with
  | lookup i =>
    obtain ⟨hplans, hstate⟩ := h.state.advance h.tidy.lookups now i
    exact ⟨h.tidy.turn now _, by simpa [turn, ← h.lookups] using hplans, by simpa [turn, ← h.lookups] using hstate⟩
  | revoke jti lifetime => exact ⟨h.tidy.turn now _, h.lookups, h.state.enter now _ ⟨jti, rfl⟩ lifetime⟩
  | call i => cases ht

theorem AgreeLookups.left (hd : d.Apart) (h : AgreeLookups d x x') (now : Nat) {t : Turn} (ht : t.isCall = true) :
    AgreeLookups d (x.turn d now t) x' := by
  cases t with
  | call i =>
    refine ⟨h.tidy.turn now _, h.lookups, h.state.advance_elsewhere h.tidy.calls ?_ now i⟩
    rintro key ⟨address, hkey⟩ howns
    exact hd.not_keyOf howns address hkey
  | lookup i => cases ht
  | revoke jti lifetime => cases ht

theorem AgreeCalls.kept (h : AgreeCalls d x x') (now : Nat) {t : Turn} (ht : t.isCall = true) :
    AgreeCalls d (x.turn d now t) (x'.turn d now t) := by
  cases t with
  | call i =>
    obtain ⟨hplans, hstate⟩ := h.state.advance h.tidy.calls now i
    exact ⟨h.tidy.turn now _, by simpa [turn, ← h.calls] using hplans, by simpa [turn, ← h.calls] using hstate⟩
  | lookup i => cases ht
  | revoke jti lifetime => cases ht

theorem AgreeCalls.left (hd : d.Apart) (h : AgreeCalls d x x') (now : Nat) {t : Turn} (ht : t.isCall = false) :
    AgreeCalls d (x.turn d now t) x' := by
  have hforeign : ∀ key, d.Owns key → ¬ ∃ address, BlockList.KeyOf address key := fun key howns ⟨address, hkey⟩ =>
    hd.not_keyOf howns address hkey
  cases t with
  | lookup i => exact ⟨h.tidy.turn now _, h.calls, h.state.advance_elsewhere h.tidy.lookups hforeign now i⟩
  | revoke jti lifetime => exact ⟨h.tidy.turn now _, h.calls, h.state.enter_elsewhere now (hforeign _ ⟨jti, rfl⟩) lifetime⟩
  | call i => cases ht

/-! ## What the two lists can tell of each other -/

/-- Look-ups, in whatever order they take turns with others, are as if the block list did nothing. -/
def LookupsUndisturbed (d : Denylist) : Prop :=
  ∀ (store : KeyedStore) (b : BlockList) (jtis : List String) (calls : List (String × BlockList.Operation))
    (s : store.State) (turns : List (Nat × Turn)),
    ((start d b jtis calls s).run d turns).lookups =
      ((start d b jtis calls s).run d (turns.filter fun t => !t.2.isCall)).lookups

/-- Calls of the block list are as if nothing was revoked or looked up. -/
def CallsUndisturbed (d : Denylist) : Prop :=
  ∀ (store : KeyedStore) (b : BlockList) (jtis : List String) (calls : List (String × BlockList.Operation))
    (s : store.State) (turns : List (Nat × Turn)),
    ((start d b jtis calls s).run d turns).calls =
      ((start d b jtis calls s).run d (turns.filter fun t => t.2.isCall)).calls

theorem lookupsUndisturbed_of_apart (hd : d.Apart) : LookupsUndisturbed d := by
  intro store b jtis calls s turns
  have hstart : AgreeLookups d (start d b jtis calls s) (start d b jtis calls s) :=
    ⟨tidy_start d b jtis calls s, rfl, .refl _ _⟩
  refine (run_filter d (AgreeLookups d) (fun t => !t.isCall) ?_ ?_ hstart turns).lookups
  · exact fun x x' now t ht h => h.kept now (by simpa using ht)
  · exact fun x x' now t ht h => h.left hd now (by simpa using ht)

theorem callsUndisturbed_of_apart (hd : d.Apart) : CallsUndisturbed d := by
  intro store b jtis calls s turns
  have hstart : AgreeCalls d (start d b jtis calls s) (start d b jtis calls s) :=
    ⟨tidy_start d b jtis calls s, rfl, .refl _ _⟩
  refine (run_filter d (AgreeCalls d) Turn.isCall ?_ ?_ hstart turns).calls
  · exact fun x x' now t ht h => h.kept now ht
  · exact fun x x' now t ht h => h.left hd now ht

theorem plan_unblock {address : String} (b : BlockList) (h : BlockList.isBlank address = false) :
    ∃ rest, BlockList.Operation.unblock.plan b address = .ask (.erase (BlockList.keys address)) rest := by
  unfold BlockList.Operation.plan BlockList.unblock
  rw [h]
  exact ⟨_, rfl⟩

theorem lookups_run_lookup {m : Memory} (hm : m.available = true) (jti : String) (calls : List (Plan BlockList.Answer)) :
    ((⟨[d.check jti], calls, m⟩ : Sharing Memory.keyed).run d [(0, .lookup 0)]).lookups =
      [.done (Denylist.listing (.ok (m.live? 0 (d.key jti)).isSome))] := by
  have hserve : ((⟨[d.check jti], calls, m⟩ : Sharing Memory.keyed).run d [(0, .lookup 0)]).lookups =
      [.done (Denylist.listing (Memory.steady 0 m (.contains (d.key jti))).1)] := rfl
  rw [hserve, Memory.steady_of_serve (Memory.serve_contains hm _)]

/-- An address whose keys include one of the deny list takes a token off it when it is forgotten. -/
theorem not_lookupsUndisturbed {jti address : String} (ha : BlockList.isBlank address = false)
    (hkey : BlockList.KeyOf address (d.key jti)) : ¬ LookupsUndisturbed d := by
  intro h
  let m := Memory.empty.set (d.key jti) ⟨1, none⟩
  obtain ⟨rest, hplan⟩ := plan_unblock .default ha
  have hcall : (start d .default [jti] [(address, .unblock)] m : Sharing Memory.keyed).turn d 0 (.call 0) =
      ⟨[d.check jti], [rest (.ok (m.erase 0 (BlockList.keys address)).1)],
        (m.erase 0 (BlockList.keys address)).2⟩ := by
    simp only [start, turn, KeyedStore.advance, List.map_cons, List.map_nil, hplan]
    rfl
  have hsame := h Memory.keyed .default [jti] [(address, .unblock)] m [(0, .call 0), (0, .lookup 0)]
  rw [run, hcall] at hsame
  replace hsame := (lookups_run_lookup (Memory.available_erase _ _ _) jti _).symm.trans
    (hsame.trans (lookups_run_lookup rfl jti _))
  have hgone : Memory.live? (m.erase 0 (BlockList.keys address)).2 0 (d.key jti) = none := by
    rw [Memory.live?, Memory.entry?_erase, if_pos (by simpa [BlockList.keys, BlockList.KeyOf] using hkey)]
    rfl
  have hlive : Memory.live? m 0 (d.key jti) = some ⟨1, none⟩ := by
    rw [Memory.live?, Memory.entry?_set, if_pos rfl]
    rfl
  rw [hgone, hlive] at hsame
  cases hsame

/-- The deny list and the block list leave each other alone exactly if their keys begin apart, as they do unless
something else is asked for. -/
theorem undisturbed_iff_apart (d : Denylist) :
    (d.Apart ↔ LookupsUndisturbed d ∧ CallsUndisturbed d) ∧ Denylist.Apart ⟨Denylist.defaultStem⟩ ∧
      ∀ a a', (BlockList.keys a ++ BlockList.keys a').Nodup ↔ a ≠ a' := by
  refine ⟨⟨fun hd => ⟨lookupsUndisturbed_of_apart hd, callsUndisturbed_of_apart hd⟩, fun h => ?_⟩, by decide,
    fun _ _ => BlockList.nodup_keys_append_iff⟩
  by_contra hd
  obtain ⟨jti, address, ha, hkey⟩ := Denylist.exists_keyOf_of_not_apart hd
  exact not_lookupsUndisturbed ha hkey h.1

end Sharing

end Tollgate
