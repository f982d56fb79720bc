/-
Documents of published keys. Entries that give no verification key are left out one by one, but an entry that
cannot even be read, for instance because nobody knows its type, makes the whole document unreadable. So what is
fetched becomes a key set exactly if every entry can be read and one of them gives a verification key.
-/
import Mathlib
import Tollgate.Keys.Source
import Tollgate.Proofs.Keys.Snapshots

namespace Tollgate

open Json

theorem mapM_cons_eq_some {α β : Type} {f : α → Option β} {a : α} {as : List α} {bs : List β}
    (h : (a :: as).mapM f = some bs) : ∃ b rest, f a = some b ∧ as.mapM f = some rest ∧ bs = b :: rest := by
  rw [List.mapM_cons] at h
  obtain ⟨b, hb, h⟩ := Option.bind_eq_some_iff.1 h
  obtain ⟨rest, hrest, h⟩ := Option.bind_eq_some_iff.1 h
  exact ⟨b, rest, hb, hrest, (Option.some.inj h).symm⟩

theorem mapM_eq_some_filterMap {α β : Type} {f : α → Option β} {as : List α} (h : ∀ a ∈ as, (f a).isSome = true) :
    as.mapM f = some (as.filterMap f) := by
  induction as with
  | nil => rfl
  | cons a as ih =>
    obtain ⟨b, hb⟩ := Option.isSome_iff_exists.1 (h a List.mem_cons_self)
    rw [List.mapM_cons, hb, ih fun c hc => h c (List.mem_cons_of_mem _ hc), List.filterMap_cons_some hb]
    rfl

theorem mapM_eq_none_of_mem {α β : Type} {f : α → Option β} {as : List α} {a : α} (ha : a ∈ as) (h : f a = none) :
    as.mapM f = none := by
  induction as with
  | nil => cases ha
  | cons b as ih =>
    rw [List.mapM_cons]
    rcases List.mem_cons.1 ha with rfl | htail
    · rw [h]; rfl
    · rw [ih htail]
      cases f b <;> rfl

namespace PublishedKey

/-! ## Entries -/

/-- The entry that an element of a document is read as. -/
def read? (t : Tree) : Option PublishedKey := ofTree? (maxDepth - 2) t

/-- The verification key of an element of a document. -/
def usable? (t : Tree) : Option VerificationKey := (read? t).bind verificationKey?

def typeNames : List String := ["EC", "RSA", "oct", "OKP"]

def type? (members : List (Option String × Tree)) : Option String := (member? members "kty").bind Tree.choice?

def curve? (members : List (Option String × Tree)) : Option String := (member? members "crv").bind Tree.choice?

/-- An entry with something that nobody knows: its type, its curve, or what it is declared for. -/
inductive Foreign (members : List (Option String × Tree)) : Prop where
  | type (h : ∀ name ∈ typeNames, type? members ≠ some name)
  | curve (htype : type? members = some "EC" ∨ type? members = some "OKP")
      (h : ∀ name ∈ curveNames, curve? members ≠ some name)
  | declared (h : optional? declared? (member? members "alg") = none)

theorem mapM_member?_of_fields? {members : List (Option String × Tree)} {names : List String} {ts : List Tree}
    (h : (Tree.object members).fields? names = some ts) : names.mapM (member? members) = some ts := by
  rw [Tree.fields?] at h
  split at h
  · exact h
  · cases h

theorem kind?_eq_none_of_type {members : List (Option String × Tree)} {type : String} (names : List String)
    (h : type? members ≠ some type) : kind? members type names = none := by
  unfold kind?
  cases hts : (Tree.object members).fields? ("kty" :: names) with
  | none => rfl
  | some ts =>
    obtain ⟨kty, rest, hkty, -, rfl⟩ := mapM_cons_eq_some (mapM_member?_of_fields? hts)
    rw [type?, hkty, Option.bind_some] at h
    cases hname : kty.choice? with
    | none => simp [hname]
    | some name =>
      have hne : name ≠ type := fun heq => h (by rw [hname, heq])
      simp [hname, hne]

theorem kind?_eq_none_of_curve {members : List (Option String × Tree)} (type : String) (names : List String)
    (h : ∀ name ∈ curveNames, curve? members ≠ some name) : kind? members type ("crv" :: names) = none := by
  unfold kind?
  cases hts : (Tree.object members).fields? ("kty" :: "crv" :: names) with
  | none => rfl
  | some ts =>
    obtain ⟨kty, rest, -, hrest, rfl⟩ := mapM_cons_eq_some (mapM_member?_of_fields? hts)
    obtain ⟨crv, rest, hcrv, -, rfl⟩ := mapM_cons_eq_some hrest
    rw [curve?, hcrv, Option.bind_some] at h
    cases hname : crv.choice? with
    | none => simp [hname]
    | some name =>
      have hcurve : name ∉ curveNames := fun hmem => h name hmem hname
      simp [hname, hcurve]

theorem membersNamed_filter {name : String} {known : List String} (h : name ∉ known)
    (members : List (Option String × Tree)) :
    membersNamed name (members.filter fun m => !m.1.any (known.contains ·)) = membersNamed name members := by
  unfold membersNamed
  rw [List.filterMap_filter]
  refine List.filterMap_congr fun m _ => ?_
  by_cases hname : m.1 = some name
  · simp [hname, h]
  · simp [hname]

/-- The members that are not common to all kinds of keys. -/
def ownMembers (members : List (Option String × Tree)) : List (Option String × Tree) :=
  members.filter fun m => !m.1.any (commonNames.contains ·)

theorem type?_ownMembers (members : List (Option String × Tree)) : type? (ownMembers members) = type? members := by
  unfold type? member? ownMembers
  rw [membersNamed_filter (by decide)]

theorem curve?_ownMembers (members : List (Option String × Tree)) :
    curve? (ownMembers members) = curve? members := by
  unfold curve? member? ownMembers
  rw [membersNamed_filter (by decide)]

theorem of_read?_eq_some {members : List (Option String × Tree)} {k : PublishedKey}
    (h : read? (.object members) = some k) :
    optional? declared? (member? members "alg") = some k.declared ∧
      numbers? (ownMembers members) = some k.numbers := by
  unfold read? ofTree? at h
  simp only [Option.bind_eq_bind, Option.bind_eq_some_iff] at h
  obtain ⟨_, _, _, _, _, _, _, _, declared, hdeclared, _, _, _, _, _, _, _, _, _, _, numbers, hnumbers, hk⟩ := h
  cases hk
  exact ⟨hdeclared, hnumbers⟩

theorem numbers?_eq_none {members : List (Option String × Tree)}
    (hec : kind? members "EC" ["crv", "x", "y"] = none) (hrsa : kind? members "RSA" ["n", "e"] = none)
    (hoct : kind? members "oct" ["k"] = none) (hokp : kind? members "OKP" ["crv", "x"] = none) :
    numbers? members = none := by
  unfold numbers?
  rw [hec, hrsa, hoct, hokp]

/-- An entry with something that nobody knows cannot be read. -/
theorem read?_eq_none_of_foreign {members : List (Option String × Tree)} (h : Foreign members) :
    read? (.object members) = none := by
  cases hentry : read? (.object members) with
  | none => rfl
  | some k =>
    obtain ⟨hdeclared, hnumbers⟩ := of_read?_eq_some hentry
    exfalso
    cases h with
    | type h =>
      have hkind : ∀ name ∈ typeNames, ∀ names, kind? (ownMembers members) name names = none :=
        fun name hname names => kind?_eq_none_of_type names ((type?_ownMembers members).trans_ne (h name hname))
      rw [numbers?_eq_none (hkind _ (by decide) _) (hkind _ (by decide) _) (hkind _ (by decide) _)
        (hkind _ (by decide) _)] at hnumbers
      cases hnumbers
    | curve htype h =>
      have hcurve : ∀ name ∈ curveNames, curve? (ownMembers members) ≠ some name :=
        fun name hname => (curve?_ownMembers members).trans_ne (h name hname)
      have hother : ∀ name, name ≠ "EC" → name ≠ "OKP" → type? (ownMembers members) ≠ some name := by
        intro name hec hokp heq
        rw [type?_ownMembers] at heq
        rcases htype with htype | htype
        · exact hec (Option.some.inj (heq.symm.trans htype))
        · exact hokp (Option.some.inj (heq.symm.trans htype))
      rw [numbers?_eq_none (kind?_eq_none_of_curve _ _ hcurve)
        (kind?_eq_none_of_type _ (hother _ (by decide) (by decide)))
        (kind?_eq_none_of_type _ (hother _ (by decide) (by decide)))
        (kind?_eq_none_of_curve _ _ hcurve)] at hnumbers
      cases hnumbers
    | declared h =>
      rw [hdeclared] at h
      cases h

/-! ## Documents -/

theorem setOfTree?_object {members : List (Option String × Tree)} {entries : List Tree}
    (hnames : members.all (·.1.isSome) = true) (hkeys : membersNamed "keys" members = [.array entries]) :
    setOfTree? (.object members) = entries.mapM read? := by
  have hwell : wellNamed ["keys"] members = true := by
    unfold wellNamed
    rw [hnames, List.all_cons, List.all_nil, hkeys]; rfl
  have hfields : (Tree.object members).fields? ["keys"] = some [.array entries] := by
    rw [Tree.fields?, if_pos hwell, List.mapM_cons, member?, hkeys]; rfl
  rw [setOfTree?, hfields]; rfl

end PublishedKey

/-! ## Fetching -/

open PublishedKey

theorem KeySource.run_fetch {σ : Type} {respond : σ → Outgoing → Option Incoming × σ} {s : σ} {url : String}
    {i : Incoming} (hsent : (KeySource.fetch url).sent [] ≠ [])
    (hreply : ∀ o ∈ (KeySource.fetch url).sent [], (respond s o).1 = some i) :
    ((KeySource.fetch url).run respond s).1 = KeySource.read (some i) := by
  unfold KeySource.fetch at hsent hreply ⊢
  split
  · rename_i o ho
    rw [ho] at hreply
    have hr : (respond s o).1 = some i := hreply o (List.mem_singleton_self o)
    simp only [Errand.run, hr]
  · rename_i hnone
    rw [hnone] at hsent
    exact absurd rfl hsent

theorem KeySource.read_document {i : Incoming} {members : List (Option String × Tree)} {entries : List Tree}
    (hsuccess : isSuccess i.status = true) (hdocument : i.body?.bind Tree.ofBytes? = some (.object members))
    (hnames : members.all (·.1.isSome) = true) (hkeys : membersNamed "keys" members = [.array entries]) :
    KeySource.read (some i) = match entries.mapM read? with
      | some keys => .ok keys
      | none => .error (.decode "not a key set") := by
  unfold KeySource.read KeySet.readPublished
  simp only [hsuccess, hdocument, setOfTree?_object hnames hkeys]
  rfl

/-- A document is fetched and gives a verification key at least. If every entry can be read, then it becomes the
key set of all its verification keys, in order; and if one cannot, then it becomes none at all. -/
theorem KeySource.fetched_whole_iff {σ : Type} {respond : σ → Outgoing → Option Incoming × σ} {s : σ}
    {url : String} {i : Incoming} {members : List (Option String × Tree)} {entries : List Tree}
    (hsent : (KeySource.fetch url).sent [] ≠ [])
    (hreply : ∀ o ∈ (KeySource.fetch url).sent [], (respond s o).1 = some i)
    (hsuccess : isSuccess i.status = true) (hdocument : i.body?.bind Tree.ofBytes? = some (.object members))
    (hnames : members.all (·.1.isSome) = true) (hkeys : membersNamed "keys" members = [.array entries])
    (husable : ∃ t ∈ entries, (usable? t).isSome = true) :
    ((∃ keys, ((KeySource.fetch url).run respond s).1 >>= KeySet.ofPublished = .ok keys ∧
        keys.keys = entries.filterMap usable?) ↔ ∀ t ∈ entries, (read? t).isSome = true) ∧
      (((KeySource.fetch url).run respond s).1 >>= KeySet.ofPublished = .error (.decode "not a key set") ↔
        ∃ t ∈ entries, read? t = none) := by
  rw [run_fetch hsent hreply, read_document hsuccess hdocument hnames hkeys]
  by_cases hread : ∀ t ∈ entries, (read? t).isSome = true
  · have husableKeys : (entries.filterMap read?).filterMap verificationKey? = entries.filterMap usable? :=
      List.filterMap_filterMap
    have hne : entries.filterMap usable? ≠ [] := by
      obtain ⟨t, ht, hkey⟩ := husable
      obtain ⟨k, hk⟩ := Option.isSome_iff_exists.1 hkey
      exact List.ne_nil_of_mem (List.mem_filterMap.2 ⟨t, ht, hk⟩)
    have hok : KeySet.ofPublished (entries.filterMap read?) = .ok ⟨entries.filterMap usable?, hne⟩ :=
      KeySet.ofPublished_eq_ok_iff.2 husableKeys.symm
    rw [mapM_eq_some_filterMap hread]
    refine ⟨⟨fun _ => hread, fun _ => ⟨_, hok, rfl⟩⟩, ⟨fun h => ?_, ?_⟩⟩
    · cases hok.symm.trans h
    · rintro ⟨t, ht, hnone⟩
      have := hread t ht
      rw [hnone] at this
      cases this
  · have hunread : ∃ t ∈ entries, read? t = none := by
      simpa using hread
    obtain ⟨t, ht, hnone⟩ := hunread
    rw [mapM_eq_none_of_mem ht hnone]
    exact ⟨⟨nofun, fun h => absurd h hread⟩, ⟨fun _ => ⟨t, ht, hnone⟩, fun _ => rfl⟩⟩

/-! ## A key of a type that is not known -/

/-- A document with a key that can be used, and after it a key of a type that nobody knows. -/
def mixedDocument : Incoming :=
  ⟨200, [], none, [.octets (Bytes.ofText ("\x7b\"keys\":[" ++
    "\x7b\"kty\":\"OKP\",\"crv\":\"Ed25519\",\"kid\":\"k\",\"x\":\"6kpsY-KcUgq-9VB7Ey7F-ZVHdq6-vnuSQh7qaRRG0iw\"\x7d," ++
    "\x7b\"kty\":\"AKP\",\"kid\":\"p\",\"pub\":\"AQAB\"\x7d]\x7d"))]⟩

def knownEntry : Tree :=
  .object [(some "kty", .text (some "OKP")), (some "crv", .text (some "Ed25519")), (some "kid", .text (some "k")),
    (some "x", .text (some "6kpsY-KcUgq-9VB7Ey7F-ZVHdq6-vnuSQh7qaRRG0iw"))]

def foreignEntry : Tree :=
  .object [(some "kty", .text (some "AKP")), (some "kid", .text (some "p")), (some "pub", .text (some "AQAB"))]

set_option maxRecDepth 4000 in
theorem mixedDocument_tree : mixedDocument.body?.bind Tree.ofBytes? =
    some (.object [(some "keys", .array [knownEntry, foreignEntry])]) := by
  cbv

theorem usable?_knownEntry : (usable? knownEntry).isSome = true := by
  decide +kernel

theorem read?_foreignEntry : read? foreignEntry = none :=
  read?_eq_none_of_foreign (.type (by decide +kernel))

/-- The server that answers every request with this document. -/
def serveMixed (_ : Unit) (_ : Outgoing) : Option Incoming × Unit := (some mixedDocument, ())

theorem KeySource.sent_fetch : (KeySource.fetch "https://keys.example/jwks").sent [] ≠ [] := by
  decide +kernel

theorem KeySource.run_serveMixed : ((KeySource.fetch "https://keys.example/jwks").run serveMixed ()).1 =
    .error (.decode "not a key set") := by
  rw [run_fetch sent_fetch fun _ _ => rfl, read_document rfl mixedDocument_tree rfl rfl,
    mapM_eq_none_of_mem (List.mem_cons_of_mem _ List.mem_cons_self) read?_foreignEntry]

theorem KeySource.fetched_whole_iff_foreignKey :
    isSuccess mixedDocument.status = true ∧ (usable? knownEntry).isSome = true ∧ read? foreignEntry = none ∧
      ((KeySource.fetch "https://keys.example/jwks").run serveMixed ()).1 >>= KeySet.ofPublished =
        .error (.decode "not a key set") := by
  have hreply : ∀ o ∈ (KeySource.fetch "https://keys.example/jwks").sent [],
      (serveMixed () o).1 = some mixedDocument := fun _ _ => rfl
  have h := KeySource.fetched_whole_iff KeySource.sent_fetch hreply rfl mixedDocument_tree rfl rfl
    ⟨knownEntry, List.mem_cons_self, usable?_knownEntry⟩
  have hforeign : ∃ t ∈ [knownEntry, foreignEntry], read? t = none :=
    ⟨foreignEntry, List.mem_cons_of_mem _ List.mem_cons_self, read?_foreignEntry⟩
  exact ⟨rfl, usable?_knownEntry, read?_foreignEntry, h.2.2 hforeign⟩

/-- The key that can be used does not come through: there is no key set of this document. -/
theorem KeySource.foreignKey_not_skipped :
    (KeySource.fetch "https://keys.example/jwks").sent [] ≠ [] ∧
      (∀ o, (serveMixed () o).1 = some mixedDocument) ∧ isSuccess mixedDocument.status = true ∧
      mixedDocument.body?.bind Tree.ofBytes? =
        some (.object [(some "keys", .array [knownEntry, foreignEntry])]) ∧
      (usable? knownEntry).isSome = true ∧
      ¬ ∃ keys, ((KeySource.fetch "https://keys.example/jwks").run serveMixed ()).1 >>= KeySet.ofPublished =
        .ok keys := by
  refine ⟨sent_fetch, fun _ => rfl, rfl, mixedDocument_tree, usable?_knownEntry, ?_⟩
  rintro ⟨keys, h⟩
  rw [run_serveMixed] at h
  cases h

end Tollgate
