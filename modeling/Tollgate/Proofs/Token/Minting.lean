/-
Tokens that a signer signs verify. What it writes of claims is read back as these claims, typed where they are known
by name, and the key it publishes verifies its signature: the two readings of a token meet the one way of writing it.
-/
import Tollgate.Proofs.Bytes.Utf8
import Tollgate.Proofs.Json.Values
import Tollgate.Proofs.Keys.Snapshots
import Tollgate.Proofs.Token.Verification
import Tollgate.Token.Signer

namespace Tollgate

open Json

/-! ## Claims -/

namespace Claims

/-- The names of the known claims that are texts. -/
def textNames : List String := ["jti", "iss", "sub"]

/-- The names of the known claims that are dates. -/
def dateNames : List String := ["exp", "nbf", "iat"]

/-- Claims as a signer is given them: an object of values that can be read back, with texts and numbers under the
known names. -/
structure Mintable (members : List (String × Value)) : Prop where
  plain : (Value.object members).Plain maxDepth
  texts : ∀ name ∈ textNames, ∀ v, members.lookup name = some v → ∃ s, v = .text s
  dates : ∀ name ∈ dateNames, ∀ v, members.lookup name = some v → ∃ n, v = .number n

/-- The whole seconds of a value that is a number. -/
def seconds? : Value → Option Int
  | .number n => some (seconds n)
  | _ => none

/-- The claims that an object states. -/
def ofMembers (members : List (String × Value)) : Claims where
  jti := (members.lookup "jti").bind text?
  issuer := (members.lookup "iss").bind text?
  subject := (members.lookup "sub").bind text?
  expires := (members.lookup "exp").bind seconds?
  notBefore := (members.lookup "nbf").bind seconds?
  issuedAt := (members.lookup "iat").bind seconds?
  extra := members.filter fun m => !names.contains m.1

/-- A claim as it is kept: a date is kept in 64 bits with a sign, and one that is larger is kept as the last one. -/
def kept (m : String × Value) : String × Value :=
  match m with
  | (name, .number (.natural n)) =>
    if name ∈ dateNames then (name, .number (.natural (min n (2 ^ 63 - 1)))) else m
  | _ => m

variable {members : List (String × Value)}

theorem Mintable.ascending (h : Mintable members) : members.Pairwise (·.1 < ·.1) := by
  cases h.plain with
  | object hnames => exact hnames

theorem Mintable.members_plain (h : Mintable members) : ∀ m ∈ members, m.2.Plain (maxDepth - 1) := by
  cases h.plain with
  | object _ hmembers => exact hmembers

/-! ## Reading them -/

/-- Trees that are read as the values of members. -/
def Read (members : List (String × Value)) (tree : String × Value → Tree) : Prop :=
  ∀ m ∈ members, (tree m).value? (maxDepth - 1) = some m.2

/-- The members of an object that was written. -/
def shown (members : List (String × Value)) (tree : String × Value → Tree) : List (Option String × Tree) :=
  members.map fun m => (some m.1, tree m)

theorem mem_of_lookup {name : String} {v : Value} (h : members.lookup name = some v) : (name, v) ∈ members := by
  obtain ⟨before, after, rfl, -⟩ := List.lookup_eq_some_iff.1 h
  exact List.mem_append_right before List.mem_cons_self

theorem member?_shown (hm : Mintable members) (tree : String × Value → Tree) (name : String) :
    member? (shown members tree) name = (members.lookup name).map fun v => tree (name, v) := by
  rw [member?, shown, membersNamed_map (nodup_of_ascending hm.ascending)]
  cases members.lookup name <;> rfl

theorem length_membersNamed_le (hm : Mintable members) (tree : String × Value → Tree) (name : String) :
    (membersNamed name (shown members tree)).length ≤ 1 := by
  rw [shown, membersNamed_map (nodup_of_ascending hm.ascending), List.length_map]
  exact Option.length_toList_le

theorem wellNamed_shown (hm : Mintable members) (tree : String × Value → Tree) :
    wellNamed names (shown members tree) = true := by
  unfold wellNamed
  rw [Bool.and_eq_true, List.all_eq_true, List.all_eq_true]
  constructor
  · intro m hmem
    obtain ⟨_, -, rfl⟩ := List.mem_map.1 hmem
    rfl
  · intro name _
    exact decide_eq_true (length_membersNamed_le hm tree name)

variable {tree : String × Value → Tree}

theorem optional?_text (hm : Mintable members) (hr : Read members tree) {name : String} (hname : name ∈ textNames) :
    optional? Tree.text? (member? (shown members tree) name) = some ((members.lookup name).bind text?) := by
  rw [member?_shown hm]
  cases hv : members.lookup name with
  | none => rfl
  | some v =>
    obtain ⟨s, rfl⟩ := hm.texts name hname v hv
    have htree : tree (name, .text s) = .text (some s) := Tree.text_of_value? (hr _ (mem_of_lookup hv))
    rw [Option.map_some, htree]
    rfl

theorem optional?_date (hm : Mintable members) (hr : Read members tree) {name : String} (hname : name ∈ dateNames) :
    optional? date? (member? (shown members tree) name) = some ((members.lookup name).bind seconds?) := by
  rw [member?_shown hm]
  cases hv : members.lookup name with
  | none => rfl
  | some v =>
    obtain ⟨n, rfl⟩ := hm.dates name hname v hv
    obtain ⟨numeral, htree, hn⟩ := Tree.number_of_value? (hr _ (mem_of_lookup hv))
    rw [Option.map_some, htree, optional?, date?, hn]
    · rfl
    · nofun

theorem memberValues?_others (hr : Read members tree) :
    memberValues? (maxDepth - 1) ((shown members tree).filter fun m => !m.1.any (names.contains ·)) =
      some (members.filter fun m => !names.contains m.1) := by
  rw [shown, List.filter_map]
  exact memberValues?_map fun m hmem => hr m (List.mem_of_mem_filter hmem)

theorem ofTree?_shown (hm : Mintable members) (hr : Read members tree) :
    ofTree? (.object (shown members tree)) = some (ofMembers members) := by
  have hjti := optional?_text hm hr (show "jti" ∈ textNames by decide)
  have hiss := optional?_text hm hr (show "iss" ∈ textNames by decide)
  have hsub := optional?_text hm hr (show "sub" ∈ textNames by decide)
  have hexp := optional?_date hm hr (show "exp" ∈ dateNames by decide)
  have hnbf := optional?_date hm hr (show "nbf" ∈ dateNames by decide)
  have hiat := optional?_date hm hr (show "iat" ∈ dateNames by decide)
  have hothers := memberValues?_others hr
  have hsorted : sortMembers (members.filter fun m => !names.contains m.1) = members.filter fun m => !names.contains m.1 :=
    sortMembers_of_ascending (hm.ascending.filter _)
  simp only [ofTree?, wellNamed_shown hm tree, guard, if_true, hjti, hiss, hsub, hexp, hnbf, hiat, hothers, hsorted,
    Option.bind_eq_bind, Option.bind_some, Option.pure_def, ofMembers]

/-! ## Writing them again -/

theorem kept_of_notMem {m : String × Value} (h : m.1 ∉ dateNames) : kept m = m := by
  unfold kept
  split
  · exact if_neg h
  · rfl

theorem map_kept_text (hm : Mintable members) {name : String} (hname : name ∈ textNames) :
    ((members.lookup name).bind text?).toList.map (fun s => (name, Value.text s)) =
      (members.filter (·.1 == name)).map kept := by
  rw [filter_eq_lookup (nodup_of_ascending hm.ascending)]
  cases hv : members.lookup name with
  | none => rfl
  | some v =>
    obtain ⟨s, rfl⟩ := hm.texts name hname v hv
    rfl

theorem dateValue_clamped_natural (n : Nat) :
    dateValue (clamped n) = .number (.natural (min n (2 ^ 63 - 1))) := by
  have hnonneg : 0 ≤ clamped n := by unfold clamped; omega
  have hmin : (clamped n).toNat = min n (2 ^ 63 - 1) := by unfold clamped; omega
  rw [dateValue, if_pos hnonneg, hmin]

theorem dateValue_clamped_negative {n : Int} (hlow : -2 ^ 63 ≤ n) (hneg : n < 0) :
    dateValue (clamped n) = .number (.negative n) := by
  have hsame : clamped n = n := by unfold clamped; omega
  rw [hsame, dateValue, if_neg (Int.not_le.2 hneg)]

theorem map_kept_date (hm : Mintable members) {name : String} (hname : name ∈ dateNames) :
    ((members.lookup name).bind seconds?).toList.map (fun n => (name, dateValue n)) =
      (members.filter (·.1 == name)).map kept := by
  rw [filter_eq_lookup (nodup_of_ascending hm.ascending)]
  cases hv : members.lookup name with
  | none => rfl
  | some v =>
    obtain ⟨n, rfl⟩ := hm.dates name hname v hv
    have hplain := hm.members_plain _ (mem_of_lookup hv)
    cases hplain with
    | @natural _ n h =>
      simp [seconds?, seconds, kept, hname, dateValue_clamped_natural]
    | @negative _ n hlow hneg =>
      simp [seconds?, seconds, kept, dateValue_clamped_negative hlow hneg]

theorem map_kept_extra (members : List (String × Value)) :
    (members.filter fun m => !names.contains m.1) = (members.filter fun m => !names.contains m.1).map kept := by
  refine (List.map_id' _).symm.trans (List.map_congr_left fun m hm => (kept_of_notMem ?_).symm)
  have hother : m.1 ∉ names := by simpa using List.of_mem_filter hm
  exact fun hdate => hother ((by decide : dateNames ⊆ names) hdate)

/-- What is written of the claims that an object states are its members, as they are kept. -/
theorem toValue_ofMembers (hm : Mintable members) :
    ∃ shown, (ofMembers members).toValue = .object shown ∧ shown.Perm (members.map kept) := by
  have hjti := map_kept_text hm (show "jti" ∈ textNames by decide)
  have hiss := map_kept_text hm (show "iss" ∈ textNames by decide)
  have hsub := map_kept_text hm (show "sub" ∈ textNames by decide)
  have hexp := map_kept_date hm (show "exp" ∈ dateNames by decide)
  have hnbf := map_kept_date hm (show "nbf" ∈ dateNames by decide)
  have hiat := map_kept_date hm (show "iat" ∈ dateNames by decide)
  refine ⟨_, rfl, ?_⟩
  have hdistinct : names.Nodup := by decide
  have hperm := (perm_by_name hdistinct members).map kept
  refine List.Perm.trans (List.Perm.of_eq ?_) hperm
  rw [List.map_append, ← map_kept_extra]
  simp only [ofMembers, hjti, hiss, hsub, hexp, hnbf, hiat]
  simp only [names, List.flatMap_cons, List.flatMap_nil, List.map_append, List.append_nil, List.append_assoc]

/-- A date that is an instant is no larger than the dates that are kept. -/
theorem lookup_exp (hm : Mintable members) {e : Int} (h : (ofMembers members).expires = some e)
    (hr : Instant.representable e = true) : members.lookup "exp" = some (dateValue e) := by
  obtain ⟨v, hv, hseconds⟩ := Option.bind_eq_some_iff.1 h
  obtain ⟨n, rfl⟩ := hm.dates "exp" (by decide) v hv
  have hlast : e < 2 ^ 63 - 1 :=
    lt_of_le_of_lt (of_decide_eq_true (Bool.and_eq_true_iff.1 hr).2) (by decide)
  have hplain := hm.members_plain _ (mem_of_lookup hv)
  rw [hv]
  cases hplain with
  | @natural _ n hn =>
    have he : clamped n = e := Option.some.inj hseconds
    have hsmall : min n (2 ^ 63 - 1) = n := by
      unfold clamped at he
      omega
    rw [← he, dateValue_clamped_natural, hsmall]
  | @negative _ n hlow hneg =>
    have he : clamped n = e := Option.some.inj hseconds
    rw [← he, dateValue_clamped_negative hlow hneg]

end Claims

/-! ## What a signed token holds -/

/-- A segment made of a JSON text holds what the text is read as. -/
theorem Token.encodes_segment {s : List Char} {t : Tree} (h : Tree.ofText? (String.ofList s) = some t) :
    Encodes (Compact.segment s) t := by
  refine ⟨_, Base64url.decode?_encode _, ?_⟩
  rw [Tree.ofText?, String.toList_ofList] at h
  rw [Tree.ofBytes?, Utf8.scan_flatMap]
  exact h

theorem Compact.spells_toText {c : Compact} (header : '.' ∉ c.header) (claims : '.' ∉ c.claims)
    (signature : '.' ∉ c.signature) : c.Spells c.toText := by
  refine ⟨?_, header, claims, signature⟩
  rw [toText, String.toList_ofList, signedChars, List.append_assoc, List.cons_append]

namespace Signer

variable {members : List (String × Value)}

/-- The members of the header, all of them texts. -/
def headerMembers (s : Signer) : List (String × String) :=
  [("typ", "JWT"), ("alg", Algorithm.eddsa.name)] ++ s.kid.toList.map fun kid => ("kid", kid)

theorem encodes_header (s : Signer) :
    ∃ t, Token.Encodes (Compact.segment s.header) t ∧ Header.ofTree? t = some ⟨.eddsa, s.kid⟩ := by
  have hread := ofText?_printedObject (s.headerMembers.map fun m => (m.1, printedText m.2, .text (some m.2))) (by
    intro p hp
    obtain ⟨m, -, rfl⟩ := List.mem_map.1 hp
    exact writes_printedText m.2)
  rw [List.map_map, List.map_map] at hread
  obtain ⟨seed, kid⟩ := s
  cases kid with
  | none => exact ⟨_, Token.encodes_segment hread, rfl⟩
  | some kid => exact ⟨_, Token.encodes_segment hread, rfl⟩

theorem encodes_claims (hm : Claims.Mintable members) : ∃ tree, Claims.Read members tree ∧
    Token.Encodes (Compact.segment (Value.object members).chars) (.object (Claims.shown members tree)) := by
  obtain ⟨tree, hread, hstands⟩ := Value.stands_object fun m hmem => (hm.members_plain m hmem).exists_tree
  exact ⟨tree, hread, Token.encodes_segment hstands.ofText?⟩

/-- A signed token holds the header of its signer and the claims it was made of. -/
theorem holds_sign (s : Signer) (hm : Claims.Mintable members) :
    Token.Holds (s.sign (.object members)).toText (s.sign (.object members)) ⟨.eddsa, s.kid⟩
      (Claims.ofMembers members) := by
  obtain ⟨tree, hread, hclaims⟩ := encodes_claims hm
  have hfree : ∀ octets, '.' ∉ Base64url.encode octets := fun octets =>
    Base64url.point_not_mem_of_decode? (Base64url.decode?_encode octets)
  exact ⟨Compact.spells_toText (hfree _) (hfree _) (hfree _), s.encodes_header,
    ⟨Claims.shown members tree, hclaims, Claims.ofTree?_shown hm hread⟩⟩

theorem signable_sign (s : Signer) (hm : Claims.Mintable members) :
    Token.Signable (s.sign (.object members)) ⟨.eddsa, s.kid⟩ := by
  obtain ⟨tree, -, octets, hoctets, htree⟩ := encodes_claims hm
  refine ⟨⟨nofun, nofun, nofun⟩, ?_⟩
  show Token.readsAgain (Compact.segment (Value.object members).chars) = true
  rw [Token.readsAgain, hoctets, Option.bind_eq_bind, Option.bind_some, htree]
  exact decide_eq_true (Claims.length_membersNamed_le hm tree "aud")

/-! ## Keys -/

/-- What a signer publishes is its public key, for its own algorithm. -/
theorem verificationKey?_published (s : Signer) :
    s.published.verificationKey? = some ⟨s.kid, some .eddsa, .edwards s.publicKey⟩ := by
  have hnumbers : s.published.numbers.publicKey? = some (.edwards s.publicKey) := by
    simp only [published, KeyNumbers.publicKey?, String.toList_ofList, Base64url.decode?_encode]
    rfl
  rw [PublishedKey.verificationKey?, hnumbers]
  rfl

/-- The signature of a token's claims. -/
def signature (s : Signer) (claims : Value) : Bytes := Ed25519.sign s.seed (s.sign claims).message

theorem decode?_signature (s : Signer) (claims : Value) :
    Base64url.decode? (s.sign claims).signature = some (s.signature claims) := Base64url.decode?_encode _

theorem signs_published (s : Signer) (claims : Value)
    (h : Ed25519.verify s.publicKey (s.sign claims).message (s.signature claims) = true) :
    Token.Signs (s.sign claims) ⟨.eddsa, s.kid⟩ ⟨s.kid, some .eddsa, .edwards s.publicKey⟩ where
  algorithm _ ha := (Option.some.inj ha).symm
  kid _ _ hours htheirs := Option.some.inj (hours.symm.trans htheirs)
  signature := ⟨s.signature claims, s.decode?_signature claims, h⟩

/-- A token that its signer's key verifies is accepted with the claims it was made of, by a key of the set that
verifies it. -/
theorem verify_sign (s : Signer) (hm : Claims.Mintable members) {keys : KeySet}
    (hkey : (⟨s.kid, some .eddsa, .edwards s.publicKey⟩ : VerificationKey) ∈ keys.keys) {leeway : Nat}
    {now expires : Int} (hwindow : Token.Current (Claims.ofMembers members) leeway now expires)
    (haccepts : Ed25519.verify s.publicKey (s.sign (.object members)).message (s.signature (.object members)) = true) :
    ∃ k ∈ keys.keys, k.key.verifies .eddsa (s.sign (.object members)).message (s.signature (.object members)) = true ∧
      Token.verify (s.sign (.object members)).toText keys leeway now =
        .ok ⟨Claims.ofMembers members, k.kid, .eddsa, expires⟩ := by
  have hsignable := s.signable_sign hm
  have hsigns := s.signs_published (.object members) haccepts
  cases hsigner : Token.signer? (s.sign (.object members)) ⟨.eddsa, s.kid⟩ keys with
  | none => exact absurd ⟨hsignable, _, hkey, hsigns⟩ (Token.signer?_eq_none_iff.1 hsigner)
  | some k =>
    obtain ⟨-, before, after, hkeys, hk, -⟩ := Token.signer?_eq_some_iff.1 hsigner
    obtain ⟨octets, hoctets, hverifies⟩ := hk.signature
    rw [decode?_signature] at hoctets
    cases hoctets
    refine ⟨k, ?_, hverifies, ?_⟩
    · rw [hkeys]
      exact List.mem_append_right before List.mem_cons_self
    · rw [Token.verify_eq, Token.read_eq_ok_iff.2 (s.holds_sign hm)]
      simp only [hsigner, Token.window_eq_ok_iff.2 hwindow]

/-- A token that a signer signs verifies, with every key set that has the key it published and at every instant in
the window of the claims, as long as the signature verifies with that key and with no other: it comes back with the
claims it was made of, save that a date which 64 bits with a sign do not hold is kept as the last one that they do,
expires when the claims say, and names a key of the set that is the signer's. -/
theorem signed_verifies (s : Signer) (hm : Claims.Mintable members) {entries : List PublishedKey} {keys : KeySet}
    (hkeys : KeySet.ofPublished entries = .ok keys) (hpublished : s.published ∈ entries) {leeway : Nat}
    {now expires : Int} (hwindow : Token.Current (Claims.ofMembers members) leeway now expires)
    (haccepts : Ed25519.verify s.publicKey (s.sign (.object members)).message (s.signature (.object members)) = true)
    (honly : ∀ k ∈ keys.keys,
      k.key.verifies .eddsa (s.sign (.object members)).message (s.signature (.object members)) = true →
        k.key = .edwards s.publicKey) :
    ∃ t, Token.verify (s.sign (.object members)).toText keys leeway now = .ok t ∧
      t.claims = Claims.ofMembers members ∧
      (∃ shown, t.claims.toValue = .object shown ∧ shown.Perm (members.map Claims.kept)) ∧
      members.lookup "exp" = some (Claims.dateValue t.expiresAt) ∧ t.algorithm = .eddsa ∧
      ∃ k ∈ keys.keys, k.key = .edwards s.publicKey ∧ t.keyId = k.kid := by
  have hkey : (⟨s.kid, some .eddsa, .edwards s.publicKey⟩ : VerificationKey) ∈ keys.keys := by
    rw [KeySet.ofPublished_eq_ok_iff.1 hkeys]
    exact List.mem_filterMap.2 ⟨s.published, hpublished, s.verificationKey?_published⟩
  obtain ⟨k, hk, hverifies, hok⟩ := s.verify_sign hm hkey hwindow haccepts
  exact ⟨_, hok, rfl, Claims.toValue_ofMembers hm,
    Claims.lookup_exp hm hwindow.stated hwindow.representable, rfl, k, hk, honly k hk hverifies, rfl⟩

/-! ## A date beyond 64 bits with a sign -/

/-- A signer. -/
def sample : Signer := ofOctet 7 (some "k")

/-- Claims that say they were issued one second after the last one that is kept. -/
def lateClaims : List (String × Value) :=
  [("exp", .number (.natural 2000000000)), ("iat", .number (.natural (2 ^ 63)))]

/-- The key of the signer by itself. -/
def sampleKeys : KeySet := ⟨[⟨some "k", some .eddsa, .edwards sample.publicKey⟩], List.cons_ne_nil _ _⟩

theorem mem_lateClaims {m : String × Value} (h : m ∈ lateClaims) :
    m = ("exp", .number (.natural 2000000000)) ∨ m = ("iat", .number (.natural (2 ^ 63))) := by
  simpa [lateClaims] using h

theorem mintable_lateClaims : Claims.Mintable lateClaims where
  plain := by
    have hascending : lateClaims.Pairwise (·.1 < ·.1) := by decide +kernel
    refine .object hascending fun m hm => ?_
    rcases mem_lateClaims hm with rfl | rfl
    · exact .natural _ (by decide)
    · exact .natural _ (by decide)
  texts name hname v hv := by
    rcases mem_lateClaims (Claims.mem_of_lookup hv) with h | h
    · cases h; exact absurd hname (by decide)
    · cases h; exact absurd hname (by decide)
  dates name _ v hv := by
    rcases mem_lateClaims (Claims.mem_of_lookup hv) with h | h
    · cases h; exact ⟨_, rfl⟩
    · cases h; exact ⟨_, rfl⟩

theorem ofPublished_sample : KeySet.ofPublished [sample.published] = .ok sampleKeys := by
  rw [KeySet.ofPublished_eq_ok_iff, List.filterMap_cons, verificationKey?_published]
  rfl

theorem current_lateClaims : Token.Current (Claims.ofMembers lateClaims) 0 1800000000 2000000000 where
  stated := rfl
  running := by decide
  begun := nofun
  representable := by decide

theorem accepts_lateClaims :
    Ed25519.verify sample.publicKey (sample.sign (.object lateClaims)).message (sample.signature (.object lateClaims)) =
      true := by
  decide +kernel

theorem only_sample : ∀ k ∈ sampleKeys.keys,
    k.key.verifies .eddsa (sample.sign (.object lateClaims)).message (sample.signature (.object lateClaims)) = true →
      k.key = .edwards sample.publicKey := by
  intro k hk _
  rw [List.mem_singleton.1 hk]

theorem signed_verifies_lateClaims :
    ∃ t, Token.verify (sample.sign (.object lateClaims)).toText sampleKeys 0 1800000000 = .ok t ∧
      t.claims.issuedAt = some (2 ^ 63 - 1) ∧ t.keyId = some "k" := by
  obtain ⟨t, hok, hclaims, -, -, -, k, hk, -, hid⟩ := signed_verifies sample mintable_lateClaims ofPublished_sample
    List.mem_cons_self current_lateClaims accepts_lateClaims only_sample
  refine ⟨t, hok, ?_, ?_⟩
  · rw [hclaims]; rfl
  · rw [hid, List.mem_singleton.1 hk]

/-- Not all claims come back as they were given. -/
theorem lateClaims_not_same :
    ¬ ∀ (s : Signer) (members : List (String × Value)) (entries : List PublishedKey) (keys : KeySet) (leeway : Nat)
      (now expires : Int), Claims.Mintable members → KeySet.ofPublished entries = .ok keys → s.published ∈ entries →
      Token.Current (Claims.ofMembers members) leeway now expires →
      Ed25519.verify s.publicKey (s.sign (.object members)).message (s.signature (.object members)) = true →
      (∀ k ∈ keys.keys,
        k.key.verifies .eddsa (s.sign (.object members)).message (s.signature (.object members)) = true →
          k.key = .edwards s.publicKey) →
      ∃ t, Token.verify (s.sign (.object members)).toText keys leeway now = .ok t ∧
        ∃ shown, t.claims.toValue = .object shown ∧ shown.Perm members := by
  intro h
  obtain ⟨t, hok, shown, hshown, hperm⟩ := h sample lateClaims [sample.published] sampleKeys 0 1800000000 2000000000
    mintable_lateClaims ofPublished_sample List.mem_cons_self current_lateClaims accepts_lateClaims only_sample
  have hkey : (⟨sample.kid, some .eddsa, .edwards sample.publicKey⟩ : VerificationKey) ∈ sampleKeys.keys :=
    List.mem_cons_self
  obtain ⟨k, -, -, hok'⟩ := verify_sign sample mintable_lateClaims hkey current_lateClaims accepts_lateClaims
  rw [hok'] at hok
  cases hok
  have hkept : (Claims.ofMembers lateClaims).toValue =
      .object [("exp", .number (.natural 2000000000)), ("iat", .number (.natural (2 ^ 63 - 1)))] := by rfl
  rw [hkept] at hshown
  cases hshown
  have hmem : ("iat", Value.number (.natural (2 ^ 63))) ∈ lateClaims := List.mem_cons_of_mem _ List.mem_cons_self
  have hlost := hperm.mem_iff.2 hmem
  simp at hlost

end Signer

end Tollgate
