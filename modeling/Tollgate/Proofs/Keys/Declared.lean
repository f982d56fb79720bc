/-
What published keys are declared for. A key that is declared for a signature algorithm of public keys verifies
under no other one. Any other declaration is dropped when the key is taken up, so that a key for encryption stands
as a key that is declared for nothing, and verifies whatever tokens its numbers fit.
-/
import Mathlib
import Tollgate.Proofs.Keys.Snapshots
import Tollgate.Proofs.Token.Verification
import Tollgate.Token.Signer

namespace Tollgate

/-! ## Declarations -/

/-- The uses of keys that are no signatures. -/
def DeclaredUse.encryption : List DeclaredUse := [.rsa15, .rsaOaep, .rsaOaep256]

theorem DeclaredUse.algorithm?_eq_some_iff {use : DeclaredUse} {a : Algorithm} :
    use.algorithm? = some a ↔ use = .signature a ∧ a.isSymmetric = false := by
  cases use with
  | signature b =>
    show (if b.isSymmetric then none else some b) = some a ↔ _
    split <;> grind
  | _ => exact ⟨nofun, nofun⟩

/-- A declaration that does not restrict the key: for encryption, or for a secret that signer and verifier share. -/
def DeclaredUse.Dropped (use : DeclaredUse) : Prop :=
  use ∈ encryption ∨ ∃ a, use = .signature a ∧ a.isSymmetric = true

theorem DeclaredUse.algorithm?_eq_none_iff {use : DeclaredUse} : use.algorithm? = none ↔ use.Dropped := by
  cases use with
  | signature a => cases a <;> simp [algorithm?, Algorithm.isSymmetric, Dropped, encryption]
  | _ => simp [algorithm?, Dropped, encryption]

theorem DeclaredUse.restricts_iff {use : DeclaredUse} {a : Algorithm} :
    (∀ b, use.algorithm? = some b → b = a) ↔ use = .signature a ∨ use.Dropped := by
  cases hsome : use.algorithm? with
  | none => exact ⟨fun _ => .inr (algorithm?_eq_none_iff.1 hsome), fun _ => nofun⟩
  | some b =>
    obtain ⟨rfl, -⟩ := algorithm?_eq_some_iff.1 hsome
    constructor
    · intro h
      exact .inl (by rw [h b rfl])
    · rintro (heq | hdropped) c hc
      · cases hc; cases heq; rfl
      · rw [algorithm?_eq_none_iff.2 hdropped] at hsome
        cases hsome

/-- Two identifiers do not differ, as far as there are two. -/
def KidsAgree (ours theirs : Option String) : Prop := ∀ x ∈ ours, ∀ y ∈ theirs, x = y

namespace PublishedKey

/-- What an entry is declared for is this algorithm, if it is declared for anything. -/
def PublishedFor (e : PublishedKey) (a : Algorithm) : Prop := ∀ use, e.declared = some use → use = .signature a

theorem algorithm_iff {e : PublishedKey} {k : VerificationKey} (hk : e.verificationKey? = some k) {a : Algorithm} :
    (∀ b, k.algorithm = some b → b = a) ↔ ∀ use, e.declared = some use → use = .signature a ∨ use.Dropped := by
  obtain ⟨key, -, rfl⟩ := Option.map_eq_some_iff.1 hk
  simp only [Option.bind_eq_some_iff, ← DeclaredUse.restricts_iff]
  exact ⟨fun h use huse b hb => h b ⟨use, huse, hb⟩, fun h b ⟨use, huse, hb⟩ => h use huse b hb⟩

theorem fits_iff {e : PublishedKey} {k : VerificationKey} (hk : e.verificationKey? = some k) {kid : Option String}
    {a : Algorithm} : k.fits kid a = true ↔
      (∀ use, e.declared = some use → use = .signature a ∨ use.Dropped) ∧ KidsAgree e.kid kid := by
  rw [Token.fits_iff, algorithm_iff hk]
  obtain ⟨key, -, rfl⟩ := Option.map_eq_some_iff.1 hk
  exact and_congr_right fun _ => ⟨fun h x hx y hy => h x y hx hy, fun h x y hx hy => h x hx y hy⟩

end PublishedKey

/-! ## Candidates -/

namespace KeySet

variable {entries : List PublishedKey} {keys : KeySet}

theorem mem_candidates_iff (h : ofPublished entries = .ok keys) {e : PublishedKey} {k : VerificationKey}
    (he : e ∈ entries) (hk : e.verificationKey? = some k) {kid : Option String} {a : Algorithm} :
    k ∈ keys.candidates kid a ↔ k.fits kid a = true := by
  have hmem : k ∈ keys.keys := by
    rw [ofPublished_eq_ok_iff.1 h]
    exact List.mem_filterMap.2 ⟨e, he, hk⟩
  unfold candidates
  rw [List.mem_filter]
  exact and_iff_right hmem

theorem publishedFor_candidates_iff (h : ofPublished entries = .ok keys) (kid : Option String) (a : Algorithm) :
    (∀ e ∈ entries, ∀ k ∈ keys.candidates kid a, e.verificationKey? = some k → e.PublishedFor a) ↔
      ∀ e ∈ entries, e.verificationKey?.isSome = true → KidsAgree e.kid kid → ∀ use, e.declared = some use →
        use.Dropped → use = .signature a := by
  constructor
  · intro hall e he hkey hkid use huse hdropped
    obtain ⟨k, hk⟩ := Option.isSome_iff_exists.1 hkey
    have hfree : ∀ other, e.declared = some other → other = .signature a ∨ other.Dropped := by
      intro other hother
      cases huse.symm.trans hother
      exact .inr hdropped
    -- nothing restricts the key, so it is a candidate
    have hcand := (mem_candidates_iff h he hk).2 ((PublishedKey.fits_iff hk).2 ⟨hfree, hkid⟩)
    exact hall e he k hcand hk use huse
  · intro hall e he k hcand hk use huse
    obtain ⟨hdeclared, hkid⟩ := (PublishedKey.fits_iff hk).1 ((mem_candidates_iff h he hk).1 hcand)
    rcases hdeclared use huse with hsame | hdropped
    · exact hsame
    · exact hall e he (Option.isSome_of_eq_some hk) hkid use huse hdropped

/-- A key is used as it is declared, unless the declaration is dropped. The candidates for an identifier and an
algorithm are published for this algorithm exactly if no entry with a public key and an agreeing identifier has a
declaration that is dropped, other than this algorithm; and the first key that signed an accepted token comes from an
entry that is declared for the token's algorithm, or for nothing, or has such a declaration. -/
theorem used_as_published (h : ofPublished entries = .ok keys) :
    (∀ kid a,
      (∀ e ∈ entries, ∀ k ∈ keys.candidates kid a, e.verificationKey? = some k → e.PublishedFor a) ↔
        ∀ e ∈ entries, e.verificationKey?.isSome = true → KidsAgree e.kid kid → ∀ use, e.declared = some use →
          use.Dropped → use = .signature a) ∧
      ∀ token leeway now t, Token.verify token keys leeway now = .ok t →
        ∃ c hd cl k, Token.Holds token c hd cl ∧ Token.FirstSigner keys c hd k ∧
          ∃ e ∈ entries, e.verificationKey? = some k ∧ ∀ use, e.declared = some use →
            use = .signature hd.algorithm ∨ use.Dropped := by
  refine ⟨publishedFor_candidates_iff h, fun token leeway now t hverify => ?_⟩
  obtain ⟨c, hd, cl, k, hholds, hfirst⟩ := Token.firstSigner_of_verify hverify
  obtain ⟨before, after, hkeys, hsigns, -⟩ := id hfirst
  have hmem : k ∈ entries.filterMap PublishedKey.verificationKey? := by
    rw [← ofPublished_eq_ok_iff.1 h, hkeys]
    exact List.mem_append_right _ List.mem_cons_self
  obtain ⟨e, he, hk⟩ := List.mem_filterMap.1 hmem
  exact ⟨c, hd, cl, k, hholds, hfirst, e, he, hk, (PublishedKey.algorithm_iff hk).1 hsigns.algorithm⟩

end KeySet

/-! ## A key for encryption -/

theorem KeyNumbers.publicKey?_rsa (modulus exponent : Bytes) :
    (KeyNumbers.rsa (String.ofList (Base64url.encode modulus)) (String.ofList (Base64url.encode exponent))).publicKey? =
      some (.rsa ⟨modulus, exponent⟩) := by
  simp only [publicKey?, String.toList_ofList, Base64url.decode?_encode]
  rfl

/-- A key of 2048 bits, the product of two primes. -/
def encryptionNumbers : Rsa.Key :=
  ⟨Bytes.ofNat 256 ((2 ^ 1024 - 105) * (2 ^ 1024 - 179)), Bytes.ofNat 3 65537⟩

/-- It is published for the encryption of keys. -/
def encryptionEntry : PublishedKey :=
  ⟨some "r", some .rsaOaep, .rsa (String.ofList (Base64url.encode encryptionNumbers.modulus))
    (String.ofList (Base64url.encode encryptionNumbers.exponent))⟩

def encryptionKey : VerificationKey := ⟨some "r", none, .rsa encryptionNumbers⟩

theorem verificationKey?_encryptionEntry : encryptionEntry.verificationKey? = some encryptionKey := by
  unfold PublishedKey.verificationKey? encryptionEntry
  rw [KeyNumbers.publicKey?_rsa]
  rfl

def encryptionKeys : KeySet := ⟨[encryptionKey], List.cons_ne_nil _ _⟩

theorem ofPublished_encryptionEntry : KeySet.ofPublished [encryptionEntry] = .ok encryptionKeys := by
  rw [KeySet.ofPublished_eq_ok_iff, List.filterMap_cons_some verificationKey?_encryptionEntry]
  rfl

/-- The signature of a token with that key, in words of 64 bits. -/
def encryptionKeySignature : List Nat :=
  [0xa3e77d7e6cc95ef8, 0xc460f31927a3b222, 0xc055f5376d7b74fc, 0xa36876125e10ff4f, 0xf52584b468c8db78,
    0x5b2bc9c0a68420c6, 0x538157e109b04df8, 0x2ffaca842cfc448f, 0xfafdae8a4c86bdf6, 0xd5dc2c9f1f23fe39,
    0x40d5d561fd950164, 0xd51002866dd4e20e, 0x0eb4d3af11850a0a, 0xe6e48d373d445c6c, 0xca4440bddd325c5d,
    0x2f411f7932629541, 0x0a163cce41d32a0c, 0x8e6f11a88d7724be, 0x38cf55d7ef5b0e78, 0xa2685336934e39ef,
    0x6c6ec5bddef12a1e, 0x5d62384267d6cdda, 0x46514d305308c584, 0x27866fd5a85fbe3c, 0xd2ac51adc69783b3,
    0x482ca6b4e152d394, 0x5f838576aba7f09d, 0xeeeb3cbaabca26ca, 0xeab88faf2dedeecf, 0xf3d5b4fe6efc4db6,
    0x0d4322cefff2481e, 0x135a51f740babe37]

/-- A token that expires in the year 2033. -/
def encryptionKeyToken : Compact :=
  ⟨Compact.segment "\x7b\"alg\":\"RS256\",\"kid\":\"r\"\x7d".toList, Compact.segment "\x7b\"exp\":2000000000\x7d".toList,
    Base64url.encode (encryptionKeySignature.flatMap (Bytes.ofNat 8))⟩

theorem signer?_encryptionKeyToken :
    Token.signer? encryptionKeyToken ⟨.rs256, some "r"⟩ encryptionKeys = some encryptionKey := by
  decide +kernel

theorem header?_encryptionKeyToken : Token.header? encryptionKeyToken.header = some ⟨.rs256, some "r"⟩ := by
  decide +kernel

theorem verify_encryptionKeyToken :
    ∃ t, Token.verify encryptionKeyToken.toText encryptionKeys 0 1800000000 = .ok t ∧ t.algorithm = .rs256 := by
  have hclaims : ((Token.claims encryptionKeyToken.claims).toOption.map fun cl =>
      (Token.window cl 0 1800000000).toOption) = some (some 2000000000) := by decide +kernel
  cases hcl : Token.claims encryptionKeyToken.claims with
  | error part => rw [hcl] at hclaims; cases hclaims
  | ok cl =>
    have hspells : encryptionKeyToken.Spells encryptionKeyToken.toText :=
      ⟨by simp [Compact.toText, Compact.signedChars], by decide +kernel, by decide +kernel, by decide +kernel⟩
    have hread : Token.read encryptionKeyToken.toText = .ok (encryptionKeyToken, ⟨.rs256, some "r"⟩, cl) :=
      Token.read_eq_ok_iff.2 ⟨hspells, Token.header?_eq_some_iff.1 header?_encryptionKeyToken,
        Token.claims_eq_ok_iff.1 hcl⟩
    rw [hcl] at hclaims
    cases hw : Token.window cl 0 1800000000 with
    | error fault => simp [Except.toOption, hw] at hclaims
    | ok e =>
      refine ⟨⟨cl, encryptionKey.kid, .rs256, e⟩, ?_, rfl⟩
      rw [Token.verify_eq, hread]
      simp only [signer?_encryptionKeyToken, hw]

theorem mem_candidates_encryptionKey : encryptionKey ∈ encryptionKeys.candidates (some "r") .rs256 :=
  (KeySet.mem_candidates_iff ofPublished_encryptionEntry List.mem_cons_self verificationKey?_encryptionEntry).2
    (by decide)

theorem used_as_published_encryptionKey :
    KeySet.ofPublished [encryptionEntry] = .ok encryptionKeys ∧
      ¬ (∀ e ∈ [encryptionEntry], ∀ k ∈ encryptionKeys.candidates (some "r") .rs256, e.verificationKey? = some k →
        e.PublishedFor .rs256) := by
  refine ⟨ofPublished_encryptionEntry, fun hall => ?_⟩
  have hkey : encryptionEntry.verificationKey?.isSome = true := by rw [verificationKey?_encryptionEntry]; rfl
  have hkid : KidsAgree encryptionEntry.kid (some "r") := by simp [KidsAgree, encryptionEntry]
  have hdeclared := ((KeySet.used_as_published ofPublished_encryptionEntry).1 (some "r") .rs256).1 hall encryptionEntry
    List.mem_cons_self hkey hkid .rsaOaep rfl (.inl (by decide))
  cases hdeclared

/-- A key that is published for encryption is a candidate for a token, and verifies it. -/
theorem encryptionKey_verifies :
    KeySet.ofPublished [encryptionEntry] = .ok encryptionKeys ∧
      encryptionEntry.verificationKey? = some encryptionKey ∧ encryptionEntry.declared = some .rsaOaep ∧
      encryptionKey ∈ encryptionKeys.candidates (some "r") .rs256 ∧
      ∃ t, Token.verify encryptionKeyToken.toText encryptionKeys 0 1800000000 = .ok t ∧ t.algorithm = .rs256 :=
  ⟨ofPublished_encryptionEntry, verificationKey?_encryptionEntry, rfl, mem_candidates_encryptionKey,
    verify_encryptionKeyToken⟩

end Tollgate
