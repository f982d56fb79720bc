/-
What can be read off a token before anything of it is trusted. A token is read from its end where the
signature is checked and as a whole where the claims are taken: the two readings agree on every token
whose header can be read, because base sixty-four knows no point. So the claims are always those that the
signature covers.
-/
import Tollgate.Proofs.Text.Cut
import Tollgate.Token.Verify

namespace Tollgate

/-! ## Base sixty-four -/

/-- Only characters of the alphabet can be read. -/
theorem Base64url.value?_isSome_of_decode? {s : List Char} {b : Bytes} (h : decode? s = some b) :
    ∀ c ∈ s, (value? c).isSome := by
  fun_induction decode? s generalizing b with
  | case1 => simp
  | case2 => simp at h
  | case3 a b' =>
    simp only [Option.bind_eq_bind, Option.bind_eq_some_iff] at h
    obtain ⟨p, hp, q, hq, -⟩ := h
    simp [hp, hq]
  | case4 a b' c =>
    simp only [Option.bind_eq_bind, Option.bind_eq_some_iff] at h
    obtain ⟨p, hp, q, hq, r, hr, -⟩ := h
    simp [hp, hq, hr]
  | case5 a b' c d rest ih =>
    simp only [Option.bind_eq_bind, Option.bind_eq_some_iff] at h
    obtain ⟨p, hp, q, hq, r, hr, t, ht, more, hm, -⟩ := h
    have hrest := ih hm
    simpa [hp, hq, hr, ht] using hrest

theorem Base64url.point_not_mem_of_decode? {s : List Char} {b : Bytes} (h : decode? s = some b) : '.' ∉ s := by
  intro hm
  have := value?_isSome_of_decode? h '.' hm
  revert this; decide

theorem Base64url.value?_char : ∀ n < 64, value? (char n) = some n := by
  decide

theorem Base64url.decode?_encode (b : Bytes) : decode? (encode b) = some b := by
  induction b using encode.induct with
  | case1 => rfl
  | case2 x =>
    have hx := x.toNat_lt
    simp only [encode, decode?, value?_char (x.toNat / 4) (by omega), value?_char (x.toNat % 4 * 16) (by omega),
      Option.bind_eq_bind, Option.bind_some]
    rw [if_pos (by omega), show x.toNat / 4 * 4 + x.toNat % 4 * 16 / 16 = x.toNat by omega, UInt8.ofNat_toNat]
  | case3 x y =>
    have hx := x.toNat_lt
    have hy := y.toNat_lt
    simp only [encode, decode?, value?_char (x.toNat / 4) (by omega),
      value?_char (x.toNat % 4 * 16 + y.toNat / 16) (by omega), value?_char (y.toNat % 16 * 4) (by omega),
      Option.bind_eq_bind, Option.bind_some]
    rw [if_pos (by omega), show x.toNat / 4 * 4 + (x.toNat % 4 * 16 + y.toNat / 16) / 16 = x.toNat by omega,
      show (x.toNat % 4 * 16 + y.toNat / 16) % 16 * 16 + y.toNat % 16 * 4 / 4 = y.toNat by omega,
      UInt8.ofNat_toNat, UInt8.ofNat_toNat]
  | case4 x y z rest ih =>
    have hx := x.toNat_lt
    have hy := y.toNat_lt
    have hz := z.toNat_lt
    simp only [encode, decode?, value?_char (x.toNat / 4) (by omega),
      value?_char (x.toNat % 4 * 16 + y.toNat / 16) (by omega),
      value?_char (y.toNat % 16 * 4 + z.toNat / 64) (by omega), value?_char (z.toNat % 64) (by omega), ih,
      Option.bind_eq_bind, Option.bind_some]
    rw [show x.toNat / 4 * 4 + (x.toNat % 4 * 16 + y.toNat / 16) / 16 = x.toNat by omega,
      show (x.toNat % 4 * 16 + y.toNat / 16) % 16 * 16 + (y.toNat % 16 * 4 + z.toNat / 64) / 4 = y.toNat by omega,
      show (y.toNat % 16 * 4 + z.toNat / 64) % 4 * 64 + z.toNat % 64 = z.toNat by omega, UInt8.ofNat_toNat,
      UInt8.ofNat_toNat, UInt8.ofNat_toNat]
    rfl

/-! ## Segments -/

namespace Compact

/-- Three segments between points, none of which holds one. -/
structure Spells (s : String) (c : Compact) : Prop where
  text : s.toList = c.header ++ '.' :: (c.claims ++ '.' :: c.signature)
  header : '.' ∉ c.header
  claims : '.' ∉ c.claims
  signature : '.' ∉ c.signature

/-- Read as a whole, a text has segments exactly if it has three. -/
theorem ofText?_eq_some_iff {s : String} {c : Compact} : ofText? s = some c ↔ Spells s c := by
  unfold ofText?
  constructor
  · intro h
    split at h
    · rename_i header claims signature hs
      cases h
      obtain ⟨h1, ⟨-, h0⟩ | ⟨x, rest, hx, hs, hr⟩⟩ := Text.splitBy_eq_cons_iff.1 hs
      · cases h0
      obtain ⟨h2, ⟨-, h0⟩ | ⟨y, last, hy, rfl, hl⟩⟩ := Text.splitBy_eq_cons_iff.1 hr
      · cases h0
      obtain ⟨h3, ⟨rfl, -⟩ | ⟨z, rest, -, -, h0⟩⟩ := Text.splitBy_eq_cons_iff.1 hl
      · rw [beq_iff_eq] at hx hy
        subst hx hy
        exact ⟨hs, Text.free_beq_iff.1 h1, Text.free_beq_iff.1 h2, Text.free_beq_iff.1 h3⟩
      · exact absurd h0 (Text.splitBy_ne_nil _)
    · cases h
  · intro h
    rw [h.text, Text.splitBy_append_cons (by simp) _ (Text.free_beq_iff.2 h.header),
      Text.splitBy_append_cons (by simp) _ (Text.free_beq_iff.2 h.claims),
      Text.splitBy_of_free (Text.free_beq_iff.2 h.signature)]

/-- Read from its end, a text may have a header that holds points. -/
theorem ofEnd?_eq_some_iff {s : String} {c : Compact} : ofEnd? s = some c ↔
    s.toList = c.header ++ '.' :: (c.claims ++ '.' :: c.signature) ∧ '.' ∉ c.claims ∧ '.' ∉ c.signature := by
  unfold ofEnd?
  simp only [Option.bind_eq_bind, Option.bind_eq_some_iff, Prod.exists, Text.cutAtLast?_eq_some_iff,
    beq_iff_eq, Text.free_beq_iff]
  constructor
  · rintro ⟨signed, signature, ⟨x, rfl, hs, h3⟩, header, claims, ⟨y, rfl, rfl, h2⟩, he⟩
    cases he
    exact ⟨by rw [hs]; simp, h2, h3⟩
  · rintro ⟨hs, h2, h3⟩
    exact ⟨c.signedChars, c.signature, ⟨'.', rfl, by rw [hs]; simp [signedChars], h3⟩,
      c.header, c.claims, ⟨'.', rfl, rfl, h2⟩, rfl⟩

/-- The two readings agree on a text whose first part holds no point. -/
theorem ofText?_of_ofEnd? {s : String} {c : Compact} (h : ofEnd? s = some c) (hp : '.' ∉ c.header) :
    ofText? s = some c := by
  obtain ⟨hs, h2, h3⟩ := ofEnd?_eq_some_iff.1 h
  exact ofText?_eq_some_iff.2 ⟨hs, hp, h2, h3⟩

end Compact

/-! ## Header and claims -/

namespace Token

/-- A segment that is the base sixty-four of a JSON text. -/
def Encodes (segment : List Char) (tree : Json.Tree) : Prop :=
  ∃ octets, Base64url.decode? segment = some octets ∧ Json.Tree.ofBytes? octets = some tree

/-- A token of three segments, the first of which holds a header and the second one claims. -/
structure Holds (token : String) (c : Compact) (h : Header) (claims : Claims) : Prop where
  segments : c.Spells token
  header : ∃ tree, Encodes c.header tree ∧ Header.ofTree? tree = some h
  claims : ∃ members, Encodes c.claims (.object members) ∧ Claims.ofTree? (.object members) = some claims

theorem header?_eq_some_iff {segment : List Char} {h : Header} :
    header? segment = some h ↔ ∃ tree, Encodes segment tree ∧ Header.ofTree? tree = some h := by
  unfold header? Encodes
  simp only [Option.bind_eq_bind, Option.bind_eq_some_iff]
  constructor
  · rintro ⟨octets, ho, tree, ht, hh⟩; exact ⟨tree, ⟨octets, ho, ht⟩, hh⟩
  · rintro ⟨tree, ⟨octets, ho, ht⟩, hh⟩; exact ⟨octets, ho, tree, ht, hh⟩

/-- Claims are read from an object only. -/
theorem ofTree?_object {tree : Json.Tree} {claims : Claims} (h : Claims.ofTree? tree = some claims) :
    ∃ members, tree = .object members := by
  cases tree with
  | object members => exact ⟨members, rfl⟩
  | _ => simp [Claims.ofTree?] at h

theorem claims_eq_ok_iff {segment : List Char} {cl : Claims} : claims segment = .ok cl ↔
    ∃ members, Encodes segment (.object members) ∧ Claims.ofTree? (.object members) = some cl := by
  unfold claims Encodes
  constructor
  · intro h
    split at h
    · rename_i octets ho
      split at h
      · rename_i cl' ht
        cases h
        obtain ⟨tree, ht, hc⟩ := Option.bind_eq_some_iff.1 ht
        obtain ⟨members, rfl⟩ := ofTree?_object hc
        exact ⟨members, ⟨octets, ho, ht⟩, hc⟩
      · cases h
    · cases h
  · rintro ⟨members, ⟨octets, ho, ht⟩, hc⟩
    rw [ho]
    simp only [ht, Option.bind_eq_bind, Option.bind_some, hc]
    rfl

/-- Both readings of a token succeed exactly if it holds a header and claims. -/
theorem read_eq_ok_iff {token : String} {c : Compact} {h : Header} {cl : Claims} :
    read token = .ok (c, h, cl) ↔ Holds token c h cl := by
  unfold read
  constructor
  · intro hr
    split at hr
    · rename_i c' hc
      split at hr
      · rename_i h' hh
        -- a header that can be read holds no point, so there are three segments
        obtain ⟨tree, ⟨octets, ho, ht⟩, hh'⟩ := header?_eq_some_iff.1 hh
        have hwhole := Compact.ofText?_of_ofEnd? hc (Base64url.point_not_mem_of_decode? ho)
        rw [hwhole] at hr
        cases hcl : claims c'.claims with
        | error e => simp [hcl, bind, Except.bind] at hr
        | ok cl' =>
          simp only [hcl, bind, Except.bind, pure, Except.pure, Except.ok.injEq, Prod.mk.injEq] at hr
          obtain ⟨rfl, rfl, rfl⟩ := hr
          exact ⟨Compact.ofText?_eq_some_iff.1 hwhole, header?_eq_some_iff.1 hh, claims_eq_ok_iff.1 hcl⟩
      · cases hr
    · cases hr
  · intro hh
    have hc : Compact.ofEnd? token = some c :=
      Compact.ofEnd?_eq_some_iff.2 ⟨hh.segments.text, hh.segments.claims, hh.segments.signature⟩
    rw [hc]
    simp only [header?_eq_some_iff.2 hh.header, Compact.ofText?_eq_some_iff.2 hh.segments,
      claims_eq_ok_iff.2 hh.claims]
    rfl

end Token

end Tollgate
