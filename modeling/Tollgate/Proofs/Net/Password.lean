/-
Where passwords stand in URLs. A URL with a password has a host, and one that a password can be given to, so another
password takes its place. The password stands before an at sign in the authority, and what begins with a scheme and
two slashes has no room for one behind yet another scheme.
-/
import Tollgate.Proofs.Bytes.Utf8
import Tollgate.Proofs.Net.Url

namespace Tollgate

open Text (trimmedLeft trimmedRight)

/-! ## Hosts with characters -/

theorem Percent.encode_ne_nil {keep : Char → Bool} {s : List Char} (h : s ≠ []) : encode keep s ≠ [] := by
  obtain ⟨c, rest, rfl⟩ := List.exists_cons_of_ne_nil h
  have hne : (String.utf8EncodeChar c).flatMap escape ≠ [] := by
    obtain ⟨b, more, hb, -⟩ := Utf8.first?_encodeChar c []
    rw [hb, List.flatMap_cons, escape]
    exact List.cons_ne_nil _ _
  unfold encode
  rw [List.flatMap_cons]
  split
  · exact List.cons_ne_nil _ _
  · exact fun h => hne (List.append_eq_nil_iff.1 h).1

namespace Host

theorem isEmpty_of_bracketed? {s : List Char} {host : Host} (h : bracketed? s = some host) : host.isEmpty = false := by
  unfold bracketed? at h
  split at h
  · obtain ⟨a, -, rfl⟩ := Option.map_eq_some_iff.1 h
    rfl
  · cases h

theorem isEmpty_of_ofName? {s : List Char} {host : Host} (h : ofName? s = some host) : host.isEmpty = false := by
  unfold ofName? at h
  split at h
  · exact isEmpty_of_bracketed? h
  · simp only [Option.bind_eq_bind, Option.bind_eq_some_iff, Option.guard_eq_some'] at h
    obtain ⟨decoded, -, -, hne, -, -, -, -, h⟩ := h
    split at h
    · obtain ⟨a, -, rfl⟩ := Option.map_eq_some_iff.1 h
      rfl
    · cases h
      simpa [Host.isEmpty] using hne

theorem isEmpty_of_ofOpaque? {s : List Char} {host : Host} (hs : s ≠ []) (h : ofOpaque? s = some host) :
    host.isEmpty = false := by
  unfold ofOpaque? at h
  split at h
  · exact isEmpty_of_bracketed? h
  · split at h
    · cases h
    · cases h
      exact List.isEmpty_eq_false_iff.2 (Percent.encode_ne_nil hs)

end Host

namespace Url

variable {s : List Char} {u : Url}

/-! ## Authorities with passwords -/

theorem mem_of_cutUser {user : List Char} (h : (cutUser s).1 = some user) : '@' ∈ s := by
  unfold cutUser at h
  split at h
  · rename_i host before hc
    obtain ⟨c, hat, hs, -⟩ := Text.cutAt?_eq_some_iff.1 hc
    rw [← List.mem_reverse, hs, ← beq_iff_eq.1 hat]
    exact List.mem_append_right _ List.mem_cons_self
  · cases h

/-- The text from which user, host and number are read. -/
def authorityOf (scheme s : List Char) : List Char :=
  s.takeWhile fun c => !(isSlash (isSpecial scheme) c || c == '?' || c == '#')

theorem authorityOf_eq {scheme : List Char} {special : Bool} (h : isSpecial scheme = special) :
    s.takeWhile (fun c => !(isSlash special c || c == '?' || c == '#')) = authorityOf scheme s := by
  rw [authorityOf, h]

/-- What a URL has from its authority. -/
theorem readAuthority_parts {scheme : List Char} (h : readAuthority scheme s = some u) :
    let user := cutUser (authorityOf scheme s)
    let host := cutPort false user.2
    u.password = ((user.1.map readUser).getD ([], none)).2 ∧ (user.1.isSome && user.2.isEmpty) = false ∧
      ∃ name, (Host.ofName? host.1 = some name ∨ Host.ofOpaque? host.1 = some name) ∧ u.host = some name ∧
        (name.isEmpty && host.2.isSome) = false := by
  unfold readAuthority at h
  cases hspecial : isSpecial scheme <;>
  · simp only [hspecial, Bool.false_eq_true, if_false, if_true, Option.bind_eq_bind, Option.bind_eq_some_iff,
      Option.pure_def, Option.some.injEq, Option.guard_eq_some', Bool.not_eq_true', authorityOf_eq hspecial] at h
    obtain ⟨-, huser, name, hname, -, hdigits, number, -, rfl⟩ := h
    exact ⟨rfl, huser, name, by tauto, rfl, hdigits⟩

/-- A password stands before an at sign and a host. -/
theorem password_of_readAuthority {scheme : List Char} (h : readAuthority scheme s = some u) (hp : u.password ≠ none) :
    u.host.any (!·.isEmpty) = true ∧ '@' ∈ authorityOf scheme s := by
  obtain ⟨hpassword, huser, host, hname, hhost, hdigits⟩ := readAuthority_parts h
  rw [hhost, Option.any_some, Bool.not_eq_true']
  generalize authorityOf scheme s = authority at *
  cases hc : (cutUser authority).1 with
  | none =>
    rw [hc] at hpassword
    exact absurd hpassword hp
  | some user =>
    refine ⟨?_, mem_of_cutUser hc⟩
    have hrest : (cutUser authority).2 ≠ [] := by simpa [hc] using huser
    -- without characters before the number there would be a number without a host
    cases hn : (cutPort false (cutUser authority).2).1 with
    | nil =>
      rcases append_of_cutPort false (cutUser authority).2 with ⟨-, hall⟩ | ⟨digits, hd, -⟩
      · rw [← hall, hn] at hrest
        exact absurd rfl hrest
      · simpa [hd] using hdigits
    | cons c name =>
      rw [hn] at hname
      rcases hname with hname | hname
      · exact Host.isEmpty_of_ofName? hname
      · exact Host.isEmpty_of_ofOpaque? (List.cons_ne_nil _ _) hname

theorem password_readFile (h : readFile s = some u) : u.password = none := by
  unfold readFile at h
  split at h
  · split at h
    · simp only [] at h
      split at h
      · cases h; rfl
      · simp only [Option.bind_eq_bind, Option.bind_eq_some_iff, Option.pure_def, Option.some.injEq] at h
        obtain ⟨host, -, rfl⟩ := h
        rfl
    · cases h; rfl
  · cases h; rfl

/-- Where a URL with a password is read from. -/
theorem readAuthority_of_password (h : ofChars? s = some u) (hp : u.password ≠ none) :
    isFile u.scheme = false ∧ ∃ rest, scheme? (cleaned s) = some (u.scheme, rest) ∧
      ((isSpecial u.scheme = true ∧ readAuthority u.scheme (rest.dropWhile (isSlash true)) = some u) ∨
        ∃ behind, rest = '/' :: '/' :: behind ∧ readAuthority u.scheme behind = some u) := by
  obtain ⟨rest, hs⟩ := scheme?_of_ofChars? h
  have hread := h
  rw [show ofChars? s = (scheme? (cleaned s)).bind _ from rfl, hs, Option.bind_some] at hread
  simp only [] at hread
  split at hread
  · exact absurd (password_readFile hread) hp
  rename_i hfile
  refine ⟨Bool.eq_false_iff.2 hfile, rest, hs, ?_⟩
  split at hread
  · rename_i hspecial
    exact .inl ⟨hspecial, hread⟩
  split at hread
  · exact .inr ⟨_, rfl, hread⟩
  · exact absurd (congrArg Url.password (Option.some.inj hread)).symm hp

/-- A URL with a password has a host that can have one. -/
theorem host_of_password (h : ofChars? s = some u) (hp : u.password ≠ none) :
    u.host.any (!·.isEmpty) = true ∧ isFile u.scheme = false := by
  obtain ⟨hfile, rest, -, ⟨-, hread⟩ | ⟨behind, -, hread⟩⟩ := readAuthority_of_password h hp
  · exact ⟨(password_of_readAuthority hread hp).1, hfile⟩
  · exact ⟨(password_of_readAuthority hread hp).1, hfile⟩

/-- Another password takes the place of the one that is there. -/
theorem withPassword_of_password (h : ofChars? s = some u) (hp : u.password ≠ none) (password : List Char) :
    u.withPassword password = { u with password := some (Percent.encode inUserInfo password) } := by
  obtain ⟨hhost, hfile⟩ := host_of_password h hp
  rw [withPassword, hhost, hfile]
  rfl

/-! ## A scheme behind another one -/

theorem mem_of_mem_takeWhile {p : Char → Bool} {x c : Char} {l r : List Char} (hc : p c = false)
    (h : x ∈ (l ++ c :: r).takeWhile p) : x ∈ l := by
  have hcut : (c :: r).takeWhile p = [] := List.takeWhile_cons_of_neg (by simp [hc])
  rw [List.takeWhile_append, hcut, List.append_nil] at h
  split at h
  · exact h
  · exact (List.takeWhile_prefix p).subset h

/-- What names no special scheme has no password unless it has none once another scheme is put before it. -/
theorem password_of_scheme_before {e : List Char} (h : ofChars? e = some u) (hs : defaultPort? u.scheme = none) {a : Url}
    (hr : ofChars? ("redis://".toList ++ e) = some a) (ha : a.password ≠ none) : u.password = none := by
  by_contra hp
  obtain ⟨hfile, rest, hscheme, ⟨hspecial, -⟩ | ⟨behind, rfl, -⟩⟩ := readAuthority_of_password h hp
  · rw [isSpecial, hfile, hs] at hspecial
    cases hspecial
  obtain ⟨name, htext, hname, -⟩ := scheme?_eq_some_iff.1 hscheme
  obtain ⟨lead, tail, haround, hlead, -⟩ := exists_around e
  -- with another scheme before it, the text is cleaned at its end only
  obtain ⟨more, hcleaned⟩ : ∃ more, cleaned ("redis://".toList ++ e) =
      "redis".toList ++ ':' :: ('/' :: '/' :: (lead ++ name ++ [':'] ++ '/' :: more)) := by
    have hfilter : ("redis://".toList ++ e).filter isKept =
        [] ++ 'r' :: ("edis://".toList ++ lead ++ name ++ [':', '/'] ++ '/' :: (behind ++ tail)) := by
      rw [List.filter_append, haround, htext]
      simp only [List.append_assoc, List.cons_append, List.nil_append]
      rfl
    refine ⟨'/' :: trimmedRight isOutside (behind ++ tail), ?_⟩
    rw [cleaned_eq, hfilter, Text.trimmedLeft_append_cons (by simp) (by decide), ← List.cons_append,
      Text.trimmedRight_append_cons (by decide)]
    simp only [List.append_assoc, List.cons_append, List.nil_append]
    rfl
  have hredis : scheme? (cleaned ("redis://".toList ++ e)) =
      some ("redis".toList, '/' :: '/' :: (lead ++ name ++ [':'] ++ '/' :: more)) :=
    scheme?_eq_some_iff.2 ⟨_, hcleaned, ⟨by decide, by decide⟩, by decide⟩
  obtain ⟨-, rest', hscheme', hread⟩ := readAuthority_of_password hr ha
  rw [hredis] at hscheme'
  obtain ⟨hname', rfl⟩ := Prod.mk.inj (Option.some.inj hscheme')
  rw [← hname'] at hread
  have hplain : isSpecial "redis".toList = false := by decide
  rcases hread with ⟨hspecial, -⟩ | ⟨behind', hbehind, hread⟩
  · rw [hplain] at hspecial
    cases hspecial
  · cases hbehind
    have hat := (password_of_readAuthority hread ha).2
    rw [authorityOf, hplain] at hat
    rcases List.mem_append.1 (mem_of_mem_takeWhile (by decide) hat) with hat | hat
    · rcases List.mem_append.1 hat with hat | hat
      · exact absurd (hlead '@' hat) (by decide)
      · exact absurd (hname.of_mem hat) (by decide)
    · exact absurd hat (by decide)

end Url

end Tollgate
