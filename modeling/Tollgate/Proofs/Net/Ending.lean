/-
Texts of URLs with another end. The server that a URL names stays the same when slashes at the end of its text are
replaced by a path, as long as a delimiter stands between the two: behind a path of the URL anything will do, and
behind the server alone what begins with a slash.
-/
import Tollgate.Proofs.Net.Url

namespace Tollgate.Url

open Text (Free trimmedRight)

variable {s name slashes authority rest : List Char} {u v : Url}

/-! ## Paths -/

theorem addSegment_true_ne_nil (ss : List (List Char)) (segment : List Char) : addSegment ss segment true ≠ [] := by
  unfold addSegment
  split <;> [simp; split <;> simp]

theorem addSegments_ne_nil {segments : List (List Char)} (h : segments ≠ []) (ss : List (List Char)) :
    addSegments ss segments ≠ [] := by
  induction segments generalizing ss with
  | nil => exact absurd rfl h
  | cons segment more ih =>
    cases more with
    | nil => exact addSegment_true_ne_nil ss segment
    | cons next more => exact ih (List.cons_ne_nil _ _) _

theorem readPath_ne_nil (special : Bool) (s : List Char) : readPath special s ≠ [] :=
  addSegments_ne_nil (Text.splitBy_ne_nil _) []

/-- What is added to a path is empty or percent-encoded. -/
theorem mem_addSegment {ss : List (List Char)} {segment added : List Char} {last : Bool}
    (h : added ∈ addSegment ss segment last) :
    added ∈ ss ∨ added = [] ∨ added = Percent.encode inPath segment := by
  unfold addSegment at h
  split at h
  · rcases List.mem_append.1 h with h | h
    · exact .inl (List.mem_of_mem_dropLast h)
    · cases last <;> simp_all
  split at h
  · rcases List.mem_append.1 h with h | h
    · exact .inl h
    · cases last <;> simp_all
  · rcases List.mem_append.1 h with h | h
    · exact .inl h
    · exact .inr (.inr (List.mem_singleton.1 h))

theorem mem_addSegments {segments ss : List (List Char)} {added : List Char} (h : added ∈ addSegments ss segments) :
    added ∈ ss ∨ added = [] ∨ ∃ segment ∈ segments, added = Percent.encode inPath segment := by
  induction segments generalizing ss with
  | nil => exact .inl h
  | cons segment more ih =>
    have hone {last : Bool} (h : added ∈ addSegment ss segment last) :
        added ∈ ss ∨ added = [] ∨ ∃ s ∈ segment :: more, added = Percent.encode inPath s :=
      (mem_addSegment h).imp_right (Or.imp_right fun he => ⟨segment, List.mem_cons_self, he⟩)
    cases more with
    | nil => exact hone h
    | cons next more =>
      rcases ih h with h | h | ⟨s, hs, he⟩
      · exact hone h
      · exact .inr (.inl h)
      · exact .inr (.inr ⟨s, List.mem_cons_of_mem _ hs, he⟩)

/-- No path has a mark of query or fragment in it. -/
theorem not_mem_pathChars {c : Char} (hc : c = '?' ∨ c = '#') (server : Url) (rest : List Char) :
    c ∉ (server.extended rest).pathChars := by
  have hpath : inPath c = false := by rcases hc with rfl | rfl <;> decide
  have hdigit : ∀ n < 16, c ≠ Percent.digit n := by rcases hc with rfl | rfl <;> decide
  intro hm
  obtain ⟨segment, hs, hm⟩ := List.mem_flatMap.1 hm
  rcases List.mem_cons.1 hm with h | hm
  · rcases hc with rfl | rfl <;> cases h
  rcases mem_addSegments hs with h | rfl | ⟨_, -, rfl⟩
  · cases h
  · cases hm
  · rcases Percent.mem_encode hm with h | h | ⟨n, hn, h⟩
    · rw [hpath] at h; cases h
    · rcases hc with rfl | rfl <;> cases h
    · exact hdigit n hn h

/-- The path of a server begins with a slash, written or not. -/
theorem head?_pathChars (server : Url) (rest : List Char) : (server.extended rest).pathChars.head? = some '/' := by
  obtain ⟨segment, more, h⟩ := List.exists_cons_of_ne_nil (readPath_ne_nil true (cutTail rest).1)
  show ((readPath true (cutTail rest).1).flatMap ('/' :: ·)).head? = _
  rw [h]; rfl

theorem cutTail_of_not_mem (hq : '?' ∉ rest) (hf : '#' ∉ rest) : cutTail rest = (rest, none, none) := by
  unfold cutTail
  rw [Text.cutAt?_eq_none_iff.2 (Text.free_beq_iff.2 hf)]
  simp only [Text.cutAt?_eq_none_iff.2 (Text.free_beq_iff.2 hq)]

/-- Without query and fragment nothing but a path stands behind a server. -/
theorem not_mem_of_no_tail {server : Url} (hq : (server.extended rest).query = none)
    (hf : (server.extended rest).fragment = none) : '?' ∉ rest ∧ '#' ∉ rest := by
  have hq := Option.map_eq_none_iff.1 hq
  have hf := Option.map_eq_none_iff.1 hf
  unfold cutTail at hq hf
  cases h : Text.cutAt? (· == '#') rest with
  | some cut =>
    simp only [h] at hf
    split at hf <;> cases hf
  | none =>
    simp only [h] at hq
    cases h' : Text.cutAt? (· == '?') rest with
    | some cut => simp only [h'] at hq; cases hq
    | none =>
      exact ⟨Text.free_beq_iff.1 (Text.cutAt?_eq_none_iff.1 h'), Text.free_beq_iff.1 (Text.cutAt?_eq_none_iff.1 h)⟩

/-- A URL without query and fragment has no mark of them in its text. -/
theorem not_mem_of_ofChars? (h : ofChars? s = some u) (hw : IsWeb u.scheme) (hq : u.query = none)
    (hf : u.fragment = none) {c : Char} (hc : c = '?' ∨ c = '#') : c ∉ s := by
  obtain ⟨name, slashes, authority, rest, server, hs, -, -, rfl⟩ := exists_spells h hw
  obtain ⟨lead, tail, haround, hlead, htail⟩ := exists_around s
  have hrest := not_mem_of_no_tail hq hf
  have hmark : isKept c = true ∧ isOutside c = false ∧ Url.isSlash true c = false ∧ isDelimiter c = true ∧ c ≠ ':' := by
    rcases hc with rfl | rfl <;> decide
  obtain ⟨hkept, hinside, hnoslash, hdelimiter, hcolon⟩ := hmark
  have hname : c ∉ name := fun hn => by
    rcases hc with rfl | rfl <;> rcases hs.isName.of_mem hn with h | h | h | h <;> revert h <;> decide
  intro hm
  have hm : c ∈ s.filter isKept := List.mem_filter.2 ⟨hm, hkept⟩
  rw [haround, hs.text] at hm
  simp only [List.mem_append, List.mem_cons] at hm
  rcases hm with hm | (hm | hm | hm | hm | hm) | hm
  · rw [hlead c hm] at hinside; cases hinside
  · exact hname hm
  · exact hcolon hm
  · rw [hs.isSlash c hm] at hnoslash; cases hnoslash
  · rw [hs.free c hm] at hdelimiter; cases hdelimiter
  · rcases hc with rfl | rfl
    · exact hrest.1 hm
    · exact hrest.2 hm
  · rw [htail c hm] at hinside; cases hinside

theorem splitBy_of_all {p : Char → Bool} : ∀ {s : List Char}, (∀ c ∈ s, p c = true) →
    ∀ piece ∈ Text.splitBy p s, piece = []
  | [], _, piece, h => List.mem_singleton.1 h
  | c :: s, hall, piece, h => by
    obtain ⟨hc, hs⟩ := List.forall_mem_cons.1 hall
    rw [Text.splitBy, if_pos hc] at h
    rcases List.mem_cons.1 h with h | h
    · exact h
    · exact splitBy_of_all hs piece h

/-- A path is written in slashes only if nothing else stands behind the server. -/
theorem pathChars_of_slashes {server : Url} (hrest : ∀ c ∈ rest, c = '/') :
    ∀ c ∈ (server.extended rest).pathChars, c = '/' := by
  have hmark {c : Char} (hne : c ≠ '/') : c ∉ rest := fun hc => hne (hrest c hc)
  have hall : ∀ c ∈ rest, isSlash true c = true := fun c hc => by rw [hrest c hc]; rfl
  have hempty : ∀ segment ∈ readPath true rest, segment = [] := by
    intro segment hs
    rcases mem_addSegments hs with h | h | ⟨piece, hp, rfl⟩
    · cases h
    · exact h
    · have : piece = [] := by
        refine splitBy_of_all ?_ piece hp
        cases rest with
        | nil => exact hall
        | cons c rest =>
          simp only [hall c List.mem_cons_self, if_true]
          exact fun d hd => hall d (List.mem_cons_of_mem _ hd)
      rw [this]; rfl
  intro c hc
  have hpath : (server.extended rest).pathChars = (readPath true rest).flatMap ('/' :: ·) := by
    show (readPath true (cutTail rest).1).flatMap _ = _
    rw [cutTail_of_not_mem (hmark (by decide)) (hmark (by decide))]
  rw [hpath] at hc
  obtain ⟨segment, hs, hc⟩ := List.mem_flatMap.1 hc
  rw [hempty segment hs] at hc
  exact List.mem_singleton.1 hc

/-! ## Texts with another end -/

/-- Two URLs name the same server, and the same user of it. -/
structure SameServer (u v : Url) : Prop where
  scheme : u.scheme = v.scheme
  username : u.username = v.username
  password : u.password = v.password
  host : u.host = v.host
  portNumber : u.portNumber = v.portNumber

theorem sameServer_extended (server : Url) (rest rest' : List Char) :
    (server.extended rest).SameServer (server.extended rest') := ⟨rfl, rfl, rfl, rfl, rfl⟩

theorem isOutside_of_isDelimiter {c : Char} (h : isDelimiter c = true) : isOutside c = false := by
  unfold isDelimiter Url.isSlash at h
  simp only [Bool.true_and, Bool.or_eq_true, beq_iff_eq] at h
  rcases h with ((rfl | rfl) | rfl) | rfl <;> decide

theorem isDelimiter_of_isOutside {c : Char} (h : isOutside c = true) : isDelimiter c = false := by
  rw [Bool.eq_false_iff]
  intro hd
  rw [isOutside_of_isDelimiter hd] at h; cases h

variable {base run more middle : List Char}

/-- The parts of a text up to the first delimiter stay where they are when slashes at its end are taken away. What is
left behind them is what stood there, or blanks that stood there. -/
theorem Spells.exists_middle (h : Spells (base ++ run) name slashes authority rest) (hrun : ∀ c ∈ run, c = '/') :
    ∃ lead middle tail, base.filter isKept = lead ++ (name ++ ':' :: (slashes ++ (authority ++ middle))) ∧
      rest ++ tail = middle ++ run ∧ (∀ c ∈ lead, isOutside c = true) ∧ ∀ c ∈ tail, isOutside c = true := by
  obtain ⟨lead, tail, haround, hlead, htail⟩ := exists_around (base ++ run)
  have hkept : run.filter isKept = run := List.filter_eq_self.2 fun c hc => by rw [hrun c hc]; rfl
  rw [List.filter_append, hkept, h.text] at haround
  have hlast : ∀ c ∈ (lead ++ name ++ ':' :: slashes ++ authority).getLast?, (c == '/') = false := by
    intro c hc
    rw [List.getLast?_append_of_ne_nil _ h.ne_nil] at hc
    have := not_isSlash_of_not_isDelimiter (h.free c (List.mem_of_getLast? hc))
    unfold Url.isSlash at this
    exact (Bool.or_eq_false_iff.1 this).1
  obtain ⟨middle, hbase, hrest⟩ := Text.exists_of_append_run (p := (· == '/')) (y := rest ++ tail)
    (by rw [haround]; simp) (fun c hc => by rw [hrun c hc]; rfl) hlast
  exact ⟨lead, middle, tail, by rw [hbase]; simp, hrest, hlead, htail⟩

theorem cleaned_append {lead behind : List Char} (hbase : base.filter isKept = lead ++ (name ++ ':' :: behind))
    (hlead : ∀ c ∈ lead, isOutside c = true) (hname : IsName name) (more : List Char) :
    cleaned (base ++ more) = name ++ ':' :: trimmedRight isOutside (behind ++ more.filter isKept) := by
  obtain ⟨c, letters, rfl, hc⟩ := hname.exists_letter
  have hcolon := Text.trimmedRight_append_cons (p := isOutside) (c := ':') (by decide) (c :: letters)
  rw [cleaned_eq, List.filter_append, hbase]
  simp only [List.append_assoc, List.cons_append] at hcolon ⊢
  rw [Text.trimmedLeft_append_cons hlead hc, hcolon]

/-- Where a delimiter follows, the parts before it are read. -/
theorem Spells.of_delimiter (h : Spells s name slashes authority rest) {s' authority' : List Char} {d : Char}
    (hs : cleaned s' = name ++ ':' :: trimmedRight isOutside (slashes ++ (authority' ++ d :: more)))
    (hd : isDelimiter d = true) (hne : authority' ≠ []) (hfree : Free isDelimiter authority') :
    Spells s' name slashes authority' (d :: trimmedRight isOutside more) where
  text := by
    rw [hs, ← List.append_assoc, Text.trimmedRight_append_cons (isOutside_of_isDelimiter hd), List.append_assoc]
  isName := h.isName
  isSlash := h.isSlash
  ne_nil := hne
  free := hfree
  ends := by
    intro c hc
    cases hc; exact hd

/-- What can be left between a server and slashes behind it: a path, or nothing but blanks and no path either. -/
theorem middle_cases {tail : List Char} (hends : ∀ c ∈ rest.head?, isDelimiter c = true)
    (hrest : rest ++ tail = middle ++ run) (hrun : ∀ c ∈ run, c = '/') (htail : ∀ c ∈ tail, isOutside c = true) :
    (∃ d more, middle = d :: more ∧ isDelimiter d = true) ∨
      (∀ c ∈ rest, c = '/') ∧ ∀ c ∈ middle, isOutside c = true := by
  cases middle with
  | nil =>
    right
    refine ⟨fun c hc => hrun c ?_, nofun⟩
    rw [← List.nil_append run, ← hrest]
    exact List.mem_append_left _ hc
  | cons d more =>
    cases rest with
    | nil =>
      right
      refine ⟨nofun, fun c hc => htail c ?_⟩
      rw [← List.nil_append tail, hrest]
      exact List.mem_append_left _ hc
    | cons e rest =>
      left
      refine ⟨d, more, rfl, ?_⟩
      rw [← (List.cons.inj hrest).1]
      exact hends e rfl

theorem exists_extended (hu : ofChars? (base ++ run) = some u) (hw : IsWeb u.scheme) (hrun : ∀ c ∈ run, c = '/')
    (hv : ofChars? (base ++ more) = some v) : ∃ (server : Url) (rest : List Char), v = server.extended rest := by
  obtain ⟨name, slashes, authority, rest, server, h, hname, -, -⟩ := exists_spells hu hw
  obtain ⟨lead, middle, tail, hbase, -, hlead, -⟩ := h.exists_middle hrun
  have hs := scheme?_eq_some_iff.2 ⟨name, cleaned_append hbase hlead h.isName more, h.isName, rfl⟩
  rw [ofChars?_of_scheme? hs (hname ▸ hw), readAuthority_eq (hname ▸ hw).isSpecial, Option.map_eq_some_iff] at hv
  obtain ⟨server, -, rfl⟩ := hv
  exact ⟨server, _, rfl⟩

/-- Another end in the place of slashes leaves the server as it is, if it begins with a slash where there is no
path before it. -/
theorem sameServer_of_append (hu : ofChars? (base ++ run) = some u) (hw : IsWeb u.scheme) (hrun : ∀ c ∈ run, c = '/')
    (hv : ofChars? (base ++ more) = some v)
    (hmore : (∀ c ∈ u.pathChars, c = '/') → more.head? = some '/') : v.SameServer u := by
  obtain ⟨name, slashes, authority, rest, server, h, hname, hserver, rfl⟩ := exists_spells hu hw
  obtain ⟨lead, middle, tail, hbase, hrest, hlead, htail⟩ := h.exists_middle hrun
  have hclean := cleaned_append hbase hlead h.isName more
  rw [← hname] at hw hserver
  rcases middle_cases h.ends hrest hrun htail with ⟨d, path, rfl, hd⟩ | ⟨hslashes, hblank⟩
  · have hspells : Spells (base ++ more) name slashes authority
        (d :: trimmedRight isOutside (path ++ more.filter isKept)) :=
      h.of_delimiter (by rw [hclean]; simp) hd h.ne_nil h.free
    rw [hspells.read hw, hserver] at hv
    cases hv
    exact sameServer_extended server _ _
  · obtain ⟨path, rfl⟩ : ∃ path, more = '/' :: path := by
      have := hmore (pathChars_of_slashes hslashes)
      cases more with
      | nil => cases this
      | cons c path => cases this; exact ⟨path, rfl⟩
    have hfree : Free isDelimiter (authority ++ middle) := fun c hc =>
      (List.mem_append.1 hc).elim (h.free c) fun hm => isDelimiter_of_isOutside (hblank c hm)
    have hspells : Spells (base ++ '/' :: path) name slashes (authority ++ middle)
        ('/' :: trimmedRight isOutside (path.filter isKept)) :=
      h.of_delimiter (by rw [hclean]; simp [isKept]) rfl (by simp [h.ne_nil]) hfree
    rw [hspells.read hw] at hv
    rcases middle.eq_nil_or_concat' with rfl | ⟨front, c, rfl⟩
    · rw [List.append_nil, hserver] at hv
      cases hv
      exact sameServer_extended server _ _
    · -- blanks behind a host or number are no part of a server
      rw [← List.append_assoc, server?_concat_of_isOutside (hblank c (by simp))] at hv
      cases hv

end Tollgate.Url
