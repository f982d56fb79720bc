/-
Objects that are written are read as they were written. Scanning and building are taken apart: what a piece of
a text is scanned to depends on nothing but the piece and that something ends it, and what tokens build
depends on nothing but the tokens. So members that are read one by one are read together.
-/
import Tollgate.Json.Record
import Tollgate.Proofs.Json.Literal

namespace Tollgate.Json

open Token

/-! ## Scanning -/

/-- A character that ends whatever token stands before it. -/
def isDelimiter (c : Char) : Prop := c = ',' ∨ c = ':' ∨ c = ']' ∨ c = '\x7d'

/-- Characters that are scanned as some tokens wherever a token may begin and a delimiter follows. -/
def Lexes (s : List Char) (tokens : List Token) : Prop :=
  ∀ ts c, isDelimiter c → ∀ rest,
    Reader.feed ⟨ts, .between⟩ (s ++ c :: rest) = Reader.feed ⟨tokens.reverse ++ ts, .between⟩ (c :: rest)

theorem lexes_printedText (s : String) : Lexes (printedText s) [.text (some s)] :=
  fun ts _ _ _ => Reader.feed_append_of_feed (feed_printedText ts s) _

theorem step_numeral {c : Char} (h : isDelimiter c) {chars : List Char} {n : Numeral}
    (hn : Numeral.ofChars? chars.reverse = some n) (ts : List Token) :
    Reader.step ⟨ts, .numeral chars⟩ (some c) = Reader.step ⟨.number n :: ts, .between⟩ (some c) := by
  have hc : isNumeric c = false := by
    rcases h with rfl | rfl | rfl | rfl <;> rfl
  simp only [Reader.step, hc, Bool.false_eq_true, if_false, Reader.settle, hn]
  rfl

theorem lexes_number {d : Char} {ds : List Char} {n : Numeral} (hd : d.isDigit = true)
    (hds : ds.all isNumeric = true) (hn : Numeral.ofChars? (d :: ds) = some n) : Lexes (d :: ds) [.number n] := by
  intro ts c hc rest
  rw [Reader.feed_append_of_feed (feed_number ts hd hds), Reader.feed_cons, Reader.feed_cons,
    step_numeral hc (by rw [List.reverse_reverse]; exact hn)]
  rfl

/-- Two pieces with a delimiter between them that is a token by itself. -/
theorem Lexes.append_cons {s t : List Char} {a b : List Token} (hs : Lexes s a) (ht : Lexes t b) {c : Char}
    {token : Token} (hc : isDelimiter c)
    (hstep : ∀ ts, Reader.step ⟨ts, .between⟩ (some c) = some ⟨token :: ts, .between⟩) :
    Lexes (s ++ c :: t) (a ++ token :: b) := by
  intro ts d hd rest
  rw [List.append_assoc, List.cons_append, hs ts c hc, Reader.feed_cons_of_step (hstep _), ht _ d hd]
  simp

theorem lexes_intercalate : ∀ pieces : List (List Char × List Token), (∀ p ∈ pieces, Lexes p.1 p.2) →
    Lexes ([','].intercalate (pieces.map (·.1))) ([.comma].intercalate (pieces.map (·.2)))
  | [], _ => fun _ _ _ _ => rfl
  | [p], h => by
    simpa [List.intercalate] using h p (List.mem_singleton_self p)
  | p :: q :: pieces, h => by
    have hrest := lexes_intercalate (q :: pieces) fun r hr => h r (List.mem_cons_of_mem p hr)
    simp only [List.map_cons, List.intercalate_cons_cons, List.append_assoc, List.singleton_append] at hrest ⊢
    exact (h p List.mem_cons_self).append_cons hrest (.inl rfl) fun _ => rfl

/-! ## Building -/

namespace Tree

/-- Tokens that build a tree wherever a value may stand. -/
def Builds (tokens : List Token) (t : Tree) : Prop :=
  ∀ stack rest, (tokens ++ rest).foldlM Builder.step ⟨stack, .value⟩ =
    rest.foldlM Builder.step ⟨stack, .afterValue t⟩

theorem Builder.foldlM_cons_of_step {b a : Builder} {token : Token} (h : b.step token = some a)
    (rest : List Token) : (token :: rest).foldlM step b = rest.foldlM step a := by
  rw [List.foldlM_cons, h]
  rfl

theorem builds_token {token : Token} {t : Tree} (h : ofToken? token = some t) : Builds [token] t := by
  intro stack rest
  refine Builder.foldlM_cons_of_step ?_ rest
  cases token <;> cases h <;> rfl

/-- The tokens of a member. -/
def memberTokens (name : String) (tokens : List Token) : List Token := .text (some name) :: .colon :: tokens

/-- The tokens of an object. -/
def objectTokens (members : List (String × List Token)) : List Token :=
  .openObject :: [.comma].intercalate (members.map fun m => memberTokens m.1 m.2) ++ [.closeObject]

/-- Members between commas fill up the object that is open. -/
theorem build_members {members : List (String × List Token × Tree)} (hne : members ≠ [])
    (h : ∀ m ∈ members, Builds m.2.1 m.2.2) (before : List (Option String × Tree)) (stack : List Frame)
    (rest : List Token) :
    ([.comma].intercalate (members.map fun m => memberTokens m.1 m.2.1) ++ .closeObject :: rest).foldlM
        Builder.step ⟨.object before :: stack, .name⟩ =
      rest.foldlM Builder.step
        ⟨stack, .afterValue (.object (before.reverse ++ members.map fun m => (some m.1, m.2.2)))⟩ := by
  induction members generalizing before with
  | nil => exact absurd rfl hne
  | cons m members ih =>
    have hm := h m List.mem_cons_self
    -- the member itself: its name, a colon and its value
    have hmember : ∀ more, (memberTokens m.1 m.2.1 ++ more).foldlM Builder.step ⟨.object before :: stack, .name⟩ =
        more.foldlM Builder.step ⟨.member before (some m.1) :: stack, .afterValue m.2.2⟩ := by
      intro more
      unfold memberTokens
      rw [List.cons_append, List.cons_append,
        Builder.foldlM_cons_of_step (a := ⟨.object before :: stack, .colon (some m.1)⟩) rfl,
        Builder.foldlM_cons_of_step (a := ⟨.member before (some m.1) :: stack, .value⟩) rfl]
      exact hm _ _
    cases members with
    | nil =>
      rw [List.map_singleton, List.intercalate_singleton, hmember,
        Builder.foldlM_cons_of_step (a := ⟨stack, .afterValue (.object ((some m.1, m.2.2) :: before).reverse)⟩) rfl]
      rw [List.reverse_cons]; rfl
    | cons n members =>
      have hrest := ih (List.cons_ne_nil n members) (fun k hk => h k (List.mem_cons_of_mem m hk))
        ((some m.1, m.2.2) :: before)
      simp only [List.map_cons, List.intercalate_cons_cons, List.append_assoc, List.cons_append,
        List.nil_append] at hrest ⊢
      rw [hmember, Builder.foldlM_cons_of_step
        (a := ⟨.object ((some m.1, m.2.2) :: before) :: stack, .name⟩) rfl, hrest]
      simp

theorem builds_object (members : List (String × List Token × Tree))
    (h : ∀ m ∈ members, Builds m.2.1 m.2.2) :
    Builds (objectTokens (members.map fun m => (m.1, m.2.1)))
      (.object (members.map fun m => (some m.1, m.2.2))) := by
  intro stack rest
  unfold objectTokens
  rw [List.map_map, List.append_assoc, List.cons_append,
    Builder.foldlM_cons_of_step (a := ⟨.object [] :: stack, .nameOrClose⟩) rfl, List.singleton_append]
  by_cases hne : members = []
  · subst hne
    exact Builder.foldlM_cons_of_step rfl rest
  · have hmembers := build_members hne h [] stack rest
    -- a name that may stand after an opening brace is taken as it is after a comma
    obtain ⟨m, more, rfl⟩ := List.exists_cons_of_ne_nil hne
    rw [List.reverse_nil, List.nil_append] at hmembers
    rw [← hmembers]
    cases more <;>
      simp only [List.map_cons, List.map_nil, List.intercalate_singleton, List.intercalate_cons_cons,
        memberTokens, List.cons_append, List.append_assoc] <;>
      rfl

end Tree

/-! ## Objects -/

/-- Characters that are the written form of a tree: they are scanned as tokens that build it. -/
def Writes (s : List Char) (t : Tree) : Prop := ∃ tokens, Lexes s tokens ∧ Tree.Builds tokens t

theorem writes_printedText (s : String) : Writes (printedText s) (.text (some s)) :=
  ⟨_, lexes_printedText s, Tree.builds_token rfl⟩

theorem writes_number {d : Char} {ds : List Char} {n : Numeral} (hd : d.isDigit = true)
    (hds : ds.all isNumeric = true) (hn : Numeral.ofChars? (d :: ds) = some n) : Writes (d :: ds) (.number n) :=
  ⟨_, lexes_number hd hds hn, Tree.builds_token rfl⟩

theorem lexes_member (name : String) {s : List Char} {tokens : List Token} (h : Lexes s tokens) :
    Lexes (printedText name ++ ':' :: s) (Tree.memberTokens name tokens) :=
  (lexes_printedText name).append_cons h (.inr (.inl rfl)) fun _ => rfl

theorem feed_printedObject (members : List (String × List Char × List Token))
    (h : ∀ m ∈ members, Lexes m.2.1 m.2.2) (ts : List Token) :
    Reader.feed ⟨ts, .between⟩ (printedObject (members.map fun m => (m.1, m.2.1))) =
      some ⟨(Tree.objectTokens (members.map fun m => (m.1, m.2.2))).reverse ++ ts, .between⟩ := by
  have hpieces := lexes_intercalate
    (members.map fun m => (printedText m.1 ++ ':' :: m.2.1, Tree.memberTokens m.1 m.2.2)) (by
      intro p hp
      obtain ⟨m, hm, rfl⟩ := List.mem_map.1 hp
      exact lexes_member m.1 (h m hm))
  rw [List.map_map, List.map_map] at hpieces
  unfold printedObject Tree.objectTokens
  rw [List.map_map, List.map_map, List.cons_append,
    Reader.feed_cons_of_step (q := ⟨.openObject :: ts, .between⟩) rfl]
  refine (hpieces _ '\x7d' (.inr (.inr (.inr rfl))) []).trans ?_
  rw [Reader.feed_cons_of_step rfl, Reader.feed_nil]
  simp [Function.comp_def]

/-- Characters that are the written form of a tree and need nothing to end them. -/
def Stands (s : List Char) (t : Tree) : Prop := ∃ tokens,
  (∀ ts, Reader.feed ⟨ts, .between⟩ s = some ⟨tokens.reverse ++ ts, .between⟩) ∧ Tree.Builds tokens t

theorem Stands.writes {s : List Char} {t : Tree} (h : Stands s t) : Writes s t := by
  obtain ⟨tokens, hfeed, hbuilds⟩ := h
  exact ⟨tokens, fun ts _ _ _ => Reader.feed_append_of_feed (hfeed ts) _, hbuilds⟩

theorem Stands.ofText? {s : List Char} {t : Tree} (h : Stands s t) : Tree.ofText? (String.ofList s) = some t := by
  obtain ⟨tokens, hfeed, hbuilds⟩ := h
  have hscan : Token.scan (s.map some) = some tokens := by
    unfold Token.scan
    rw [show (s.map some).foldlM Reader.step _ = _ from hfeed [], List.append_nil]
    exact congrArg some tokens.reverse_reverse
  have hbuild := hbuilds [] []
  rw [List.append_nil] at hbuild
  unfold Tree.ofText? Tree.ofGlyphs? Tree.ofTokens?
  rw [String.toList_ofList, hscan, Option.bind_eq_bind, Option.bind_some, hbuild]
  rfl

theorem stands_printedText (s : String) : Stands (printedText s) (.text (some s)) :=
  ⟨[.text (some s)], fun ts => feed_printedText ts s, Tree.builds_token rfl⟩

theorem stands_printedObject (members : List (String × List Char × Tree)) (h : ∀ m ∈ members, Writes m.2.1 m.2.2) :
    Stands (printedObject (members.map fun m => (m.1, m.2.1))) (.object (members.map fun m => (some m.1, m.2.2))) := by
  choose! tokens hlexes hbuilds using h
  have hfeed := feed_printedObject (members.map fun m => (m.1, m.2.1, tokens m)) (by
    intro p hp
    obtain ⟨m, hm, rfl⟩ := List.mem_map.1 hp
    exact hlexes m hm)
  have hbuild := Tree.builds_object (members.map fun m => (m.1, tokens m, m.2.2)) (by
    intro p hp
    obtain ⟨m, hm, rfl⟩ := List.mem_map.1 hp
    exact hbuilds m hm)
  rw [List.map_map, List.map_map] at hfeed hbuild
  exact ⟨_, hfeed, hbuild⟩

theorem ofText?_printedText (s : String) : Tree.ofText? (String.ofList (printedText s)) = some (.text (some s)) :=
  (stands_printedText s).ofText?

/-- A written object is read as the object of its members. -/
theorem ofText?_printedObject (members : List (String × List Char × Tree))
    (h : ∀ m ∈ members, Writes m.2.1 m.2.2) :
    Tree.ofText? (String.ofList (printedObject (members.map fun m => (m.1, m.2.1)))) =
      some (.object (members.map fun m => (some m.1, m.2.2))) := (stands_printedObject members h).ofText?

theorem ofText?_number {d : Char} {ds : List Char} {n : Numeral} (hd : d.isDigit = true)
    (hds : ds.all isNumeric = true) (hn : Numeral.ofChars? (d :: ds) = some n) :
    Tree.ofText? (String.ofList (d :: ds)) = some (.number n) := by
  have hscan : Token.scan ((d :: ds).map some) = some [.number n] := by
    unfold Token.scan
    rw [show ((d :: ds).map some).foldlM Reader.step _ = _ from feed_number [] hd hds]
    simp only [Option.bind_eq_bind, Option.bind_some, Reader.settle, List.reverse_reverse, hn, Option.map_some]
    rfl
  unfold Tree.ofText? Tree.ofGlyphs?
  rw [String.toList_ofList, hscan]
  rfl

/-! ## Records -/

theorem membersNamed_cons (name : String) (m : Option String × Tree) (members : List (Option String × Tree)) :
    membersNamed name (m :: members) =
      (if m.1 = some name then [m.2] else []) ++ membersNamed name members := by
  unfold membersNamed
  split <;> simp [*]

theorem membersNamed_zip_of_notMem {name : String} {names : List String} (h : name ∉ names)
    (trees : List Tree) : membersNamed name ((names.zip trees).map fun m => (some m.1, m.2)) = [] := by
  refine List.filterMap_eq_nil_iff.2 fun m hm => if_neg fun heq => h ?_
  obtain ⟨p, hp, rfl⟩ := List.mem_map.1 hm
  exact Option.some.inj heq ▸ (List.of_mem_zip hp).1

/-- In a record whose names differ, the members of a name are its one field. -/
theorem membersNamed_zip {names : List String} (hn : names.Nodup) {trees : List Tree} {name : String} {t : Tree}
    (h : (name, t) ∈ names.zip trees) :
    membersNamed name ((names.zip trees).map fun m => (some m.1, m.2)) = [t] := by
  induction names generalizing trees with
  | nil => cases h
  | cons n names ih =>
    cases trees with
    | nil => cases h
    | cons u trees =>
      obtain ⟨hnot, hn⟩ := List.nodup_cons.1 hn
      rw [List.zip_cons_cons, List.mem_cons] at h
      rw [List.zip_cons_cons, List.map_cons, membersNamed_cons]
      rcases h with heq | htail
      · cases heq
        rw [if_pos rfl, membersNamed_zip_of_notMem hnot, List.append_nil]
      · have hne : n ≠ name := fun heq => hnot (heq ▸ (List.of_mem_zip htail).1)
        rw [if_neg (fun heq => hne (Option.some.inj heq)), ih hn htail, List.nil_append]

theorem mapM_eq_some_of_zip {α β : Type} {f : α → Option β} {as : List α} {bs : List β}
    (hlen : as.length = bs.length) (h : ∀ a b, (a, b) ∈ as.zip bs → f a = some b) : as.mapM f = some bs := by
  induction as generalizing bs with
  | nil => rw [List.length_eq_zero_iff.1 hlen.symm, List.mapM_nil]; rfl
  | cons a as ih =>
    obtain ⟨b, bs, rfl⟩ := List.exists_cons_of_length_eq_add_one hlen.symm
    rw [List.mapM_cons, h a b List.mem_cons_self,
      ih (Nat.succ.inj hlen) fun a b hab => h a b (List.mem_cons_of_mem _ hab)]
    rfl

/-- A record that is written with all its fields is read field by field. -/
theorem fields?_zip {names : List String} (hn : names.Nodup) {trees : List Tree}
    (hlen : names.length = trees.length) :
    (Tree.object ((names.zip trees).map fun m => (some m.1, m.2))).fields? names = some trees := by
  have hone : ∀ {name t}, (name, t) ∈ names.zip trees →
      membersNamed name ((names.zip trees).map fun m => (some m.1, m.2)) = [t] := membersNamed_zip hn
  have hwell : wellNamed names ((names.zip trees).map fun m => (some m.1, m.2)) = true := by
    unfold wellNamed
    rw [Bool.and_eq_true, List.all_eq_true, List.all_eq_true]
    refine ⟨fun m hm => ?_, fun name hname => ?_⟩
    · obtain ⟨p, -, rfl⟩ := List.mem_map.1 hm
      rfl
    · obtain ⟨i, hi, rfl⟩ := List.getElem_of_mem hname
      have hmem := List.getElem_mem (l := names.zip trees) (n := i) (by rw [List.length_zip]; omega)
      rw [List.getElem_zip] at hmem
      rw [hone hmem]
      rfl
  rw [Tree.fields?, if_pos hwell]
  refine mapM_eq_some_of_zip hlen fun name t hmem => ?_
  rw [member?, hone hmem]
  rfl

/-- A record that is written with all its fields is read as these fields. -/
theorem fields?_printedObject {names : List String} (hn : names.Nodup) {fields : List (List Char × Tree)}
    (hlen : names.length = fields.length) (h : ∀ m ∈ fields, Writes m.1 m.2) :
    (Tree.ofText? (String.ofList (printedObject (names.zip (fields.map (·.1)))))).bind (Tree.fields? names) =
      some (fields.map (·.2)) := by
  have hobject := ofText?_printedObject (names.zip fields) fun m hm => h m.2 (List.of_mem_zip hm).2
  have hchars : (names.zip fields).map (fun m => (m.1, m.2.1)) = names.zip (fields.map (·.1)) := by
    rw [List.zip_map_right]; rfl
  have htrees : (names.zip fields).map (fun m => (some m.1, m.2.2)) =
      (names.zip (fields.map (·.2))).map fun m => (some m.1, m.2) := by
    rw [List.zip_map_right, List.map_map]; rfl
  rw [hchars, htrees] at hobject
  rw [hobject, Option.bind_some, fields?_zip hn (by rw [List.length_map]; exact hlen)]

/-- What is made of a record that is written with all its fields is made of these fields. -/
theorem ofText?_printedObject_bind {α : Type} (f : List Tree → Option α) {names : List String} (hn : names.Nodup)
    {fields : List (List Char × Tree)} (hlen : names.length = fields.length) (h : ∀ m ∈ fields, Writes m.1 m.2) :
    ((Tree.ofText? (String.ofList (printedObject (names.zip (fields.map (·.1)))))).bind fun t =>
      (t.fields? names).bind f) = f (fields.map (·.2)) := by
  rw [← Option.bind_assoc, fields?_printedObject hn hlen h, Option.bind_some]

end Tollgate.Json
