/-
Values that are written are read back. Words and whole numbers of 64 bits are scanned as what they are, and arrays and
objects of what can be read can be read themselves, as deep as nesting may go.
-/
import Tollgate.Proofs.Json.Reading

namespace Tollgate.Json

open Token

instance : Inhabited Tree := ⟨.null⟩

/-! ## Values that can be read back -/

/-- Values whose numbers are whole and fit 64 bits, with or without a sign, whose objects have their names in
ascending order, and which are nested at most this deep. -/
inductive Value.Plain : Nat → Value → Prop where
  | null (depth : Nat) : Plain depth .null
  | bool (depth : Nat) (b : Bool) : Plain depth (.bool b)
  | natural (depth : Nat) {n : Nat} (h : n < 2 ^ 64) : Plain depth (.number (.natural n))
  | negative (depth : Nat) {n : Int} (hlow : -2 ^ 63 ≤ n) (hneg : n < 0) : Plain depth (.number (.negative n))
  | text (depth : Nat) (s : String) : Plain depth (.text s)
  | array {depth : Nat} {items : List Value} (h : ∀ v ∈ items, Plain depth v) : Plain (depth + 1) (.array items)
  | object {depth : Nat} {members : List (String × Value)} (hnames : members.Pairwise (·.1 < ·.1))
      (h : ∀ m ∈ members, Plain depth m.2) : Plain (depth + 1) (.object members)

theorem itemChars_eq_map (items : List Value) : itemChars items = items.map Value.chars := by
  induction items with
  | nil => rfl
  | cons v items ih => rw [itemChars, ih, List.map_cons]

theorem memberChars_eq_map (members : List (String × Value)) :
    memberChars members = members.map fun m => (m.1, m.2.chars) := by
  induction members with
  | nil => rfl
  | cons m members ih => rw [memberChars, ih, List.map_cons]

/-! ## Words -/

theorem feed_letters (ts : List Token) {s : List Char} (h : s.all Char.isLower = true) : ∀ before : List Char,
    Reader.feed ⟨ts, .word before⟩ s = some ⟨ts, .word (s.reverse ++ before)⟩ := by
  induction s with
  | nil => exact fun before => rfl
  | cons c s ih =>
    intro before
    rw [List.all_cons, Bool.and_eq_true] at h
    rw [Reader.feed_cons_of_step (q := ⟨ts, .word (c :: before)⟩), ih h.2]
    · rw [List.reverse_cons, List.append_assoc]; rfl
    · simp only [Reader.step, h.1, if_true]

theorem step_word {c : Char} (h : isDelimiter c) {letters : List Char} {token : Token}
    (hw : ofWord? letters.reverse = some token) (ts : List Token) :
    Reader.step ⟨ts, .word letters⟩ (some c) = Reader.step ⟨token :: ts, .between⟩ (some c) := by
  have hc : c.isLower = false := by
    rcases h with rfl | rfl | rfl | rfl <;> rfl
  simp only [Reader.step, hc, Bool.false_eq_true, if_false, Reader.settle, hw]
  rfl

theorem lexes_word {d : Char} {ds : List Char} {token : Token}
    (hd : ∀ ts, Reader.step ⟨ts, .between⟩ (some d) = some ⟨ts, .word [d]⟩) (hds : ds.all Char.isLower = true)
    (hw : ofWord? (d :: ds) = some token) : Lexes (d :: ds) [token] := by
  intro ts c hc rest
  have hfeed : Reader.feed ⟨ts, .between⟩ (d :: ds) = some ⟨ts, .word (d :: ds).reverse⟩ := by
    rw [Reader.feed_cons_of_step (hd ts), feed_letters ts hds, List.reverse_cons]
  rw [Reader.feed_append_of_feed hfeed, Reader.feed_cons, Reader.feed_cons,
    step_word hc (by rw [List.reverse_reverse]; exact hw)]
  rfl

theorem writes_null : Writes Value.null.chars .null :=
  ⟨_, lexes_word (fun _ => rfl) rfl rfl, Tree.builds_token rfl⟩

theorem writes_bool (b : Bool) : Writes (Value.bool b).chars (.bool b) := by
  cases b with
  | true => exact ⟨_, lexes_word (fun _ => rfl) rfl rfl, Tree.builds_token rfl⟩
  | false => exact ⟨_, lexes_word (fun _ => rfl) rfl rfl, Tree.builds_token rfl⟩

/-! ## Whole numbers -/

theorem Numeral.ofChars?_toDigits (n : Nat) :
    ofChars? (Nat.toDigits 10 n) = some ⟨false, Nat.toDigits 10 n, [], none⟩ := by
  have hall : [].all Char.isDigit = true := rfl
  have h := ofChars?_digits Nat.toDigits_ne_nil (Text.all_isDigit_toDigits n) hall (Text.toDigits_front n)
  rwa [if_pos rfl, List.append_nil] at h

theorem Numeral.ofChars?_hyphen (n : Nat) :
    ofChars? ('-' :: Nat.toDigits 10 n) = some ⟨true, Nat.toDigits 10 n, [], none⟩ := by
  have hspan := spanDigits_append (r := []) (Text.all_isDigit_toDigits n) nofun
  rw [List.append_nil] at hspan
  have hne : Nat.toDigits 10 n ≠ [] := Nat.toDigits_ne_nil
  have hfront := Text.toDigits_front n
  simp [ofChars?, hspan, hne, hfront, guard]

theorem lexes_hyphen {ds : List Char} {n : Numeral} (hds : ds.all isNumeric = true)
    (hn : Numeral.ofChars? ('-' :: ds) = some n) : Lexes ('-' :: ds) [.number n] := by
  intro ts c hc rest
  have hfeed : Reader.feed ⟨ts, .between⟩ ('-' :: ds) = some ⟨ts, .numeral ('-' :: ds).reverse⟩ := by
    rw [Reader.feed_cons_of_step (q := ⟨ts, .numeral ['-']⟩) rfl, feed_numeric ts hds, List.reverse_cons]
  rw [Reader.feed_append_of_feed hfeed, Reader.feed_cons, Reader.feed_cons,
    step_numeral hc (by rw [List.reverse_reverse]; exact hn)]
  rfl

theorem all_isNumeric_toDigits (n : Nat) : (Nat.toDigits 10 n).all isNumeric = true := by
  rw [List.all_eq_true]
  exact fun c hc => isNumeric_of_isDigit (List.all_eq_true.1 (Text.all_isDigit_toDigits n) c hc)

theorem writes_natural (n : Nat) :
    Writes (Nat.toDigits 10 n) (.number ⟨false, Nat.toDigits 10 n, [], none⟩) := by
  obtain ⟨d, ds, hdigits⟩ := List.exists_cons_of_ne_nil (Nat.toDigits_ne_nil (b := 10) (n := n))
  have hd : d.isDigit = true :=
    List.all_eq_true.1 (Text.all_isDigit_toDigits n) d (hdigits ▸ List.mem_cons_self)
  have hds := all_isNumeric_toDigits n
  have hn := Numeral.ofChars?_toDigits n
  rw [hdigits, List.all_cons, Bool.and_eq_true] at hds
  rw [hdigits] at hn ⊢
  exact writes_number hd hds.2 hn

theorem writes_negative (n : Nat) :
    Writes ('-' :: Nat.toDigits 10 n) (.number ⟨true, Nat.toDigits 10 n, [], none⟩) :=
  ⟨_, lexes_hyphen (all_isNumeric_toDigits n) (Numeral.ofChars?_hyphen n),
    Tree.builds_token rfl⟩

theorem Number.ofNumeral?_natural {n : Nat} (h : n < 2 ^ 64) :
    ofNumeral? ⟨false, Nat.toDigits 10 n, [], none⟩ = some (.natural n) := by
  simp only [ofNumeral?, Nat.ofDigitChars_ten_toDigits, h]
  rfl

theorem Number.ofNumeral?_negative {n : Int} (hlow : -2 ^ 63 ≤ n) (hneg : n < 0) :
    ofNumeral? ⟨true, Nat.toDigits 10 n.natAbs, [], none⟩ = some (.negative n) := by
  have hsize : n.natAbs < 2 ^ 64 := by omega
  have hkept : ¬ (n.natAbs = 0 ∨ 2 ^ 63 < n.natAbs) := by omega
  have habs : -(n.natAbs : Int) = n := by omega
  simp only [ofNumeral?, Nat.ofDigitChars_ten_toDigits, hsize, hkept, habs]
  rfl

/-! ## Arrays -/

/-- The tokens of an array. -/
def Tree.arrayTokens (items : List (List Token)) : List Token :=
  .openArray :: [.comma].intercalate items ++ [.closeArray]

theorem feed_array (items : List (List Char × List Token)) (h : ∀ p ∈ items, Lexes p.1 p.2) (ts : List Token) :
    Reader.feed ⟨ts, .between⟩ ('[' :: [','].intercalate (items.map (·.1)) ++ [']']) =
      some ⟨(Tree.arrayTokens (items.map (·.2))).reverse ++ ts, .between⟩ := by
  have hitems := lexes_intercalate items h
  unfold Tree.arrayTokens
  rw [List.cons_append, Reader.feed_cons_of_step (q := ⟨.openArray :: ts, .between⟩) rfl]
  refine (hitems _ ']' (.inr (.inr (.inl rfl))) []).trans ?_
  rw [Reader.feed_cons_of_step rfl, Reader.feed_nil]
  simp

/-- Items between commas fill up the array that is open. -/
theorem Tree.build_items {items : List (List Token × Tree)} (hne : items ≠ []) (h : ∀ p ∈ items, Builds p.1 p.2)
    (before : List Tree) (stack : List Frame) (rest : List Token) :
    ([.comma].intercalate (items.map (·.1)) ++ .closeArray :: rest).foldlM Builder.step
        ⟨.array before :: stack, .value⟩ =
      rest.foldlM Builder.step ⟨stack, .afterValue (.array (before.reverse ++ items.map (·.2)))⟩ := by
  induction items generalizing before with
  | nil => exact absurd rfl hne
  | cons p items ih =>
    have hitem := h p List.mem_cons_self
    cases items with
    | nil =>
      rw [List.map_singleton, List.intercalate_singleton, hitem,
        Builder.foldlM_cons_of_step (a := ⟨stack, .afterValue (.array (p.2 :: before).reverse)⟩) rfl]
      rw [List.reverse_cons]; rfl
    | cons q items =>
      have hrest := ih (List.cons_ne_nil q items) (fun k hk => h k (List.mem_cons_of_mem p hk)) (p.2 :: before)
      simp only [List.map_cons, List.intercalate_cons_cons, List.append_assoc, List.cons_append,
        List.nil_append] at hrest ⊢
      rw [hitem, Builder.foldlM_cons_of_step (a := ⟨.array (p.2 :: before) :: stack, .value⟩) rfl, hrest]
      simp

/-- What builds a tree begins with a token, and not with a closing bracket. -/
theorem Tree.Builds.exists_cons {tokens : List Token} {t : Tree} (h : Builds tokens t) :
    ∃ token more, tokens = token :: more ∧ token ≠ .closeArray := by
  have hrun := h [] []
  cases tokens with
  | nil => cases hrun
  | cons token more =>
    refine ⟨token, more, rfl, ?_⟩
    rintro rfl
    cases hrun

theorem Tree.Builder.step_valueOrClose {token : Token} (h : token ≠ .closeArray) (stack : List Frame) :
    step ⟨.array [] :: stack, .valueOrClose⟩ token = step ⟨.array [] :: stack, .value⟩ token := by
  cases token with
  | closeArray => exact absurd rfl h
  | _ => rfl

theorem Tree.exists_cons_of_items {items : List (List Token × Tree)} (hne : items ≠ [])
    (h : ∀ p ∈ items, Builds p.1 p.2) :
    ∃ token more, [.comma].intercalate (items.map (·.1)) = token :: more ∧ token ≠ .closeArray := by
  obtain ⟨p, items, rfl⟩ := List.exists_cons_of_ne_nil hne
  obtain ⟨token, more, hfirst, hopens⟩ := (h p List.mem_cons_self).exists_cons
  rw [List.map_cons, hfirst]
  cases items with
  | nil => exact ⟨token, more, List.intercalate_singleton, hopens⟩
  | cons q items => exact ⟨token, _, List.intercalate_cons_cons, hopens⟩

theorem Tree.builds_array (items : List (List Token × Tree)) (h : ∀ p ∈ items, Builds p.1 p.2) :
    Builds (arrayTokens (items.map (·.1))) (.array (items.map (·.2))) := by
  intro stack rest
  unfold arrayTokens
  rw [List.append_assoc, List.cons_append,
    Builder.foldlM_cons_of_step (a := ⟨.array [] :: stack, .valueOrClose⟩) rfl, List.singleton_append]
  by_cases hne : items = []
  · subst hne
    exact Builder.foldlM_cons_of_step rfl rest
  · have hitems := build_items hne h [] stack rest
    -- the first item stands where the array might have been closed
    obtain ⟨token, more, hfirst, hopens⟩ := exists_cons_of_items hne h
    rw [hfirst, List.cons_append, List.foldlM_cons] at hitems ⊢
    rw [Builder.step_valueOrClose hopens, hitems]
    rfl

theorem stands_bracketed (items : List (List Char × Tree)) (h : ∀ p ∈ items, Writes p.1 p.2) :
    Stands ('[' :: [','].intercalate (items.map (·.1)) ++ [']']) (.array (items.map (·.2))) := by
  choose! tokens hlexes hbuilds using h
  have hfeed := feed_array (items.map fun p => (p.1, tokens p)) (by
    intro q hq
    obtain ⟨p, hp, rfl⟩ := List.mem_map.1 hq
    exact hlexes p hp)
  have hbuild := Tree.builds_array (items.map fun p => (tokens p, p.2)) (by
    intro q hq
    obtain ⟨p, hp, rfl⟩ := List.mem_map.1 hq
    exact hbuilds p hp)
  rw [List.map_map, List.map_map] at hfeed hbuild
  exact ⟨_, hfeed, hbuild⟩

/-! ## Members in ascending order -/

theorem insertMember_of_lt {α : Type} {name : String} {sorted : List (String × α)} (h : ∀ m ∈ sorted, m.1 < name)
    (v : α) : insertMember name v sorted = sorted ++ [(name, v)] := by
  induction sorted with
  | nil => rfl
  | cons m sorted ih =>
    have hm := h m List.mem_cons_self
    rw [insertMember, if_neg hm.ne, if_neg hm.not_gt, ih fun k hk => h k (List.mem_cons_of_mem m hk)]
    rfl

/-- Members that are in ascending order already stay as they are. -/
theorem sortMembers_of_ascending {α : Type} {members : List (String × α)} (h : members.Pairwise (·.1 < ·.1)) :
    sortMembers members = members := by
  unfold sortMembers
  induction members using List.reverseRecOn with
  | nil => rfl
  | append_singleton members m ih =>
    obtain ⟨hinit, -, hlast⟩ := List.pairwise_append.1 h
    rw [List.foldl_concat, ih hinit]
    exact insertMember_of_lt (fun k hk => hlast k hk m (List.mem_singleton_self m)) m.2

/-! ## Values -/

theorem itemValues?_map {items : List Value} {tree : Value → Tree} {depth : Nat}
    (h : ∀ v ∈ items, (tree v).value? depth = some v) : itemValues? depth (items.map tree) = some items := by
  induction items with
  | nil => rfl
  | cons v items ih =>
    rw [List.map_cons, itemValues?, h v List.mem_cons_self, ih fun k hk => h k (List.mem_cons_of_mem v hk)]
    rfl

theorem memberValues?_map {members : List (String × Value)} {tree : String × Value → Tree} {depth : Nat}
    (h : ∀ m ∈ members, (tree m).value? depth = some m.2) :
    memberValues? depth (members.map fun m => (some m.1, tree m)) = some members := by
  induction members with
  | nil => rfl
  | cons m members ih =>
    rw [List.map_cons, memberValues?, h m List.mem_cons_self, ih fun k hk => h k (List.mem_cons_of_mem m hk)]
    rfl

/-- Items that can be read back make an array that can. -/
theorem Value.stands_array {items : List Value} {depth : Nat}
    (h : ∀ v ∈ items, ∃ t : Tree, Writes v.chars t ∧ t.value? depth = some v) :
    ∃ tree : Value → Tree, (∀ v ∈ items, (tree v).value? depth = some v) ∧
      Stands (array items).chars (.array (items.map tree)) := by
  choose! tree hwrites hvalue using h
  have hwhole := stands_bracketed (items.map fun v => (v.chars, tree v)) (by
    intro p hp
    obtain ⟨v, hv, rfl⟩ := List.mem_map.1 hp
    exact hwrites v hv)
  rw [List.map_map, List.map_map] at hwhole
  refine ⟨tree, hvalue, ?_⟩
  rw [chars, itemChars_eq_map]
  exact hwhole

/-- Members that can be read back make an object that can. -/
theorem Value.stands_object {members : List (String × Value)} {depth : Nat}
    (h : ∀ m ∈ members, ∃ t : Tree, Writes m.2.chars t ∧ t.value? depth = some m.2) :
    ∃ tree : String × Value → Tree, (∀ m ∈ members, (tree m).value? depth = some m.2) ∧
      Stands (object members).chars (.object (members.map fun m => (some m.1, tree m))) := by
  choose! tree hwrites hvalue using h
  have hwhole := stands_printedObject (members.map fun m => (m.1, m.2.chars, tree m)) (by
    intro p hp
    obtain ⟨m, hm, rfl⟩ := List.mem_map.1 hp
    exact hwrites m hm)
  rw [List.map_map, List.map_map] at hwhole
  refine ⟨tree, hvalue, ?_⟩
  rw [chars, memberChars_eq_map]
  exact hwhole

/-- What a value is written as is read as that value. -/
theorem Value.Plain.exists_tree {depth : Nat} {v : Value} (h : v.Plain depth) :
    ∃ t : Tree, Writes v.chars t ∧ t.value? depth = some v := by
  induction h with
  | null depth => exact ⟨.null, writes_null, rfl⟩
  | bool depth b => exact ⟨.bool b, writes_bool b, rfl⟩
  | @natural depth n h =>
    refine ⟨_, writes_natural n, ?_⟩
    rw [Tree.value?, Number.ofNumeral?_natural h]
    rfl
  | @negative depth n hlow hneg =>
    refine ⟨_, writes_negative n.natAbs, ?_⟩
    rw [Tree.value?, Number.ofNumeral?_negative hlow hneg]
    rfl
  | text depth s => exact ⟨.text (some s), writes_printedText s, rfl⟩
  | @array depth items h ih =>
    obtain ⟨tree, hvalue, hstands⟩ := stands_array ih
    refine ⟨_, hstands.writes, ?_⟩
    rw [Tree.value?, if_neg (Nat.succ_ne_zero depth), Nat.add_sub_cancel, itemValues?_map hvalue]
    rfl
  | @object depth members hnames h ih =>
    obtain ⟨tree, hvalue, hstands⟩ := stands_object ih
    refine ⟨_, hstands.writes, ?_⟩
    rw [Tree.value?, if_neg (Nat.succ_ne_zero depth), Nat.add_sub_cancel, memberValues?_map hvalue, Option.map_some,
      sortMembers_of_ascending hnames]

/-! ## Values that are read -/

theorem Tree.text_of_value? {t : Tree} {depth : Nat} {s : String} (h : t.value? depth = some (.text s)) :
    t = .text (some s) := by
  cases t with
  | text u =>
    obtain ⟨v, rfl, hv⟩ := Option.map_eq_some_iff.1 h
    cases hv
    rfl
  | _ => simp [value?] at h

theorem Tree.number_of_value? {t : Tree} {depth : Nat} {n : Number} (h : t.value? depth = some (.number n)) :
    ∃ numeral, t = .number numeral ∧ Number.ofNumeral? numeral = some n := by
  cases t with
  | number numeral =>
    obtain ⟨m, hm, hn⟩ := Option.map_eq_some_iff.1 h
    cases hn
    exact ⟨numeral, rfl, hm⟩
  | _ => simp [value?] at h

/-! ## Members of different names -/

section Members

variable {members : List (String × Value)}

theorem nodup_of_ascending (h : members.Pairwise (·.1 < ·.1)) : (members.map (·.1)).Nodup :=
  List.pairwise_map.2 (h.imp fun hlt => hlt.ne)

/-- Of one name there is what is found under it. -/
theorem filter_eq_lookup (h : (members.map (·.1)).Nodup) (name : String) :
    members.filter (·.1 == name) = (members.lookup name).toList.map fun v => (name, v) := by
  induction members with
  | nil => rfl
  | cons m members ih =>
    obtain ⟨n, v⟩ := m
    obtain ⟨hnot, hrest⟩ := List.nodup_cons.1 h
    by_cases hn : n = name
    · subst hn
      have hnone : members.filter (·.1 == n) = [] := by
        refine List.filter_eq_nil_iff.2 fun k hk hkn => hnot ?_
        exact List.mem_map.2 ⟨k, hk, beq_iff_eq.1 hkn⟩
      simp only [List.filter_cons, List.lookup_cons, beq_self_eq_true, if_true, hnone]
      rfl
    · have hbeq : (name == n) = false := beq_false_of_ne (Ne.symm hn)
      have hbeq' : (n == name) = false := beq_false_of_ne hn
      simp only [List.filter_cons, List.lookup_cons, hbeq, hbeq', Bool.false_eq_true, if_false, ih hrest]

/-- Members taken together name by name, with the others behind them, are all of them. -/
theorem perm_by_name {names : List String} (h : names.Nodup) (members : List (String × Value)) :
    ((names.flatMap fun name => members.filter (·.1 == name)) ++
      members.filter fun m => !names.contains m.1).Perm members := by
  induction names generalizing members with
  | nil => simp
  | cons name names ih =>
    obtain ⟨hnot, hrest⟩ := List.nodup_cons.1 h
    let others := members.filter fun m => !(m.1 == name)
    have hnames : (names.flatMap fun n => members.filter (·.1 == n)) =
        names.flatMap fun n => others.filter (·.1 == n) := by
      refine List.flatMap_congr fun n hn => ?_
      rw [List.filter_filter]
      refine List.filter_congr fun m _ => ?_
      have hne : n ≠ name := fun heq => hnot (heq ▸ hn)
      by_cases hm : m.1 = n
      · simp [hm, hne]
      · simp [hm]
    have htail : (members.filter fun m => !(name :: names).contains m.1) =
        others.filter fun m => !names.contains m.1 := by
      rw [List.filter_filter]
      refine List.filter_congr fun m _ => ?_
      rw [List.contains_cons, Bool.not_or, Bool.and_comm]
    rw [List.flatMap_cons, List.append_assoc, hnames, htail]
    exact ((ih hrest others).append_left _).trans (List.filter_append_perm _ members)

/-- The trees of one name are those of what is found under it. -/
theorem membersNamed_map (h : (members.map (·.1)).Nodup) (tree : String × Value → Tree) (name : String) :
    membersNamed name (members.map fun m => (some m.1, tree m)) =
      (members.lookup name).toList.map fun v => tree (name, v) := by
  have hfilter : membersNamed name (members.map fun m => (some m.1, tree m)) =
      (members.filter (·.1 == name)).map tree := by
    unfold membersNamed
    rw [List.filterMap_map, ← List.filterMap_eq_map, List.filterMap_filter]
    refine List.filterMap_congr fun m _ => ?_
    simp
  rw [hfilter, filter_eq_lookup h, List.map_map]
  rfl

end Members

end Tollgate.Json
