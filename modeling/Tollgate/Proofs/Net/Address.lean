/-
Internet addresses and how they are spelled. Of all the spellings of an address the usual form is one, so it tells
which address it is; and it is written in digits, colons and dots only, so it is no name of a host.
-/
import Tollgate.Net.Address
import Tollgate.Proofs.Bytes.Hex
import Tollgate.Proofs.Text.Digits
import Tollgate.Proofs.Text.Words

namespace Tollgate

open Text

/-- What is written item by item is read back if every item is. -/
theorem mapM_map_eq_some {α β : Type} {shown : α → β} {read : β → Option α} {xs : List α}
    (h : ∀ x ∈ xs, read (shown x) = some x) : (xs.map shown).mapM read = some xs := by
  induction xs with
  | nil => rfl
  | cons x xs ih =>
    obtain ⟨hx, hxs⟩ := List.forall_mem_cons.1 h
    rw [List.map_cons, List.mapM_cons, hx, ih hxs]
    rfl

/-- The characters that addresses are written in. -/
def addressChars : List Char := hexDigits ++ [':', '.']

theorem mem_of_mem_intercalate {c separator : Char} {pieces : List (List Char)}
    (h : c ∈ [separator].intercalate pieces) : c = separator ∨ ∃ piece ∈ pieces, c ∈ piece := by
  induction pieces with
  | nil => cases h
  | cons piece pieces ih =>
    cases pieces with
    | nil => exact .inr ⟨piece, by simp, by simpa using h⟩
    | cons next pieces =>
      rw [List.intercalate_cons_cons, List.mem_append, List.mem_append, List.mem_singleton] at h
      rcases h with (h | h) | h
      · exact .inr ⟨piece, by simp, h⟩
      · exact .inl h
      · exact (ih h).imp_right fun ⟨p, hp, hc⟩ => ⟨p, List.mem_cons_of_mem _ hp, hc⟩

/-- Numbers with a character between them that is no digit. -/
theorem splitBy_intercalate_toDigits {base : Nat} (hb : 1 < base) (hle : base ≤ 16) {separator : Char}
    (hs : separator ∉ hexDigits) {ns : List Nat} (hne : ns ≠ []) :
    splitBy (· == separator) ([separator].intercalate (ns.map (Nat.toDigits base))) = ns.map (Nat.toDigits base) := by
  refine joins_iff.1 ⟨by simpa using hne, ?_, rfl⟩
  rw [List.forall_mem_map]
  exact fun n _ => not_mem_toDigits hb hle hs n

theorem mem_addressChars_of_mem_intercalate {base : Nat} (hb : 1 < base) (hle : base ≤ 16) {separator : Char}
    (hs : separator ∈ addressChars) {ns : List Nat} {c : Char}
    (h : c ∈ [separator].intercalate (ns.map (Nat.toDigits base))) : c ∈ addressChars := by
  rcases mem_of_mem_intercalate h with rfl | ⟨piece, hp, hc⟩
  · exact hs
  · obtain ⟨n, -, rfl⟩ := List.mem_map.1 hp
    exact List.mem_append_left _ (mem_hexDigits_of_mem_toDigits hb hle hc)

/-! ## Addresses of four octets -/

namespace Ipv4

def Valid (a : Ipv4) : Prop := a.octets.length = 4 ∧ ∀ n ∈ a.octets, n < 256

theorem octet?_toDigits {n : Nat} (h : n < 256) : octet? (Nat.toDigits 10 n) = some n := by
  have hn : natural? (Nat.toDigits 10 n) = some n :=
    natural?_eq_some_iff.2 ⟨⟨Nat.toDigits_ne_nil, all_isDigit_toDigits n⟩,
      Nat.ofDigitChars_toDigits (by decide) (by decide)⟩
  have hlen : (Nat.toDigits 10 n).length ≤ 3 := (Nat.length_toDigits_le_iff (by decide) (by decide)).2 (by omega)
  unfold octet?
  rw [hn]
  exact if_pos ⟨h, hlen, toDigits_front n⟩

theorem ofChars?_chars {a : Ipv4} (h : a.Valid) : ofChars? a.chars = some a := by
  obtain ⟨hlen, hlt⟩ := h
  have hne : a.octets ≠ [] := by
    intro hnil
    rw [hnil] at hlen
    cases hlen
  unfold ofChars? chars
  rw [splitBy_intercalate_toDigits (by decide) (by decide) (by decide) hne,
    mapM_map_eq_some fun n hn => octet?_toDigits (hlt n hn)]
  exact if_pos hlen

theorem mem_addressChars {a : Ipv4} {c : Char} (h : c ∈ a.chars) : c ∈ addressChars :=
  mem_addressChars_of_mem_intercalate (by decide) (by decide) (by decide) h

theorem colon_not_mem_chars (a : Ipv4) : ':' ∉ a.chars := by
  intro h
  rcases mem_of_mem_intercalate h with h | ⟨piece, hp, hc⟩
  · cases h
  · obtain ⟨n, -, rfl⟩ := List.mem_map.1 hp
    exact not_mem_toDigits (by decide) (by decide) (by decide) n hc

theorem ofChars?_of_free {s : List Char} (h : '.' ∉ s) : ofChars? s = none := by
  unfold ofChars?
  rw [splitBy_of_free (free_beq_iff.2 h), List.mapM_cons]
  cases octet? s <;> rfl

end Ipv4

/-! ## Addresses of eight pieces -/

namespace Ipv6

def Valid (a : Ipv6) : Prop := a.pieces.length = 8 ∧ ∀ n ∈ a.pieces, n < 65536

/-! ### Pieces between colons -/

theorem piece?_toDigits {n : Nat} (h : n < 65536) : piece? (Nat.toDigits 16 n) = some n := by
  have hlen : (Nat.toDigits 16 n).length ≤ 4 := (Nat.length_toDigits_le_iff (by decide) (by decide)).2 (by omega)
  unfold piece?
  rw [if_neg, Hex.foldlM_toDigits]
  simp [Nat.toDigits_ne_nil, hlen]

variable {ns : List Nat}

theorem splitBy_joined (hne : ns ≠ []) : splitBy (· == ':') (joined ns) = ns.map (Nat.toDigits 16) :=
  splitBy_intercalate_toDigits (by decide) (by decide) (by decide) hne

theorem mem_addressChars_of_mem_joined {c : Char} (h : c ∈ joined ns) : c ∈ addressChars :=
  mem_addressChars_of_mem_intercalate (by decide) (by decide) (by decide) h

theorem pieces?_joined (dotted : Bool) (hne : ns ≠ []) (h : ∀ n ∈ ns, n < 65536) :
    pieces? dotted (joined ns) = some ns := by
  have hread : (ns.map (Nat.toDigits 16)).mapM piece? = some ns := mapM_map_eq_some fun n hn => piece?_toDigits (h n hn)
  unfold pieces?
  rw [splitBy_joined hne]
  dsimp only
  split
  · rename_i last hlast
    -- the last piece is no address of four octets, as it has no dots
    obtain ⟨n, -, rfl⟩ := List.mem_map.1 (List.mem_of_getLast? hlast)
    rw [Ipv4.ofChars?_of_free (not_mem_toDigits (by decide) (by decide) (by decide) n)]
    exact hread
  · exact hread

theorem joined_cons_cons (n m : Nat) (ns : List Nat) :
    joined (n :: m :: ns) = Nat.toDigits 16 n ++ ':' :: joined (m :: ns) := by
  unfold joined
  rw [List.map_cons, List.map_cons, List.intercalate_cons_cons, List.append_assoc]
  rfl

/-- Pieces begin with a digit. -/
theorem joined_eq_cons (n : Nat) (ns : List Nat) : ∃ c s, joined (n :: ns) = c :: s ∧ c ≠ ':' := by
  obtain ⟨c, s, hs⟩ := List.exists_cons_of_ne_nil (Nat.toDigits_ne_nil (b := 16) (n := n))
  have hc : c ≠ ':' := by
    have hno : ':' ∉ Nat.toDigits 16 n := not_mem_toDigits (by decide) (by decide) (by decide) n
    rintro rfl
    exact hno (by rw [hs]; exact List.mem_cons_self)
  cases ns with
  | nil => exact ⟨c, s, by simp [joined, hs], hc⟩
  | cons m ns => exact ⟨c, _, by rw [joined_cons_cons, hs]; rfl, hc⟩

/-! ### The gap -/

/-- The pieces on one side of a gap, of which there may be none. -/
def side? (dotted : Bool) (s : List Char) : Option (List Nat) := if s.isEmpty then some [] else pieces? dotted s

theorem side?_joined (dotted : Bool) (h : ∀ n ∈ ns, n < 65536) : side? dotted (joined ns) = some ns := by
  unfold side?
  cases ns with
  | nil => rfl
  | cons n ns =>
    obtain ⟨c, s, hj, -⟩ := joined_eq_cons n ns
    rw [if_neg (by simp [hj])]
    exact pieces?_joined dotted (List.cons_ne_nil _ _) h

theorem ofChars?_of_gap {s before after : List Char} (h : cutAtGap? s = some (before, after)) :
    ofChars? s = (side? false before).bind fun front => (side? true after).bind fun back =>
      if front.length + back.length ≤ 7 then
        some ⟨front ++ List.replicate (8 - front.length - back.length) 0 ++ back⟩
      else none := by
  unfold ofChars? side?
  rw [h]
  dsimp only
  split <;> split <;> rfl

theorem cutAtGap?_append_of_free {s : List Char} (h : ':' ∉ s) (t : List Char) :
    cutAtGap? (s ++ t) = (cutAtGap? t).map fun (a, b) => (s ++ a, b) := by
  induction s with
  | nil => simp
  | cons c s ih =>
    have hc : c ≠ ':' := fun he => h (by simp [he])
    have hs : ':' ∉ s := fun hm => h (List.mem_cons_of_mem _ hm)
    rw [List.cons_append, cutAtGap?, ih hs, Option.map_map]
    · rfl
    · intro rest he
      exact absurd he hc

theorem cutAtGap?_colon_of_ne {c : Char} (hc : c ≠ ':') (t : List Char) :
    cutAtGap? (':' :: c :: t) = (cutAtGap? (c :: t)).map fun (a, b) => (':' :: a, b) := by
  rw [cutAtGap?]
  intro rest _ he
  cases he
  exact hc rfl

/-- There is no gap among pieces with one colon between. -/
theorem cutAtGap?_joined_append (ns : List Nat) (t : List Char) :
    cutAtGap? (joined ns ++ t) = (cutAtGap? t).map fun (a, b) => (joined ns ++ a, b) := by
  have hfree : ∀ n, ':' ∉ Nat.toDigits 16 n := not_mem_toDigits (by decide) (by decide) (by decide)
  induction ns with
  | nil => simp [joined]
  | cons n ns ih =>
    cases ns with
    | nil => simpa [joined] using cutAtGap?_append_of_free (hfree n) t
    | cons m ns =>
      obtain ⟨c, s, hj, hc⟩ := joined_eq_cons m ns
      have hone : cutAtGap? (':' :: (joined (m :: ns) ++ t)) =
          (cutAtGap? (joined (m :: ns) ++ t)).map fun (a, b) => (':' :: a, b) := by
        rw [hj]
        exact cutAtGap?_colon_of_ne hc _
      rw [joined_cons_cons, List.append_assoc, cutAtGap?_append_of_free (hfree n), List.cons_append, hone, ih,
        Option.map_map, Option.map_map]
      refine congrArg (fun f => (cutAtGap? t).map f) (funext fun _ => ?_)
      simp

theorem cutAtGap?_joined (ns : List Nat) : cutAtGap? (joined ns) = none := by
  have h := cutAtGap?_joined_append ns []
  rwa [List.append_nil] at h

theorem cutAtGap?_around (ns : List Nat) (t : List Char) :
    cutAtGap? (joined ns ++ ':' :: ':' :: t) = some (joined ns, t) := by
  rw [cutAtGap?_joined_append, cutAtGap?]
  simp

/-! ### The run of zeros that is left out -/

theorem longestRun_le (pieces : List Nat) : (longestRun pieces).2 ≤
    ((pieces.drop (longestRun pieces).1).takeWhile (· == 0)).length := by
  unfold longestRun
  refine List.foldlRecOn (motive := fun best : Nat × Nat =>
    best.2 ≤ ((pieces.drop best.1).takeWhile (· == 0)).length) _ _ (Nat.zero_le _) fun best hbest i _ => ?_
  dsimp only
  split
  · exact Nat.le_refl _
  · exact hbest

/-- The run consists of zeros, and the other pieces stand around it. -/
theorem around_longestRun {pieces : List Nat} {start n : Nat} (h : longestRun pieces = (start, n)) :
    pieces = pieces.take start ++ List.replicate n 0 ++ pieces.drop (start + n) := by
  have hle := longestRun_le pieces
  rw [h] at hle
  dsimp only at hle
  have hzeros : (pieces.drop start).take n = List.replicate n 0 := by
    obtain ⟨rest, hrest⟩ := List.takeWhile_prefix (l := pieces.drop start) (· == 0)
    have hall : ∀ x ∈ (pieces.drop start).take n, x = 0 := by
      intro x hx
      rw [← hrest, List.take_append_of_le_length hle] at hx
      simpa using List.mem_takeWhile_imp (List.mem_of_mem_take hx)
    have hlen : ((pieces.drop start).take n).length = n := by
      rw [List.length_take, ← hrest, List.length_append]
      omega
    rw [List.eq_replicate_of_mem hall, hlen]
  calc pieces = pieces.take start ++ pieces.drop start := (List.take_append_drop _ _).symm
    _ = pieces.take start ++ ((pieces.drop start).take n ++ (pieces.drop start).drop n) := by
      rw [List.take_append_drop n]
    _ = _ := by rw [hzeros, List.drop_drop, List.append_assoc]

/-! ### The usual form -/

theorem ofChars?_compressed {a : Ipv6} (h : a.Valid) : ofChars? a.compressed = some a := by
  obtain ⟨hlen, hlt⟩ := h
  unfold compressed
  cases hrun : longestRun a.pieces with
  | mk start n =>
    have hsplit := around_longestRun hrun
    dsimp only
    split
    · rename_i hn
      generalize a.pieces.take start = front at hsplit
      generalize a.pieces.drop (start + n) = back at hsplit
      have hfront : ∀ x ∈ front, x < 65536 := fun x hx => hlt x (by rw [hsplit]; simp [hx])
      have hback : ∀ x ∈ back, x < 65536 := fun x hx => hlt x (by rw [hsplit]; simp [hx])
      have hcount : front.length + n + back.length = 8 := by
        rw [← hlen, hsplit, List.length_append, List.length_append, List.length_replicate]
      have hzeros : 8 - front.length - back.length = n := by omega
      rw [List.append_assoc, List.cons_append, List.cons_append, List.nil_append,
        ofChars?_of_gap (cutAtGap?_around _ _), side?_joined false hfront, side?_joined true hback, Option.bind_some,
        Option.bind_some, if_pos (by omega), hzeros, ← hsplit]
    · have hne : a.pieces ≠ [] := by
        intro hnil
        rw [hnil] at hlen
        cases hlen
      unfold ofChars?
      rw [cutAtGap?_joined]
      dsimp only
      rw [pieces?_joined true hne hlt]
      exact if_pos hlen

/-- What stands before the dotted form of an address of four octets. -/
theorem mapped_eq : "::ffff:".toList = ':' :: ':' :: (joined [0xffff] ++ [':']) := by decide

theorem pieces?_dotted {a b c d : Nat} (hne : ns ≠ []) (h : ∀ n ∈ ns, n < 65536)
    (hv : (Ipv4.mk [a, b, c, d]).Valid) :
    pieces? true (joined ns ++ ':' :: (Ipv4.mk [a, b, c, d]).chars) = some (ns ++ [256 * a + b, 256 * c + d]) := by
  have hread : (ns.map (Nat.toDigits 16)).mapM piece? = some ns := mapM_map_eq_some fun n hn => piece?_toDigits (h n hn)
  unfold pieces?
  rw [splitBy_append (by decide), splitBy_joined hne, splitBy_of_free (free_beq_iff.2 (Ipv4.colon_not_mem_chars _))]
  dsimp only
  rw [List.getLast?_concat, List.dropLast_concat]
  dsimp only
  rw [Ipv4.ofChars?_chars hv, hread]
  rfl

/-- An address that stands for one of four octets is read back from the dotted form. -/
theorem ofChars?_mapped {g i : Nat} (hg : g < 65536) (hi : i < 65536) :
    ofChars? ("::ffff:".toList ++ (Ipv4.mk [g / 256, g % 256, i / 256, i % 256]).chars) =
      some ⟨[0, 0, 0, 0, 0, 0xffff, g, i]⟩ := by
  have hvalid : (Ipv4.mk [g / 256, g % 256, i / 256, i % 256]).Valid := by
    refine ⟨rfl, ?_⟩
    simp only [List.forall_mem_cons, List.not_mem_nil, IsEmpty.forall_iff, implies_true, and_true]
    omega
  have hback : side? true (joined [0xffff] ++ ':' :: (Ipv4.mk [g / 256, g % 256, i / 256, i % 256]).chars) =
      some [0xffff, g, i] := by
    unfold side?
    rw [if_neg (by simp), pieces?_dotted (by simp) (by simp) hvalid, Nat.div_add_mod, Nat.div_add_mod]
    rfl
  have hgap : cutAtGap? (':' :: ':' :: (joined [0xffff] ++
      ':' :: (Ipv4.mk [g / 256, g % 256, i / 256, i % 256]).chars)) = some ([], _) := rfl
  rw [mapped_eq, List.cons_append, List.cons_append, List.append_assoc, List.singleton_append,
    ofChars?_of_gap hgap, hback]
  rfl

theorem ofChars?_chars {a : Ipv6} (h : a.Valid) : ofChars? a.chars = some a := by
  obtain ⟨hlen, hlt⟩ := h
  unfold chars
  split
  · rename_i g i ha
    rw [ha] at hlt
    rw [ofChars?_mapped (hlt g (by simp)) (hlt i (by simp)), ← ha]
  · exact ofChars?_compressed ⟨hlen, hlt⟩

theorem mem_addressChars {a : Ipv6} {c : Char} (h : c ∈ a.chars) : c ∈ addressChars := by
  have hcolon : ':' ∈ addressChars := by decide
  unfold chars at h
  split at h
  · rw [mapped_eq] at h
    simp only [List.cons_append, List.append_assoc, List.nil_append, List.mem_cons, List.mem_append] at h
    rcases h with rfl | rfl | h | rfl | h
    · exact hcolon
    · exact hcolon
    · exact mem_addressChars_of_mem_joined h
    · exact hcolon
    · exact Ipv4.mem_addressChars h
  · unfold compressed at h
    dsimp only at h
    split at h
    · simp only [List.mem_append, List.mem_cons, List.not_mem_nil, or_false, or_self] at h
      rcases h with (h | rfl) | h
      · exact mem_addressChars_of_mem_joined h
      · exact hcolon
      · exact mem_addressChars_of_mem_joined h
    · exact mem_addressChars_of_mem_joined h

end Ipv6

/-! ## Addresses of both sizes -/

namespace PeerAddress

def Valid : PeerAddress → Prop
  | v4 a => a.Valid
  | v6 a => a.Valid

/-- A text that is read as an address. -/
def Spells (text : String) : PeerAddress → Prop
  | v4 a => Ipv4.ofChars? text.toList = some a
  | v6 a => Ipv6.ofChars? text.toList = some a

/-- An address of the own host: any that begins with 127, or the one of eight pieces that ends in one after zeros. -/
def Loopback (a : PeerAddress) : Prop := (∃ b c d, a = v4 ⟨[127, b, c, d]⟩) ∨ a = v6 ⟨[0, 0, 0, 0, 0, 0, 0, 1]⟩

/-- The usual form of an address spells it. -/
theorem spells_toText {a : PeerAddress} (h : a.Valid) : Spells a.toText a := by
  cases a with
  | v4 a =>
    unfold Spells toText
    rw [String.toList_ofList]
    exact Ipv4.ofChars?_chars h
  | v6 a =>
    unfold Spells toText
    rw [String.toList_ofList]
    exact Ipv6.ofChars?_chars h

theorem mem_addressChars {a : PeerAddress} {c : Char} (h : c ∈ a.toText.toList) : c ∈ addressChars := by
  cases a with
  | v4 a =>
    unfold toText at h
    rw [String.toList_ofList] at h
    exact Ipv4.mem_addressChars h
  | v6 a =>
    unfold toText at h
    rw [String.toList_ofList] at h
    exact Ipv6.mem_addressChars h

theorem toText_ne_empty {a : PeerAddress} (h : a.Valid) : a.toText.toList ≠ [] := by
  intro hnil
  have hs := spells_toText h
  cases a with
  | v4 a =>
    unfold Spells at hs
    rw [hnil] at hs
    cases hs
  | v6 a =>
    unfold Spells at hs
    rw [hnil] at hs
    cases hs

/-- An address is written in lower case. -/
theorem lowered_toText (a : PeerAddress) : lowered a.toText = a.toText := by
  have hlower : ∀ c ∈ addressChars, c.toLower = c := by simp [addressChars, hexDigits]
  unfold lowered
  rw [List.map_congr_left fun c hc => hlower c (mem_addressChars hc), List.map_id', String.ofList_toList]

end PeerAddress

end Tollgate
