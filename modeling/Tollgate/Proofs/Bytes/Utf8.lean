/-
Texts are read back from their octets: the first octet of a character tells how many there are, and each of the
others carries six bits, so a text is scanned to its own characters. An octet of ASCII is never one of the others.
-/
import Mathlib
import Tollgate.Bytes.Utf8

namespace Tollgate

namespace Utf8

/-! ## Octets by their bits -/

theorem toNat_ofNat_of_lt {n : Nat} (h : n < 256) : (UInt8.ofNat n).toNat = n := by
  rw [UInt8.toNat_ofNat', Nat.mod_eq_of_lt h]

theorem ofNat_lt_iff {n : Nat} (h : n < 256) (bound : UInt8) : UInt8.ofNat n < bound ↔ n < bound.toNat := by
  rw [UInt8.lt_iff_toNat_lt, toNat_ofNat_of_lt h]

theorem not_ofNat_lt {n : Nat} (h : n < 256) {bound : UInt8} (hb : bound.toNat ≤ n) : ¬ UInt8.ofNat n < bound := by
  rw [ofNat_lt_iff h]
  exact Nat.not_lt.2 hb

theorem tail?_ofNat {x : Nat} (h : x < 64) : tail? (UInt8.ofNat (x + 128)) = some x := by
  have hn : (UInt8.ofNat (x + 128)).toNat = x + 128 := toNat_ofNat_of_lt (by omega)
  have hge : (0x80 : UInt8) ≤ UInt8.ofNat (x + 128) := UInt8.le_iff_toNat_le.2 (by rw [hn]; exact Nat.le_add_left _ _)
  have hlt : UInt8.ofNat (x + 128) < 0xC0 := (ofNat_lt_iff (by omega) _).2 (show x + 128 < 192 by omega)
  unfold tail?
  rw [if_pos ⟨hge, hlt⟩, hn, Nat.add_sub_cancel]

/-! ## Characters of one to four octets -/

variable {a x y z : Nat} (rest : Bytes)

theorem first?_one (h : a < 0x80) : first? (UInt8.ofNat a :: rest) = (scalar? 0 a).map (·, 0) := by
  have hn : a < 256 := by omega
  have hlt : UInt8.ofNat a < 0x80 := (ofNat_lt_iff hn 0x80).2 h
  simp only [first?, if_pos hlt, toNat_ofNat_of_lt hn]

theorem first?_two (ha : a < 32) (hx : x < 64) :
    first? (UInt8.ofNat (a + 192) :: UInt8.ofNat (x + 128) :: rest) = (scalar? 0x80 (a * 0x40 + x)).map (·, 1) := by
  have hn : a + 192 < 256 := by omega
  have h1 : ¬ UInt8.ofNat (a + 192) < 0x80 := not_ofNat_lt hn (show 128 ≤ a + 192 by omega)
  have h2 : ¬ UInt8.ofNat (a + 192) < 0xC0 := not_ofNat_lt hn (show 192 ≤ a + 192 by omega)
  have hlt : UInt8.ofNat (a + 192) < 0xE0 := (ofNat_lt_iff hn 0xE0).2 (show a + 192 < 224 by omega)
  simp only [first?, if_neg h1, if_neg h2, if_pos hlt, toNat_ofNat_of_lt hn, tail?_ofNat hx, Option.bind_eq_bind,
    Option.bind_some, Nat.add_sub_cancel]

theorem first?_three (ha : a < 16) (hx : x < 64) (hy : y < 64) :
    first? (UInt8.ofNat (a + 224) :: UInt8.ofNat (x + 128) :: UInt8.ofNat (y + 128) :: rest) =
      (scalar? 0x800 ((a * 0x40 + x) * 0x40 + y)).map (·, 2) := by
  have hn : a + 224 < 256 := by omega
  have h1 : ¬ UInt8.ofNat (a + 224) < 0x80 := not_ofNat_lt hn (show 128 ≤ a + 224 by omega)
  have h2 : ¬ UInt8.ofNat (a + 224) < 0xC0 := not_ofNat_lt hn (show 192 ≤ a + 224 by omega)
  have h3 : ¬ UInt8.ofNat (a + 224) < 0xE0 := not_ofNat_lt hn (show 224 ≤ a + 224 by omega)
  have hlt : UInt8.ofNat (a + 224) < 0xF0 := (ofNat_lt_iff hn 0xF0).2 (show a + 224 < 240 by omega)
  simp only [first?, if_neg h1, if_neg h2, if_neg h3, if_pos hlt, toNat_ofNat_of_lt hn, tail?_ofNat hx, tail?_ofNat hy,
    Option.bind_eq_bind, Option.bind_some, Nat.add_sub_cancel]

theorem first?_four (ha : a < 8) (hx : x < 64) (hy : y < 64) (hz : z < 64) :
    first? (UInt8.ofNat (a + 240) :: UInt8.ofNat (x + 128) :: UInt8.ofNat (y + 128) :: UInt8.ofNat (z + 128) :: rest) =
      (scalar? 0x10000 (((a * 0x40 + x) * 0x40 + y) * 0x40 + z)).map (·, 3) := by
  have hn : a + 240 < 256 := by omega
  have h1 : ¬ UInt8.ofNat (a + 240) < 0x80 := not_ofNat_lt hn (show 128 ≤ a + 240 by omega)
  have h2 : ¬ UInt8.ofNat (a + 240) < 0xC0 := not_ofNat_lt hn (show 192 ≤ a + 240 by omega)
  have h3 : ¬ UInt8.ofNat (a + 240) < 0xE0 := not_ofNat_lt hn (show 224 ≤ a + 240 by omega)
  have h4 : ¬ UInt8.ofNat (a + 240) < 0xF0 := not_ofNat_lt hn (show 240 ≤ a + 240 by omega)
  have hlt : UInt8.ofNat (a + 240) < 0xF8 := (ofNat_lt_iff hn 0xF8).2 (show a + 240 < 248 by omega)
  simp only [first?, if_neg h1, if_neg h2, if_neg h3, if_neg h4, if_pos hlt, toNat_ofNat_of_lt hn, tail?_ofNat hx,
    tail?_ofNat hy, tail?_ofNat hz, Option.bind_eq_bind, Option.bind_some, Nat.add_sub_cancel]

theorem scalar?_toNat {least : Nat} {c : Char} (h : least ≤ c.toNat) : scalar? least c.toNat = some c := by
  have hv : c.toNat.isValidChar := c.valid
  unfold scalar?
  rw [if_pos ⟨h, hv⟩, Char.ofNat_toNat]

theorem toNat_lt (c : Char) : c.toNat < 0x110000 := by
  have h : c.toNat.isValidChar := c.valid
  unfold Nat.isValidChar at h
  omega

/-- The octets of a character are the first character of whatever begins with them. -/
theorem first?_encodeChar (c : Char) (rest : Bytes) : ∃ b more, String.utf8EncodeChar c = b :: more ∧
    first? (b :: (more ++ rest)) = some (c, more.length) := by
  have hmax := toNat_lt c
  have hc : c.val.toNat = c.toNat := rfl
  unfold String.utf8EncodeChar
  simp only [hc]
  -- the count of octets goes by the size of the code point
  split
  · refine ⟨_, _, rfl, ?_⟩
    rw [List.nil_append, first?_one rest (by omega), scalar?_toNat (Nat.zero_le _)]
    rfl
  split
  · have hn : c.toNat / 64 % 32 * 0x40 + c.toNat % 64 = c.toNat := by omega
    refine ⟨_, _, rfl, ?_⟩
    rw [List.cons_append, List.nil_append, first?_two rest (by omega) (by omega), hn, scalar?_toNat (by omega)]
    rfl
  split
  · have hn : (c.toNat / 4096 % 16 * 0x40 + c.toNat / 64 % 64) * 0x40 + c.toNat % 64 = c.toNat := by omega
    refine ⟨_, _, rfl, ?_⟩
    rw [List.cons_append, List.cons_append, List.nil_append, first?_three rest (by omega) (by omega) (by omega), hn,
      scalar?_toNat (by omega)]
    rfl
  · have hn : ((c.toNat / 262144 % 8 * 0x40 + c.toNat / 4096 % 64) * 0x40 + c.toNat / 64 % 64) * 0x40 +
        c.toNat % 64 = c.toNat := by omega
    refine ⟨_, _, rfl, ?_⟩
    rw [List.cons_append, List.cons_append, List.cons_append, List.nil_append,
      first?_four rest (by omega) (by omega) (by omega) (by omega), hn, scalar?_toNat (by omega)]
    rfl

/-! ## Texts -/

theorem scan_flatMap (s : List Char) : scan (s.flatMap String.utf8EncodeChar) = s.map some := by
  induction s with
  | nil => simp [scan]
  | cons c s ih =>
    obtain ⟨b, more, he, hf⟩ := first?_encodeChar c (s.flatMap String.utf8EncodeChar)
    rw [List.flatMap_cons, he, List.cons_append, scan, hf]
    simp only [List.drop_left, ih, List.map_cons]

/-- A text is scanned to its own characters. -/
theorem scan_ofText (s : String) : scan (Bytes.ofText s) = s.toList.map some := scan_flatMap s.toList

end Utf8

/-! ## Octets of ASCII -/

theorem utf8EncodeChar_of_ascii {c : Char} (h : c.toNat < 0x80) :
    String.utf8EncodeChar c = [UInt8.ofNat c.toNat] := by
  have hv : c.val.toNat ≤ 0x7f := Nat.le_of_lt_succ h
  unfold String.utf8EncodeChar
  simp only [hv, if_true]
  rfl

theorem toNat_ofNat_of_ascii {n : Nat} (h : n < 0x80) : (UInt8.ofNat n).toNat = n := by
  rw [Utf8.toNat_ofNat_of_lt (Nat.lt_trans h (by decide))]

theorem Bytes.ofText_of_ascii {s : String} (h : ∀ c ∈ s.toList, c.toNat < 0x80) :
    ofText s = s.toList.map fun c => UInt8.ofNat c.toNat := by
  unfold ofText
  rw [List.map_eq_flatMap, List.flatMap_def, List.flatMap_def]
  congr 1
  exact List.map_congr_left fun c hc => utf8EncodeChar_of_ascii (h c hc)

theorem Utf8.scan_cons_of_ascii {b : UInt8} (h : b < 0x80) (rest : Bytes) :
    scan (b :: rest) = some (Char.ofNat b.toNat) :: scan rest := by
  have hb : b.toNat < 0x80 := UInt8.lt_iff_toNat_lt.1 h
  have hv : b.toNat.isValidChar := Or.inl (Nat.lt_trans hb (by decide))
  have hf : first? (b :: rest) = some (Char.ofNat b.toNat, 0) := by
    unfold first? scalar?
    simp only [h, hv, Nat.zero_le, true_and, if_true, Option.map_some]
  rw [scan, hf]
  rfl

theorem Utf8.le_of_tail? {x : UInt8} {v : Nat} (h : tail? x = some v) : 0x80 ≤ x := by
  unfold tail? at h
  split at h
  · rename_i hx; exact hx.1
  · cases h

/-- The bytes of a character beyond the first one are not ASCII. -/
theorem Utf8.first?_tail {b : UInt8} {rest : Bytes} {c : Char} {n : Nat} (h : first? (b :: rest) = some (c, n)) :
    ∀ x ∈ rest.take n, 0x80 ≤ x := by
  simp only [first?] at h
  split at h
  · obtain ⟨d, -, hd⟩ := Option.map_eq_some_iff.1 h
    cases hd; simp
  split at h
  · cases h
  split at h
  · split at h
    · simp only [Option.bind_eq_bind, Option.bind_eq_some_iff, Option.map_eq_some_iff] at h
      obtain ⟨x, hx, d, -, hd⟩ := h
      cases hd
      simpa using le_of_tail? hx
    · cases h
  split at h
  · split at h
    · simp only [Option.bind_eq_bind, Option.bind_eq_some_iff, Option.map_eq_some_iff] at h
      obtain ⟨x, hx, y, hy, d, -, hd⟩ := h
      cases hd
      simpa using ⟨le_of_tail? hx, le_of_tail? hy⟩
    · cases h
  split at h
  · split at h
    · simp only [Option.bind_eq_bind, Option.bind_eq_some_iff, Option.map_eq_some_iff] at h
      obtain ⟨x, hx, y, hy, z, hz, d, -, hd⟩ := h
      cases hd
      simpa using ⟨le_of_tail? hx, le_of_tail? hy, le_of_tail? hz⟩
    · cases h
  · cases h

theorem Utf8.scan_of_text? {bs : Bytes} {s : String} (h : text? bs = some s) : scan bs = s.toList.map some := by
  have hid {xs : List (Option Char)} : ∀ {cs}, xs.mapM id = some cs → xs = cs.map some := by
    induction xs with
    | nil => intro cs h; cases h; rfl
    | cons x xs ih =>
      intro cs h
      simp only [List.mapM_cons, id_eq, Option.bind_eq_bind, Option.bind_eq_some_iff] at h
      obtain ⟨c, rfl, more, hm, he⟩ := h
      cases he
      rw [ih hm, List.map_cons]
  obtain ⟨cs, hcs, rfl⟩ := Option.map_eq_some_iff.1 h
  rw [String.toList_ofList]
  exact hid hcs

/-- A byte of ASCII is a character of its own wherever it stands in a text. -/
theorem Utf8.mem_scan {b : UInt8} (hb : b < 0x80) {bs : Bytes} (hall : none ∉ scan bs) (hm : b ∈ bs) :
    some (Char.ofNat b.toNat) ∈ scan bs := by
  induction bs using scan.induct with
  | case1 => cases hm
  | case2 first rest c n hf ih =>
    rw [scan, hf] at hall ⊢
    rcases List.mem_cons.1 hm with rfl | hm
    · have := scan_cons_of_ascii hb rest
      rw [scan, hf] at this
      rw [this]
      exact List.mem_cons_self
    · refine List.mem_cons_of_mem _ (ih (fun h => hall (List.mem_cons_of_mem _ h)) ?_)
      rw [← List.take_append_drop n rest] at hm
      rcases List.mem_append.1 hm with hm | hm
      · exact absurd hb (UInt8.not_lt.2 (first?_tail hf b hm))
      · exact hm
  | case3 first rest hf ih =>
    rw [scan, hf] at hall
    exact absurd List.mem_cons_self hall

theorem Utf8.mem_text? {b : UInt8} (hb : b < 0x80) {bs : Bytes} {s : String} (h : text? bs = some s)
    (hm : b ∈ bs) : Char.ofNat b.toNat ∈ s.toList := by
  have hs := scan_of_text? h
  have := mem_scan hb (by rw [hs]; simp) hm
  rw [hs] at this
  simpa using this

end Tollgate
