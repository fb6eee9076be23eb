import Keyset.Text.Utf8

/-! # The bytes of a text, character by character

    The UTF-8 form of a text is that of its characters one after the other
    (`utf8_ofList`).  An ASCII character is one byte, its code point; every byte
    of any other character lies above ASCII, so a search for an ASCII byte never
    stops inside a character.

    Texts compare as their bytes do (`compare_utf8`).  A character with a higher
    code point has as many bytes or more, and more of them are told by a higher
    first byte; with as many, the bytes hold the code point from its highest bits
    down. -/

namespace Keyset.Text

/-- The bytes of a text are those of its characters. -/
theorem utf8_ofList (cs : List Char) :
    utf8 (String.ofList cs) = cs.flatMap String.utf8EncodeChar := by
  rw [utf8, String.toByteArray_ofList, List.utf8Encode]
  simp

theorem utf8_eq (s : String) : utf8 s = s.toList.flatMap String.utf8EncodeChar := by
  rw [← utf8_ofList, String.ofList_toList]

theorem length_utf8 (s : String) : (utf8 s).length = s.utf8ByteSize := by
  rw [utf8, Array.length_toList]
  rfl

theorem utf8EncodeChar_ascii {c : Char} (h : c.toNat < 128) :
    String.utf8EncodeChar c = [UInt8.ofNat c.toNat] := by
  have hle : c.val.toNat ≤ 127 := Nat.le_of_lt_succ h
  unfold String.utf8EncodeChar
  exact if_pos hle

/-- Every byte of a character beyond ASCII lies above ASCII. -/
theorem le_of_mem_utf8EncodeChar {c : Char} (h : 128 ≤ c.toNat) {byte : UInt8}
    (hb : byte ∈ String.utf8EncodeChar c) : 128 ≤ byte.toNat := by
  have hgt : ¬ c.val.toNat ≤ 127 := Nat.not_le.mpr h
  have hmax : c.val.toNat < 1114112 := by
    have := c.valid
    rcases this with h | h <;> omega
  unfold String.utf8EncodeChar at hb
  -- two, three or four bytes, each with its highest bit set
  simp only [if_neg hgt] at hb
  split at hb
  · simp only [List.mem_cons, List.not_mem_nil, or_false] at hb
    rcases hb with rfl | rfl <;> simp only [UInt8.toNat_ofNat'] <;> omega
  · split at hb
    · simp only [List.mem_cons, List.not_mem_nil, or_false] at hb
      rcases hb with rfl | rfl | rfl <;> simp only [UInt8.toNat_ofNat'] <;> omega
    · simp only [List.mem_cons, List.not_mem_nil, or_false] at hb
      rcases hb with rfl | rfl | rfl | rfl <;> simp only [UInt8.toNat_ofNat'] <;> omega

/-- An ASCII byte occurs in a character's bytes only as that character. -/
theorem toNat_eq_of_mem_utf8EncodeChar {c : Char} {byte : UInt8}
    (hb : byte ∈ String.utf8EncodeChar c) (hlt : byte.toNat < 128) : c.toNat = byte.toNat := by
  by_cases hc : c.toNat < 128
  · rw [utf8EncodeChar_ascii hc] at hb
    rw [List.mem_singleton.mp hb, UInt8.toNat_ofNat', Nat.mod_eq_of_lt (by omega)]
  · have := le_of_mem_utf8EncodeChar (Nat.not_lt.mp hc) hb
    omega

/-- A text made of ASCII bytes has those bytes. -/
theorem utf8_ofList_bytes {bytes : List UInt8} (h : ∀ byte ∈ bytes, byte.toNat < 128) :
    utf8 (String.ofList (bytes.map fun byte => Char.ofNat byte.toNat)) = bytes := by
  rw [utf8_ofList]
  induction bytes with
  | nil => rfl
  | cons byte rest ih =>
    have hbyte := h byte List.mem_cons_self
    have hchar : (Char.ofNat byte.toNat).toNat = byte.toNat := by
      rw [Char.ofNat, dif_pos (Or.inl (by omega))]
      rfl
    rw [List.map_cons, List.flatMap_cons, ih fun b hb => h b (List.mem_cons_of_mem _ hb),
      utf8EncodeChar_ascii (by omega), hchar, UInt8.ofNat_toNat]
    rfl

/-! ## The order of texts -/

theorem compare_byte {m n : Nat} (hm : m < 256) (hn : n < 256) :
    compare (UInt8.ofNat m) (UInt8.ofNat n) = compare m n := by
  have hm' : (UInt8.ofNat m).toNat = m := by rw [UInt8.toNat_ofNat', Nat.mod_eq_of_lt hm]
  have hn' : (UInt8.ofNat n).toNat = n := by rw [UInt8.toNat_ofNat', Nat.mod_eq_of_lt hn]
  rcases Nat.lt_trichotomy m n with h | h | h
  · rw [Nat.compare_eq_lt.mpr h, Std.compare_eq_lt, UInt8.lt_iff_toNat_lt, hm', hn']
    exact h
  · rw [h]
    exact Std.compare_self.trans (Nat.compare_eq_eq.mpr rfl).symm
  · rw [Nat.compare_eq_gt.mpr h, Std.compare_eq_gt, UInt8.lt_iff_toNat_lt, hm', hn']
    exact h

/-- Code points compare by their digits in base 64, from the highest one on. -/
theorem lt_digits {m n : Nat} (h : m < n) (hmax : n < 1114112) :
    m / 262144 % 8 < n / 262144 % 8 ∨ m / 262144 % 8 = n / 262144 % 8 ∧
      (m / 4096 % 64 < n / 4096 % 64 ∨ m / 4096 % 64 = n / 4096 % 64 ∧
        (m / 64 % 64 < n / 64 % 64 ∨ m / 64 % 64 = n / 64 % 64 ∧ m % 64 < n % 64)) := by
  have hm : m / 262144 % 8 = m / 262144 := Nat.mod_eq_of_lt (by omega)
  have hn : n / 262144 % 8 = n / 262144 := Nat.mod_eq_of_lt (by omega)
  omega

/-- The bytes of two characters tell which has the lower code point, whatever comes after them. -/
theorem compare_utf8EncodeChar_append {c d : Char} (h : c < d) (rest rest' : List UInt8) :
    compare (String.utf8EncodeChar c ++ rest) (String.utf8EncodeChar d ++ rest') = .lt := by
  have hlt : c.val.toNat < d.val.toNat := h
  have hmax : d.val.toNat < 1114112 := by
    rcases d.valid with h | h <;> omega
  have hdigits := lt_digits hlt hmax
  unfold String.utf8EncodeChar
  simp only
  -- one to four bytes for either character
  repeat' split
  all_goals
    simp (disch := omega) only [List.cons_append, List.nil_append, List.compare_cons_cons,
      Ordering.then_eq_lt, compare_byte, Nat.compare_eq_lt, Nat.compare_eq_eq]
    omega

theorem compare_append_left (bytes rest rest' : List UInt8) :
    compare (bytes ++ rest) (bytes ++ rest') = compare rest rest' := by
  induction bytes with
  | nil => rfl
  | cons byte bytes ih =>
    rw [List.cons_append, List.cons_append, List.compare_cons_cons, Std.compare_self, ih]
    rfl

theorem compare_flatMap_of_lt {cs ds : List Char} (h : cs < ds) :
    compare (cs.flatMap String.utf8EncodeChar) (ds.flatMap String.utf8EncodeChar) = .lt := by
  induction h with
  | @nil d ds =>
    obtain ⟨byte, bytes, hbytes⟩ :=
      List.exists_cons_of_ne_nil (String.utf8EncodeChar_ne_nil (c := d))
    rw [List.flatMap_cons, hbytes]
    exact List.compare_nil_cons
  | cons h ih =>
    rw [List.flatMap_cons, List.flatMap_cons, compare_append_left]
    exact ih
  | rel h =>
    rw [List.flatMap_cons, List.flatMap_cons]
    exact compare_utf8EncodeChar_append h _ _

/-- Texts compare as their bytes do. -/
theorem compare_utf8 (s t : String) : compare (utf8 s) (utf8 t) = compare s t := by
  have hlt : ∀ {s t : String}, s < t → compare (utf8 s) (utf8 t) = .lt := by
    intro s t h
    rw [utf8_eq, utf8_eq]
    exact compare_flatMap_of_lt (String.lt_iff.mp h)
  show _ = compareOfLessAndEq s t
  unfold compareOfLessAndEq
  by_cases h : s < t
  · rw [if_pos h, hlt h]
  · by_cases heq : s = t
    · rw [if_neg h, if_pos heq, heq]
      exact Std.compare_self
    · have hgt : t < s := Std.lt_of_le_of_ne (Std.not_lt.mp h) (Ne.symm heq)
      rw [if_neg h, if_neg heq, Std.OrientedOrd.eq_swap, hlt hgt]
      rfl

end Keyset.Text
