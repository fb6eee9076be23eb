import Keyset.Document.Basic
import Keyset.Proofs.Number.Numeral

/-! # Hexadecimal text in either case

    Text is read as the bytes whose digits it is when its letters are made small
    (`readBytes?_eq_some_iff`), so the texts of an object id are its own text in
    any mixture of cases (`ofHex?_eq_some_iff`). -/

namespace Keyset

open Number

namespace Text.Hex

theorem toNat_digit {n : Nat} (h : n < 16) :
    (digit n).toNat = if n < 10 then 48 + n else 87 + n :=
  (by decide : ∀ m < 16, (digit m).toNat = if m < 10 then 48 + m else 87 + m) n h

/-- A character stands for a number if its small form is the digit of that number. -/
theorem value?_eq_some_iff {c : Char} {n : Nat} :
    value? c = some n ↔ n < 16 ∧ lowerAscii c = digit n := by
  rw [and_congr_right fun hn => by rw [← Char.toNat_inj, toNat_lowerAscii, toNat_digit hn]]
  simp only [value?]
  generalize c.toNat = k
  constructor
  · intro h
    split at h
    · obtain rfl := Option.some.inj h
      rw [if_neg (by omega), if_pos (by omega)]
      omega
    · split at h
      · obtain rfl := Option.some.inj h
        rw [if_pos (by omega), if_neg (by omega)]
        omega
      · split at h
        · obtain rfl := Option.some.inj h
          rw [if_neg (by omega), if_neg (by omega)]
          omega
        · exact nomatch h
  · rintro ⟨hn, h⟩
    by_cases hten : n < 10
    · rw [if_pos hten] at h
      have hk : k = n + 48 := by split at h <;> omega
      rw [hk, if_pos (by omega), Nat.add_sub_cancel]
    · rw [if_neg hten] at h
      by_cases hcapital : 65 ≤ k ∧ k ≤ 90
      · rw [if_pos hcapital] at h
        have hk : k = n + 55 := by omega
        rw [hk, if_neg (by omega), if_pos (by omega), Nat.add_sub_cancel]
      · rw [if_neg hcapital] at h
        have hk : k = n + 87 := by omega
        rw [hk, if_neg (by omega), if_neg (by omega), if_pos (by omega), Nat.add_sub_cancel]

/-- Text is read as the bytes that it is the text of, but for the case of its letters. -/
theorem readBytes?_eq_some_iff {cs : List Char} {bytes : List UInt8} :
    readBytes? cs = some bytes ↔ cs.map lowerAscii = bytesText bytes := by
  constructor
  · intro h
    fun_induction readBytes? cs generalizing bytes with
    | case1 =>
      obtain rfl := Option.some.inj h
      rfl
    | case2 => exact nomatch h
    | case3 high low rest hi lo more hrest hlow hhigh ih =>
      obtain rfl := Option.some.inj h
      obtain ⟨hhi, hhigh⟩ := value?_eq_some_iff.mp hhigh
      obtain ⟨hlo, hlow⟩ := value?_eq_some_iff.mp hlow
      have hbyte : (UInt8.ofNat (16 * hi + lo)).toNat = 16 * hi + lo := by
        rw [UInt8.toNat_ofNat', Nat.mod_eq_of_lt (by omega)]
      have hdiv : (16 * hi + lo) / 16 = hi := by omega
      have hmod : (16 * hi + lo) % 16 = lo := by omega
      show _ = byteText (UInt8.ofNat (16 * hi + lo)) ++ bytesText more
      rw [byteText, hbyte, hdiv, hmod, ← ih hrest, ← hhigh, ← hlow]
      rfl
    | case4 => exact nomatch h
  · intro h
    induction bytes generalizing cs with
    | nil =>
      obtain rfl := List.map_eq_nil_iff.mp h
      rfl
    | cons b bytes ih =>
      have hb := UInt8.toNat_lt b
      -- the first two characters are the digits of the first byte
      obtain ⟨high, cs, rfl, hhigh, h⟩ := List.map_eq_cons_iff.mp h
      obtain ⟨low, rest, rfl, hlow, hrest⟩ := List.map_eq_cons_iff.mp h
      have hhi := value?_eq_some_iff.mpr ⟨show b.toNat / 16 < 16 by omega, hhigh⟩
      have hlo := value?_eq_some_iff.mpr ⟨show b.toNat % 16 < 16 by omega, hlow⟩
      have hbyte : 16 * (b.toNat / 16) + b.toNat % 16 = b.toNat := by omega
      rw [readBytes?, hhi, hlo, ih hrest]
      simp only [hbyte, UInt8.ofNat_toNat]

end Text.Hex

/-- An id is read from its text, in any mixture of cases. -/
theorem ObjectId.ofHex?_eq_some_iff {cs : List Char} {id : ObjectId} :
    ofHex? cs = some id ↔ cs.map lowerAscii = id.toHex := by
  rw [toHex, ← Text.Hex.readBytes?_eq_some_iff, ofHex?]
  cases Text.Hex.readBytes? cs with
  | none => simp
  | some bytes =>
    constructor
    · intro h
      simp only at h
      split at h
      · obtain rfl := Option.some.inj h
        rfl
      · cases h
    · intro h
      obtain rfl := Option.some.inj h
      exact dif_pos id.length_bytes

end Keyset
