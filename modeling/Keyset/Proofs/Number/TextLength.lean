import Mathlib.Data.Nat.Digits.Defs
import Keyset.Number.Decimal

/-! # How long written numbers are

    An integer of 64 bits has at most 20 digits.  A double is written without a
    power of ten, so the largest and the smallest ones have hundreds of digits;
    but no text of a double has more than 5000 characters (`length_text_le`).

    The bound is a rough one.  Every decimal that may be written for a magnitude
    is the magnitude times a power of ten, or next to it, and both the magnitude
    and the power are bounded by the range of the format (`Bounded`). -/

namespace Keyset.Number

theorem length_digits_le {n places : Nat} (hpos : 0 < places) (h : n < tenTo places) :
    (digits n).length ≤ places :=
  Nat.toDigits_length 10 n places hpos h

theorem length_integerText_le (n : Int64) : (integerText n.toInt).length ≤ 21 := by
  have hle := n.le_toInt
  have hlt := n.toInt_lt
  have hten : 10000000000000000000 < tenTo 20 := by decide
  have hdigits : (digits n.toInt.natAbs).length ≤ 20 := length_digits_le (by decide) (by omega)
  unfold integerText
  split
  · rw [List.length_cons]
    omega
  · omega

theorem power_five_le (n : Nat) : power 5 n ≤ tenTo n := Nat.pow_le_pow_left (by decide) n

theorem twoTo_le_tenTo (n : Nat) : twoTo n ≤ tenTo n := Nat.pow_le_pow_left (by decide) n

/-- Bounds by powers of ten multiply. -/
theorem mul_lt_tenTo {a b j k : Nat} (ha : a < tenTo j) (hb : b ≤ tenTo k) :
    a * b < tenTo (j + k) := by
  rw [tenTo, power_add]
  calc a * b ≤ a * tenTo k := Nat.mul_le_mul_left a hb
    _ < tenTo j * tenTo k := Nat.mul_lt_mul_of_pos_right ha (tenTo_pos k)

namespace Decimal

theorem length_withPoint_le (places : Nat) (ds : List Char) :
    (withPoint places ds).length ≤ ds.length + places + 2 := by
  unfold withPoint
  split
  · simp only [List.length_append, List.length_cons, List.length_take, List.length_drop]
    omega
  · simp only [List.length_append, List.length_cons, List.length_replicate]
    omega

/-- A decimal whose digits and whose places are bounded. -/
structure Bounded (size width : Nat) (d : Decimal) : Prop where
  coefficient_lt : d.coefficient < tenTo size
  exponent_le : d.exponent.natAbs ≤ width

theorem Bounded.length_positional {size width : Nat} {d : Decimal} (h : d.Bounded size width)
    (hsize : 0 < size) : (d.positional false).length ≤ size + width + 2 := by
  obtain ⟨coefficient, exponent⟩ := d
  have hlt : coefficient < tenTo size := h.coefficient_lt
  have hle : exponent.natAbs ≤ width := h.exponent_le
  cases exponent with
  | ofNat e =>
    have hall : coefficient * tenTo e < tenTo (size + e) := mul_lt_tenTo hlt (Nat.le_refl _)
    have hdigits := length_digits_le (Nat.add_pos_left hsize e) hall
    have habs : (Int.ofNat e).natAbs = e := rfl
    show (digits (coefficient * tenTo e) ++ []).length ≤ _
    rw [List.append_nil]
    omega
  | negSucc e =>
    have hdigits := length_digits_le hsize hlt
    have hpoint := length_withPoint_le (e + 1) (digits coefficient)
    have habs : (Int.negSucc e).natAbs = e + 1 := rfl
    show (withPoint (e + 1) (digits coefficient)).length ≤ _
    omega

end Decimal

namespace Magnitude

theorem units_lt (m : Magnitude) : m.units < tenTo (16 + m.scale) := by
  have hsignificand : m.significand < tenTo 16 := Nat.lt_trans m.significand_lt (by decide)
  exact mul_lt_tenTo hsignificand (twoTo_le_tenTo m.scale)

theorem log2_units_lt (m : Magnitude) : m.units.log2 < 53 + m.scale := by
  have hlt : m.units < 2 ^ (53 + m.scale) := by
    rw [Nat.pow_add]
    exact Nat.mul_lt_mul_of_pos_right m.significand_lt (twoTo_pos m.scale)
  rcases Nat.eq_zero_or_pos m.units with hzero | hpos
  · rw [hzero, Nat.log2_zero]
    omega
  · exact (Nat.log2_lt (Nat.ne_of_gt hpos)).mpr hlt

theorem natAbs_decimalWidth_le (m : Magnitude) : m.decimalWidth.natAbs ≤ 330 := by
  have hlog := m.log2_units_lt
  have hscale := m.scale_le
  unfold decimalWidth
  simp only
  split <;> omega

theorem eq_or_eq_of_mem {nearer : Ordering} {even : Prop} [Decidable even] {below above d : Decimal}
    (h : d ∈ match nearer with
      | .lt => [below, above]
      | .gt => [above, below]
      | .eq => if even then [below, above] else [above, below]) : d = below ∨ d = above := by
  cases nearer with
  | lt => simpa using h
  | gt => simpa [or_comm] using h
  | eq =>
    by_cases heven : even
    · simpa [heven] using h
    · simpa [heven, or_comm] using h

/-- The decimals next to a magnitude are at most one above it, counted in their last place. -/
theorem of_mem_neighbours {m : Magnitude} {tie : Tie} {places : Nat} {d : Decimal}
    (h : d ∈ m.neighbours tie places) :
    d.coefficient ≤ m.units * tenTo (places - m.decimalWidth).toNat + 1 ∧
      (d.exponent = m.decimalWidth - places ∨ d.exponent = m.decimalWidth) := by
  -- both neighbours are made of the magnitude in units of the last place, rounded down
  have hboth : ∃ lower ≤ m.units * tenTo (places - m.decimalWidth).toNat,
      d = ⟨lower, m.decimalWidth - places⟩ ∨
      d = if lower + 1 = tenTo places then ⟨1, m.decimalWidth⟩
        else ⟨lower + 1, m.decimalWidth - places⟩ := by
    unfold neighbours at h
    cases hwidth : m.decimalWidth - places with
    | ofNat e =>
      simp only [hwidth] at h
      refine ⟨_, ?_, eq_or_eq_of_mem h⟩
      exact Nat.le_trans (Nat.div_le_self _ _) (Nat.le_mul_of_pos_right _ (tenTo_pos _))
    | negSucc e =>
      simp only [hwidth] at h
      have hplaces : (places - m.decimalWidth).toNat = e + 1 := by omega
      rw [hplaces]
      exact ⟨_, Nat.div_le_self _ _, eq_or_eq_of_mem h⟩
  obtain ⟨lower, hlower, rfl | rfl⟩ := hboth
  · exact ⟨Nat.le_succ_of_le hlower, .inl rfl⟩
  · split
    · exact ⟨Nat.le_add_left 1 _, .inr rfl⟩
    · exact ⟨Nat.succ_le_succ hlower, .inl rfl⟩

theorem bounded_of_mem_neighbours {m : Magnitude} {tie : Tie} {places : Nat} {d : Decimal}
    (h : d ∈ m.neighbours tie places) (hplaces : places ≤ 17) :
    d.Bounded (16 + m.scale + 348) 347 := by
  obtain ⟨hcoefficient, hexponent⟩ := of_mem_neighbours h
  have hwidth := m.natAbs_decimalWidth_le
  generalize hk : (places - m.decimalWidth).toNat = k at hcoefficient
  constructor
  · have hpos := tenTo_pos k
    calc d.coefficient ≤ m.units * tenTo k + 1 := hcoefficient
      _ ≤ (m.units + 1) * tenTo k := by rw [Nat.succ_mul]; omega
      _ ≤ tenTo (16 + m.scale) * tenTo k := Nat.mul_le_mul_right _ m.units_lt
      _ = tenTo (16 + m.scale + k) := (power_add 10 _ k).symm
      _ < tenTo (16 + m.scale + 348) := Nat.pow_lt_pow_right (by decide) (by omega)
  · omega

theorem bounded_exactDecimal (m : Magnitude) :
    m.exactDecimal.Bounded (16 + m.scale + 1074) 1074 := by
  constructor
  · exact mul_lt_tenTo m.units_lt (power_five_le 1074)
  · exact Nat.le_refl 1074

theorem length_positional_decimal_le (m : Magnitude) (tie : Tie) :
    ((m.decimal tie).positional false).length ≤ 4900 := by
  have hscale := m.scale_le
  unfold decimal
  by_cases hzero : m.units = 0
  · rw [if_pos hzero]
    decide
  · rw [if_neg hzero]
    cases hs : m.shortest? tie with
    | none =>
      have hle := m.bounded_exactDecimal.length_positional (by omega)
      show (m.exactDecimal.positional false).length ≤ _
      omega
    | some d =>
      obtain ⟨places, hplaces, hfind⟩ := List.exists_of_findSome?_eq_some hs
      have hlt : places < 17 := List.mem_range.mp hplaces
      have hbounded := bounded_of_mem_neighbours (List.mem_of_find?_eq_some hfind) hlt
      have hle := hbounded.length_positional (by omega)
      show (d.positional false).length ≤ _
      omega

end Magnitude

/-- The text of a double has at most 5000 characters. -/
theorem Double.length_text_le (d : Double) : d.text.length ≤ 5000 := by
  match d with
  | nan _ =>
    show 3 ≤ 5000
    decide
  | infinite true => decide
  | infinite false => decide
  | finite negative m =>
    have hle := m.length_positional_decimal_le .upward
    show ((if negative then ['-'] else []) ++ (m.decimal .upward).positional false).length ≤ _
    rw [List.length_append]
    cases negative <;> simp only [if_true, if_false, Bool.false_eq_true, List.length_cons,
      List.length_nil] <;> omega

end Keyset.Number
