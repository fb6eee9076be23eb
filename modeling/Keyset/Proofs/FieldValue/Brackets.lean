import Keyset.Proofs.FieldValue.Order

/-! # Brackets

    The rank of a bracket tells which brackets come before and after it, and
    values of different brackets compare by it alone.  Within the bracket of null
    there is one value, and within that of numbers values compare by their places
    on one scale. -/

namespace Keyset

namespace Bracket

theorem rank_injective {a b : Bracket} (h : a.rank = b.rank) : a = b := by
  cases a <;> cases b <;> first | rfl | exact nomatch h

theorem mem_all (b : Bracket) : b ∈ all := by
  cases b <;> decide

/-- What lies after a bracket is of higher rank. -/
theorem after_eq_filter (b : Bracket) : b.after = all.filter fun c => b.rank < c.rank := by
  cases b <;> rfl

/-- What lies before a bracket is of lower rank; null is not counted. -/
theorem before_eq_filter (b : Bracket) :
    b.before = all.filter fun c => c ≠ null ∧ c.rank < b.rank := by
  cases b <;> rfl

theorem mem_after {a b : Bracket} : a ∈ b.after ↔ b.rank < a.rank := by
  simp [after_eq_filter, mem_all]

theorem mem_before {a b : Bracket} : a ∈ b.before ↔ a ≠ null ∧ a.rank < b.rank := by
  simp [before_eq_filter, mem_all]

/-- Null comes before every other bracket. -/
theorem rank_pos_iff {b : Bracket} : 0 < b.rank ↔ b ≠ null := by
  cases b <;> decide

end Bracket

namespace FieldValue

open Number

/-- Whether the value is no number at all. -/
def isNaN : FieldValue → Bool
  | float d => d.isNaN
  | _ => false

/-- Values of different brackets compare by the brackets. -/
theorem compare_of_rank_lt {a b : FieldValue} (h : a.bracket.rank < b.bracket.rank) :
    a.compare b = .lt := by
  have hrank : Ord.compare a.bracket.rank b.bracket.rank = .lt := Nat.compare_eq_lt.mpr h
  rw [compare_eq_compareKeys]
  show (Ord.compare a.bracket.rank b.bracket.rank).then _ = _
  rw [hrank]
  rfl

theorem compare_of_rank_gt {a b : FieldValue} (h : b.bracket.rank < a.bracket.rank) :
    a.compare b = .gt := by
  rw [← compare_swap, compare_of_rank_lt h]
  rfl

/-- Values that tie have one bracket. -/
theorem bracket_eq_of_compare {a b : FieldValue} (h : a.compare b = .eq) :
    a.bracket = b.bracket := by
  rcases Nat.lt_trichotomy a.bracket.rank b.bracket.rank with hlt | heq | hgt
  · rw [compare_of_rank_lt hlt] at h
    exact nomatch h
  · exact Bracket.rank_injective heq
  · rw [compare_of_rank_gt hgt] at h
    exact nomatch h

/-- What is in the bracket of null is null. -/
theorem eq_null_of_bracket {v : FieldValue} (h : v.bracket = .null) : v = null := by
  cases v <;> first | rfl | exact nomatch h

theorem ties_null (v : FieldValue) : v.ties null = (v.bracket == .null) := by
  cases v <;> rfl

theorem eq_of_bracket_number {v : FieldValue} (h : v.bracket = .number) :
    (∃ n, v = int n) ∨ ∃ d, v = float d := by
  cases v with
  | int n => exact .inl ⟨n, rfl⟩
  | float d => exact .inr ⟨d, rfl⟩
  | null | string | objectId | bool | date => exact nomatch h

/-- Numbers compare by their places on one scale. -/
theorem compare_numberKey {a b : FieldValue} (ha : a.bracket = .number) (hb : b.bracket = .number) :
    a.compare b = a.numberKey.compare b.numberKey := by
  obtain ⟨m, rfl⟩ | ⟨d, rfl⟩ := eq_of_bracket_number ha <;>
    obtain ⟨n, rfl⟩ | ⟨e, rfl⟩ := eq_of_bracket_number hb
  · exact (Double.Place.compare_placeOfInt m.toInt n.toInt).symm
  · exact Double.compareInt_eq_place m e
  · show (Double.compareInt n d).swap = d.place.compare (Double.placeOfInt n.toInt)
    rw [Double.compareInt_eq_place, Double.Place.compare_swap]
  · exact Double.compare_eq_place d e

end FieldValue

end Keyset
