import Mathlib.Data.EReal.Operations
import Keyset.Proofs.FieldValue.Brackets

/-! # Numbers compare by their exact values

    A double is its significand times a power of two, or an infinity; an integer
    is itself (`number?`).  What is no number at all is none of the extended reals.

    Both have a place on one scale, and the place tells the number: it counts
    units of `2 ^ -1074`, of which every integer and every double is a multiple
    (`number?_place`, `number?_placeOfInt`).  So places compare as the numbers at
    them do (`Place.compare_number?`), and with the laws of the order and those of
    the brackets this says all about the comparison of two values
    (`compare_exact`). -/

namespace Keyset.Number

/-- The number that a magnitude is. -/
noncomputable def Magnitude.size (m : Magnitude) : ℝ := m.significand * 2 ^ ((m.scale : ℤ) - 1074)

namespace Double

open Magnitude

/-- The number that a double is, if it is one. -/
noncomputable def number? : Double → Option EReal
  | nan _ => none
  | infinite true => some ⊥
  | infinite false => some ⊤
  | finite true m => some ((-m.size : ℝ) : EReal)
  | finite false m => some ((m.size : ℝ) : EReal)

/-- The number at a place on the scale, if there is one. -/
noncomputable def Place.number? : Place → Option EReal
  | notANumber => none
  | minusInfinity => some ⊥
  | units n => some (((n : ℝ) / unitsOfOne : ℝ) : EReal)
  | infinity => some ⊤

theorem cast_twoTo (n : Nat) : ((twoTo n : ℕ) : ℝ) = 2 ^ (n : ℤ) := by
  rw [zpow_natCast]
  exact Nat.cast_pow 2 n

theorem cast_unitsOfOne_pos : (0 : ℝ) < unitsOfOne := Nat.cast_pos.mpr unitsOfOne_pos

theorem cast_units_div (m : Magnitude) : (m.units : ℝ) / unitsOfOne = m.size := by
  have hone : (unitsOfOne : ℝ) = 2 ^ (1074 : ℤ) := by
    rw [unitsOfOne_eq]
    exact cast_twoTo 1074
  rw [units, size, Nat.cast_mul, cast_twoTo, hone, zpow_sub₀ two_ne_zero, mul_div_assoc]

theorem number?_place (d : Double) : d.place.number? = d.number? := by
  match d with
  | nan _ => rfl
  | infinite true => rfl
  | infinite false => rfl
  | finite true m =>
    show some ((((-(m.units : ℤ) : ℤ) : ℝ) / unitsOfOne : ℝ) : EReal) = some ((-m.size : ℝ) : EReal)
    rw [Int.cast_neg, Int.cast_natCast, neg_div, cast_units_div]
  | finite false m =>
    show some ((((m.units : ℤ) : ℝ) / unitsOfOne : ℝ) : EReal) = some ((m.size : ℝ) : EReal)
    rw [Int.cast_natCast, cast_units_div]

theorem number?_placeOfInt (n : Int) : (placeOfInt n).number? = some ((n : ℝ) : EReal) := by
  show some ((((n * (unitsOfOne : Int) : Int) : ℝ) / unitsOfOne : ℝ) : EReal) = _
  rw [Int.cast_mul, Int.cast_natCast, mul_div_cancel_right₀ _ cast_unitsOfOne_pos.ne']

theorem Place.compare_units (m n : Int) :
    (units m).compare (units n)
      = Ord.compare (((m : ℝ) / unitsOfOne : ℝ) : EReal) (((n : ℝ) / unitsOfOne : ℝ) : EReal) := by
  have hlt : ∀ {a b : Int}, a < b →
      (((a : ℝ) / unitsOfOne : ℝ) : EReal) < ((b : ℝ) / unitsOfOne : ℝ) := by
    intro a b h
    exact EReal.coe_lt_coe_iff.mpr
      (div_lt_div_of_pos_right (Int.cast_lt.mpr h) cast_unitsOfOne_pos)
  show Ord.compare m n = _
  rcases Int.lt_trichotomy m n with h | h | h
  · rw [Int.compare_eq_lt.mpr h, compare_lt_iff_lt.mpr (hlt h)]
  · rw [h, Int.compare_eq_eq.mpr rfl, compare_eq_iff_eq.mpr rfl]
  · rw [Int.compare_eq_gt.mpr h, compare_gt_iff_gt.mpr (hlt h)]

/-- Places compare as the numbers at them. -/
theorem Place.compare_number? {p q : Place} {x y : EReal} (hp : p.number? = some x)
    (hq : q.number? = some y) : p.compare q = Ord.compare x y := by
  have hbot : ∀ r : ℝ, Ord.compare (⊥ : EReal) r = .lt ∧ Ord.compare (r : EReal) ⊥ = .gt :=
    fun r => ⟨compare_lt_iff_lt.mpr (EReal.bot_lt_coe r), compare_gt_iff_gt.mpr (EReal.bot_lt_coe r)⟩
  have htop : ∀ r : ℝ, Ord.compare (⊤ : EReal) r = .gt ∧ Ord.compare (r : EReal) ⊤ = .lt :=
    fun r => ⟨compare_gt_iff_gt.mpr (EReal.coe_lt_top r), compare_lt_iff_lt.mpr (EReal.coe_lt_top r)⟩
  have hends : Ord.compare (⊥ : EReal) ⊤ = .lt ∧ Ord.compare (⊤ : EReal) ⊥ = .gt :=
    ⟨compare_lt_iff_lt.mpr bot_lt_top, compare_gt_iff_gt.mpr bot_lt_top⟩
  have hself : ∀ r : EReal, Ord.compare r r = .eq := fun _ => compare_eq_iff_eq.mpr rfl
  cases p <;> cases q <;> cases hp <;> cases hq
  case units.units m n => exact compare_units m n
  all_goals simp only [hbot, htop, hends, hself]; rfl

end Double

end Keyset.Number

namespace Keyset

/-- What a comparison owes to those who sort, count and cut by it, and the test of equality that
    goes with it. -/
structure TotalPreorder {α : Type} (compare : α → α → Ordering) (ties : α → α → Bool) : Prop where
  swap : ∀ a b, compare b a = (compare a b).swap
  trans : ∀ a b c, (compare a b).isLE → (compare b c).isLE → (compare a c).isLE
  ties_iff : ∀ a b, ties a b = true ↔ compare a b = .eq
  equivalence : Equivalence fun a b => ties a b = true
  congr : ∀ a a' b b', ties a a' = true → ties b b' = true → compare a b = compare a' b'

namespace FieldValue

open Number

theorem totalPreorder : TotalPreorder FieldValue.compare FieldValue.ties where
  swap a b := (compare_swap a b).symm
  trans _ _ _ := Std.TransCmp.isLE_trans
  ties_iff _ _ := ties_iff
  equivalence := ⟨ties_refl, fun {a b} h => ties_comm a b ▸ h, ties_trans⟩
  congr a a' b b' ha hb := by
    rw [Std.TransCmp.congr_left (ties_iff.mp ha), Std.TransCmp.congr_right (ties_iff.mp hb)]

/-- The number that a value is, if it is one. -/
noncomputable def number? : FieldValue → Option EReal
  | int n => some ((n.toInt : ℝ) : EReal)
  | float d => d.number?
  | _ => none

theorem number?_numberKey {v : FieldValue} (h : v.bracket = .number) :
    v.numberKey.number? = v.number? := by
  obtain ⟨n, rfl⟩ | ⟨d, rfl⟩ := eq_of_bracket_number h
  · exact Double.number?_placeOfInt n.toInt
  · exact Double.number?_place d

theorem isSome_number? (v : FieldValue) :
    v.number?.isSome = true ↔ v.bracket = .number ∧ v.isNaN = false := by
  match v with
  | float (.nan _) | float (.infinite true) | float (.infinite false)
  | float (.finite true _) | float (.finite false _)
  | null | int _ | string _ | objectId _ | bool _ | date _ =>
    simp [number?, Double.number?, bracket, isNaN, Double.isNaN]

/-- Numbers compare by what they are, and integers are not rounded. -/
theorem compare_number? {a b : FieldValue} {x y : EReal} (ha : a.number? = some x)
    (hb : b.number? = some y) : a.compare b = Ord.compare x y := by
  have hnumber : ∀ {v : FieldValue} {z : EReal}, v.number? = some z → v.bracket = .number :=
    fun h => ((isSome_number? _).mp (Option.isSome_of_eq_some h)).1
  rw [compare_numberKey (hnumber ha) (hnumber hb)]
  exact Double.Place.compare_number? (number?_numberKey (hnumber ha) ▸ ha)
    (number?_numberKey (hnumber hb) ▸ hb)

/-- What is no number lies below every number and ties with itself. -/
theorem compare_of_isNaN {a b : FieldValue} (ha : a.isNaN = true) (hb : b.bracket = .number) :
    a.compare b = if b.isNaN then .eq else .lt := by
  obtain ⟨d, rfl, hd⟩ : ∃ d, a = float d ∧ d.isNaN = true := by
    cases a with
    | float d => exact ⟨d, rfl, ha⟩
    | null | int | string | objectId | bool | date => exact nomatch ha
  cases d <;> cases hd
  obtain ⟨n, rfl⟩ | ⟨e, rfl⟩ := eq_of_bracket_number hb
  · rfl
  · cases e <;> rfl

/-- The order of field values is a total preorder, and that two values tie is its equivalence.
    Numbers compare by what they are, with nothing rounded; what is no number lies below them; and
    the brackets follow one another. -/
theorem compare_exact :
    TotalPreorder FieldValue.compare FieldValue.ties ∧
    (∀ v : FieldValue, v.number?.isSome = true ↔ v.bracket = .number ∧ v.isNaN = false) ∧
    (∀ a b : FieldValue, ∀ x ∈ a.number?, ∀ y ∈ b.number?, a.compare b = Ord.compare x y) ∧
    (∀ a b : FieldValue, a.isNaN = true → b.bracket = .number →
      a.compare b = if b.isNaN then .eq else .lt) ∧
    [Bracket.null, .number, .string, .objectId, .bool, .date].Pairwise fun first later =>
      ∀ a b : FieldValue, a.bracket = first → b.bracket = later → a.compare b = .lt := by
  refine ⟨totalPreorder, isSome_number?, fun a b x hx y hy => compare_number? hx hy,
    fun a b => compare_of_isNaN, ?_⟩
  have hrank : [Bracket.null, .number, .string, .objectId, .bool, .date].Pairwise
      fun first later => first.rank < later.rank := by decide
  refine hrank.imp ?_
  rintro first later hlt a b rfl rfl
  exact compare_of_rank_lt hlt

/-- The double `2 ^ 53`, above which not every integer is a double. -/
def twoTo53 : Double := .finite false ⟨4503599627370496, 1075, by decide, by decide, .inr (by decide)⟩

/-- The integer after `2 ^ 53` is told apart from the double, to which it would be rounded. -/
theorem compare_exact_twoTo53 :
    (int 9007199254740993).compare (float twoTo53) = .gt ∧
    (int 9007199254740992).ties (float twoTo53) = true := by
  obtain ⟨hpreorder, -, hexact, -⟩ := compare_exact
  have hsize : (float twoTo53).number? = some ((9007199254740992 : ℝ) : EReal) := by
    show some (((4503599627370496 : ℕ) * 2 ^ (((1075 : ℕ) : ℤ) - 1074) : ℝ) : EReal) = _
    norm_num
  constructor
  · rw [hexact _ _ _ rfl _ hsize, compare_gt_iff_gt, EReal.coe_lt_coe_iff]
    show (9007199254740992 : ℝ) < ((9007199254740993 : ℤ) : ℝ)
    norm_num
  · rw [hpreorder.ties_iff, hexact _ _ _ rfl _ hsize, compare_eq_iff_eq, EReal.coe_eq_coe_iff]
    show ((9007199254740992 : ℤ) : ℝ) = 9007199254740992
    norm_num

end FieldValue

end Keyset
