import Keyset.FieldValue

/-! # The order of field values is a total preorder

    Each value has a KEY: the rank of its bracket and then its content, spread
    over one component for each bracket.  Values compare as their keys do, one
    component after the other (`compare_eq_compareKeys`), so the laws of the
    order are those of a lexicographic product.  That two values tie is an
    equivalence, and it is the one that lists of values inherit.

    The key of a number is its place on the scale.  An integer and a double are
    compared by range, by whole part and by what is cut off, which comes to the
    same as comparing their places (`compareInt_eq_place`). -/

namespace Keyset.Number.Double.Place

open Std

theorem compare_eq_compareLex :
    Place.compare = compareLex (compareOn part) (compareOn offset) := rfl

/-- Places on the scale of numbers are totally preordered. -/
instance : TransCmp Place.compare := by
  rw [compare_eq_compareLex]
  infer_instance

theorem compare_self (p : Place) : p.compare p = .eq := ReflCmp.compare_self

theorem compare_swap {p q : Place} : (p.compare q).swap = q.compare p := OrientedCmp.eq_swap.symm

theorem compare_isLE_trans {p q r : Place} (hpq : (p.compare q).isLE) (hqr : (q.compare r).isLE) :
    (p.compare r).isLE :=
  TransCmp.isLE_trans hpq hqr

/-- Whole numbers compare as their places do. -/
theorem compare_placeOfInt (m n : Int) :
    (placeOfInt m).compare (placeOfInt n) = Ord.compare m n := by
  have hpos : (0 : Int) < (Magnitude.unitsOfOne : Int) := by
    exact_mod_cast Magnitude.unitsOfOne_pos
  show (Ord.compare 2 2).then
    (Ord.compare (m * (Magnitude.unitsOfOne : Int)) (n * (Magnitude.unitsOfOne : Int))) = _
  rw [show Ord.compare 2 2 = Ordering.eq from rfl, Ordering.eq_then]
  rcases Int.lt_trichotomy m n with h | h | h
  · rw [Int.compare_eq_lt.mpr h, Int.compare_eq_lt.mpr (Int.mul_lt_mul_of_pos_right h hpos)]
  · rw [h, Int.compare_eq_eq.mpr rfl, Int.compare_eq_eq.mpr rfl]
  · rw [Int.compare_eq_gt.mpr h, Int.compare_eq_gt.mpr (Int.mul_lt_mul_of_pos_right h hpos)]

end Keyset.Number.Double.Place

namespace Keyset.Number.Double

/-! ## Doubles and integers -/

theorem compare_eq_place (a b : Double) : a.compare b = a.place.compare b.place := by
  rcases a with _ | (_ | _) | _ <;> rcases b with _ | (_ | _) | _ <;> rfl

variable {unit x : Int}

/-- Whole parts and then what is cut off tell how many units there are. -/
theorem compare_tdiv_then (hpos : 0 < unit) (n : Int) :
    (Ord.compare n (x.tdiv unit)).then (Ord.compare (x.tdiv unit * unit) x)
      = Ord.compare (n * unit) x := by
  have hsplit : x.tdiv unit * unit + x.tmod unit = x := Int.tdiv_mul_add_tmod x unit
  have hlt : x.tmod unit < unit := Int.tmod_lt_of_pos x hpos
  have hgt : -unit < x.tmod unit := Int.lt_tmod_of_pos x hpos
  rcases Int.lt_trichotomy n (x.tdiv unit) with h | h | h
  · have hle : (n + 1) * unit ≤ x.tdiv unit * unit :=
      Int.mul_le_mul_of_nonneg_right h (Int.le_of_lt hpos)
    rw [Int.add_mul, Int.one_mul] at hle
    rw [Int.compare_eq_lt.mpr h, Int.compare_eq_lt.mpr (by omega : n * unit < x)]
    rfl
  · rw [h, Int.compare_eq_eq.mpr rfl, Ordering.eq_then]
  · have hle : (x.tdiv unit + 1) * unit ≤ n * unit :=
      Int.mul_le_mul_of_nonneg_right h (Int.le_of_lt hpos)
    rw [Int.add_mul, Int.one_mul] at hle
    rw [Int.compare_eq_gt.mpr h, Int.compare_eq_gt.mpr (by omega : x < n * unit)]
    rfl

theorem le_tdiv {low : Int} (hpos : 0 < unit) (h : low * unit ≤ x) : low ≤ x.tdiv unit := by
  have hsplit : x.tdiv unit * unit + x.tmod unit = x := Int.tdiv_mul_add_tmod x unit
  have hlt : x.tmod unit < unit := Int.tmod_lt_of_pos x hpos
  have hmul : low * unit < (x.tdiv unit + 1) * unit := by
    rw [Int.add_mul, Int.one_mul]
    omega
  exact Int.le_of_lt_add_one (Int.lt_of_mul_lt_mul_right hmul (Int.le_of_lt hpos))

theorem tdiv_lt {high : Int} (hpos : 0 < unit) (hhigh : 0 < high) (h : x < high * unit) :
    x.tdiv unit < high := by
  rcases Int.le_total 0 x with hx | hx
  · rw [Int.tdiv_eq_ediv_of_nonneg hx]
    exact Int.ediv_lt_of_lt_mul hpos h
  · have hneg : 0 ≤ (-x).tdiv unit := Int.tdiv_nonneg (by omega) (Int.le_of_lt hpos)
    rw [Int.neg_tdiv] at hneg
    omega

/-- An integer compares with a double as the exact numbers do. -/
theorem compareInt_eq_place (n : Int64) (d : Double) :
    compareInt n d = (placeOfInt n.toInt).compare d.place := by
  match d with
  | nan _ => rfl
  | infinite true => rfl
  | infinite false => rfl
  | finite negative m =>
    let unit : Int := Magnitude.unitsOfOne
    let x := signedUnits negative m
    have hpos : 0 < unit := Int.natCast_pos.mpr Magnitude.unitsOfOne_pos
    have hmin : -9223372036854775808 ≤ n.toInt := n.le_toInt
    have hmax : n.toInt < 9223372036854775808 := n.toInt_lt
    show (if (Ord.compare x (9223372036854775808 * unit)).isGE then Ordering.lt
      else if (Ord.compare x (-9223372036854775808 * unit)).isLT then .gt
      else (Ord.compare n.toInt (Int64.ofInt (x.tdiv unit)).toInt).then
        (Ord.compare (x.tdiv unit * unit) x)) = Ord.compare (n.toInt * unit) x
    simp only [Int.isGE_compare, Ordering.isLT_iff_eq_lt, Int.compare_eq_lt]
    by_cases hceiling : 9223372036854775808 * unit ≤ x
    · have hlt : n.toInt * unit < 9223372036854775808 * unit :=
        Int.mul_lt_mul_of_pos_right hmax hpos
      rw [if_pos hceiling, Int.compare_eq_lt.mpr (Int.lt_of_lt_of_le hlt hceiling)]
    · rw [if_neg hceiling]
      by_cases hfloor : x < -9223372036854775808 * unit
      · have hle : -9223372036854775808 * unit ≤ n.toInt * unit :=
          Int.mul_le_mul_of_nonneg_right hmin (Int.le_of_lt hpos)
        rw [if_pos hfloor, Int.compare_eq_gt.mpr (Int.lt_of_lt_of_le hfloor hle)]
      · -- the whole part is an integer of the machine, so that converting it changes nothing
        have hwhole : (Int64.ofInt (x.tdiv unit)).toInt = x.tdiv unit :=
          Int64.toInt_ofInt_of_le (le_tdiv hpos (Int.not_lt.mp hfloor))
            (tdiv_lt hpos (by decide) (Int.not_le.mp hceiling))
        rw [if_neg hfloor, hwhole, compare_tdiv_then hpos]

end Keyset.Number.Double

namespace Keyset.FieldValue

open Std Number

/-! ## Keys -/

/-- The place of a number on the scale; one fixed place for every other value. -/
def numberKey : FieldValue → Double.Place
  | int n => Double.placeOfInt n.toInt
  | float d => d.place
  | _ => .notANumber

/-- The text of a string. -/
def stringKey : FieldValue → String
  | string s => s
  | _ => ""

/-- The bytes of an object id. -/
def idKey : FieldValue → List UInt8
  | objectId id => id.bytes
  | _ => []

/-- The truth of a truth value. -/
def boolKey : FieldValue → Bool
  | bool b => b
  | _ => false

/-- The milliseconds of a date. -/
def dateKey : FieldValue → Int
  | date millis => millis.toInt
  | _ => 0

/-- The comparison of keys. -/
def compareKeys : FieldValue → FieldValue → Ordering :=
  compareLex (compareOn fun v => v.bracket.rank) <|
  compareLex (fun a b => a.numberKey.compare b.numberKey) <|
  compareLex (compareOn stringKey) <|
  compareLex (compareOn idKey) <|
  compareLex (compareOn boolKey) (compareOn dateKey)

instance : TransCmp fun a b : FieldValue => a.numberKey.compare b.numberKey where
  eq_swap := Double.Place.compare_swap.symm
  isLE_trans := Double.Place.compare_isLE_trans

instance : TransCmp compareKeys := by
  unfold compareKeys
  infer_instance

/-- Values compare as their keys do. -/
theorem compare_eq_compareKeys : FieldValue.compare = compareKeys := by
  funext a b
  -- values of two brackets compare by rank alone; in one bracket all components but one agree
  cases a <;> cases b <;>
    first
    | rfl
    | simp [FieldValue.compare, compareKeys, compareLex, compareOn, bracket, numberKey, stringKey,
        idKey, boolKey, dateKey, Ordering.then_eq, Double.Place.compare_placeOfInt,
        Double.Place.compare_self, Double.compare_eq_place, Double.compareInt_eq_place,
        Double.Place.compare_swap]

/-- The order of field values is a total preorder. -/
instance : TransCmp FieldValue.compare := by
  rw [compare_eq_compareKeys]
  infer_instance

theorem compare_swap (a b : FieldValue) : (a.compare b).swap = b.compare a :=
  OrientedCmp.eq_swap.symm

/-! ## Ties -/

theorem ties_iff {a b : FieldValue} : a.ties b = true ↔ a.compare b = .eq := by
  rw [ties, beq_iff_eq]

theorem ties_refl (a : FieldValue) : a.ties a = true :=
  ties_iff.mpr ReflCmp.compare_self

theorem ties_comm (a b : FieldValue) : a.ties b = b.ties a := by
  rw [Bool.eq_iff_iff, ties_iff, ties_iff]
  exact OrientedCmp.eq_comm

theorem ties_trans {a b c : FieldValue} (hab : a.ties b = true) (hbc : b.ties c = true) :
    a.ties c = true :=
  ties_iff.mpr (TransCmp.eq_trans (ties_iff.mp hab) (ties_iff.mp hbc))

end Keyset.FieldValue
