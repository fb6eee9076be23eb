import Keyset.Number.Power

/-! # Binary doubles

The values of the IEEE 754 binary64 format, as exact numbers.  A finite magnitude is a whole number
of units of `2 ^ -1074`, the smallest positive double, and is kept in the one form that the format
gives it.  `Magnitude.nearest?` rounds a fraction of units to the nearest magnitude, ties to the even
significand; everything that reads or scales doubles is built on it. -/

namespace Keyset.Number

/-- A finite magnitude, `significand * 2 ^ scale` units of `2 ^ -1074`: the significand has 53 bits,
and fewer only in the lowest scale; `9007199254740992` is the first number with more. -/
structure Magnitude where
  significand : Nat
  scale : Nat
  significand_lt : significand < 9007199254740992
  scale_le : scale ≤ 2045
  canonical : scale = 0 ∨ 4503599627370496 ≤ significand
deriving DecidableEq

namespace Magnitude

/-- The magnitude with these parts, if they are in canonical form and range. -/
def ofParts? (significand scale : Nat) : Option Magnitude :=
  if h : significand < 9007199254740992 ∧ scale ≤ 2045 ∧
      (scale = 0 ∨ 4503599627370496 ≤ significand) then
    some ⟨significand, scale, h.1, h.2.1, h.2.2⟩
  else none

/-- The magnitude zero. -/
def zero : Magnitude := ⟨0, 0, by decide, by decide, .inl rfl⟩

/-- How many units of `2 ^ -1074` the magnitude is. -/
def units (m : Magnitude) : Nat := m.significand * twoTo m.scale

/-- How many units one is.  The power stays folded: proofs treat it as a positive number. -/
@[irreducible] def unitsOfOne : Nat := twoTo 1074

theorem unitsOfOne_eq : unitsOfOne = twoTo 1074 := by
  unfold unitsOfOne
  exact Eq.refl _

private theorem pos_of_eq_twoTo {n k : Nat} (h : n = twoTo k) : 0 < n := h ▸ twoTo_pos k

theorem unitsOfOne_pos : 0 < unitsOfOne := pos_of_eq_twoTo unitsOfOne_eq

/-- The quotient rounded to the nearest whole number, a half to the even one. -/
def roundHalfEven (numerator denominator : Nat) : Nat :=
  let floor := numerator / denominator
  let twice := 2 * (numerator % denominator)
  if twice < denominator ∨ (twice = denominator ∧ floor % 2 = 0) then floor else floor + 1

/-- The magnitude nearest to a fraction of units, ties to the even significand; `none` beyond the
largest magnitude. -/
def nearest? (numerator denominator : Nat) : Option Magnitude :=
  let scale := (numerator / denominator).log2 - 52
  let significand := roundHalfEven numerator (denominator * twoTo scale)
  if significand = 9007199254740992 then ofParts? 4503599627370496 (scale + 1)
  else ofParts? significand scale

/-- The magnitude nearest to a whole number. -/
def ofNat? (n : Nat) : Option Magnitude := nearest? (n * unitsOfOne) 1

/-- The product, rounded. -/
def mul? (a b : Magnitude) : Option Magnitude := nearest? (a.units * b.units) unitsOfOne

/-- The quotient by a magnitude other than zero, rounded. -/
def div? (a b : Magnitude) : Option Magnitude := nearest? (a.units * unitsOfOne) b.units

/-- Whether the magnitude is a whole number. -/
def isWhole (m : Magnitude) : Bool := m.units % unitsOfOne == 0

/-- Whether the magnitude is neither zero nor below `2 ^ -1022`, where significands get short. -/
def isNormal (m : Magnitude) : Bool := 4503599627370496 ≤ m.significand

end Magnitude

/-- A double: a number that may be an infinity, or no number at all.  Zero has a sign, and so has
what is no number. -/
inductive Double where
  | nan (negative : Bool)
  | infinite (negative : Bool)
  | finite (negative : Bool) (magnitude : Magnitude)
deriving DecidableEq

namespace Double

/-- The double of a sign and a rounded magnitude, which is infinite when there is none. -/
def ofMagnitude? (negative : Bool) : Option Magnitude → Double
  | some m => .finite negative m
  | none => .infinite negative

/-- Positive zero. -/
def zero : Double := .finite false .zero

/-- Whether the value is no number. -/
def isNaN : Double → Bool
  | .nan _ => true
  | _ => false

/-! ## Order

Every number has a place on one scale: below all others what is no number, then minus infinity, the
finite numbers by their signed units, and infinity. -/

/-- A place on the scale of numbers. -/
inductive Place where
  | notANumber
  | minusInfinity
  | units (n : Int)
  | infinity
deriving DecidableEq

namespace Place

/-- The part of the scale that a place lies in. -/
def part : Place → Nat
  | notANumber => 0
  | minusInfinity => 1
  | units _ => 2
  | infinity => 3

/-- The signed units of a finite place. -/
def offset : Place → Int
  | units n => n
  | _ => 0

/-- Which of two places is the lower one. -/
def compare (a b : Place) : Ordering :=
  (Ord.compare a.part b.part).then (Ord.compare a.offset b.offset)

end Place

/-- The signed units of a finite double. -/
def signedUnits (negative : Bool) (m : Magnitude) : Int :=
  if negative then -(m.units : Int) else m.units

/-- The place of a double; the sign of zero and of what is no number has no part in it. -/
def place : Double → Place
  | .nan _ => .notANumber
  | .infinite true => .minusInfinity
  | .infinite false => .infinity
  | .finite s m => .units (signedUnits s m)

/-- The place of an integer, which is exact however large the integer. -/
def placeOfInt (n : Int) : Place := .units (n * (Magnitude.unitsOfOne : Int))

/-- The order of doubles: what is no number lies below every number and ties with itself, and zeros
of either sign tie. -/
def compare (a b : Double) : Ordering :=
  match a.isNaN, b.isNaN with
  | true, true => .eq
  | true, false => .lt
  | false, true => .gt
  | false, false => a.place.compare b.place

/-- The whole part of a finite double, rounded towards zero. -/
def truncate : Double → Int
  | .finite s m => (signedUnits s m).tdiv Magnitude.unitsOfOne
  | _ => 0

/-- The order of an integer and a double, in which the integer is never rounded.  A double outside
the range of the integers, from `-2 ^ 63` up to `2 ^ 63`, is told by the range; within it the whole
part is an integer too, and what is cut off decides between equals. -/
def compareInt (n : Int64) (d : Double) : Ordering :=
  if d.isNaN then .gt
  else if (d.place.compare (placeOfInt 9223372036854775808)).isGE then .lt
  else if (d.place.compare (placeOfInt (-9223372036854775808))).isLT then .gt
  else
    (Ord.compare n.toInt (Int64.ofInt d.truncate).toInt).then
      ((placeOfInt d.truncate).compare d.place)

end Double

end Keyset.Number
