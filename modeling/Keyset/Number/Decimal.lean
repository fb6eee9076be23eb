import Keyset.Number.Double
import Keyset.Number.Digits

/-! # Decimal numbers and doubles

A decimal is a whole number times a power of ten.  The double of a decimal is the nearest one; the
decimal of a double is the shortest that reads back as it, and of the shortest the nearest.  When no
short decimal does, the exact value is used, so the decimal of a double always reads back. -/

namespace Keyset.Number

/-- The number `coefficient * 10 ^ exponent`. -/
structure Decimal where
  coefficient : Nat
  exponent : Int
deriving DecidableEq, Repr

namespace Decimal

/-- The decimal as a fraction of units of `2 ^ -1074`. -/
def unitFraction (d : Decimal) : Nat × Nat :=
  match d.exponent with
  | .ofNat e => (d.coefficient * tenTo e * Magnitude.unitsOfOne, 1)
  | .negSucc e => (d.coefficient * Magnitude.unitsOfOne, tenTo (e + 1))

/-- Whether the decimal is above every double: a power of ten this large leaves no doubt. -/
def isHuge (d : Decimal) : Bool := d.coefficient ≠ 0 && 400 < d.exponent

/-- Whether the decimal is far below the least positive double: three bits count for less than one
decimal place. -/
def isTiny (d : Decimal) : Bool :=
  d.coefficient = 0 || (d.coefficient.log2 : Int) + 1100 < -3 * d.exponent

/-- The magnitude nearest to the decimal; `none` beyond the largest one. -/
def nearest? (d : Decimal) : Option Magnitude :=
  if d.isHuge then none
  else if d.isTiny then some .zero
  else Magnitude.nearest? d.unitFraction.1 d.unitFraction.2

/-- The double nearest to the decimal with a sign. -/
def toDouble (negative : Bool) (d : Decimal) : Double := .ofMagnitude? negative d.nearest?

end Decimal

/-- Which of two equally near digits is written. -/
inductive Tie where
  | upward
  | toEven
deriving DecidableEq

namespace Magnitude

/-- The exact value as a decimal. -/
def exactDecimal (m : Magnitude) : Decimal := ⟨m.units * power 5 1074, -1074⟩

/-- Whether the magnitude lies below a power of ten. -/
def isBelowPower (m : Magnitude) : Int → Bool
  | .ofNat k => m.units < tenTo k * unitsOfOne
  | .negSucc k => m.units * tenTo (k + 1) < unitsOfOne

/-- The least power of ten above the magnitude, found from its binary length. -/
def decimalWidth (m : Magnitude) : Int :=
  let estimate := ((m.units.log2 : Int) - 1074) * 30103 / 100000 + 1
  if m.isBelowPower estimate then estimate else estimate + 1

/-- The decimals with `places` digits on both sides of the magnitude, the nearer one first, and of
two equally near ones the one that `tie` names. -/
def neighbours (m : Magnitude) (tie : Tie) (places : Nat) : List Decimal :=
  let width := m.decimalWidth
  let (numerator, denominator) := match width - places with
    | .ofNat e => (m.units, tenTo e * unitsOfOne)
    | .negSucc e => (m.units * tenTo (e + 1), unitsOfOne)
  let lower := numerator / denominator
  let below : Decimal := ⟨lower, width - places⟩
  let above : Decimal := if lower + 1 = tenTo places then ⟨1, width⟩ else ⟨lower + 1, width - places⟩
  match Ord.compare (2 * (numerator % denominator)) denominator with
  | .lt => [below, above]
  | .gt => [above, below]
  | .eq => if tie = .toEven ∧ lower % 2 = 0 then [below, above] else [above, below]

/-- Whether a decimal reads as this magnitude. -/
def readsBack (m : Magnitude) (d : Decimal) : Bool := d.nearest? == some m

/-- The shortest decimal that reads as the magnitude, with at most seventeen digits. -/
def shortest? (m : Magnitude) (tie : Tie) : Option Decimal :=
  (List.range 17).findSome? fun n => (m.neighbours tie (n + 1)).find? m.readsBack

/-- The decimal that is written for a magnitude. -/
def decimal (m : Magnitude) (tie : Tie) : Decimal :=
  if m.units = 0 then ⟨0, 0⟩ else (m.shortest? tie).getD m.exactDecimal

end Magnitude

/-! ## Layout -/

/-- The rules of a layout for doubles: which exponents of the leading digit are written without a
power of ten, whether a whole number still shows a decimal place, and which way ties go. -/
structure Layout where
  positional : Int → Bool
  wholePlace : Bool
  tie : Tie

/-- Positional for every exponent, no place after a whole number, ties upward. -/
def Layout.plain : Layout := ⟨fun _ => true, false, .upward⟩

/-- As `Layout.plain`, with one place at least. -/
def Layout.plainWithPlace : Layout := ⟨fun _ => true, true, .upward⟩

/-- Positional from `0.00001` to below `1e+16`, one place at least, ties to the even digit. -/
def Layout.json : Layout := ⟨fun e => -5 ≤ e && e < 16, true, .toEven⟩

namespace Decimal

/-- The digits with the last `places` of them after the point. -/
def withPoint (places : Nat) (ds : List Char) : List Char :=
  if places < ds.length then
    ds.take (ds.length - places) ++ '.' :: ds.drop (ds.length - places)
  else '0' :: '.' :: (List.replicate (places - ds.length) '0' ++ ds)

/-- The decimal in positional form. -/
def positional (d : Decimal) (wholePlace : Bool) : List Char :=
  match d.exponent with
  | .ofNat e =>
      digits (d.coefficient * tenTo e) ++ if wholePlace then ['.', '0'] else []
  | .negSucc e => withPoint (e + 1) (digits d.coefficient)

/-- The exponent of the leading digit. -/
def leadingExponent (d : Decimal) : Int := d.exponent + (digits d.coefficient).length - 1

/-- The decimal with one digit before the point and a power of ten. -/
def scientific (d : Decimal) : List Char :=
  let e := d.leadingExponent
  let power := 'e' :: (if e < 0 then '-' else '+') :: digits e.natAbs
  match digits d.coefficient with
  | lead :: [] => lead :: power
  | lead :: rest => lead :: '.' :: (rest ++ power)
  | [] => power

/-- The text of a decimal in a layout. -/
def text (layout : Layout) (d : Decimal) : List Char :=
  if layout.positional d.leadingExponent then d.positional layout.wholePlace else d.scientific

end Decimal

namespace Double

/-- The text of a finite double. -/
def finiteText (layout : Layout) (negative : Bool) (m : Magnitude) : List Char :=
  (if negative then ['-'] else []) ++ (m.decimal layout.tie).text layout

/-- The text of a double in plain layout, with names for what has no digits. -/
def text : Double → List Char
  | .nan _ => ['N', 'a', 'N']
  | .infinite true => ['-', 'i', 'n', 'f']
  | .infinite false => ['i', 'n', 'f']
  | .finite s m => finiteText .plain s m

end Double

end Keyset.Number
