import Keyset.Json.Basic
import Keyset.Number.Digits

/-! # Numerals in JSON text

An integer within 64 bits, signed or not, is kept as it is; every other numeral is a double.  A
double is made in two steps that both round: the leading digits that fit 64 bits become a double,
which is then scaled by the double of a power of ten.  Beyond the largest double there is no value. -/

namespace Keyset.Json

open Keyset.Number

/-- The parts of a numeral: its sign, its digits before and after the point, and its power of ten. -/
structure Numeral where
  negative : Bool
  whole : List Char
  places : Option (List Char)
  power : Option Int

namespace Numeral

/-- Adds digits to a number as long as it stays within 64 bits; also gives how many were added. -/
def addDigits (n : Nat) : List Char → Nat × Nat
  | [] => (n, 0)
  | c :: rest =>
      let next := 10 * n + digitValue c
      if next ≤ maxCount then
        let (total, used) := addDigits next rest
        (total, used + 1)
      else (n, 0)

/-- The double of a power of ten. -/
def powerOfTen (e : Nat) : Magnitude := (Magnitude.ofNat? (tenTo e)).getD .zero

/-- The magnitude divided `steps` times by `step` and then by a power of ten; zero stays as it is. -/
def divideBySteps (step : Magnitude) (m : Magnitude) : Nat → Nat → Option Magnitude
  | 0, e => m.div? (powerOfTen e)
  | steps + 1, e =>
      if m.units = 0 then some m
      else match m.div? step with
        | some smaller => divideBySteps step smaller steps e
        | none => none

/-- The magnitude divided by a power of ten, at most 308 places at a time. -/
def scaleDown (m : Magnitude) (e : Nat) : Option Magnitude :=
  divideBySteps (powerOfTen 308) m ((e - 1) / 308) (e - (e - 1) / 308 * 308)

/-- The magnitude times a power of ten; `none` beyond the largest magnitude. -/
def scale (m : Magnitude) : Int → Option Magnitude
  | .ofNat e =>
      if e ≤ 308 then m.mul? (powerOfTen e)
      else if m.units = 0 then some m
      else none
  | .negSucc e => scaleDown m (e + 1)

/-- The double of the numeral. -/
def double? (n : Numeral) : Option Double :=
  let (head, usedWhole) := addDigits 0 n.whole
  let (total, usedPlaces) := addDigits head (n.places.getD [])
  let exponent : Int := n.whole.length - usedWhole - usedPlaces + n.power.getD 0
  match Magnitude.ofNat? total with
  | none => none
  | some m => (scale m exponent).map (.finite n.negative)

/-- Whether the numeral is kept as an integer: it has neither point nor power, and fits 64 bits. -/
def integer? (n : Numeral) : Option Int :=
  if n.places.isSome || n.power.isSome then none
  else
    let value := ofDigits n.whole
    if n.negative then
      if 0 < value ∧ value ≤ 9223372036854775808 then some (-(value : Int)) else none
    else if value ≤ maxCount then some value
    else none

/-- The value of the numeral. -/
def value? (n : Numeral) : Option Json :=
  match n.integer? with
  | some i => some (.integer i)
  | none => n.double?.map .number

end Numeral

end Keyset.Json
