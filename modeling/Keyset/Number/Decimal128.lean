import Keyset.Number.Digits
import Keyset.Number.Reading

/-! # Decimal floating point

Decimal numbers of up to thirty-four digits with a power of ten, in which trailing zeros count: 1.0
and 1.00 are two values.  A text that would have to be rounded is refused. -/

namespace Keyset.Number

/-- A decimal floating point number. -/
inductive Decimal128 where
  | nan
  | infinite (negative : Bool)
  | finite (negative : Bool) (coefficient : Nat) (exponent : Int)
deriving DecidableEq

namespace Decimal128

/-- The most digits that a coefficient has. -/
def maxDigits : Nat := 34

/-- The largest power of ten. -/
def maxExponent : Int := 6111

/-- The least power of ten. -/
def minExponent : Int := -6176

/-- The first digits of a text, if the others are zeros. -/
def keepDigits? (count : Nat) (ds : List Char) : Option (List Char) :=
  if (ds.drop count).all (· == '0') then some (ds.take count) else none

/-- Drops zeros at the front.  A number without any other digits is zero, also one without any
digits. -/
def dropLeadingZeros (ds : List Char) : List Char :=
  match ds.dropWhile (· == '0') with
  | [] => ['0']
  | ds => ds

/-- Shortens digits to the most that a coefficient has. -/
def fitDigits? (ds : List Char) (e : Int) : Option (List Char × Int) :=
  if ds.length ≤ maxDigits then some (ds, e)
  else (keepDigits? maxDigits ds).map fun kept => (kept, e + (ds.length - maxDigits : Nat))

/-- Drops zeros at the end until the power of ten is large enough. -/
def raiseExponent? (ds : List Char) (e : Int) : Option (List Char × Int) :=
  if minExponent ≤ e then some (ds, e)
  else if ds = ['0'] then some (ds, minExponent)
  else
    let excess := (minExponent - e).toNat
    if ds.length < excess then none
    else (keepDigits? (ds.length - excess) ds).map fun kept => (kept, minExponent)

/-- Adds zeros at the end until the power of ten is small enough. -/
def lowerExponent? (ds : List Char) (e : Int) : Option (List Char × Int) :=
  if e ≤ maxExponent then some (ds, e)
  else if ds = ['0'] then some (ds, maxExponent)
  else
    let excess := (e - maxExponent).toNat
    if maxDigits < ds.length + excess then none
    else some (ds ++ List.replicate excess '0', maxExponent)

/-- Reads a power of ten of sixteen bits. -/
def readExponent? (cs : List Char) : Option Int :=
  match readSigned? cs with
  | some e => if -32768 ≤ e ∧ e ≤ 32767 then some e else none
  | none => none

/-- Reads a finite number without its sign, in lower case. -/
def readFinite? (negative : Bool) (cs : List Char) : Option Decimal128 := do
  let base := cs.takeWhile (· ≠ 'e')
  let e ← match cs.dropWhile (· ≠ 'e') with
    | [] => some 0
    | _ :: rest => readExponent? rest
  let whole := base.takeWhile (· ≠ '.')
  let places := (base.dropWhile (· ≠ '.')).drop 1
  let e : Int := e - places.length
  if e < -32768 then none
  let (ds, e) ← fitDigits? (dropLeadingZeros (whole ++ places)) e
  let (ds, e) ← raiseExponent? ds e
  let (ds, e) ← lowerExponent? ds e
  let coefficient ← readUnsigned? ds
  return .finite negative coefficient e

/-- Reads an unsigned number. -/
def readUnsignedText? (negative : Bool) (cs : List Char) : Option Decimal128 :=
  let lower := cs.map lowerAscii
  if lower = ['n', 'a', 'n'] ∨ lower = ['s', 'n', 'a', 'n'] then some .nan
  else if lower = ['i', 'n', 'f'] ∨ lower = ['i', 'n', 'f', 'i', 'n', 'i', 't', 'y'] then
    some (.infinite negative)
  else readFinite? negative lower

/-- Reads a number. -/
def read? : List Char → Option Decimal128
  | '-' :: rest => readUnsignedText? true rest
  | '+' :: rest => readUnsignedText? false rest
  | cs => readUnsignedText? false cs

/-- Reads the sixteen bytes of a number, the least significant one first.  The highest bit is the sign;
the next five tell the numbers that are not finite apart, and those whose coefficient is too large to
count. -/
def ofBytes? (bytes : List UInt8) : Option Decimal128 :=
  if bytes.length = 16 then
    let word := bytes.foldr (fun b n => b.toNat + 256 * n) 0
    let negative : Bool := twoTo 127 ≤ word
    let magnitude := word % twoTo 127
    let kind := magnitude / twoTo 122
    if kind = 31 then some .nan
    else if kind = 30 then some (.infinite negative)
    else if 24 ≤ kind then
      some (.finite negative 0 (minExponent + (magnitude / twoTo 111 % twoTo 14 : Nat)))
    else
      some (.finite negative (magnitude % twoTo 113) (minExponent + (magnitude / twoTo 113 : Nat)))
  else none

/-- The digits with a power of ten: positional unless the power is positive or the number small. -/
def finiteText (coefficient : Nat) (e : Int) : List Char :=
  let ds := digits coefficient
  let leading := e + ds.length - 1
  if e = 0 then ds
  else if e < 0 ∧ -6 ≤ leading then Decimal.withPoint e.natAbs ds
  else
    let power := 'E' :: (if leading < 0 then '-' else '+') :: digits leading.natAbs
    match ds with
    | lead :: d :: rest => lead :: '.' :: d :: (rest ++ power)
    | _ => ds ++ power

/-- The text of a number. -/
def text : Decimal128 → List Char
  | .nan => ['N', 'a', 'N']
  | .infinite negative =>
      (if negative then ['-'] else []) ++ ['I', 'n', 'f', 'i', 'n', 'i', 't', 'y']
  | .finite negative coefficient e =>
      (if negative then ['-'] else []) ++ finiteText coefficient e

end Decimal128

end Keyset.Number
