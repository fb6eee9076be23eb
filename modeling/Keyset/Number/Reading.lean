import Keyset.Number.Decimal

/-! # Reading doubles

A double is read from decimal text with an optional sign, point and power of ten, and rounds to the
nearest; the names of infinity and of no number are read in any case. -/

namespace Keyset.Number

/-- The digits at the front of a text, and the rest. -/
def spanDigits (cs : List Char) : List Char × List Char :=
  (cs.takeWhile isDigit, cs.dropWhile isDigit)

/-- An ASCII letter in lower case, and any other character itself. -/
def lowerAscii (c : Char) : Char :=
  if 'A' ≤ c ∧ c ≤ 'Z' then Char.ofNat (c.toNat + 32) else c

/-- Reads the power of ten that may end a number: nothing, or `e`, an optional sign and digits. -/
def readPower? : List Char → Option Int
  | [] => some 0
  | mark :: rest => if lowerAscii mark = 'e' then readSigned? rest else none

/-- Reads an unsigned decimal: digits with at most one point among them, at least one digit, and an
optional power of ten. -/
def readDecimal? (cs : List Char) : Option Decimal :=
  let (whole, afterWhole) := spanDigits cs
  let (places, rest) := match afterWhole with
    | '.' :: more => spanDigits more
    | _ => ([], afterWhole)
  if whole ++ places = [] then none
  else match readPower? rest with
    | none => none
    | some e => some ⟨ofDigits (whole ++ places), e - places.length⟩

/-- Reads an unsigned double with a sign given. -/
def readUnsignedDouble? (negative : Bool) (cs : List Char) : Option Double :=
  match readDecimal? cs with
  | some d => some (d.toDouble negative)
  | none =>
      let name := cs.map lowerAscii
      if name = ['i', 'n', 'f'] ∨ name = ['i', 'n', 'f', 'i', 'n', 'i', 't', 'y'] then
        some (.infinite negative)
      else if name = ['n', 'a', 'n'] then some (.nan negative)
      else none

/-- Reads a double. -/
def readDouble? : List Char → Option Double
  | '-' :: rest => readUnsignedDouble? true rest
  | '+' :: rest => readUnsignedDouble? false rest
  | cs => readUnsignedDouble? false cs

end Keyset.Number
