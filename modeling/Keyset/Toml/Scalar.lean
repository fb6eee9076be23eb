import Keyset.Calendar
import Keyset.Text.Hex
import Keyset.Toml.Basic

/-! # TOML numbers, truth values and moments

A scalar is a run of letters, digits and a few marks; a moment may have a blank between its date and
its time.  What such a run says is decided by its form as a whole. -/

namespace Keyset.Toml

open Number

/-- The characters that end a scalar. -/
def scalarEnds : List Char := ['=', ',', '[', ']', '\x7b', '\x7d', ' ', '\t', '#', '\r', '\n']

/-- Whether a character can be part of a scalar. -/
def isScalarChar (c : Char) : Bool := !scalarEnds.contains c

/-- The digits of a run in which single underscores may stand between digits. -/
def ungrouped? (isDigit : Char → Bool) : List Char → Option (List Char)
  | [] => none
  | [c] => if isDigit c then some [c] else none
  | c :: '_' :: rest =>
      if isDigit c then (ungrouped? isDigit rest).map (c :: ·) else none
  | c :: d :: rest =>
      if isDigit c then (ungrouped? isDigit (d :: rest)).map (c :: ·) else none

/-- The number that digits spell in a base. -/
def inBase (base : Nat) (ds : List Char) : Nat :=
  ds.foldl (fun n d => base * n + (Text.Hex.value? d).getD 0) 0

/-- Whether a character is a digit of a base up to sixteen. -/
def isDigitOf (base : Nat) (c : Char) : Bool :=
  match Text.Hex.value? c with
  | some n => n < base
  | none => false

/-- Reads the digits of a whole number in a base.  No digits at all are a misspelt number. -/
def based? (base : Nat) : List Char → Option Toml
  | [] => some .misspelt
  | ds => (ungrouped? (isDigitOf base) ds).map fun ds => .integer (inBase base ds)

/-- Reads a whole number with a mark for its base. -/
def basedInteger? : List Char → Option Toml
  | '0' :: 'x' :: ds => based? 16 ds
  | '0' :: 'o' :: ds => based? 8 ds
  | '0' :: 'b' :: ds => based? 2 ds
  | _ => none

/-- Splits off a sign: whether it is minus, and the rest. -/
def splitSign : List Char → Bool × List Char
  | '-' :: rest => (true, rest)
  | '+' :: rest => (false, rest)
  | cs => (false, cs)

/-- Whether a text begins with a sign. -/
def isSigned (cs : List Char) : Bool := (splitSign cs).2.length < cs.length

/-- Whether a text is the digits of a whole number without its sign, in which no zero leads other
digits.  After a sign an underscore can stand before all of them. -/
def isWhole (signed : Bool) : List Char → Bool
  | '_' :: ds => signed && (ungrouped? isDigit ds).isSome
  | '0' :: _ :: _ => false
  | ds => (ungrouped? isDigit ds).isSome

/-- Whether a text can be the first of some groups with underscores between them. -/
def isFirstGroup (signed : Bool) : List Char → Bool
  | [] => signed
  | c :: cs => (c :: cs).all isDigit && c != '0'

/-- Whether a text begins with a digit of any base. -/
def beginsWithDigit (cs : List Char) : Bool := (cs.take 1).any (isDigitOf 16)

/-- The characters of the groups of a number that have underscores between them.  Only the ends of
a group that meet an underscore have to be digits, and of any base. -/
def groups? (signed : Bool) (cs : List Char) : Option (List Char) :=
  match cs.splitOn '_' with
  | first :: second :: more =>
      let rest := second :: more
      if isFirstGroup signed first && rest.all beginsWithDigit &&
          rest.dropLast.all fun g => beginsWithDigit g.reverse then
        some (first ++ rest.flatten)
      else none
  | _ => none

/-- Whether a character is the letter of a power of ten. -/
def isPowerMark (c : Char) : Bool := c == 'e' || c == 'E'

/-- Whether a character can only be part of a number that is not whole. -/
def isFloatMark (c : Char) : Bool := c == '.' || isPowerMark c

/-- Reads a whole number in base ten.  If it is in groups, it may also be misspelt. -/
def decimalInteger? (cs : List Char) : Option Toml :=
  let (negative, rest) := splitSign cs
  let ofWhole (ds : List Char) : Toml :=
    .integer (if negative then -(ofDigits ds : Int) else ofDigits ds)
  if cs.any isFloatMark then none
  else if isWhole (isSigned cs) rest then some (ofWhole (rest.filter (· ≠ '_')))
  else
    (groups? (isSigned cs) rest).map fun ds => if ds.all isDigit then ofWhole ds else .misspelt

/-- Reads an integer. -/
def integer? (cs : List Char) : Option Toml :=
  match basedInteger? cs with
  | some n => some n
  | none => decimalInteger? cs

/-- Whether a text is a power of ten without its letter: digits after an optional sign. -/
def isPower (cs : List Char) : Bool := (ungrouped? isDigit (splitSign cs).2).isSome

/-- Whether a text is places that a power of ten may follow. -/
def isPlaces (cs : List Char) : Bool :=
  let places := cs.takeWhile fun c => !isPowerMark c
  (ungrouped? isDigit places).isSome &&
    match cs.dropWhile fun c => !isPowerMark c with
    | [] => true
    | _ :: power => isPower power

/-- Whether a text is a number with a point or a power of ten, or one of the special numbers. -/
def isFloat (cs : List Char) : Bool :=
  let rest := (splitSign cs).2
  let whole := rest.takeWhile fun c => !isFloatMark c
  rest == ['i', 'n', 'f'] || rest == ['n', 'a', 'n'] ||
    (isWhole (isSigned cs) whole &&
      match rest.dropWhile fun c => !isFloatMark c with
      | '.' :: places => isPlaces places
      | _ :: power => isPower power
      | [] => false)

/-! ## Moments -/

/-- Whether a text is a day of the calendar. -/
def isDay (cs : List Char) : Bool :=
  match cs with
  | [a, b, c, d, '-', e, f, '-', g, h] =>
      match readDigits? [a, b, c, d], readDigits? [e, f], readDigits? [g, h] with
      | some year, some month, some day => (Calendar.Day.mk year month day).isValid
      | _, _, _ => false
  | _ => false

/-- Whether two characters are a number up to a bound. -/
def isUpTo (bound : Nat) (a b : Char) : Bool :=
  match readDigits? [a, b] with
  | some n => n ≤ bound
  | none => false

/-- Whether a text is a fraction of a second, or nothing. -/
def isFraction : List Char → Bool
  | [] => true
  | '.' :: ds => ds ≠ [] && ds.all isDigit
  | _ => false

/-- Whether a text is a time of the day; the seconds may be left out. -/
def isTime (cs : List Char) : Bool :=
  match cs with
  | a :: b :: ':' :: c :: d :: ':' :: e :: f :: fraction =>
      isUpTo 23 a b && isUpTo 59 c d && isUpTo 60 e f && isFraction fraction
  | [a, b, ':', c, d] => isUpTo 23 a b && isUpTo 59 c d
  | _ => false

/-- Splits off the offset from UTC that may end a time; `none` if it is not well formed. -/
def withoutOffset? (cs : List Char) : Option (List Char) :=
  let time := cs.takeWhile fun c => isDigit c || c == ':' || c == '.'
  match cs.dropWhile fun c => isDigit c || c == ':' || c == '.' with
  | [] => some time
  | ['Z'] => some time
  | ['z'] => some time
  | [sign, a, b, ':', c, d] =>
      if (sign = '+' ∨ sign = '-') ∧ isUpTo 23 a b ∧ isUpTo 59 c d then some time else none
  | _ => none

/-- Whether a text is a day, a time, or both with an optional offset from UTC. -/
def isMoment (cs : List Char) : Bool :=
  isDay cs || isTime cs ||
    (isDay (cs.take 10) &&
      match cs.drop 10 with
      | mark :: time =>
          (mark == 'T' || mark == 't' || mark == ' ') &&
            match withoutOffset? time with
            | some time => isTime time
            | none => false
      | [] => false)

/-! ## Scalars -/

/-- What a run of characters says. -/
def ofScalar? (cs : List Char) : Option Toml :=
  if cs = ['t', 'r', 'u', 'e'] then some (.bool true)
  else if cs = ['f', 'a', 'l', 's', 'e'] then some (.bool false)
  else
    match integer? cs with
    | some v => some v
    | none =>
        if isFloat cs then some (.float (String.ofList cs))
        else if isMoment cs then some (.moment (String.ofList cs))
        else none

/-- Splits off a scalar.  A day takes a blank and the time after it along. -/
def spanScalar (cs : List Char) : List Char × List Char :=
  let run := cs.takeWhile isScalarChar
  match cs.dropWhile isScalarChar with
  | ' ' :: d :: rest =>
      if isDay run ∧ isDigit d then
        (run ++ ' ' :: (d :: rest).takeWhile isScalarChar, (d :: rest).dropWhile isScalarChar)
      else (run, ' ' :: d :: rest)
  | rest => (run, rest)

/-- Reads a scalar. -/
def scalar? (cs : List Char) : Option (Toml × List Char) :=
  let (run, rest) := spanScalar cs
  (ofScalar? run).map fun v => (v, rest)

end Keyset.Toml
