import Keyset.Number.Digits
import Keyset.Number.Power

/-! # Instants and calendar dates

An instant is a number of milliseconds since the start of 1970, UTC.  Its text is a calendar date
and a time of day with an offset from UTC; reading accepts every four-digit year, and drops what is
finer than a millisecond. -/

namespace Keyset.Calendar

open Keyset.Number

/-- A day of the Gregorian calendar. -/
structure Day where
  year : Nat
  month : Nat
  day : Nat
deriving DecidableEq

/-- Whether a year has a leap day. -/
def isLeap (year : Nat) : Bool := year % 4 == 0 && (year % 100 != 0 || year % 400 == 0)

/-- The number of days of a month. -/
def monthLength (year month : Nat) : Nat :=
  if month = 2 then (if isLeap year then 29 else 28)
  else if month = 4 ∨ month = 6 ∨ month = 9 ∨ month = 11 then 30
  else 31

/-- The days of a year before a month. -/
def daysBeforeMonth (year : Nat) : Nat → Nat
  | 0 => 0
  | 1 => 0
  | month + 1 => daysBeforeMonth year month + monthLength year month

/-- The days from the start of year 1 to the start of a year. -/
def daysBeforeYear (year : Nat) : Int :=
  let past : Int := (year : Int) - 1
  365 * past + past.fdiv 4 - past.fdiv 100 + past.fdiv 400

/-- The days from the start of year 1 to the start of 1970. -/
def epochDays : Int := 719162

namespace Day

/-- The days from the start of 1970 to a day. -/
def number (d : Day) : Int :=
  daysBeforeYear d.year + daysBeforeMonth d.year d.month + (d.day : Int) - 1 - epochDays

/-- Whether the calendar has the day. -/
def isValid (d : Day) : Bool :=
  1 ≤ d.month && d.month ≤ 12 && 1 ≤ d.day && d.day ≤ monthLength d.year d.month

/-- The month that the day with an index in its year lies in, and the day of that month. -/
def ofIndex (year : Nat) (index : Nat) : Day :=
  let month := (List.range' 1 12).findIdx? fun m => index < daysBeforeMonth year (m + 1)
  let month := month.getD 11 + 1
  ⟨year, month, index - daysBeforeMonth year month + 1⟩

/-- The day with a number of days from the start of 1970, from the start of year 0 on. -/
def ofNumber (n : Int) : Day :=
  let days := n + epochDays
  let guess := (days * 400 / 146097 + 1).toNat
  let year := if days < daysBeforeYear guess then guess - 1
    else if days < daysBeforeYear (guess + 1) then guess
    else guess + 1
  ofIndex year (days - daysBeforeYear year).toNat

end Day

/-! ## Text -/

/-- A number of two digits. -/
def twoDigits? : List Char → Option (Nat × List Char)
  | a :: b :: rest => (readDigits? [a, b]).map fun n => (n, rest)
  | _ => none

/-- A number of four digits. -/
def fourDigits? : List Char → Option (Nat × List Char)
  | a :: b :: c :: d :: rest => (readDigits? [a, b, c, d]).map fun n => (n, rest)
  | _ => none

/-- The text after one given character. -/
def after? (mark : Char) : List Char → Option (List Char)
  | c :: rest => if c = mark then some rest else none
  | [] => none

/-- The nanoseconds of the places after the point of a second; further places are dropped. -/
def nanoseconds (places : List Char) : Nat :=
  let nine := places.take 9
  ofDigits nine * tenTo (9 - nine.length)

/-- Reads the places of a second, if it has a point; a point needs a digit after it. -/
def places? : List Char → Option (Nat × List Char)
  | '.' :: rest =>
      match rest.takeWhile isDigit with
      | [] => none
      | ds => some (nanoseconds ds, rest.dropWhile isDigit)
  | cs => some (0, cs)

/-- Reads the offset from UTC that ends a text, in minutes. -/
def offset? : List Char → Option Int
  | ['Z'] => some 0
  | ['z'] => some 0
  | sign :: rest => do
      let negative ← if sign = '-' then some true else if sign = '+' then some false else none
      let (hours, rest) ← twoDigits? rest
      let rest ← after? ':' rest
      let (minutes, rest) ← twoDigits? rest
      if rest ≠ [] ∨ 23 < hours ∨ 59 < minutes then none
      else
        let total : Int := hours * 60 + minutes
        return if negative then -total else total
  | [] => none

/-- A date, a time of day and an offset as they are written. -/
structure Stamp where
  day : Day
  hour : Nat
  minute : Nat
  second : Nat
  nanosecond : Nat
  offset : Int

namespace Stamp

/-- The text after the one ASCII character, whichever it is, between date and time. -/
def afterSeparator? : List Char → Option (List Char)
  | c :: rest => if c.toNat < 128 then some rest else none
  | [] => none

/-- Reads the parts of a stamp. -/
def parts? (cs : List Char) : Option Stamp := do
  let (year, cs) ← fourDigits? cs
  let cs ← after? '-' cs
  let (month, cs) ← twoDigits? cs
  let cs ← after? '-' cs
  let (day, cs) ← twoDigits? cs
  let cs ← afterSeparator? cs
  let (hour, cs) ← twoDigits? cs
  let cs ← after? ':' cs
  let (minute, cs) ← twoDigits? cs
  let cs ← after? ':' cs
  let (second, cs) ← twoDigits? cs
  let (nanosecond, cs) ← places? cs
  let offset ← offset? cs
  return ⟨⟨year, month, day⟩, hour, minute, second, nanosecond, offset⟩

/-- The seconds from the start of 1970, UTC. -/
def seconds (s : Stamp) : Int :=
  s.day.number * 86400 + s.hour * 3600 + s.minute * 60 + s.second - s.offset * 60

/-- A leap second is read as the last nanosecond before it, and only at the end of a month. -/
def withoutLeap? (s : Stamp) : Option Stamp :=
  if s.second = 60 then
    let stand : Stamp := { s with second := 59, nanosecond := 999999999 }
    let next := stand.seconds + 1
    if next % 86400 = 0 ∧ (Day.ofNumber (next / 86400)).day = 1 then some stand else none
  else some s

/-- Whether all parts are in range. -/
def isValid (s : Stamp) : Bool :=
  s.day.isValid && s.hour < 24 && s.minute < 60 && s.second < 60

/-- The milliseconds of a stamp, rounded toward the start of 1970. -/
def milliseconds (s : Stamp) : Int :=
  (s.seconds * 1000000000 + s.nanosecond).tdiv 1000000

end Stamp

/-- Reads the text of an instant. -/
def readInstant? (cs : List Char) : Option Int :=
  match Stamp.parts? cs with
  | none => none
  | some written =>
      match written.withoutLeap? with
      | none => none
      | some s => if s.isValid then some s.milliseconds else none

/-- A number filled up with zeros to a width. -/
def padded (width n : Nat) : List Char :=
  let ds := digits n
  List.replicate (width - ds.length) '0' ++ ds

/-- The fraction of a second, without zeros at its end. -/
def fractionText (millis : Nat) : List Char :=
  if millis = 0 then []
  else '.' :: ((padded 3 millis).reverse.dropWhile (· == '0')).reverse

/-- The text of an instant in UTC, none before 1970. -/
def instantText (millis : Nat) : List Char :=
  let d := Day.ofNumber (millis / 86400000 : Nat)
  let rest := millis % 86400000
  padded 4 d.year ++ '-' :: padded 2 d.month ++ '-' :: padded 2 d.day ++ 'T' ::
    padded 2 (rest / 3600000) ++ ':' :: padded 2 (rest / 60000 % 60) ++ ':' ::
    padded 2 (rest / 1000 % 60) ++ fractionText (rest % 1000) ++ ['Z']

/-- The first millisecond after the year 9999. -/
def endOfYears : Int := 253402300800000

end Keyset.Calendar
