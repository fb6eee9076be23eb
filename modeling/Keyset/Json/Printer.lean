import Keyset.Json.Basic
import Keyset.Number.Decimal

/-! # Writing JSON text

Values are written on one line, or over several with an indent.  Strings keep every character but
the quote, the backslash and the control characters; doubles show at least one place. -/

namespace Keyset.Json

open Keyset.Number

/-- A character as it is written in a string. -/
def stringChar (c : Char) : List Char :=
  if c = '"' then ['\\', '"']
  else if c = '\\' then ['\\', '\\']
  else if c = '\x08' then ['\\', 'b']
  else if c = '\x0c' then ['\\', 'f']
  else if c = '\n' then ['\\', 'n']
  else if c = '\r' then ['\\', 'r']
  else if c = '\t' then ['\\', 't']
  else if c.toNat < 0x20 then
    ['\\', 'u', '0', '0', Nat.digitChar (c.toNat / 16), Nat.digitChar (c.toNat % 16)]
  else [c]

/-- A string in quotes. -/
def stringText (s : String) : String :=
  String.ofList ('"' :: (s.toList.flatMap stringChar ++ ['"']))

/-- A double; what has no digits is written as null. -/
def numberText : Double → String
  | .finite s m => String.ofList (Double.finiteText .json s m)
  | _ => "null"

/-- A value without parts. -/
def scalarText : Json → String
  | .null => "null"
  | .bool true => "true"
  | .bool false => "false"
  | .integer n => String.ofList (integerText n)
  | .number d => numberText d
  | .string s => stringText s
  | .array _ => "[]"
  | .object _ => "\x7b\x7d"

mutual

/-- The value on one line, without blanks. -/
def compact : Json → String
  | .array items => "[" ++ compactItems items ++ "]"
  | .object members => "\x7b" ++ compactMembers members ++ "\x7d"
  | .null => scalarText .null
  | .bool b => scalarText (.bool b)
  | .integer n => scalarText (.integer n)
  | .number d => scalarText (.number d)
  | .string s => scalarText (.string s)

/-- The items of an array with commas between them. -/
def compactItems : List Json → String
  | [] => ""
  | [v] => compact v
  | v :: w :: rest => compact v ++ "," ++ compactItems (w :: rest)

/-- The members of an object with commas between them. -/
def compactMembers : List (String × Json) → String
  | [] => ""
  | [(k, v)] => stringText k ++ ":" ++ compact v
  | (k, v) :: m :: rest => stringText k ++ ":" ++ compact v ++ "," ++ compactMembers (m :: rest)

end

mutual

/-- The value over several lines; every open array or object indents by `indent`, and `margin`
stands in front of the line that the value ends on. -/
def prettyAt (indent margin : String) : Json → String
  | .array (v :: rest) =>
      "[\n" ++ prettyItems indent (margin ++ indent) (v :: rest) ++ "\n" ++ margin ++ "]"
  | .object (m :: rest) =>
      "\x7b\n" ++ prettyMembers indent (margin ++ indent) (m :: rest) ++ "\n" ++ margin ++ "\x7d"
  | .array [] => scalarText (.array [])
  | .object [] => scalarText (.object [])
  | .null => scalarText .null
  | .bool b => scalarText (.bool b)
  | .integer n => scalarText (.integer n)
  | .number d => scalarText (.number d)
  | .string s => scalarText (.string s)

/-- The items of an array, one a line. -/
def prettyItems (indent margin : String) : List Json → String
  | [] => ""
  | [v] => margin ++ prettyAt indent margin v
  | v :: w :: rest =>
      margin ++ prettyAt indent margin v ++ ",\n" ++ prettyItems indent margin (w :: rest)

/-- The members of an object, one a line. -/
def prettyMembers (indent margin : String) : List (String × Json) → String
  | [] => ""
  | [(k, v)] => margin ++ stringText k ++ ": " ++ prettyAt indent margin v
  | (k, v) :: m :: rest =>
      margin ++ stringText k ++ ": " ++ prettyAt indent margin v ++ ",\n"
        ++ prettyMembers indent margin (m :: rest)

end

/-- The value over several lines, each level indented by a number of spaces. -/
def pretty (indent : Nat) (v : Json) : String :=
  prettyAt (String.ofList (List.replicate indent ' ')) "" v

end Keyset.Json
