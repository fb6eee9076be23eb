import Keyset.Number.Reading

/-! # TOML values

What a TOML text says, as far as a configuration needs it: numbers with a point and moments of time
keep their text.  What is blank in such a text, and where its lines end, is told here too. -/

namespace Keyset

/-- A TOML value. -/
inductive Toml where
  | string (s : String)
  | integer (n : Int)
  /-- A whole number whose groups are in place, but not made of digits. -/
  | misspelt
  | bool (b : Bool)
  | float (text : String)
  | moment (text : String)
  | array (items : List Toml)
  | table (members : List (String × Toml))

namespace Toml

/-- Drops the spaces and tabs at the front. -/
def skipBlanks (cs : List Char) : List Char := cs.dropWhile fun c => c == ' ' || c == '\t'

/-- Whether a character may stand in a comment or a string as it is. -/
def isPlain (c : Char) : Bool := c == '\t' || (0x20 ≤ c.toNat && c.toNat ≠ 0x7F)

/-- Drops the end of a line: nothing at the end of the text, or a line feed that may follow a
carriage return. -/
def lineEnd? : List Char → Option (List Char)
  | [] => some []
  | '\n' :: rest => some rest
  | '\r' :: '\n' :: rest => some rest
  | _ => none

/-- Drops a comment, if there is one, and the end of the line. -/
def finishLine? (cs : List Char) : Option (List Char) :=
  match skipBlanks cs with
  | '#' :: rest => lineEnd? (rest.dropWhile isPlain)
  | rest => lineEnd? rest

/-- Drops blanks, ends of lines and comments; within a comment the first argument is true. -/
def skipFiller : Bool → List Char → Option (List Char)
  | _, [] => some []
  | _, '\n' :: rest => skipFiller false rest
  | _, '\r' :: '\n' :: rest => skipFiller false rest
  | true, c :: rest => if isPlain c then skipFiller true rest else none
  | false, '#' :: rest => skipFiller true rest
  | false, ' ' :: rest => skipFiller false rest
  | false, '\t' :: rest => skipFiller false rest
  | false, cs => some cs

/-! ## Bounds of numbers

TOML sets no bounds to the numbers that can be written; whoever takes a value does.  An integer is
taken if it is one of 128 bits, with a sign or without, and a number with a point if the nearest
double is not infinite.  A misspelt number is never taken. -/

open Number

/-- Whether an integer has 128 bits, the sign included or no sign at all. -/
def integerIsBounded (n : Int) : Bool := -(twoTo 127 : Int) ≤ n && n < (twoTo 128 : Int)

/-- Whether the text of a number names infinity, or no number beyond the doubles. -/
def floatIsBounded (text : String) : Bool :=
  let cs := text.toList.filter (· ≠ '_')
  cs.contains 'n' ||
    match readDouble? cs with
    | some (.infinite _) => false
    | _ => true

mutual

/-- Whether all numbers of a value are within bounds. -/
def isBounded : Toml → Bool
  | .integer n => integerIsBounded n
  | .misspelt => false
  | .float text => floatIsBounded text
  | .array items => itemsAreBounded items
  | .table members => membersAreBounded members
  | .string _ => true
  | .bool _ => true
  | .moment _ => true

/-- Whether all numbers of some values are within bounds. -/
def itemsAreBounded : List Toml → Bool
  | [] => true
  | v :: rest => isBounded v && itemsAreBounded rest

/-- Whether all numbers of the members of a table are within bounds. -/
def membersAreBounded : List (String × Toml) → Bool
  | [] => true
  | (_, v) :: rest => isBounded v && membersAreBounded rest

end

end Toml

end Keyset
