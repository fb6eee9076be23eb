import Keyset.Document.Basic
import Keyset.Number.Decimal
import Keyset.Text.Visible

/-! # Field values

The values that a collection can be sorted by.  They fall into brackets that follow one another:
null, numbers, strings, object ids, truth values, dates.  Within a bracket values compare by what
they are; integers and doubles share a bracket and compare as exact numbers. -/

namespace Keyset

/-- A value that a collection can be sorted by. -/
inductive FieldValue where
  | null
  | int (n : Int64)
  | float (d : Number.Double)
  | string (s : String)
  | objectId (id : ObjectId)
  | bool (b : Bool)
  /-- An instant, in milliseconds from the start of 1970. -/
  | date (millis : Int64)
deriving DecidableEq

/-- A part of the order of values; each part lies before the next. -/
inductive Bracket where
  | null
  | number
  | string
  | objectId
  | bool
  | date
deriving DecidableEq

namespace Bracket

/-- The place of a bracket among the brackets. -/
def rank : Bracket → Nat
  | null => 0
  | number => 1
  | string => 2
  | objectId => 3
  | bool => 4
  | date => 5

/-- All brackets in their order. -/
def all : List Bracket := [null, number, string, objectId, bool, date]

/-- The name of a bracket in queries. -/
def name : Bracket → String
  | null => "null"
  | number => "number"
  | string => "string"
  | objectId => "objectId"
  | bool => "bool"
  | date => "date"

/-- The brackets that lie after a bracket. -/
def after (b : Bracket) : List Bracket := all.drop (b.rank + 1)

/-- The brackets that lie between null and a bracket. -/
def before (b : Bracket) : List Bracket := all.extract 1 (max b.rank 1)

end Bracket

namespace FieldValue

open Number

/-- The bracket of a value. -/
def bracket : FieldValue → Bracket
  | null => .null
  | int _ => .number
  | float _ => .number
  | string _ => .string
  | objectId _ => .objectId
  | bool _ => .bool
  | date _ => .date

/-- The order of values. -/
def compare : FieldValue → FieldValue → Ordering
  | int a, int b => Ord.compare a.toInt b.toInt
  | int a, float b => b.compareInt a
  | float a, int b => (a.compareInt b).swap
  | float a, float b => a.compare b
  | string a, string b => Ord.compare a b
  | objectId a, objectId b => Ord.compare a.bytes b.bytes
  | bool a, bool b => Ord.compare a b
  | date a, date b => Ord.compare a.toInt b.toInt
  | a, b => Ord.compare a.bracket.rank b.bracket.rank

/-- Whether two values have one place in the order. -/
def ties (a b : FieldValue) : Bool := a.compare b == .eq

/-- The value that a BSON value stands for in an order, if it can be sorted by. -/
def ofBson? : Bson → Option FieldValue
  | .null => some null
  | .undefined => some null
  | .int32 n => some (int n.toInt64)
  | .int64 n => some (int n)
  | .double d => some (float d)
  | .string s => some (string s)
  | .symbol s => some (string s)
  | .objectId id => some (objectId id)
  | .bool b => some (bool b)
  | .date millis => some (date millis)
  | _ => none

/-- The BSON value, as a query writes it. -/
def toBson : FieldValue → Bson
  | null => .null
  | int n => .int64 n
  | float d => .double d
  | string s => .string s
  | objectId id => .objectId id
  | bool b => .bool b
  | date millis => .date millis

/-- The text of a truth value. -/
def boolText (b : Bool) : List Char := if b then ['t', 'r', 'u', 'e'] else ['f', 'a', 'l', 's', 'e']

/-- The value as a reader sees it. -/
def display : FieldValue → String
  | null => "null"
  | int n => String.ofList (integerText n.toInt)
  | float d => String.ofList d.text
  | string s => String.ofList (Text.Quoted.encode s.toList)
  | objectId id => "ObjectId('" ++ String.ofList id.toHex ++ "')"
  | bool b => String.ofList (boolText b)
  | date millis => "Date(" ++ String.ofList (integerText millis.toInt) ++ ")"

theorem ofBson?_toBson (v : FieldValue) : ofBson? v.toBson = some v := by
  cases v <;> rfl

end FieldValue

/-- Whether two lists of values have the same length and tie value by value. -/
def tiedValues : List FieldValue → List FieldValue → Bool
  | [], [] => true
  | a :: as, b :: bs => a.ties b && tiedValues as bs
  | _, _ => false

end Keyset
