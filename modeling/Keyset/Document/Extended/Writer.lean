import Keyset.Document.Basic
import Keyset.Calendar
import Keyset.Number.Decimal
import Keyset.Text.Base64

/-! # Writing extended JSON

The relaxed form writes numbers as JSON numbers and dates as text where it can; the canonical form
keeps the kind of every number and the milliseconds of every date. -/

namespace Keyset.Bson

open Number

/-- The object of one reserved key. -/
def reserved (key : String) (body : Json) : Json := .object [(key, body)]

/-- The object of a reserved key whose body is a text. -/
def reservedText (key : String) (text : List Char) : Json :=
  reserved key (.string (String.ofList text))

/-- A date by its milliseconds. -/
def millisJson (millis : Int64) : Json :=
  reserved "$date" (reservedText "$numberLong" (integerText millis.toInt))

/-- A date as a text if it has one: none before 1970 or after the year 9999. -/
def dateJson (millis : Int64) : Json :=
  if 0 ≤ millis.toInt ∧ millis.toInt < Calendar.endOfYears then
    reservedText "$date" (Calendar.instantText millis.toInt.toNat)
  else millisJson millis

/-- A pointer into a collection. -/
def dbPointerJson (collection : String) (id : ObjectId) : Json :=
  reserved "$dbPointer"
    (.object [("$ref", .string collection), ("$id", reservedText "$oid" id.toHex)])

/-- A double: a JSON number if it is finite. -/
def relaxedDouble : Double → Json
  | .nan true => reserved "$numberDouble" (.string "-NaN")
  | .nan false => reserved "$numberDouble" (.string "NaN")
  | .infinite true => reserved "$numberDouble" (.string "-Infinity")
  | .infinite false => reserved "$numberDouble" (.string "Infinity")
  | d => .number d

/-- A double as a text with at least one place; only what is closer to zero than the normal doubles
is a JSON number. -/
def canonicalDouble : Double → Json
  | .finite s m =>
      if m.isNormal ∨ m = .zero then
        reservedText "$numberDouble" (Double.finiteText .plainWithPlace s m)
      else .number (.finite s m)
  | d => relaxedDouble d

/-- Binary data. -/
def binaryJson (bytes : List UInt8) (subtype : UInt8) : Json :=
  reserved "$binary"
    (.object [("base64", .string (Text.Base64.encodeText Text.Base64.standard bytes)),
      ("subType", .string (String.ofList (Text.Hex.byteText subtype)))])

/-- A regular expression. -/
def regexJson (pattern options : String) : Json :=
  reserved "$regularExpression"
    (.object [("pattern", .string pattern), ("options", .string options)])

/-- A timestamp. -/
def timestampJson (seconds increment : UInt32) : Json :=
  reserved "$timestamp"
    (.object [("t", .integer seconds.toNat), ("i", .integer increment.toNat)])

/-! ## Styles -/

/-- How the values are written that the forms write differently. -/
structure Style where
  int32 : Int32 → Json
  int64 : Int64 → Json
  double : Double → Json
  date : Int64 → Json
  binary : List UInt8 → UInt8 → Json

/-- Numbers as JSON numbers, dates as text. -/
def relaxedStyle : Style where
  int32 n := .integer n.toInt
  int64 n := .integer n.toInt
  double := relaxedDouble
  date := dateJson
  binary := binaryJson

/-- Every number with its kind, dates by their milliseconds. -/
def canonicalStyle : Style where
  int32 n := reservedText "$numberInt" (integerText n.toInt)
  int64 n := reservedText "$numberLong" (integerText n.toInt)
  double := canonicalDouble
  date := millisJson
  binary := binaryJson

/-- What JSON can write as it is: no number at all for a double that is not finite, and the bytes of
binary data that has no special kind. -/
def plainStyle : Style where
  int32 n := .integer n.toInt
  int64 n := .integer n.toInt
  double
    | .finite s m => .number (.finite s m)
    | _ => .null
  date := millisJson
  binary bytes subtype :=
    if subtype = 0 then .array (bytes.map fun b => .integer b.toNat) else binaryJson bytes subtype

mutual

/-- The value in a style, with another one for the scopes of code. -/
def write (style inScope : Style) : Bson → Json
  | .null => .null
  | .undefined => reserved "$undefined" (.bool true)
  | .bool b => .bool b
  | .int32 n => style.int32 n
  | .int64 n => style.int64 n
  | .double d => style.double d
  | .string s => .string s
  | .symbol s => reserved "$symbol" (.string s)
  | .objectId id => reservedText "$oid" id.toHex
  | .date millis => style.date millis
  | .document members => .object (writeMembers style inScope members)
  | .array items => .array (writeItems style inScope items)
  | .regex pattern options => regexJson pattern options
  | .code source => reserved "$code" (.string source)
  | .scopedCode source scope =>
      .object [("$code", .string source),
        ("$scope", .object (writeMembers inScope inScope scope))]
  | .timestamp seconds increment => timestampJson seconds increment
  | .binary bytes subtype => style.binary bytes subtype
  | .decimal d => reservedText "$numberDecimal" d.text
  | .minKey => reserved "$minKey" (.integer 1)
  | .maxKey => reserved "$maxKey" (.integer 1)
  | .dbPointer collection id => dbPointerJson collection id

/-- Items in a style. -/
def writeItems (style inScope : Style) : List Bson → List Json
  | [] => []
  | v :: rest => write style inScope v :: writeItems style inScope rest

/-- Members in a style. -/
def writeMembers (style inScope : Style) : Document → List (String × Json)
  | [] => []
  | (key, v) :: rest => (key, write style inScope v) :: writeMembers style inScope rest

end

/-- The value in relaxed form.  The scope of code has no relaxed form of its own and is written
plainly. -/
def relaxed (v : Bson) : Json := write relaxedStyle plainStyle v

/-- The value in canonical form. -/
def canonical (v : Bson) : Json := write canonicalStyle canonicalStyle v

end Keyset.Bson
