import Keyset.Document.Basic
import Keyset.Calendar
import Keyset.Number.Reading
import Keyset.Text.Base64
import Keyset.Text.Utf8

/-! # Reading extended JSON

An object with one of the reserved keys stands for a value that plain JSON cannot write.  It holds
nothing but that key, and its body must be well formed; only code may have a scope beside it.  Every
other object is a document, and integers take the narrowest width that holds them. -/

namespace Keyset.Bson

open Number

/-- An integer in the narrowest width that holds it, or rounded to a double. -/
def ofInteger (n : Int) : Bson :=
  match int32? n, int64? n with
  | some n, _ => .int32 n
  | none, some n => .int64 n
  | none, none => .double (.ofMagnitude? (n < 0) (Magnitude.ofNat? n.natAbs))

/-! ## Bodies -/

/-- Reads a string as the text of a value. -/
def ofText? (read : String → Option Bson) : Json → Option Bson
  | .string s => read s
  | _ => none

/-- The parts of a body that has named parts: an object of just these members, or the list of
them. -/
def parts? (names : List String) : Json → Option (List Json)
  | .object members =>
      if members.length = names.length then names.mapM (members.lookup ·) else none
  | .array items => if items.length = names.length then some items else none
  | _ => none

/-- Reads the text of a double, with the names of the values that have no digits. -/
def doubleOfText? (s : String) : Option Bson :=
  if s = "Infinity" then some (.double (.infinite false))
  else if s = "-Infinity" then some (.double (.infinite true))
  else if s = "NaN" then some (.double (.nan false))
  else (readDouble? s.toList).map .double

/-- Reads the text of an instant. -/
def dateOfText? (s : String) : Option Bson :=
  (Calendar.readInstant? s.toList).map fun n => .date (Int64.ofInt n)

/-- Reads base64 text and the digits of a subtype. -/
def binaryOfText? (text subtype : String) : Option Bson :=
  match Text.Base64.decode Text.Base64.standard (Text.utf8 text),
      Text.Hex.readBytes? subtype.toList with
  | .ok bytes, some [kind] => some (.binary bytes kind)
  | _, _ => none

/-- The mark that may begin the text of a UUID, in any case. -/
def uuidMark : List Char := ['u', 'r', 'n', ':', 'u', 'u', 'i', 'd', ':']

/-- The text after the mark of a UUID, or between the braces that may enclose it. -/
def uuidCore (cs : List Char) : List Char :=
  if (cs.take uuidMark.length).map lowerAscii = uuidMark then cs.drop uuidMark.length
  else
    match cs with
    | '\x7b' :: rest => if rest.getLast? = some '\x7d' then rest.dropLast else cs
    | _ => cs

/-- The digits of a UUID, whose groups of 8, 4, 4, 4 and 12 have hyphens between them; digits alone
may also stand without hyphens. -/
def uuidDigits (cs : List Char) : List Char :=
  let core := uuidCore cs
  if core.length = 36 ∧ [8, 13, 18, 23].all (fun i => core[i]? = some '-') then
    core.take 8 ++ (core.drop 9).take 4 ++ (core.drop 14).take 4 ++ (core.drop 19).take 4
      ++ core.drop 24
  else cs

/-- Reads the text of a UUID. -/
def uuidOfText? (s : String) : Option Bson :=
  match Text.Hex.readBytes? (uuidDigits s.toList) with
  | some bytes => if bytes.length = 16 then some (.binary bytes 4) else none
  | none => none

/-- Reads the body of a regular expression, whose options are kept sorted. -/
def regexOfBody? (body : Json) : Option Bson :=
  match parts? ["pattern", "options"] body with
  | some [.string pattern, .string options] =>
      some (.regex pattern (String.ofList (options.toList.mergeSort (· ≤ ·))))
  | _ => none

/-- Reads a whole number of 32 bits without a sign. -/
def readWord? : Json → Option UInt32
  | .integer n => word32? n
  | _ => none

/-- Reads the body of a timestamp. -/
def timestampOfBody? (body : Json) : Option Bson :=
  match parts? ["t", "i"] body with
  | some [t, i] =>
      match readWord? t, readWord? i with
      | some seconds, some increment => some (.timestamp seconds increment)
      | _, _ => none
  | _ => none

/-- Reads the body of binary data. -/
def binaryOfBody? (body : Json) : Option Bson :=
  match parts? ["base64", "subType"] body with
  | some [.string text, .string subtype] => binaryOfText? text subtype
  | _ => none

/-- Reads the body of a pointer into a collection. -/
def dbPointerOfBody? (body : Json) : Option Bson :=
  match parts? ["$ref", "$id"] body with
  | some [.string collection, id] =>
      match parts? ["$oid"] id with
      | some [.string hex] => (ObjectId.ofHex? hex.toList).map (.dbPointer collection)
      | _ => none
  | _ => none

/-- Reads the body of a date: a text, milliseconds, or milliseconds as a text. -/
def dateOfBody? (body : Json) : Option Bson :=
  match body with
  | .string s => dateOfText? s
  | .integer n => (int64? n).map .date
  | _ =>
      match parts? ["$numberLong"] body with
      | some [.string s] => (readInt64? s.toList).map .date
      | _ => none

/-- Reads a body that can only be the number one. -/
def ofOne? (value : Bson) : Json → Option Bson
  | .integer 1 => some value
  | _ => none

/-- Reads a body that can only be true. -/
def ofTrue? (value : Bson) : Json → Option Bson
  | .bool true => some value
  | _ => none

/-- The reserved keys, and how the body of each is read. -/
def bodyReaders : List (String × (Json → Option Bson)) := [
  ("$oid", ofText? fun s => (ObjectId.ofHex? s.toList).map .objectId),
  ("$symbol", ofText? fun s => some (.symbol s)),
  ("$regularExpression", regexOfBody?),
  ("$numberInt", ofText? fun s => (readInt32? s.toList).map .int32),
  ("$numberLong", ofText? fun s => (readInt64? s.toList).map .int64),
  ("$numberDouble", ofText? doubleOfText?),
  ("$numberDecimal", ofText? fun s => (Decimal128.read? s.toList).map .decimal),
  ("$binary", binaryOfBody?),
  ("$uuid", ofText? uuidOfText?),
  ("$code", ofText? fun s => some (.code s)),
  ("$timestamp", timestampOfBody?),
  ("$date", dateOfBody?),
  ("$minKey", ofOne? .minKey),
  ("$maxKey", ofOne? .maxKey),
  ("$dbPointer", dbPointerOfBody?),
  ("$undefined", ofTrue? .undefined)]

/-! ## Objects -/

/-- What an object stands for. -/
inductive Standing where
  /-- A document of its members. -/
  | document
  /-- The value of a reserved key, if its body is well formed. -/
  | reserved (value : Option Bson)
  /-- Code with a scope. -/
  | scopedCode (source : String)

/-- What an object with these members stands for. -/
def standing (members : List (String × Json)) : Standing :=
  match members.find? fun m => (bodyReaders.lookup m.1).isSome with
  | none => .document
  | some (key, body) =>
      match members with
      | [_] => .reserved ((bodyReaders.lookup key).bind fun read => read body)
      | [_, _] =>
          match body with
          | .string source =>
              if key = "$code" ∧ (members.lookup "$scope").isSome then .scopedCode source
              else .reserved none
          | _ => .reserved none
      | _ => .reserved none

mutual

/-- The value that extended JSON stands for; `none` if an object with a reserved key is not well
formed. -/
def ofExtended? : Json → Option Bson
  | .null => some .null
  | .bool b => some (.bool b)
  | .integer n => some (ofInteger n)
  | .number d => some (.double d)
  | .string s => some (.string s)
  | .array items => (itemsOfExtended? items).map .array
  | .object members =>
      match standing members with
      | .document => (membersOfExtended? members).map .document
      | .reserved value => value
      | .scopedCode source => scopedOfExtended? source members

/-- The values of some items. -/
def itemsOfExtended? : List Json → Option (List Bson)
  | [] => some []
  | v :: rest => do
      let first ← ofExtended? v
      let others ← itemsOfExtended? rest
      return first :: others

/-- The members with their values. -/
def membersOfExtended? : List (String × Json) → Option Document
  | [] => some []
  | (key, v) :: rest => do
      let first ← ofExtended? v
      let others ← membersOfExtended? rest
      return (key, first) :: others

/-- Code with the scope that stands among the members; a scope of null is none. -/
def scopedOfExtended? (source : String) : List (String × Json) → Option Bson
  | [] => none
  | (key, .object scope) :: rest =>
      if key = "$scope" then (membersOfExtended? scope).map (.scopedCode source)
      else scopedOfExtended? source rest
  | (key, .null) :: rest =>
      if key = "$scope" then some (.code source) else scopedOfExtended? source rest
  | (key, _) :: rest => if key = "$scope" then none else scopedOfExtended? source rest

end

end Keyset.Bson
