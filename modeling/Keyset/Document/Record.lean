import Keyset.Document.Extended.Reader

/-! # Records

A record is a plain JSON object that is stored as it is.  Its integers are kept at full width, and
an object in it is a document unless its one key is reserved and its body, itself already stored,
is that key's.  Unlike in extended JSON, an object with a reserved key that is not well formed is no
fault: it stays a document.  The record as a whole must be a document. -/

namespace Keyset.Bson

open Number

/-! ## Bodies that are already stored -/

/-- The text member of a document. -/
def textMember? (d : Document) (key : String) : Option String :=
  match d.get? key with
  | some (.string s) => some s
  | _ => none

/-- A narrow integer member of a document. -/
def int32Member? (d : Document) (key : String) : Option Int32 :=
  match d.get? key with
  | some (.int32 n) => some n
  | _ => none

/-- A wide integer member of a document, if it fits a word without a sign. -/
def wordMember? (d : Document) (key : String) : Option UInt32 :=
  match d.get? key with
  | some (.int64 n) => word32? n.toInt
  | _ => none

/-- A stored text as the body of a reserved key. -/
def ofStoredText? (read : String → Option Bson) : Bson → Option Bson
  | .string s => read s
  | _ => none

/-- A stored document as the body of a reserved key. -/
def ofStoredDocument? (read : Document → Option Bson) : Bson → Option Bson
  | .document members => read members
  | _ => none

/-- The bytes of a decimal number, as data without a kind. -/
def storedDecimal? : Bson → Option Bson
  | .binary bytes 0 => (Decimal128.ofBytes? bytes).map .decimal
  | _ => none

/-- Binary data by its text, or by the bytes of other data without a kind. -/
def storedBinary? (d : Document) : Option Bson :=
  match textMember? d "base64" with
  | some text =>
      match textMember? d "subType" with
      | some subtype => binaryOfText? text subtype
      | none => none
  | none =>
      match d.get? "bytes", int32Member? d "subType" with
      | some (.binary bytes 0), some kind =>
          if 0 ≤ kind.toInt ∧ kind.toInt < 256 then
            some (.binary bytes (UInt8.ofNat kind.toInt.toNat))
          else none
      | _, _ => none

/-- A timestamp by two narrow integers, whose bits are taken as they are, or by two wide ones. -/
def storedTimestamp? (d : Document) : Option Bson :=
  match int32Member? d "t", int32Member? d "i" with
  | some t, some i => some (.timestamp t.toUInt32 i.toUInt32)
  | _, _ =>
      match wordMember? d "t", wordMember? d "i" with
      | some t, some i => some (.timestamp t i)
      | _, _ => none

/-- A regular expression. -/
def storedRegex? (d : Document) : Option Bson :=
  match textMember? d "pattern", textMember? d "options" with
  | some pattern, some options =>
      some (.regex pattern (String.ofList (options.toList.mergeSort (· ≤ ·))))
  | _, _ => none

/-- A pointer into a collection. -/
def storedDbPointer? (d : Document) : Option Bson :=
  match textMember? d "$ref", d.get? "$id" with
  | some collection, some (.objectId id) => some (.dbPointer collection id)
  | _, _ => none

/-- A date, by a wide integer or a text. -/
def storedDate? : Bson → Option Bson
  | .int64 millis => some (.date millis)
  | .string s => dateOfText? s
  | _ => none

/-- The value one, narrow or wide. -/
def storedOne? (value : Bson) : Bson → Option Bson
  | .int32 n => if n = 1 then some value else none
  | .int64 n => if n = 1 then some value else none
  | _ => none

/-- The value true. -/
def storedTrue? (value : Bson) : Bson → Option Bson
  | .bool true => some value
  | _ => none

/-- The reserved keys of records, and how the body of each is taken. -/
def storedReaders : List (String × (Bson → Option Bson)) := [
  ("$oid", ofStoredText? fun s => (ObjectId.ofHex? s.toList).map .objectId),
  ("$symbol", ofStoredText? fun s => some (.symbol s)),
  ("$numberInt", ofStoredText? fun s => (readInt32? s.toList).map .int32),
  ("$numberLong", ofStoredText? fun s => (readInt64? s.toList).map .int64),
  ("$numberDouble", ofStoredText? doubleOfText?),
  ("$numberDecimal", ofStoredText? fun s => (Decimal128.read? s.toList).map .decimal),
  ("$numberDecimalBytes", storedDecimal?),
  ("$binary", ofStoredDocument? storedBinary?),
  ("$code", ofStoredText? fun s => some (.code s)),
  ("$timestamp", ofStoredDocument? storedTimestamp?),
  ("$regularExpression", ofStoredDocument? storedRegex?),
  ("$dbPointer", ofStoredDocument? storedDbPointer?),
  ("$date", storedDate?),
  ("$minKey", storedOne? .minKey),
  ("$maxKey", storedOne? .maxKey),
  ("$undefined", storedTrue? .undefined)]

/-- Code with a scope, if a document is just these. -/
def storedCode? (d : Document) : Option Bson :=
  match textMember? d "$code", d.get? "$scope" with
  | some source, some (.document scope) => some (.scopedCode source scope)
  | _, _ => none

/-- The value that stored members stand for: what a reserved key says, or the document of them. -/
def ofStored (d : Document) : Bson :=
  match d with
  | [(key, body)] =>
      match (storedReaders.lookup key).bind fun read => read body with
      | some value => value
      | none => .document d
  | [_, _] => (storedCode? d).getD (.document d)
  | _ => .document d

mutual

/-- The value that plain JSON is stored as; `none` for an integer beyond 64 bits with a sign. -/
def ofPlain? : Json → Option Bson
  | .null => some .null
  | .bool b => some (.bool b)
  | .integer n => (int64? n).map .int64
  | .number d => some (.double d)
  | .string s => some (.string s)
  | .array items => (itemsOfPlain? items).map .array
  | .object members => (membersOfPlain? members).map ofStored

/-- The stored items of an array. -/
def itemsOfPlain? : List Json → Option (List Bson)
  | [] => some []
  | v :: rest => do
      let first ← ofPlain? v
      let others ← itemsOfPlain? rest
      return first :: others

/-- The stored members of an object. -/
def membersOfPlain? : List (String × Json) → Option Document
  | [] => some []
  | (key, v) :: rest => do
      let first ← ofPlain? v
      let others ← membersOfPlain? rest
      return (key, first) :: others

end

end Keyset.Bson

namespace Keyset.Document

/-- The document that a record is stored as. -/
def ofRecord? (v : Json) : Option Document :=
  match Bson.ofPlain? v with
  | some (.document members) => some members
  | _ => none

end Keyset.Document
