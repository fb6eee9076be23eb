import Keyset.Position
import Keyset.Token.Error
import Keyset.Text.Percent
import Keyset.Text.Split

/-! # Cursors and page tokens

A cursor says where a page starts and which way it is read.  A token is a cursor in a form that can
stand in an address: up to three `key=value` pieces joined by `&`, in base64 with the address
alphabet.  A key is left out if its value is that of the first page, so the first page has the empty
token.  Reading checks every field by itself, in any order, and passes over keys that it does not
know. -/

namespace Keyset

/-- Where a page starts and which way it is read. -/
structure Cursor where
  /-- With a position: how many rows that tie with it, other than the row it was taken from, were
  already returned in this direction.  Without one: how many rows lie before the page. -/
  offset : UInt64
  /-- Whether the page is read toward the start of the order. -/
  reverse : Bool
  position : Option Position
deriving DecidableEq

namespace Cursor

/-- The cursor of the first page. -/
def start : Cursor := ⟨0, false, none⟩

/-- Whether a cursor is that of the first page. -/
def isStart (c : Cursor) : Bool := c.offset == 0 && !c.reverse && c.position.isNone

theorem isStart_iff {c : Cursor} : c.isStart = true ↔ c = start := by
  obtain ⟨offset, reverse, position⟩ := c
  simp [isStart, start, Option.isNone_iff_eq_none, and_assoc]

end Cursor

end Keyset

namespace Keyset.Token

open Number

/-- The longest token that is read, in bytes. -/
def maxLength : Nat := 8192

/-- The keys of a token's fields. -/
inductive Key where
  | offset
  | reverse
  | position
deriving DecidableEq

/-- The letter of a key. -/
def Key.letter : Key → Char
  | offset => 'o'
  | reverse => 'r'
  | position => 'p'

/-- The key that a text names. -/
def Key.ofText? : List Char → Option Key
  | ['o'] => some offset
  | ['r'] => some reverse
  | ['p'] => some position
  | _ => none

theorem Key.ofText?_eq_some_iff {cs : List Char} {k : Key} :
    Key.ofText? cs = some k ↔ cs = [k.letter] := by
  constructor
  · intro h
    unfold Key.ofText? at h
    split at h <;> cases h <;> rfl
  · rintro rfl
    cases k <;> rfl

/-! ## Writing -/

/-- The piece of a field. -/
def piece (k : Key) (value : List Char) : List Char := k.letter :: '=' :: value

/-- The pieces of a cursor. -/
def pieces (c : Cursor) : List (List Char) :=
  (if c.offset = 0 then [] else [piece .offset (digits c.offset.toNat)])
    ++ (if c.reverse then [piece .reverse ['1']] else [])
    ++ (match c.position with
      | none => []
      | some p => [piece .position (Text.Percent.escape p.text.toList)])

/-- The payload of a cursor. -/
def payload (c : Cursor) : List Char := List.intercalate ['&'] (pieces c)

/-- The token of a cursor; the first page has the empty one. -/
def encode (c : Cursor) : String :=
  Text.Base64.encodeText Text.Base64.urlSafe (Text.utf8 (String.ofList (payload c)))

/-! ## Reading -/

/-- The fields of a token, not yet checked. -/
structure Fields where
  offset : Option String
  reverse : Option String
  position : Option String
deriving DecidableEq

namespace Fields

/-- No fields. -/
def empty : Fields := ⟨none, none, none⟩

/-- The text of a field. -/
def get? (fs : Fields) : Key → Option String
  | .offset => fs.offset
  | .reverse => fs.reverse
  | .position => fs.position

/-- The fields with one of them set. -/
def set (fs : Fields) (k : Key) (text : String) : Fields :=
  match k with
  | .offset => { fs with offset := some text }
  | .reverse => { fs with reverse := some text }
  | .position => { fs with position := some text }

end Fields

/-- The text that a field's value stands for. -/
def unescape (value : List Char) : Except Malformation String :=
  match Text.Percent.unescape (Text.utf8 (String.ofList value)) with
  | none => .error .badEscape
  | some bytes =>
      match Text.ofUtf8? bytes with
      | none => .error .fieldNotText
      | some text => .ok text

/-- Takes one piece of a payload. -/
def takePiece (fs : Fields) (cs : List Char) : Except Malformation Fields :=
  match Text.splitAt? '=' cs with
  | none => .error (.missingValue (String.ofList cs))
  | some (name, value) =>
      match Key.ofText? name with
      | none => .ok fs
      | some k =>
          if (fs.get? k).isSome then .error (.repeatedField (String.ofList name))
          else
            match unescape value with
            | .error why => .error why
            | .ok text => .ok (fs.set k text)

/-- Reads the fields of a payload. -/
def readFields (payload : List Char) : Except Malformation Fields :=
  (payload.splitOn '&').foldlM takePiece .empty

/-- The payload that a text carries. -/
def readPayload (text : String) : Except Malformation (List Char) :=
  match Text.Base64.decode Text.Base64.urlSafe (Text.utf8 text) with
  | .error fault => .error (.notBase64 fault)
  | .ok bytes =>
      match Text.ofUtf8? bytes with
      | none => .error .payloadNotText
      | some payload => .ok payload.toList

/-- Reads the offset, held at the cutoff if there is one. -/
def readOffset (cutoff : Option UInt64) : Option String → Except TokenError UInt64
  | none => .ok 0
  | some text =>
      match readLimited? text false cutoff with
      | none => .error (.badOffset text)
      | some n => .ok n

/-- Reads the direction: any integer but zero is backward. -/
def readReverse : Option String → Except TokenError Bool
  | none => .ok false
  | some text =>
      match readInt64? text.toList with
      | none => .error (.malformed (.badReverse text))
      | some n => .ok (n != 0)

/-- The cursor of some fields. -/
def Fields.toCursor (fs : Fields) (cutoff : Option UInt64) : Except TokenError Cursor := do
  let offset ← readOffset cutoff fs.offset
  let reverse ← readReverse fs.reverse
  return ⟨offset, reverse, fs.position.map Position.mk⟩

/-- The cursor of a payload. -/
def readCursor (cutoff : Option UInt64) (payload : List Char) : Except TokenError Cursor :=
  match readFields payload with
  | .error why => .error (.malformed why)
  | .ok fields => fields.toCursor cutoff

/-- Reads a token; none, and the empty one, is the first page and has no cursor. -/
def decode (cutoff : Option UInt64) : Option String → Except TokenError (Option Cursor)
  | none => .ok none
  | some text =>
      if text = "" then .ok none
      else if maxLength < text.utf8ByteSize then .error (.tooLong text.utf8ByteSize maxLength)
      else
        match readPayload text with
        | .error why => .error (.malformed why)
        | .ok payload => (readCursor cutoff payload).map some

end Keyset.Token
