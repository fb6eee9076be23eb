import Keyset.Json.Basic
import Keyset.Number.Decimal128
import Keyset.Text.Hex

/-! # Documents

A document is a list of named BSON values in their order.  Numbers keep the width they are stored
in, and a few kinds of value have no counterpart in plain JSON.  One of these is the object id: twelve
bytes, written as twenty-four hexadecimal digits, which read back. -/

namespace Keyset

/-- Twelve bytes that identify a document. -/
structure ObjectId where
  bytes : List UInt8
  length_bytes : bytes.length = 12
deriving DecidableEq

namespace ObjectId

/-- The digits of an id, in lower case. -/
def toHex (id : ObjectId) : List Char := Text.Hex.bytesText id.bytes

/-- Reads twenty-four digits of either case. -/
def ofHex? (cs : List Char) : Option ObjectId :=
  match Text.Hex.readBytes? cs with
  | some bytes => if h : bytes.length = 12 then some ⟨bytes, h⟩ else none
  | none => none

theorem ofHex?_toHex (id : ObjectId) : ofHex? id.toHex = some id := by
  rw [ofHex?, toHex, Text.Hex.readBytes?_bytesText]
  exact dif_pos id.length_bytes

theorem length_toHex (id : ObjectId) : id.toHex.length = 24 := by
  rw [toHex, Text.Hex.length_bytesText, id.length_bytes]

end ObjectId

/-- A BSON value. -/
inductive Bson where
  | null
  | undefined
  | bool (b : Bool)
  | int32 (n : Int32)
  | int64 (n : Int64)
  | double (d : Number.Double)
  | string (s : String)
  | symbol (s : String)
  | objectId (id : ObjectId)
  /-- An instant, in milliseconds from the start of 1970. -/
  | date (millis : Int64)
  | document (members : List (String × Bson))
  | array (items : List Bson)
  | regex (pattern options : String)
  | code (source : String)
  | scopedCode (source : String) (scope : List (String × Bson))
  | timestamp (seconds increment : UInt32)
  | binary (bytes : List UInt8) (subtype : UInt8)
  | decimal (d : Number.Decimal128)
  | minKey
  | maxKey
  | dbPointer (collection : String) (id : ObjectId)

/-- Named values in their order. -/
abbrev Document := List (String × Bson)

namespace Document

/-- The value of a member. -/
def get? (d : Document) (key : String) : Option Bson := d.lookup key

/-- The document with a member set: in its place if it is there, else at the end. -/
def insert (d : Document) (key : String) (value : Bson) : Document := Json.put key value d

/-- The document with some members set, one after the other. -/
def insertAll (d : Document) (members : List (String × Bson)) : Document :=
  members.foldl (fun d (key, value) => d.insert key value) d

theorem insert_of_not_mem {d : Document} {key : String} (h : key ∉ d.map Prod.fst) (value : Bson) :
    d.insert key value = d ++ [(key, value)] :=
  Json.put_of_not_mem h value

/-- Members that are not there yet, no two of them with one name, come to the end in their order. -/
theorem insertAll_of_nodup {d members : Document} (h : ((d ++ members).map Prod.fst).Nodup) :
    d.insertAll members = d ++ members := by
  induction members generalizing d with
  | nil => exact (List.append_nil d).symm
  | cons m rest ih =>
    obtain ⟨key, value⟩ := m
    have hkey : key ∉ d.map Prod.fst := by
      intro hmem
      rw [List.map_append] at h
      exact (List.nodup_append.mp h).2.2 key hmem key List.mem_cons_self rfl
    have hstep : d ++ (key, value) :: rest = (d ++ [(key, value)]) ++ rest := by
      rw [List.append_assoc, List.singleton_append]
    rw [hstep] at h ⊢
    rw [← ih h, ← insert_of_not_mem hkey]
    rfl

/-- The value at a dotted path.  A member that has the whole path as its name comes first; else the
path's parts name members of nested documents. -/
def lookup? (d : Document) (path : String) : Option Bson :=
  match d.get? path with
  | some value => some value
  | none =>
      match path.toList.splitOn '.' with
      | [] => none
      | first :: rest =>
          rest.foldl (fun found part =>
            match found with
            | some (.document members) => get? members (String.ofList part)
            | _ => none) (d.get? (String.ofList first))

end Document

end Keyset
