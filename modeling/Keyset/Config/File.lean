import Keyset.Config.Basic
import Keyset.Toml.Reader

/-! # Configuration files

A configuration as TOML.  What a file leaves out has its default, keys that are not known are passed
over if their numbers are within bounds, and a value of the wrong kind makes the whole file unusable.
A section can also be the list of its values; what follows the last one is not looked at. -/

namespace Keyset.Config

/-! ## Reading -/

/-- The value of a section's key: by its name in a table, by its place in a list. -/
def part? (sec : Toml) (name : String) (place : Nat) : Option Toml :=
  match sec with
  | .table members => members.lookup name
  | .array items => items[place]?
  | _ => none

/-- A value read from an entry, or the default if there is none; `none` if it is of the wrong kind. -/
def read? {α : Type} (read : Toml → Option α) (default : α) : Option Toml → Option α
  | none => some default
  | some v => read v

/-- Reads a count. -/
def countOf? : Toml → Option UInt64
  | .integer n => if 0 ≤ n ∧ n ≤ Number.maxCount then some (UInt64.ofNat n.toNat) else none
  | _ => none

/-- Reads a string. -/
def stringOf? : Toml → Option String
  | .string s => some s
  | _ => none

/-- Reads a truth value. -/
def boolOf? : Toml → Option Bool
  | .bool b => some b
  | _ => none

/-- Reads the name of a level, which may also be the only key of a table, with nothing in it. -/
def levelOf? : Toml → Option LogLevel
  | .string s => LogLevel.ofName? s
  | .table [(name, .table [])] => LogLevel.ofName? name
  | .table [(name, .array [])] => LogLevel.ofName? name
  | _ => none

/-- Whether the members of a table that are not known can be passed over. -/
def skipsOthers (names : List String) (members : List (String × Toml)) : Bool :=
  members.all fun (name, v) => names.contains name || v.isBounded

/-- Whether a value can be a section with keys of some names; a moment is one without any keys that
are known. -/
def isSection (names : List String) : Toml → Bool
  | .table members => skipsOthers names members
  | .array _ => true
  | .moment _ => true
  | _ => false

/-- Reads the section on pages. -/
def pagingOf? (sec : Toml) : Option PagingConfig := do
  let default : PagingConfig := {}
  let pageSize ← read? countOf? default.pageSize (part? sec "page_size" 0)
  let cutoff ← read? (fun v => (countOf? v).map some) default.offsetCutoff
    (part? sec "offset_cutoff" 1)
  let ordering ← read? stringOf? default.ordering (part? sec "ordering" 2)
  if isSection ["page_size", "offset_cutoff", "ordering"] sec then
    some ⟨pageSize, cutoff, ordering⟩
  else none

/-- Reads the section on the server. -/
def connectionOf? (sec : Toml) : Option ConnectionConfig := do
  let default : ConnectionConfig := {}
  let address ← read? stringOf? default.address (part? sec "uri" 0)
  let timeout ← read? countOf? default.timeout (part? sec "timeout" 1)
  let appName ← read? (fun v => (stringOf? v).map some) default.appName (part? sec "app_name" 2)
  if isSection ["uri", "timeout", "app_name"] sec then some ⟨address, timeout, appName⟩ else none

/-- Reads the section on logging. -/
def loggingOf? (sec : Toml) : Option LoggingConfig := do
  let default : LoggingConfig := {}
  let level ← read? levelOf? default.level (part? sec "level" 0)
  let timestamps ← read? boolOf? default.timestamps (part? sec "timestamps" 1)
  if isSection ["level", "timestamps"] sec then some ⟨level, timestamps⟩ else none

/-- Reads the members of a file. -/
def ofToml? (members : List (String × Toml)) : Option Config := do
  let paging ← read? pagingOf? {} (members.lookup "pagination")
  let connection ← read? connectionOf? {} (members.lookup "connection")
  let logging ← read? loggingOf? {} (members.lookup "logging")
  if skipsOthers ["pagination", "connection", "logging"] members then
    some ⟨paging, connection, logging⟩
  else none

/-- Reads the text of a file. -/
def parse (text : String) : Except ConfigFault Config :=
  match Toml.parse? text.toList with
  | none => .error (.badFormat "not TOML")
  | some members =>
      match ofToml? members with
      | none => .error (.badFormat "a value of the wrong kind")
      | some c => .ok c

/-! ## Writing -/

/-- A line that sets a key. -/
def line (name : String) (value : List Char) : List Char :=
  name.toList ++ [' ', '=', ' '] ++ value ++ ['\n']

/-- A line that sets a key to a string. -/
def stringLine (name value : String) : List Char := line name (Toml.stringText value.toList)

/-- A line that sets a key to a count. -/
def countLine (name : String) (value : UInt64) : List Char :=
  line name (Number.digits value.toNat)

/-- The line of a value that may be missing. -/
def optionalLine {α : Type} (write : α → List Char) : Option α → List Char
  | none => []
  | some a => write a

/-- A section with its header. -/
def sectionText (name : String) (lines : List (List Char)) : List Char :=
  '[' :: (name.toList ++ ']' :: '\n' :: lines.flatten)

/-- The text of a file. -/
def toText (c : Config) : String :=
  String.ofList (List.intercalate ['\n'] [
    sectionText "pagination" [
      countLine "page_size" c.paging.pageSize,
      optionalLine (countLine "offset_cutoff") c.paging.offsetCutoff,
      stringLine "ordering" c.paging.ordering],
    sectionText "connection" [
      stringLine "uri" c.connection.address,
      countLine "timeout" c.connection.timeout,
      optionalLine (stringLine "app_name") c.connection.appName],
    sectionText "logging" [
      stringLine "level" c.logging.level.name,
      line "timestamps" (FieldValue.boolText c.logging.timestamps)]])

end Keyset.Config
