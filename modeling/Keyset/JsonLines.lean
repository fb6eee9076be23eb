import Keyset.Document.Extended.Reader
import Keyset.Json.Reader
import Keyset.Text.Blank

/-! # JSON Lines

A text with one row on each line.  Lines are trimmed, and blank ones give no row but are counted, so
a fault names the line as an editor numbers it.  Loading stops at the first fault. -/

namespace Keyset.JsonLines

/-- Reads the rows of lines, the first of which has the given number. -/
def loadFrom {ε α : Type} (read : List Char → Except ε α) (number : Nat) :
    List (List Char) → Except (Nat × ε) (List α)
  | [] => .ok []
  | line :: rest =>
      match Text.trim line with
      | [] => loadFrom read (number + 1) rest
      | content =>
          match read content with
          | .error fault => .error (number, fault)
          | .ok row => (loadFrom read (number + 1) rest).map (row :: ·)

/-- Reads the rows of a text. -/
def load {ε α : Type} (read : List Char → Except ε α) (text : List Char) :
    Except (Nat × ε) (List α) :=
  loadFrom read 1 (text.splitOn '\n')

/-- Why a line holds no document. -/
inductive Fault where
  | notJson
  | badValue
  | notObject
deriving DecidableEq

/-- The fault in words. -/
def Fault.message : Fault → String
  | notJson => "not a JSON value"
  | badValue => "malformed extended JSON"
  | notObject => "expected a JSON object"

/-- Reads a line as a document in extended JSON. -/
def readDocument (line : List Char) : Except Fault Document :=
  match Json.parse? line with
  | none => .error .notJson
  | some v =>
      match Bson.ofExtended? v with
      | none => .error .badValue
      | some (.document members) => .ok members
      | some _ => .error .notObject

/-- Reads the documents of a text. -/
def loadDocuments (text : String) : Except (Nat × Fault) (List Document) :=
  load readDocument text.toList

end Keyset.JsonLines
