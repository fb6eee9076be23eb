import Keyset.Json.Lexeme

/-! # Reading JSON text

The lexemes of a text drive a machine with a stack of open arrays and objects.  A value ends the
text when the stack is empty; arrays and objects nest to a fixed depth. -/

namespace Keyset.Json

/-- How deep arrays and objects may nest. -/
def maxDepth : Nat := 127

/-- An array or object that is still open; the items read so far are kept last first. -/
inductive Frame where
  | array (items : List Json)
  | object (members : List (String × Json))
  | member (members : List (String × Json)) (key : String)

/-- What the machine has read, and so what it can take next. -/
inductive Reading where
  /-- A value is needed; right after an opening mark the closing mark may stand instead. -/
  | value (stack : List Frame) (opened : Bool)
  /-- A key is needed; right after an opening mark the closing mark may stand instead. -/
  | key (stack : List Frame) (opened : Bool)
  /-- A key has been read, and a colon is needed. -/
  | colon (stack : List Frame)
  /-- An item has been read, and a comma or the closing mark is needed. -/
  | item (stack : List Frame)
  /-- The text's value has been read. -/
  | done (value : Json)

namespace Reading

/-- Takes a value that is complete. -/
def complete (v : Json) : List Frame → Option Reading
  | [] => some (.done v)
  | .array items :: stack => some (.item (.array (v :: items) :: stack))
  | .member members name :: stack => some (.item (.object (put name v members) :: stack))
  | .object _ :: _ => none

/-- Closes the innermost array. -/
def closeArray : List Frame → Option Reading
  | .array items :: stack => complete (.array items.reverse) stack
  | _ => none

/-- Closes the innermost object. -/
def closeObject : List Frame → Option Reading
  | .object members :: stack => complete (.object members) stack
  | _ => none

/-- Opens an array or an object. -/
def open? (stack : List Frame) (frame : Frame) : Option (List Frame) :=
  if stack.length < maxDepth then some (frame :: stack) else none

/-- Takes a lexeme where a value is needed. -/
def takeValue (stack : List Frame) : Lexeme → Option Reading
  | .scalar v => complete v stack
  | .string s => complete (.string s) stack
  | .openArray => (open? stack (.array [])).map (.value · true)
  | .openObject => (open? stack (.object [])).map (.key · true)
  | _ => none

/-- Takes a lexeme where a key is needed. -/
def takeKey : List Frame → Lexeme → Option Reading
  | .object members :: stack, .string name => some (.colon (.member members name :: stack))
  | _, _ => none

/-- Takes a lexeme after an item. -/
def takeAfterItem (stack : List Frame) : Lexeme → Option Reading
  | .comma =>
      match stack with
      | .array _ :: _ => some (.value stack false)
      | .object _ :: _ => some (.key stack false)
      | _ => none
  | .closeArray => closeArray stack
  | .closeObject => closeObject stack
  | _ => none

/-- Takes one lexeme. -/
def step : Reading → Lexeme → Option Reading
  | .value stack true, .closeArray => closeArray stack
  | .value stack _, l => takeValue stack l
  | .key stack true, .closeObject => closeObject stack
  | .key stack _, l => takeKey stack l
  | .colon stack, .colon => some (.value stack false)
  | .colon _, _ => none
  | .item stack, l => takeAfterItem stack l
  | .done _, _ => none

end Reading

/-- Reads JSON text; `none` if it is not one value, or nests too deep. -/
def parse? (cs : List Char) : Option Json :=
  match lexemes? cs with
  | none => none
  | some ls =>
      match ls.foldlM Reading.step (.value [] false) with
      | some (.done v) => some v
      | _ => none

end Keyset.Json
