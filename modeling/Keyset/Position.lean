import Keyset.FieldValue
import Keyset.Number.Reading
import Keyset.Text.Split
import Keyset.Text.Utf8

/-! # Positions

A position is a list of values in one text.  Each value is written as a letter for its kind, the
number of bytes of its content, a colon and the content, so no content is taken for a separator.
Reading accepts exactly such texts and names what is wrong with any other. -/

namespace Keyset

/-- The text of a list of values; what a page token carries may be any text. -/
structure Position where
  text : String
deriving DecidableEq

/-- Two steps succeed one after the other if the second does on what the first gives. -/
theorem bind_eq_ok_iff {ε α β : Type} {x : Except ε α} {f : α → Except ε β} {b : β} :
    x >>= f = .ok b ↔ ∃ a, x = .ok a ∧ f a = .ok b := by
  cases x with
  | error e => exact iff_of_false (fun h => nomatch h) fun ⟨_, h, _⟩ => nomatch h
  | ok a => exact ⟨fun h => ⟨a, rfl, h⟩, fun ⟨_, h, h'⟩ => Except.ok.inj h ▸ h'⟩

namespace Position

open Number

/-- Why a text is no position. -/
inductive Fault where
  | missingSeparator
  | badLength
  | lengthOutOfRange
  | badBool
  | badInteger
  | badFloat
  | badObjectId
  | badDate
  | unknownTag
deriving DecidableEq

/-- The fault in words. -/
def Fault.message : Fault → String
  | .missingSeparator => "missing length separator"
  | .badLength => "invalid component length"
  | .lengthOutOfRange => "component length out of range"
  | .badBool => "invalid boolean component"
  | .badInteger => "invalid integer component"
  | .badFloat => "invalid float component"
  | .badObjectId => "invalid ObjectId component"
  | .badDate => "invalid datetime component"
  | .unknownTag => "unknown component tag"

/-! ## Writing -/

/-- The letter of a value's kind. -/
def tag : FieldValue → Char
  | .null => 'n'
  | .bool _ => 'b'
  | .int _ => 'i'
  | .float _ => 'f'
  | .string _ => 's'
  | .objectId _ => 'o'
  | .date _ => 'd'

/-- The content of a value. -/
def content : FieldValue → List Char
  | .null => []
  | .bool b => FieldValue.boolText b
  | .int n => integerText n.toInt
  | .float d => d.text
  | .string s => s.toList
  | .objectId id => id.toHex
  | .date millis => integerText millis.toInt

/-- The number of bytes that characters take. -/
def byteCount : List Char → Nat
  | [] => 0
  | c :: rest => c.utf8Size + byteCount rest

/-- One value with its letter and length. -/
def component (v : FieldValue) : List Char :=
  tag v :: (digits (byteCount (content v)) ++ ':' :: content v)

/-- The text of some values. -/
def encode (values : List FieldValue) : List Char := values.flatMap component

/-- The position of some values. -/
def ofValues (values : List FieldValue) : Position := ⟨String.ofList (encode values)⟩

/-! ## Reading -/

/-- Splits off characters that take just this many bytes. -/
def splitBytes? : Nat → List Char → Option (List Char × List Char)
  | 0, cs => some ([], cs)
  | _ + 1, [] => none
  | n + 1, c :: rest =>
      if c.utf8Size ≤ n + 1 then
        (splitBytes? (n + 1 - c.utf8Size) rest).map fun (taken, left) => (c :: taken, left)
      else none

/-- The value of an optional result, or a fault. -/
def require {α : Type} (fault : Fault) : Option α → Except Fault α
  | some a => .ok a
  | none => .error fault

theorem require_eq_ok_iff {α : Type} {fault : Fault} {x : Option α} {a : α} :
    require fault x = .ok a ↔ x = some a := by
  cases x <;> simp [require]

/-- Reads the content of a truth value. -/
def readBool? (cs : List Char) : Option Bool :=
  if cs = FieldValue.boolText true then some true
  else if cs = FieldValue.boolText false then some false
  else none

/-- Reads the content of a value whose kind a letter gives. -/
def readContent (letter : Char) (cs : List Char) : Except Fault FieldValue :=
  match letter with
  | 'n' => if cs = [] then .ok .null else .error .unknownTag
  | 'b' => (require .badBool (readBool? cs)).map .bool
  | 'i' => (require .badInteger (readInt64? cs)).map .int
  | 'f' => (require .badFloat (readDouble? cs)).map .float
  | 's' => .ok (.string (String.ofList cs))
  | 'o' => (require .badObjectId (ObjectId.ofHex? cs)).map .objectId
  | 'd' => (require .badDate (readInt64? cs)).map .date
  | _ => .error .unknownTag

/-- Reads the length and content that follow a letter, and gives the rest of the text. -/
def readComponent (letter : Char) (cs : List Char) : Except Fault (FieldValue × List Char) := do
  let (length, afterLength) ← require .missingSeparator (Text.splitAt? ':' cs)
  let count ← require .badLength (readCount? length)
  let (text, rest) ← require .lengthOutOfRange (splitBytes? count.toNat afterLength)
  let value ← readContent letter text
  return (value, rest)

/-- A component is read in four steps, each from what the one before it left. -/
theorem readComponent_steps {letter : Char} {cs rest : List Char} {v : FieldValue} :
    readComponent letter cs = .ok (v, rest) ↔
      ∃ length afterLength count content, Text.splitAt? ':' cs = some (length, afterLength) ∧
        readCount? length = some count ∧
        splitBytes? count.toNat afterLength = some (content, rest) ∧
        readContent letter content = .ok v := by
  unfold readComponent
  simp only [bind_eq_ok_iff, require_eq_ok_iff, Prod.exists]
  constructor
  · rintro ⟨length, afterLength, hsplit, count, hcount, content, rest', htaken, value, hvalue, h⟩
    obtain ⟨rfl, rfl⟩ := Prod.mk.inj (Except.ok.inj h)
    exact ⟨length, afterLength, count, content, hsplit, hcount, htaken, hvalue⟩
  · rintro ⟨length, afterLength, count, content, hsplit, hcount, htaken, hvalue⟩
    exact ⟨length, afterLength, hsplit, count, hcount, content, rest, htaken, v, hvalue, rfl⟩

theorem length_of_splitBytes? {n : Nat} {cs taken left : List Char}
    (h : splitBytes? n cs = some (taken, left)) : left.length ≤ cs.length := by
  induction cs generalizing n taken with
  | nil =>
    cases n with
    | zero =>
      obtain ⟨_, rfl⟩ := Prod.mk.inj (Option.some.inj h)
      exact Nat.le_refl _
    | succ n => exact nomatch h
  | cons c rest ih =>
    cases n with
    | zero =>
      obtain ⟨_, rfl⟩ := Prod.mk.inj (Option.some.inj h)
      exact Nat.le_refl _
    | succ n =>
      rw [splitBytes?] at h
      split at h
      · obtain ⟨⟨t, l⟩, hr, he⟩ := Option.map_eq_some_iff.1 h
        obtain ⟨_, rfl⟩ := Prod.mk.inj he
        exact Nat.le_succ_of_le (ih hr)
      · exact nomatch h

/-- Reading a component uses up some of the text. -/
theorem length_of_readComponent {letter : Char} {cs rest : List Char} {v : FieldValue}
    (h : readComponent letter cs = .ok (v, rest)) : rest.length < cs.length := by
  obtain ⟨_, _, _, _, hsplit, -, htaken, -⟩ := readComponent_steps.mp h
  exact Nat.lt_of_le_of_lt (length_of_splitBytes? htaken) (Text.length_of_splitAt? hsplit)

/-- Reads the text of some values. -/
def decode (cs : List Char) : Except Fault (List FieldValue) :=
  match cs with
  | [] => .ok []
  | letter :: cs =>
      match h : readComponent letter cs with
      | .error fault => .error fault
      | .ok (value, rest) =>
          have := length_of_readComponent h
          (decode rest).map (value :: ·)
termination_by cs.length
decreasing_by
  simp only [List.length_cons]
  omega

/-- The values of a position. -/
def values (p : Position) : Except Fault (List FieldValue) := decode p.text.toList

end Position

end Keyset
