import Keyset.Toml.Scalar
import Keyset.Toml.Section
import Keyset.Toml.Text

/-! # Reading TOML

A text is read line by line: headers, `key = value` lines and blank ones.  Every step takes some of
the text, which is what ends the recursion. -/

namespace Keyset.Toml

/-- Whether a character may stand in a key without quotes. -/
def isKeyChar (c : Char) : Bool := c.isAlphanum || c == '_' || c == '-'

/-- Reads one part of a key. -/
def keyPart? (cs : List Char) : Option (String × List Char) :=
  match shortString? cs with
  | some (part, rest) => some (String.ofList part, rest)
  | none =>
      match cs.takeWhile isKeyChar with
      | [] => none
      | part => some (String.ofList part, cs.dropWhile isKeyChar)

/-- Reads a key of parts with points between them. -/
def keyPath? (cs : List Char) : Option (List String × List Char) :=
  match keyPart? cs with
  | none => none
  | some (part, rest) =>
      match skipBlanks rest with
      | '.' :: more =>
          if _h : (skipBlanks more).length < cs.length then
            (keyPath? (skipBlanks more)).map fun (path, rest) => (part :: path, rest)
          else none
      | rest => some ([part], rest)
termination_by cs.length

/-- How deep values nest, and how many parts a key has, at most. -/
def maxDepth : Nat := 80

/-- Reads a key that is not too long. -/
def key? (cs : List Char) : Option (List String × List Char) :=
  match keyPath? cs with
  | some (path, rest) => if path.length ≤ maxDepth then some (path, rest) else none
  | none => none

mutual

/-- Reads a value that nests at most `depth` deep. -/
def value? (depth : Nat) (cs : List Char) : Option (Toml × List Char) :=
  match cs with
  | '[' :: rest =>
      if depth = 0 then none
      else (items? (depth - 1) rest).map fun (items, rest) => (.array items, rest)
  | '\x7b' :: rest =>
      if depth = 0 then none
      else (members? (depth - 1) [] rest).map fun (members, rest) =>
        (.table (Section.membersToToml members), rest)
  | '"' :: _ => (string? cs).map fun (s, rest) => (.string (String.ofList s), rest)
  | '\'' :: _ => (string? cs).map fun (s, rest) => (.string (String.ofList s), rest)
  | _ => scalar? cs
termination_by (cs.length, 0)

/-- Reads the items of an array and its closing mark. -/
def items? (depth : Nat) (cs : List Char) : Option (List Toml × List Char) :=
  match skipFiller false cs with
  | none => none
  | some (']' :: rest) => some ([], rest)
  | some inner =>
      if _h : inner.length ≤ cs.length then
        match value? depth inner with
        | none => none
        | some (v, rest) =>
            match skipFiller false rest with
            | some (',' :: more) =>
                if _h : more.length < cs.length then
                  (items? depth more).map fun (items, rest) => (v :: items, rest)
                else none
            | some (']' :: rest) => some ([v], rest)
            | _ => none
      else none
termination_by (cs.length, 1)
decreasing_by
  all_goals
    simp only [Prod.lex_def]
    omega

/-- Reads the members of a table in braces and its closing mark.  Lines may end on both sides of an
equals sign, but not within a key. -/
def members? (depth : Nat) (done : Section.Members) (cs : List Char) :
    Option (Section.Members × List Char) :=
  match skipFiller false cs with
  | none => none
  | some ('\x7d' :: rest) => some (done, rest)
  | some inner =>
      match (key? inner).bind fun (path, rest) => (skipFiller false rest).map (path, ·) with
      | some (path, '=' :: afterKey) =>
          match skipFiller false afterKey with
          | none => none
          | some text =>
              if _h : text.length < cs.length then
                match value? depth text with
                | none => none
                | some (v, rest) =>
                    match Section.assign path v done, skipFiller false rest with
                    | some done, some (',' :: more) =>
                        if _h : more.length < cs.length then members? depth done more else none
                    | some done, some ('\x7d' :: rest) => some (done, rest)
                    | _, _ => none
              else none
      | _ => none
termination_by (cs.length, 1)

end

/-- A text under construction: all its parts, and the header that is open. -/
structure Draft where
  parts : Section.Members
  header : List String

/-- Reads a line with a header in single brackets. -/
def headerLine? (d : Draft) (cs : List Char) : Option (Draft × List Char) :=
  match key? (skipBlanks cs) with
  | some (path, ']' :: rest) =>
      match Section.openTable path d.parts, finishLine? rest with
      | some parts, some rest => some (⟨parts, path⟩, rest)
      | _, _ => none
  | _ => none

/-- Reads a line with a header in double brackets. -/
def listHeaderLine? (d : Draft) (cs : List Char) : Option (Draft × List Char) :=
  match key? (skipBlanks cs) with
  | some (path, ']' :: ']' :: rest) =>
      match Section.openTables path d.parts, finishLine? rest with
      | some parts, some rest => some (⟨parts, path⟩, rest)
      | _, _ => none
  | _ => none

/-- Reads a line with a key and its value. -/
def valueLine? (d : Draft) (cs : List Char) : Option (Draft × List Char) :=
  match key? cs with
  | some (path, '=' :: afterKey) =>
      match value? maxDepth (skipBlanks afterKey) with
      | none => none
      | some (v, rest) =>
          match Section.assignIn d.header path v d.parts, finishLine? rest with
          | some parts, some rest => some (⟨parts, d.header⟩, rest)
          | _, _ => none
  | _ => none

/-- Reads one line. -/
def line? (d : Draft) (cs : List Char) : Option (Draft × List Char) :=
  match skipBlanks cs with
  | '[' :: '[' :: rest => listHeaderLine? d rest
  | '[' :: rest => headerLine? d rest
  | rest =>
      match finishLine? rest with
      | some rest => some (d, rest)
      | none => valueLine? d rest

/-- Reads the lines of a text. -/
def lines? (d : Draft) (cs : List Char) : Option Draft :=
  match cs with
  | [] => some d
  | c :: cs =>
      match line? d (c :: cs) with
      | none => none
      | some (d, rest) => if _h : rest.length ≤ cs.length then lines? d rest else none
termination_by cs.length

/-- The text without the mark of byte order that may begin it. -/
def withoutMark : List Char → List Char
  | '\ufeff' :: rest => rest
  | cs => cs

/-- Reads TOML as the members of its outermost table. -/
def parse? (cs : List Char) : Option (List (String × Toml)) :=
  (lines? ⟨[], []⟩ (withoutMark cs)).map fun d => Section.membersToToml d.parts

end Keyset.Toml
