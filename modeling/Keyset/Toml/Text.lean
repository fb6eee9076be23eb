import Keyset.Text.Hex
import Keyset.Toml.Basic

/-! # TOML strings

Strings stand between quotes of one of two kinds, single or in threes.  Between double quotes a
backslash begins an escape; between threes of quotes lines may end, and a backslash at the end of a
line joins what follows. -/

namespace Keyset.Toml

/-- The character of an escape of one letter. -/
def escaped? : Char → Option Char
  | 'b' => some '\x08'
  | 't' => some '\t'
  | 'n' => some '\n'
  | 'f' => some '\x0c'
  | 'r' => some '\r'
  | 'e' => some '\x1b'
  | '"' => some '"'
  | '\\' => some '\\'
  | _ => none

/-- The number of some hexadecimal digits. -/
def hexNumber? (ds : List Char) : Option Nat :=
  ds.foldlM (fun n d => (Text.Hex.value? d).map (16 * n + ·)) 0

/-- The character of a code point, which is no half of a pair. -/
def ofCodePoint? (n : Nat) : Option Char :=
  if h : n.isValidChar then some (Char.ofNatAux n h) else none

/-- The character that some hexadecimal digits name. -/
def ofHex? (ds : List Char) : Option Char := (hexNumber? ds).bind ofCodePoint?

/-- Reads the body of a string between single double quotes; what is read is kept last first. -/
def basicBody (done : List Char) : List Char → Option (List Char × List Char)
  | [] => none
  | '"' :: rest => some (done.reverse, rest)
  | '\\' :: 'x' :: a :: b :: rest =>
      match ofHex? [a, b] with
      | some c => basicBody (c :: done) rest
      | none => none
  | '\\' :: 'u' :: a :: b :: c :: d :: rest =>
      match ofHex? [a, b, c, d] with
      | some c => basicBody (c :: done) rest
      | none => none
  | '\\' :: 'U' :: a :: b :: c :: d :: e :: f :: g :: h :: rest =>
      match ofHex? [a, b, c, d, e, f, g, h] with
      | some c => basicBody (c :: done) rest
      | none => none
  | '\\' :: c :: rest =>
      match escaped? c with
      | some c => basicBody (c :: done) rest
      | none => none
  | c :: rest => if isPlain c ∧ c ≠ '\\' then basicBody (c :: done) rest else none

/-- Whether the rest of a line is blank. -/
def endsLine (cs : List Char) : Bool :=
  match skipBlanks cs with
  | '\n' :: _ => true
  | '\r' :: '\n' :: _ => true
  | _ => false

/-- Reads the body of a string between threes of double quotes.  While `joining`, blanks and ends of
lines are dropped. -/
def longBasicBody (joining : Bool) (done : List Char) : List Char → Option (List Char × List Char)
  | [] => none
  | '"' :: '"' :: '"' :: '"' :: '"' :: rest => some (done.reverse ++ ['"', '"'], rest)
  | '"' :: '"' :: '"' :: '"' :: rest => some (done.reverse ++ ['"'], rest)
  | '"' :: '"' :: '"' :: rest => some (done.reverse, rest)
  | '\n' :: rest => longBasicBody joining (if joining then done else '\n' :: done) rest
  | '\r' :: '\n' :: rest =>
      longBasicBody joining (if joining then done else '\n' :: '\r' :: done) rest
  | '\\' :: 'x' :: a :: b :: rest =>
      match ofHex? [a, b] with
      | some c => longBasicBody false (c :: done) rest
      | none => none
  | '\\' :: 'u' :: a :: b :: c :: d :: rest =>
      match ofHex? [a, b, c, d] with
      | some c => longBasicBody false (c :: done) rest
      | none => none
  | '\\' :: 'U' :: a :: b :: c :: d :: e :: f :: g :: h :: rest =>
      match ofHex? [a, b, c, d, e, f, g, h] with
      | some c => longBasicBody false (c :: done) rest
      | none => none
  | '\\' :: c :: rest =>
      match escaped? c with
      | some c => longBasicBody false (c :: done) rest
      | none => if endsLine (c :: rest) then longBasicBody true done (c :: rest) else none
  | c :: rest =>
      if joining ∧ (c = ' ' ∨ c = '\t') then longBasicBody true done rest
      else if isPlain c ∧ c ≠ '\\' then longBasicBody false (c :: done) rest
      else none

/-- Reads the body of a string between single quotes. -/
def literalBody (done : List Char) : List Char → Option (List Char × List Char)
  | [] => none
  | '\'' :: rest => some (done.reverse, rest)
  | c :: rest => if isPlain c then literalBody (c :: done) rest else none

/-- Reads the body of a string between threes of single quotes. -/
def longLiteralBody (done : List Char) : List Char → Option (List Char × List Char)
  | [] => none
  | '\'' :: '\'' :: '\'' :: '\'' :: '\'' :: rest => some (done.reverse ++ ['\'', '\''], rest)
  | '\'' :: '\'' :: '\'' :: '\'' :: rest => some (done.reverse ++ ['\''], rest)
  | '\'' :: '\'' :: '\'' :: rest => some (done.reverse, rest)
  | '\n' :: rest => longLiteralBody ('\n' :: done) rest
  | '\r' :: '\n' :: rest => longLiteralBody ('\n' :: '\r' :: done) rest
  | c :: rest => if isPlain c then longLiteralBody (c :: done) rest else none

/-- Drops the end of a line right after an opening mark. -/
def afterOpening : List Char → List Char
  | '\n' :: rest => rest
  | '\r' :: '\n' :: rest => rest
  | cs => cs

/-- Reads a string of one line. -/
def shortString? : List Char → Option (List Char × List Char)
  | '"' :: rest => basicBody [] rest
  | '\'' :: rest => literalBody [] rest
  | _ => none

/-- Reads a string. -/
def string? : List Char → Option (List Char × List Char)
  | '"' :: '"' :: '"' :: rest => longBasicBody false [] (afterOpening rest)
  | '\'' :: '\'' :: '\'' :: rest => longLiteralBody [] (afterOpening rest)
  | cs => shortString? cs

/-! ## Writing -/

/-- The longest run of a character in a text. -/
def longestRun (c : Char) (cs : List Char) : Nat :=
  (cs.foldl (fun (run, longest) d =>
    if d = c then (run + 1, max longest (run + 1)) else (0, longest)) (0, 0)).2

/-- Whether a character can only be written as an escape. -/
def needsEscape (c : Char) : Bool := c ≠ '\n' && !isPlain c

/-- A character between double quotes, or between threes of them. -/
def escapeChar (long : Bool) (c : Char) : List Char :=
  if c = '\x08' then ['\\', 'b']
  else if c = '\t' then ['\\', 't']
  else if c = '\n' then if long then ['\n'] else ['\\', 'n']
  else if c = '\x0c' then ['\\', 'f']
  else if c = '\r' then ['\\', 'r']
  else if c = '\\' then ['\\', '\\']
  else if needsEscape c then
    ['\\', 'u', '0', '0', Nat.digitChar (c.toNat / 16), (Nat.digitChar (c.toNat % 16)).toUpper]
  else [c]

/-- A text between double quotes, or between threes of them.  `quotes` counts the quotes just
written; only so many may stand in a row. -/
def escapeText (long : Bool) (quotes : Nat) : List Char → List Char
  | [] => []
  | '"' :: rest =>
      if quotes + 1 ≤ (if long then 2 else 0) then '"' :: escapeText long (quotes + 1) rest
      else '\\' :: '"' :: escapeText long 0 rest
  | c :: rest => escapeChar long c ++ escapeText long 0 rest

/-- The string as TOML: the plainest form that needs no escapes, or between double quotes. -/
def stringText (cs : List Char) : List Char :=
  let escapes := cs.any needsEscape
  let lines := cs.contains '\n'
  let backslash := cs.contains '\\'
  let doubles := longestRun '"' cs
  let singles := longestRun '\'' cs
  let opening := if lines then ['\n'] else []
  if !escapes && !backslash && doubles == 0 && !lines then
    '"' :: (escapeText false 0 cs ++ ['"'])
  else if !escapes && singles == 0 && !lines then '\'' :: (cs ++ ['\''])
  else if !escapes && !backslash && doubles ≤ 2 then
    ['"', '"', '"'] ++ opening ++ escapeText true 0 cs ++ ['"', '"', '"']
  else if !escapes && singles ≤ 2 then
    ['\'', '\'', '\''] ++ opening ++ cs ++ ['\'', '\'', '\'']
  else if lines then ['"', '"', '"'] ++ opening ++ escapeText true 0 cs ++ ['"', '"', '"']
  else '"' :: (escapeText false 0 cs ++ ['"'])

end Keyset.Toml
