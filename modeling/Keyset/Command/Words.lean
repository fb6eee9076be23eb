import Keyset.Number.Digits

/-! # Words of a command line

The words of a command line as options and operands, read one after the other.  An option has a long
name and perhaps a letter; its value follows an equals sign or is the next word.  Letters can be
written together, and a double hyphen makes operands of all words after it.

The value that is the next word is looked at only when the word after it is read: until then the
option waits.  So a command's name can follow a value that cannot be used, and what that command says
comes first. -/

namespace Keyset.Command

/-- How the reading of words ends early. -/
inductive Ending where
  | help
  | version
  | misuse
deriving DecidableEq

/-- What a value can be. -/
inductive ValueKind where
  | text
  /-- A path, which is not empty. -/
  | path
  | count
deriving DecidableEq

/-- Whether a text is a value of a kind. -/
def ValueKind.accepts : ValueKind → String → Bool
  | text, _ => true
  | path, s => s ≠ ""
  | count, s => (Number.readCount? s.toList).isSome

/-- What an option is for. -/
inductive SwitchKind where
  | flag
  /-- The option ends the reading. -/
  | ends (ending : Ending)
  /-- The option has a value; one that may begin with a hyphen is any word that follows. -/
  | valued (values : ValueKind) (hyphenated : Bool)
deriving DecidableEq

/-- An option that a command knows. -/
structure Switch where
  name : String
  letter : Option Char := none
  kind : SwitchKind := .flag
deriving DecidableEq

/-- What a command knows of its words. -/
structure Grammar where
  options : List Switch
  /-- The names that end the command's own words. -/
  commands : List String := []
  /-- How many operands there can be. -/
  operands : Nat := 0
  /-- Whether words that begin with a hyphen and are no options are operands. -/
  hyphenated : Bool := false

/-- The words of a command, sorted. -/
structure Words where
  /-- Options with their values, the last one first. -/
  options : List (String × String) := []
  /-- The option that waits, for its value or with it. -/
  waiting : Option (Switch × Option String) := none
  operands : List String := []
  /-- The command that ended the words, and the words after it. -/
  nested : Option (String × List String) := none

namespace Words

/-- The value of an option. -/
def value? (w : Words) (name : String) : Option String := w.options.lookup name

/-- Whether an option is given. -/
def has (w : Words) (name : String) : Bool := (w.value? name).isSome

/-- Adds an option, which may not be given twice, with a value that it accepts. -/
def add (w : Words) (o : Switch) (value : String) : Except Ending Words :=
  let accepted :=
    match o.kind with
    | .valued values _ => values.accepts value
    | _ => true
  if accepted && !w.has o.name then .ok { w with options := (o.name, value) :: w.options }
  else .error .misuse

/-- Adds the option that waits; it must have its value by now. -/
def settle (w : Words) : Except Ending Words :=
  match w.waiting with
  | none => .ok w
  | some (o, some value) => { w with waiting := none }.add o value
  | some (_, none) => .error .misuse

/-- Takes an option without a value. -/
def flag (w : Words) (o : Switch) : Except Ending Words :=
  w.settle.bind fun w =>
    match o.kind with
    | .flag => w.add o ""
    | .ends ending => .error ending
    | .valued _ _ => .ok { w with waiting := some (o, none) }

/-- Takes an option with the value that is written at it. -/
def attach (w : Words) (o : Switch) (value : List Char) : Except Ending Words :=
  match o.kind with
  | .valued _ _ => w.settle.bind fun w => w.add o (String.ofList value)
  | _ => .error .misuse

/-- The option that waits for its value. -/
def awaits? (w : Words) : Option Switch :=
  match w.waiting with
  | some (o, none) => some o
  | _ => none

/-- Whether the next word is a value, whatever it is. -/
def takesAny (w : Words) : Bool :=
  match w.awaits? with
  | some ⟨_, _, .valued _ hyphenated⟩ => hyphenated
  | _ => false

end Words

namespace Grammar

/-- The option of a long name. -/
def named? (g : Grammar) (name : String) : Option Switch := g.options.find? (·.name == name)

/-- The option of a letter. -/
def lettered? (g : Grammar) (c : Char) : Option Switch := g.options.find? (·.letter == some c)

/-- The name of a word that is a long option, and its value. -/
def splitWord (word : List Char) : String × Option (List Char) :=
  let name := String.ofList (word.takeWhile (· != '='))
  match word.dropWhile (· != '=') with
  | [] => (name, none)
  | _ :: value => (name, some value)

/-- Takes the letters of a word.  After that of an option with a value, the rest is the value. -/
def letters (g : Grammar) (w : Words) : List Char → Except Ending Words
  | [] => .ok w
  | c :: rest =>
      match g.lettered? c with
      | none => .error .misuse
      | some o =>
          match o.kind, rest with
          | .valued _ _, '=' :: value => w.attach o value
          | .valued _ _, d :: value => w.attach o (d :: value)
          | _, _ => (w.flag o).bind fun w => g.letters w rest

/-- Takes a word with a long name. -/
def long (g : Grammar) (w : Words) (word : List Char) : Except Ending Words :=
  match splitWord word with
  | (name, value) =>
      match g.named? name, value with
      | none, _ => .error .misuse
      | some o, some value => w.attach o value
      | some o, none => w.flag o

/-- Takes an operand, if there can be one more. -/
def operand (g : Grammar) (w : Words) (word : String) : Except Ending Words :=
  w.settle.bind fun w =>
    if w.operands.length < g.operands then .ok { w with operands := w.operands ++ [word] }
    else .error .misuse

/-- Takes a word that is no option: a value, if one is awaited, or else an operand. -/
def value (g : Grammar) (w : Words) (word : String) : Except Ending Words :=
  match w.awaits? with
  | some o => .ok { w with waiting := some (o, some word) }
  | none => g.operand w word

/-- Whether words that begin with a hyphen can still be operands. -/
def isOpen (g : Grammar) (w : Words) : Bool := g.hyphenated && w.operands.length < g.operands

/-- Takes a word, which is not a double hyphen. -/
def take (g : Grammar) (w : Words) (word : String) : Except Ending Words :=
  match word.toList with
  | '-' :: '-' :: cs =>
      if g.isOpen w && (g.named? (splitWord cs).1).isNone then g.value w word else g.long w cs
  | '-' :: c :: cs =>
      if g.isOpen w && (c :: cs).any fun c => (g.lettered? c).isNone then g.value w word
      else g.letters w (c :: cs)
  | _ => g.value w word

/-- Reads words up to their end or the name of a command. -/
def read (g : Grammar) (w : Words) : List String → Except Ending Words
  | [] => w.settle
  | word :: rest =>
      if w.takesAny then (g.value w word).bind fun w => g.read w rest
      else if w.awaits?.isNone && g.commands.contains word then
        .ok { w with nested := some (word, rest) }
      else if word = "--" then w.settle.bind fun w => rest.foldlM g.operand w
      else (g.take w word).bind fun w => g.read w rest

end Grammar

end Keyset.Command
