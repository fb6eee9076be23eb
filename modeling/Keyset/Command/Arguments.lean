import Keyset.Command.Words
import Keyset.Number.Digits

/-! # Arguments

What a command line asks for.  Options that every command shares may stand before or after the
command's name; the later one counts. -/

namespace Keyset.Command

/-- Where the rows of a page come from. -/
inductive Source where
  | file (path : String)
  | collection (name : String)
deriving DecidableEq

/-- What the page command asks for. -/
structure PageRequest where
  source : Source
  address : Option String
  database : Option String
  filter : Option String
  order : Option String
  size : Option String
  token : Option String
  timeout : Option UInt64
  compact : Bool
deriving DecidableEq

/-- What is asked for. -/
inductive Task where
  | page (request : PageRequest)
  | ping (address : Option String) (timeout : Option UInt64)
  | decodeToken (token : String)
  | encodeToken (offset : UInt64) (reverse : Bool) (position : Option String)
  | config (validate : Bool) (display : Bool)
  | version
deriving DecidableEq

/-- How much the command line says is to be logged. -/
structure Loudness where
  quiet : Bool
  verbose : Bool
  veryVerbose : Bool
deriving DecidableEq

/-- A command line. -/
structure Arguments where
  configFile : Option String
  loudness : Loudness
  task : Task
deriving DecidableEq

/-- An option with a value. -/
def valued (name : String) (values : ValueKind) : Switch := ⟨name, none, .valued values false⟩

/-- An option whose value may begin with a hyphen. -/
def anyWord (name : String) : Switch := ⟨name, none, .valued .text true⟩

/-- The options that every command has. -/
def sharedSwitches : List Switch := [
  ⟨"config", some 'c', .valued .path false⟩,
  ⟨"quiet", some 'q', .flag⟩,
  ⟨"verbose", some 'v', .flag⟩,
  { name := "vv" },
  ⟨"help", some 'h', .ends .help⟩]

/-- The options before the command's name. -/
def topGrammar : Grammar where
  options := sharedSwitches ++ [⟨"version", some 'V', .ends .version⟩]
  commands := ["page", "ping", "token", "config", "version", "help"]

/-- The options of the page command. -/
def pageGrammar : Grammar where
  options := sharedSwitches ++ [
    valued "collection" .text,
    valued "file" .path,
    valued "uri" .text,
    valued "db" .text,
    valued "filter" .text,
    anyWord "order",
    valued "size" .text,
    anyWord "token",
    valued "timeout" .count,
    { name := "compact" },
    { name := "no-color" }]

/-- The options of the ping command. -/
def pingGrammar : Grammar where
  options := sharedSwitches ++ [valued "uri" .text, valued "timeout" .count]

/-- The options of the commands on tokens. -/
def tokenGrammar : Grammar where
  options := sharedSwitches
  commands := ["decode", "encode", "help"]

/-- The options of the command that reads a token. -/
def decodeGrammar : Grammar where
  options := sharedSwitches
  operands := 1
  hyphenated := true

/-- The options of the command that writes a token. -/
def encodeGrammar : Grammar where
  options := sharedSwitches ++ [
    valued "offset" .count,
    { name := "reverse" },
    valued "position" .text]

/-- The options of the command on the configuration. -/
def configGrammar : Grammar where
  options := sharedSwitches ++ [{ name := "show" }, { name := "validate" }]

/-- The options of the command that names the version. -/
def versionGrammar : Grammar where
  options := sharedSwitches

/-! ## Tasks -/

/-- The value of an option that is a count. -/
def countValue? (w : Words) (name : String) : Option UInt64 :=
  (w.value? name).bind fun text => Number.readCount? text.toList

/-- Where the rows of a page come from: a file or a collection, and not both. -/
def source? (w : Words) : Option Source :=
  match w.value? "file", w.value? "collection" with
  | some path, none => some (.file path)
  | none, some name => some (.collection name)
  | _, _ => none

/-- The task of the page command. -/
def pageTask? (w : Words) : Option Task :=
  (source? w).map fun source =>
    .page ⟨source, w.value? "uri", w.value? "db", w.value? "filter", w.value? "order",
      w.value? "size", w.value? "token", countValue? w "timeout", w.has "compact"⟩

/-- The task of the ping command. -/
def pingTask (w : Words) : Task := .ping (w.value? "uri") (countValue? w "timeout")

/-- The task of the command that reads a token. -/
def decodeTask? (w : Words) : Option Task := w.operands.head?.map .decodeToken

/-- The task of the command that writes a token. -/
def encodeTask (w : Words) : Task :=
  .encodeToken ((countValue? w "offset").getD 0) (w.has "reverse") (w.value? "position")

/-- The task of the command on the configuration. -/
def configTask (w : Words) : Task :=
  .config (w.has "validate") (w.has "show" || !w.has "validate")

/-! ## Command lines -/

/-- The command line of a task, whose words stand on some levels.  What still waits on the outer ones
is looked at now. -/
def finish (levels : List Words) (task : Option Task) : Except Ending Arguments := do
  let levels ← levels.mapM Words.settle
  match task with
  | none => throw .misuse
  | some task =>
      let has (name : String) := levels.any (·.has name)
      let configFile := (levels.filterMap fun w => w.value? "config").getLast?
      return ⟨configFile, ⟨has "quiet", has "verbose", has "vv"⟩, task⟩

/-- Reads the words of a command after its name. -/
def command (g : Grammar) (task : Words → Option Task) (outer : List Words)
    (words : List String) : Except Ending Arguments := do
  let w ← g.read {} words
  finish (outer ++ [w]) (task w)

/-- Shows help on the command that some words name, of those that are known. -/
def helpOn (known : List (List String)) (words : List String) : Except Ending Arguments :=
  if known.contains words then .error .help else .error .misuse

/-- What there is help on among the commands on tokens. -/
def tokenTopics : List (List String) := [[], ["decode"], ["encode"], ["help"]]

/-- What there is help on. -/
def topics : List (List String) :=
  [[], ["page"], ["ping"], ["config"], ["version"], ["help"]] ++ tokenTopics.map ("token" :: ·)

/-- Reads the words of the commands on tokens. -/
def tokenCommand (outer : List Words) (words : List String) : Except Ending Arguments := do
  let w ← tokenGrammar.read {} words
  match w.nested with
  | some ("decode", rest) => command decodeGrammar decodeTask? (outer ++ [w]) rest
  | some ("encode", rest) => command encodeGrammar (some ∘ encodeTask) (outer ++ [w]) rest
  | some (_, rest) => helpOn tokenTopics rest
  | none => throw .misuse

/-- Reads the words of a command line, without the program's name. -/
def read (words : List String) : Except Ending Arguments := do
  let w ← topGrammar.read {} words
  match w.nested with
  | some ("page", rest) => command pageGrammar pageTask? [w] rest
  | some ("ping", rest) => command pingGrammar (some ∘ pingTask) [w] rest
  | some ("token", rest) => tokenCommand [w] rest
  | some ("config", rest) => command configGrammar (some ∘ configTask) [w] rest
  | some ("version", rest) => command versionGrammar (fun _ => some .version) [w] rest
  | some (_, rest) => helpOn topics rest
  | none => throw .misuse

end Keyset.Command
