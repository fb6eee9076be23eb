import Keyset.Command.Basic
import Keyset.Connection.Offline

/-! # The command line

Reads the files and variables that a command line may need, runs the command, and prints what it
leaves behind.  No server can be reached from here. -/

namespace Keyset.Main

open Command

/-- What a path leads to that leads nowhere. -/
def noFile : FileContent := .missing "No such file or directory (os error 2)"

/-- What a path leads to. -/
def readPath (path : String) : IO FileContent := do
  try
    return .text (← IO.FS.readFile path)
  catch
    | .noFileOrDirectory .. => return noFile
    | .inappropriateType _ 20 _ => return .missing "Not a directory (os error 20)"
    | .inappropriateType _ 21 _ => return .unreadable "Is a directory (os error 21)"
    | e => return .unreadable (toString e)

/-- The paths that a command line may read. -/
def paths (home : String) : Except Ending Arguments → List String
  | .ok a =>
      let config := a.configFile.getD (home ++ "/.keypage/config.toml")
      match a.task with
      | .page r =>
          match r.source with
          | .file path => [config, path]
          | .collection _ => [config]
      | _ => [config]
  | .error _ => []

/-- The paths that a client of a command line may read. -/
def clientPaths (s : Surroundings) : Except Ending Arguments → List String
  | .ok a =>
      match configure s a with
      | .ok c => ((Address.offline? c.connection.address).map fun a => a.options.paths).getD []
      | .error _ => []
  | .error _ => []

/-- What some paths lead to. -/
def readPaths (paths : List String) : IO (List (String × FileContent)) :=
  paths.mapM fun path => do
    return (path, ← readPath path)

/-- The value of a variable that is set. -/
def settings : IO (List (String × String)) :=
  Config.overrides.filterMapM fun o => do
    return (← IO.getEnv o.name).map fun value => (o.name, value)

/-- The surroundings in which some files and variables are known. -/
def surroundings (home : String) (settings : List (String × String))
    (files : List (String × FileContent)) : Surroundings where
  file := read
  setting? name := settings.lookup name
  home := home
  attempt c := Attempt.offline read c.address
  database? address := (Address.offline? address).bind Address.database
where
  read (path : String) : FileContent := (files.lookup path).getD noFile

end Keyset.Main

open Keyset Command in
/-- Runs the command of the given words. -/
def main (words : List String) : IO UInt32 := do
  let home := (← IO.getEnv "HOME").getD "."
  let arguments := Command.read words
  let files ← Main.readPaths (Main.paths home arguments)
  let settings ← Main.settings
  let known := Main.surroundings home settings
  let clientFiles ← Main.readPaths (Main.clientPaths (known files) arguments)
  let result := respond (known (files ++ clientFiles)) words
  IO.print result.out
  for line in result.log do
    IO.eprintln line
  if let some failure := result.failure then
    IO.eprintln (failureLine failure)
  if result.exitCode = 2 then
    IO.eprintln usage
  return result.exitCode
