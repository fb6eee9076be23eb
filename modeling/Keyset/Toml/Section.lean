import Keyset.Toml.Basic

/-! # Sections

A TOML text builds its tables piece by piece.  A table may be named by a header once, be implied by
the names of others, or grow by dotted keys; the three do not mix, and no key is given twice. -/

namespace Keyset.Toml

/-- How a table came about. -/
inductive Origin where
  /-- By a header. -/
  | header
  /-- As a part of the name of another table. -/
  | implied
  /-- As a part of a dotted key. -/
  | dotted
deriving DecidableEq

/-- A part of a text under construction. -/
inductive Section where
  | value (v : Toml)
  | table (origin : Origin) (members : List (String × Section))
  /-- A list of tables, the last one first. -/
  | tables (last : List (String × Section)) (before : List (List (String × Section)))

namespace Section

/-- The parts of a table by their keys. -/
abbrev Members := List (String × Section)

/-- The members with one of them replaced, or added at the end. -/
def set (key : String) (s : Section) : Members → Members
  | [] => [(key, s)]
  | (k, old) :: rest => if k = key then (k, s) :: rest else (k, old) :: set key s rest

/-- Changes the table at a path, which is made up as it is needed.  A dotted path passes through no
table that has a header. -/
def change (isDotted : Bool) (act : Option Origin → Members → Option Members)
    (origin : Option Origin) : List String → Members → Option Members
  | [], members => act origin members
  | key :: path, members =>
      match members.lookup key with
      | none =>
          let new := if isDotted then Origin.dotted else Origin.implied
          (change isDotted act (some new) path []).map fun inner =>
            set key (.table new inner) members
      | some (.value _) => none
      | some (.tables last before) =>
          (change isDotted act (some .header) path last).map fun inner =>
            set key (.tables inner before) members
      | some (.table old inner) =>
          if isDotted && old == .header then none
          else
            (change isDotted act (some old) path inner).map fun inner =>
              set key (.table old inner) members

/-- Adds a value at a dotted key.  The table that takes it was made by dotted keys, if the key has
dots. -/
def assign (path : List String) (v : Toml) (members : Members) : Option Members :=
  match path.getLast? with
  | none => none
  | some key =>
      let act := fun (origin : Option Origin) (ms : Members) =>
        if origin.isSome && origin != some .dotted then none
        else if (ms.lookup key).isSome then none
        else some (set key (.value v) ms)
      change true act none path.dropLast members

/-- Opens the table of a header, which must be new or only implied. -/
def openTable (path : List String) (members : Members) : Option Members :=
  match path.getLast? with
  | none => none
  | some key =>
      let act := fun (_ : Option Origin) (ms : Members) =>
        match ms.lookup key with
        | none => some (set key (.table .header []) ms)
        | some (.table .implied inner) => some (set key (.table .header inner) ms)
        | some _ => none
      change false act none path.dropLast members

/-- Adds a table to the list of a header. -/
def openTables (path : List String) (members : Members) : Option Members :=
  match path.getLast? with
  | none => none
  | some key =>
      let act := fun (_ : Option Origin) (ms : Members) =>
        match ms.lookup key with
        | none => some (set key (.tables [] []) ms)
        | some (.tables last before) => some (set key (.tables [] (last :: before)) ms)
        | some _ => none
      change false act none path.dropLast members

/-- Adds a value in the table of the latest header. -/
def assignIn (header path : List String) (v : Toml) (members : Members) : Option Members :=
  change false (fun _ ms => assign path v ms) none header members

mutual

/-- The value of a finished part. -/
def toToml : Section → Toml
  | value v => v
  | table _ members => .table (membersToToml members)
  | tables last before => .array (tablesToToml before [.table (membersToToml last)])

/-- The values of the members. -/
def membersToToml : Members → List (String × Toml)
  | [] => []
  | (key, s) :: rest => (key, toToml s) :: membersToToml rest

/-- The values of tables, the last one first, before some others. -/
def tablesToToml : List Members → List Toml → List Toml
  | [], done => done
  | members :: rest, done => tablesToToml rest (.table (membersToToml members) :: done)

end

end Section

end Keyset.Toml
