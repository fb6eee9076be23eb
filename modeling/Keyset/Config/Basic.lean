import Keyset.Failure
import Keyset.Number.Reading
import Keyset.Text.Blank

/-! # Configurations

What can be configured, its default values, the variables that override it, and what makes a
configuration valid.  How much is logged is a level: it logs what the levels before it log, and
more. -/

namespace Keyset

/-- How much is logged. -/
inductive LogLevel where
  | error
  | warn
  | info
  | debug
  | trace
deriving DecidableEq

namespace LogLevel

/-- The name of a level. -/
def name : LogLevel → String
  | error => "error"
  | warn => "warn"
  | info => "info"
  | debug => "debug"
  | trace => "trace"

/-- The name of a level on a line of the log. -/
def label : LogLevel → String
  | error => "ERROR"
  | warn => "WARN"
  | info => "INFO"
  | debug => "DEBUG"
  | trace => "TRACE"

/-- The place of a level among the levels. -/
def rank : LogLevel → Nat
  | error => 0
  | warn => 1
  | info => 2
  | debug => 3
  | trace => 4

/-- All levels. -/
def all : List LogLevel := [error, warn, info, debug, trace]

/-- The level of a name as it is. -/
def ofName? (name : String) : Option LogLevel := all.find? fun l => l.name == name

/-- Reads a name in any case, with blanks around it; a warning level has two names. -/
def read? (text : String) : Option LogLevel :=
  let name := String.ofList ((Text.trim text.toList).map Number.lowerAscii)
  if name = "warning" then some warn else ofName? name

/-- Whether a level logs what belongs to another. -/
def shows (l other : LogLevel) : Bool := other.rank ≤ l.rank

end LogLevel

/-- How pages are read. -/
structure PagingConfig where
  pageSize : UInt64 := 20
  offsetCutoff : Option UInt64 := none
  ordering : String := "-_id"
deriving DecidableEq

/-- How a server is reached. -/
structure ConnectionConfig where
  address : String := "mongodb://localhost:27017"
  /-- How many seconds to wait for a server. -/
  timeout : UInt64 := 30
  appName : Option String := none
deriving DecidableEq

/-- What is logged. -/
structure LoggingConfig where
  level : LogLevel := .warn
  timestamps : Bool := true
deriving DecidableEq

/-- A configuration. -/
structure Config where
  paging : PagingConfig := {}
  connection : ConnectionConfig := {}
  logging : LoggingConfig := {}
deriving DecidableEq

/-- The order that is configured. -/
def PagingConfig.order (c : PagingConfig) : Except ConfigFault SortOrder :=
  (SortOrder.parse c.ordering.toList).mapError fun fault =>
    .badValue "pagination.ordering" (c.ordering ++ " (" ++ fault.message ++ ")")

namespace Config

/-! ## Overrides -/

/-- A variable that overrides a part of a configuration. -/
structure Override where
  name : String
  /-- The configuration with the value of the variable in it, if the value can be used. -/
  put? : String → Config → Option Config

/-- The page size. -/
def overridePageSize : Override where
  name := "KEYPAGE_PAGE_SIZE"
  put? value c :=
    (Number.readLimited? value true none).map fun n =>
      { c with paging := { c.paging with pageSize := n } }

/-- The offset cutoff. -/
def overrideOffsetCutoff : Override where
  name := "KEYPAGE_OFFSET_CUTOFF"
  put? value c :=
    (Number.readLimited? value true none).map fun n =>
      { c with paging := { c.paging with offsetCutoff := some n } }

/-- The address of the server. -/
def overrideAddress : Override where
  name := "KEYPAGE_URI"
  put? value c := some { c with connection := { c.connection with address := value } }

/-- The log level. -/
def overrideLogLevel : Override where
  name := "KEYPAGE_LOG_LEVEL"
  put? value c :=
    (LogLevel.read? value).map fun l => { c with logging := { c.logging with level := l } }

/-- All overrides in the order in which they apply. -/
def overrides : List Override :=
  [overridePageSize, overrideOffsetCutoff, overrideAddress, overrideLogLevel]

/-- Applies overrides until one cannot be used; those before it stay applied. -/
def applyAll (lookup : String → Option String) :
    List Override → Config → Config × Option ConfigFault
  | [], c => (c, none)
  | o :: rest, c =>
      match lookup o.name with
      | none => applyAll lookup rest c
      | some value =>
          match o.put? value c with
          | none => (c, some (.badValue o.name value))
          | some c => applyAll lookup rest c

/-- Applies the overrides of an environment. -/
def applyOverrides (lookup : String → Option String) (c : Config) : Config × Option ConfigFault :=
  applyAll lookup overrides c

/-! ## Validity -/

/-- The ways in which the address of a server may begin. -/
def addressSchemes : List String := ["mongodb://", "mongodb+srv://"]

/-- The first value that cannot be used. -/
def validate (c : Config) : Except ConfigFault Unit := do
  if c.paging.pageSize = 0 then throw (.badValue "pagination.page_size" "0")
  if c.paging.offsetCutoff = some 0 then throw (.badValue "pagination.offset_cutoff" "0")
  let _ ← c.paging.order
  unless addressSchemes.any (fun scheme => scheme.toList.isPrefixOf c.connection.address.toList) do
    throw (.badValue "connection.uri" c.connection.address)

end Config

end Keyset
