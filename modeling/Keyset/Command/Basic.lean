import Keyset.Collection
import Keyset.Command.Arguments
import Keyset.Config.File
import Keyset.Connection.Basic
import Keyset.Document.Extended.Writer
import Keyset.Failure
import Keyset.Pager
import Keyset.Text.Visible

/-! # Commands

What each command does, as a function of its surroundings: the files it can read, the variables that
are set, and the servers it can reach.  A run prints lines and logs events until it ends or fails. -/

namespace Keyset.Command

/-- A server that answers. -/
structure Server where
  /-- Whether the server still answers. -/
  answers : Bool
  /-- The documents of a collection of a database that a command asks for. -/
  find : String → String → Find → Except Failure (List Document)

/-- What a command finds around it. -/
structure Surroundings where
  file : String → FileContent
  /-- The value of a variable, if it is set. -/
  setting? : String → Option String
  home : String
  /-- What comes of an attempt to connect to an address. -/
  attempt : ConnectionConfig → Attempt Server
  /-- The database that an address names. -/
  database? : String → Option String

/-- An event of the log. -/
structure Event where
  level : LogLevel
  message : String
deriving DecidableEq

/-- The line of an event: its level, right-aligned, and its message, which cannot steer a
terminal. -/
def Event.line (e : Event) : String :=
  (if e.level.label.length < 5 then " " else "") ++ e.level.label ++ " " ++
    Text.Terminal.shown e.message

/-- What a run has printed and logged. -/
structure Transcript where
  printed : List String
  events : List Event
deriving DecidableEq

/-- A run that may fail; what it printed before stays printed. -/
abbrev Run (α : Type) := ExceptT Failure (StateM Transcript) α

namespace Run

/-- Prints a line. -/
def print (line : String) : Run Unit :=
  modify fun t => { t with printed := t.printed ++ [line] }

/-- Logs an event. -/
def note (level : LogLevel) (message : String) : Run Unit :=
  modify fun t => { t with events := t.events ++ [⟨level, message⟩] }

/-- Fails for a fault, seen as a failure. -/
def require {ε α : Type} (failure : ε → Failure) : Except ε α → Run α
  | .ok a => pure a
  | .error fault => throw (failure fault)

end Run

open Run

/-! ## Configuration -/

/-- The path of the configuration file that is read if none is named. -/
def defaultPath (s : Surroundings) : String := s.home ++ "/.keypage/config.toml"

/-- Reads the configuration file at a path. -/
def loadFile (s : Surroundings) (path : String) (absent : Except Failure Config) :
    Except Failure Config :=
  match s.file path with
  | .missing _ => absent
  | .text content => (Config.parse content).mapError .config
  | .unreadable reason => .error (.file reason)

/-- Reads the configuration file that is named, which must be there, or the default one. -/
def loadConfig (s : Surroundings) : Option String → Except Failure Config
  | some path => loadFile s path (.error (.config (.notFound path)))
  | none => loadFile s (defaultPath s) (.ok {})

/-- The log level that the command line asks for, if it does. -/
def Loudness.level? (l : Loudness) : Option LogLevel :=
  if l.veryVerbose then some .trace
  else if l.verbose then some .debug
  else if l.quiet then some .error
  else none

/-- A page size of the command line. -/
def readSize (text : String) : Except ConfigFault UInt64 :=
  match Number.readLimited? text true none with
  | some n => .ok n
  | none => .error (.badValue "size" text)

/-- The configuration with an address and a timeout of the command line. -/
def withConnection (c : Config) (address : Option String) (timeout : Option UInt64) : Config :=
  { c with connection :=
      { c.connection with
        address := address.getD c.connection.address
        timeout := timeout.getD c.connection.timeout } }

/-- The configuration with what the task asks for in it. -/
def withTask (c : Config) : Task → Except ConfigFault Config
  | .page r => do
      let size ←
        match r.size with
        | none => pure c.paging.pageSize
        | some text => readSize text
      let paging : PagingConfig :=
        { c.paging with pageSize := size, ordering := r.order.getD c.paging.ordering }
      return withConnection { c with paging := paging } r.address r.timeout
  | .ping address timeout => return withConnection c address timeout
  | _ => return c

/-- The configuration of a command line: the file, then the variables, then the arguments. -/
def configure (s : Surroundings) (a : Arguments) : Except Failure Config := do
  let c ← loadConfig s a.configFile
  let (c, fault) := c.applyOverrides s.setting?
  match fault with
  | some fault => throw (.config fault)
  | none =>
      let level := a.loudness.level?.getD c.logging.level
      let c := { c with logging := { c.logging with level := level } }
      let c ← (withTask c a.task).mapError .config
      c.validate.mapError .config
      return c

/-! ## Pages -/

/-- A truth value in words. -/
def boolWord (b : Bool) : String := String.ofList (FieldValue.boolText b)

/-- A count in words. -/
def countWord (n : UInt64) : String := toString n.toNat

/-- What is logged before a page is read. -/
def readingMessage (q : Query) : String :=
  "Reading page: ordering " ++ String.ofList q.order.text ++ ", boundary " ++
    boolWord q.boundary.isSome ++ ", skip " ++ countWord q.skip ++ ", limit " ++ countWord q.limit

/-- What is logged once a page is read. -/
def pageMessage (plan : Pager.Plan) (rows : List Document) (page : Page Document) : String :=
  let overflow := plan.overflows rows
  "Page of " ++ toString page.items.length ++ " items, overflow " ++ boolWord overflow ++
    ", previous " ++ boolWord (plan.hasPrevious overflow) ++
    ", next " ++ boolWord (plan.hasNext overflow)

/-- Whether the refusal of a token is logged: all but that of a position of the wrong length. -/
def isLogged : TokenError → Bool
  | .malformed (.boundary (.arity _ _)) => false
  | _ => true

/-- Reads the page of a token. -/
def fetch (c : PagingConfig) (token : Option String) (read : Query → Run (List Document)) :
    Run (Page Document) := do
  let order ← require .config c.order
  let size ← require .config (PageSize.ofCount c.pageSize)
  let pager : Pager := ⟨order, size, c.offsetCutoff⟩
  match pager.plan token size with
  | .error error =>
      if isLogged error then note .warn ("Rejected page token: " ++ error.message)
      throw (.token error)
  | .ok plan =>
      note .debug (readingMessage plan.query)
      let rows ← read plan.query
      let page := Pager.assemble order plan rows
      note .debug (pageMessage plan rows page)
      return page

/-- Reads rows in memory. -/
def readRows (rows : List Document) (q : Query) : Run (List Document) := do
  note .debug ("Memory read: " ++ toString (Rows.candidates rows q).length ++
    " candidate rows, skip " ++ countWord q.skip ++ ", limit " ++ countWord q.limit)
  return Rows.read rows q

/-- Reads rows of a server's collection. -/
def readCollection (server : Server) (database name : String) (base : Document) (q : Query) :
    Run (List Document) := do
  let find := Find.ofQuery base q
  note .debug ("Executing find on collection '" ++ name ++ "' with filter " ++
    Text.excerpt 256 (Bson.document find.filter).relaxed.compact ++ " sort " ++
    String.ofList q.order.text ++ " skip " ++ countWord q.skip ++ " limit " ++ countWord q.limit)
  require id (server.find database name find)

/-- Connects to the server of a configuration. -/
def connect (s : Surroundings) (c : ConnectionConfig) :
    Run (Connection Server × Except ConnectionFault Unit) := do
  let (connection, result) := Connection.new.connect (s.attempt c)
  match result with
  | .ok () => note .info "Connected to MongoDB"
  | .error (.badAddress reason) =>
      note .warn ("Invalid connection URI: " ++
        (Failure.connection (.badAddress reason)).message)
  | .error _ => pure ()
  return (connection, result)

/-- Reads a filter of the command line. -/
def readFilter (text : String) : Except ConfigFault Document :=
  match Json.parse? text.toList with
  | none => .error (.badValue "filter" (text ++ " (not a JSON value)"))
  | some v =>
      match Bson.ofExtended? v with
      | none => .error (.badValue "filter" (text ++ " (malformed extended JSON)"))
      | some (.document d) => .ok d
      | some _ => .error (.badValue "filter" (text ++ " (not a JSON object)"))

/-- The database that is read if neither the command line nor the address names one. -/
def defaultDatabase : String := "test"

/-- The page of a collection. -/
def collectionPage (s : Surroundings) (c : Config) (r : PageRequest) (name : String) :
    Run (Page Document) := do
  let (connection, result) ← connect s c.connection
  require .connection result
  let server ← require .connection connection.client
  let database := (r.database.or (s.database? c.connection.address)).getD defaultDatabase
  let base ←
    match r.filter with
    | none => pure []
    | some text => require .config (readFilter text)
  try
    let page ← fetch c.paging r.token (readCollection server database name base)
    note .debug "MongoDB client shut down"
    return page
  catch failure =>
    note .debug "MongoDB client shut down"
    throw failure

/-- The page of a file. -/
def filePage (s : Surroundings) (c : Config) (r : PageRequest) (path : String) :
    Run (Page Document) := do
  match s.file path with
  | .missing reason => throw (.file reason)
  | .unreadable reason => throw (.file reason)
  | .text content =>
      let rows ← require (fun (number, fault) => .storage (.badLine number fault))
        (JsonLines.loadDocuments content)
      note .info ("Loaded " ++ toString rows.length ++ " documents from " ++ path)
      fetch c.paging r.token (readRows rows)

/-- A link as JSON. -/
def linkJson : Option String → Json
  | some token => .string token
  | none => .null

/-- A page as JSON. -/
def pageJson (page : Page Document) : Json :=
  .object [
    ("items", .array (page.items.map fun d => (Bson.document d).relaxed)),
    ("previous", linkJson page.previous),
    ("next", linkJson page.next)]

/-- Runs the page command. -/
def runPage (s : Surroundings) (c : Config) (r : PageRequest) : Run Unit := do
  let page ←
    match r.source with
    | .file path => filePage s c r path
    | .collection name => collectionPage s c r name
  print (if r.compact then (pageJson page).compact else (pageJson page).pretty 2)

/-! ## Other commands -/

/-- Runs the ping command. -/
def runPing (s : Surroundings) (c : Config) : Run Unit := do
  let (connection, result) ← connect s c.connection
  match result with
  | .error fault =>
      note .warn ("Connection " ++ connection.state.text)
      throw (.connection fault)
  | .ok () =>
      let healthy ← require .connection (connection.health Server.answers)
      note .debug "MongoDB client shut down"
      print (Json.pretty 2 (.object [
        ("state", .string connection.state.text),
        ("healthy", .bool (healthy && connection.isConnected)),
        ("response_time_ms", .integer 0)]))

/-- A cursor as JSON, with the values of its position. -/
def cursorJson (c : Cursor) : Except Position.Fault Json := do
  let values ←
    match c.position with
    | none => pure []
    | some p => p.values
  return .object [
    ("offset", .integer c.offset.toNat),
    ("reverse", .bool c.reverse),
    ("position", linkJson (c.position.map Position.text)),
    ("values", .array (values.map fun v => v.toBson.relaxed))]

/-- A fault of a position, which a client sent. -/
def positionFailure (fault : Position.Fault) : Failure :=
  .token (.malformed (.boundary (.position fault)))

/-- Runs the command that reads a token. -/
def runDecode (c : Config) (token : String) : Run Unit := do
  let cursor ← require .token (Token.decode c.paging.offsetCutoff (some token))
  let json ← require positionFailure (cursorJson (cursor.getD .start))
  print (json.pretty 2)

/-- Runs the command that writes a token. -/
def runEncode (offset : UInt64) (reverse : Bool) (position : Option String) : Run Unit := do
  let position := position.map Position.mk
  match position with
  | none => pure ()
  | some p =>
      let _ ← require positionFailure p.values
  print (Token.encode ⟨offset, reverse, position⟩)

/-- Runs the command on the configuration. -/
def runConfig (s : Surroundings) (c : Config) (path : String) (validate display : Bool) :
    Run Unit := do
  if validate then
    match s.file path with
    | .missing _ => print ("Configuration file " ++ path ++ " does not exist")
    | _ =>
        let own ← require id (loadFile s path (.ok {}))
        require .config own.validate
        print ("Configuration file " ++ path ++ " is valid")
  if display then
    print ("# Configuration file: " ++ path)
    print c.toText

/-- The version of the program. -/
def version : String := "0.3.0"

/-- Runs the task of a command line. -/
def runTask (s : Surroundings) (c : Config) (a : Arguments) : Run Unit :=
  match a.task with
  | .page r => runPage s c r
  | .ping _ _ => runPing s c
  | .decodeToken token => runDecode c token
  | .encodeToken offset reverse position => runEncode offset reverse position
  | .config validate display =>
      runConfig s c (a.configFile.getD (defaultPath s)) validate display
  | .version => do
      print ("keypage version " ++ version)
      print "Rust version: 1.91"

/-! ## Results -/

/-- What a run leaves behind. -/
structure Result where
  exitCode : UInt32
  out : String
  log : List String
  failure : Option Failure

/-- Lines as a text. -/
def linesText (lines : List String) : String := String.join (lines.map (· ++ "\n"))

/-- What is printed of a failure: its words, marked as an error unless the client is at fault. -/
def failureLine (f : Failure) : String :=
  if f.isClientFault then f.message else "Error: " ++ f.message

/-- What a command line leaves behind. -/
def perform (s : Surroundings) (a : Arguments) : Result :=
  match configure s a with
  | .error f => ⟨1, "", [], some f⟩
  | .ok c =>
      let (result, t) := (runTask s c a).run.run ⟨[], []⟩
      let log := (t.events.filter fun e => c.logging.level.shows e.level).map Event.line
      match result with
      | .ok () => ⟨0, linesText t.printed, log, none⟩
      | .error f => ⟨1, linesText t.printed, log, some f⟩

/-- How the command is used. -/
def usage : String :=
  "Cursor-based pagination over ordered collections\n\n" ++
  "Usage: keypage [OPTIONS] <COMMAND>\n\n" ++
  "Commands:\n" ++
  "  page     Fetch one page\n" ++
  "  ping     Check that the MongoDB deployment answers\n" ++
  "  token    Inspect or build page tokens\n" ++
  "  config   Show configuration\n" ++
  "  version  Show version information\n" ++
  "  help     Print this message\n"

/-- What the words of a command line leave behind. -/
def respond (s : Surroundings) (words : List String) : Result :=
  match read words with
  | .ok a => perform s a
  | .error .help => ⟨0, usage, [], none⟩
  | .error .version => ⟨0, "keypage " ++ version ++ "\n", [], none⟩
  | .error .misuse => ⟨2, "", [], none⟩

end Keyset.Command
