import Keyset.Number.Reading
import Keyset.Text.Percent
import Keyset.Text.Split
import Keyset.Text.Utf8

/-! # Options of an address

An address ends with options: names with values.  The names are known, every one has its kind of
value, and some values rule each other out. -/

namespace Keyset

/-- The value of an option. -/
inductive OptionValue where
  | text (s : String)
  | truth (b : Bool)
  | number (n : Int)
deriving DecidableEq

/-- Which values an option has. -/
inductive OptionKind where
  | text
  | truth
  /-- A number without a minus sign, within bounds. -/
  | count (least most : Nat)
  /-- A number within bounds. -/
  | integer (least most : Int)
  /-- One of some names. -/
  | name (names : List String)
  /-- One of some names, whose letters are of either case. -/
  | nameOfAnyCase (names : List String)
  /-- Names and values of tags, with commas between them, or none. -/
  | tags
  /-- Names and values, with commas between them. -/
  | properties
  /-- A number of servers, or the name of a group of them. -/
  | servers

/-- Options with their values, in the order in which they are given. -/
abbrev Options := List (String × OptionValue)

namespace Options

open Number

/-- The bytes that a part of an address stands for. -/
def bytesOf (cs : List Char) : List UInt8 := Text.Percent.expand (Text.utf8 (String.ofList cs))

/-- The small form of a letter.  Apart from the plain letters only the sign of the kelvin has one that
is a plain letter. -/
def lowerLetter (c : Char) : Char := if c = '\u212a' then 'k' else lowerAscii c

/-- A text in small letters. -/
def lowered (cs : List Char) : List Char := cs.map lowerLetter

/-! ## Values -/

/-- The mechanisms of logging in. -/
def mechanisms : List String :=
  ["MONGODB-CR", "SCRAM-SHA-1", "SCRAM-SHA-256", "MONGODB-X509", "GSSAPI", "PLAIN", "MONGODB-OIDC"]

/-- A span of time in milliseconds. -/
def duration : OptionKind := .count 0 maxCount

/-- A number of connections. -/
def size : OptionKind := .count 0 4294967295

/-- The options that are known. -/
def kinds : List (String × OptionKind) := [
  ("appname", .text),
  ("authmechanism", .name mechanisms),
  ("authmechanismproperties", .properties),
  ("authsource", .text),
  ("connecttimeoutms", duration),
  ("directconnection", .truth),
  ("heartbeatfrequencyms", .count 500 maxCount),
  ("journal", .truth),
  ("loadbalanced", .truth),
  ("localthresholdms", duration),
  ("maxconnecting", size),
  ("maxidletimems", duration),
  ("maxpoolsize", size),
  ("maxstalenessseconds", .integer (-1) 9223372036854775807),
  ("minpoolsize", size),
  ("readconcernlevel", .text),
  ("readpreference", .nameOfAnyCase
    ["primary", "secondary", "primarypreferred", "secondarypreferred", "nearest"]),
  ("readpreferencetags", .tags),
  ("replicaset", .text),
  ("retryreads", .truth),
  ("retrywrites", .truth),
  ("servermonitoringmode", .nameOfAnyCase ["stream", "poll", "auto"]),
  ("serverselectiontimeoutms", duration),
  ("sockettimeoutms", duration),
  ("srvmaxhosts", size),
  ("srvservicename", .text),
  ("ssl", .truth),
  ("tls", .truth),
  ("tlsallowinvalidcertificates", .truth),
  ("tlscafile", .text),
  ("tlscertificatekeyfile", .text),
  ("tlsinsecure", .truth),
  ("uuidrepresentation", .nameOfAnyCase ["csharplegacy", "javalegacy", "pythonlegacy"]),
  ("w", .servers),
  ("waitqueuetimeoutms", duration),
  ("wtimeoutms", duration)]

/-- The properties that no address can give. -/
def forbiddenProperties : List String := ["ALLOWED_HOSTS", "OIDC_CALLBACK", "OIDC_HUMAN_CALLBACK"]

/-- Reads names and values with commas between them. -/
def properties? (cs : List Char) : Option (List (String × String)) :=
  (cs.splitOn ',').mapM fun piece => do
    let (name, value) ← Text.splitAt? ':' piece
    if name = [] ∨ value = [] ∨ forbiddenProperties.contains (String.ofList name) then none
    else some (String.ofList name, String.ofList value)

/-- Reads a number of servers; what is no number of 32 bits is a name. -/
def servers? (cs : List Char) : Option OptionValue :=
  match readInt32? cs with
  | some n => if n.toInt < 0 then none else some (.number n.toInt)
  | none => some (.text (String.ofList cs))

/-- Reads a value of a kind. -/
def value? (kind : OptionKind) (cs : List Char) : Option OptionValue :=
  let text := OptionValue.text (String.ofList cs)
  match kind with
  | .text => some text
  | .truth =>
      if cs = ['t', 'r', 'u', 'e'] then some (.truth true)
      else if cs = ['f', 'a', 'l', 's', 'e'] then some (.truth false)
      else none
  | .count least most =>
      match readUnsigned? cs with
      | some n => if least ≤ n ∧ n ≤ most then some (.number n) else none
      | none => none
  | .integer least most =>
      match readSigned? cs with
      | some n => if least ≤ n ∧ n ≤ most then some (.number n) else none
      | none => none
  | .name names => if names.contains (String.ofList cs) then some text else none
  | .nameOfAnyCase names =>
      let lower := String.ofList (lowered cs)
      if names.contains lower then some (.text lower) else none
  | .tags =>
      if cs = [] ∨ (cs.splitOn ',').all (·.contains ':') then some text else none
  | .properties => (properties? cs).map fun _ => text
  | .servers => servers? cs

/-! ## Reading -/

/-- The options as they are written: the name of each in small letters, and the text of its value. -/
def pieces? (cs : List Char) : Option (List (String × List Char)) :=
  (cs.splitOn '&').mapM fun piece =>
    (Text.splitAt? '=' piece).map fun (name, value) => (String.ofList (lowered name), value)

/-- Whether an option can be given more than once. -/
def repeats (name : String) : Bool := name == "readpreferencetags"

/-- Reads options, none of which may be unknown or given twice. -/
def parse? (cs : List Char) : Option Options := do
  let pieces ← pieces? cs
  if ((pieces.map Prod.fst).filter fun name => !repeats name).Nodup then
    pieces.mapM fun (name, value) => do
      let kind ← kinds.lookup name
      let value ← value? kind (Text.ofBytes (bytesOf value))
      return (name, value)
  else none

/-! ## What is given -/

/-- The values of an option. -/
def values (o : Options) (name : String) : List OptionValue :=
  (o.filter fun entry => entry.1 == name).map Prod.snd

/-- Whether an option is given. -/
def has (o : Options) (name : String) : Bool := values o name ≠ []

/-- The text of an option; the last one counts. -/
def text? (o : Options) (name : String) : Option String :=
  match (values o name).getLast? with
  | some (.text s) => some s
  | _ => none

/-- The number of an option; the last one counts. -/
def number? (o : Options) (name : String) : Option Int :=
  match (values o name).getLast? with
  | some (.number n) => some n
  | _ => none

/-- Whether an option is given as true; the last one counts. -/
def holds (o : Options) (name : String) : Bool :=
  (values o name).getLast? == some (.truth true)

/-- The truth values of an option. -/
def truths (o : Options) (name : String) : List Bool :=
  (values o name).filterMap fun v =>
    match v with
    | .truth b => some b
    | _ => none

/-! ## What rules each other out -/

/-- Whether some truth values are all the same. -/
def agree (bs : List Bool) : Bool := bs.all id || bs.all not

/-- The options that only encrypted connections have. -/
def encryptionOptions : List String :=
  ["tlsinsecure", "tlsallowinvalidcertificates", "tlscafile", "tlscertificatekeyfile"]

/-- Connections are encrypted or not, and only one option says whether certificates are checked. -/
def encryptionIsUsable (o : Options) : Bool :=
  let encrypted := truths o "tls" ++ truths o "ssl"
  agree encrypted && !(has o "tlsinsecure" && has o "tlsallowinvalidcertificates") &&
    (!encrypted.contains false || encryptionOptions.all fun name => !has o name)

/-- The milliseconds between two looks at a server, unless an option says otherwise. -/
def usualHeartbeat : Int := 10000

/-- Whether a bound on how many seconds data may lag can be kept: ninety at least, and ten more than
pass between two looks at a server. -/
def lagIsUsable (o : Options) (seconds : Int) : Bool :=
  90 ≤ seconds && (number? o "heartbeatfrequencyms").getD usualHeartbeat + 10000 ≤ 1000 * seconds

/-- What narrows the choice of servers goes only with a choice that is not the primary one; data may
lag without bound, or by a bound that can be kept. -/
def readingIsUsable (o : Options) : Bool :=
  let choice := text? o "readpreference"
  let narrows := choice.isSome && choice != some "primary"
  (!has o "readpreferencetags" || narrows) &&
    match number? o "maxstalenessseconds" with
    | none => true
    | some n => n < 0 || (narrows && lagIsUsable o n)

/-- What no server acknowledges is not awaited. -/
def writingIsUsable (o : Options) : Bool :=
  !(number? o "w" == some 0 && holds o "journal")

/-- A pool has room for a connection. -/
def poolIsUsable (o : Options) : Bool :=
  number? o "maxpoolsize" != some 0 && number? o "maxconnecting" != some 0

/-- A single host is connected to directly, or balances the load alone. -/
def hostsAreUsable (o : Options) (hostCount : Nat) : Bool :=
  let direct := holds o "directconnection"
  let balanced := holds o "loadbalanced"
  !(direct && 1 < hostCount) &&
    !(balanced && (1 < hostCount || has o "replicaset" || direct))

/-- Options on records of the name service go only with addresses that need them, and a bound on their
number not with sets of replicas or a balanced load; such an address is not connected to directly. -/
def recordsAreUsable (o : Options) (byRecord : Bool) : Bool :=
  if byRecord then
    !holds o "directconnection" &&
      match number? o "srvmaxhosts" with
      | some n => n = 0 || !(has o "replicaset" || holds o "loadbalanced")
      | none => true
  else !has o "srvmaxhosts" && !has o "srvservicename"

/-- Whether options can be used together. -/
def areUsable (o : Options) (byRecord : Bool) (hostCount : Nat) : Bool :=
  encryptionIsUsable o && readingIsUsable o && writingIsUsable o && poolIsUsable o &&
    hostsAreUsable o hostCount && recordsAreUsable o byRecord

end Options

end Keyset
