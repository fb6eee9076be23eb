import Keyset.Connection.Login
import Keyset.Number.Digits
import Keyset.Text.Hex

/-! # Server addresses

An address names its scheme, the hosts of a deployment, and optionally who logs in, a database and
options.  A host can be given by its IPv6 address: eight groups of up to four hexadecimal digits with
colons between them, of which the last two can be written as four decimal numbers, and one run of
groups that are zero can be left out between two colons. -/

namespace Keyset

namespace Ip6

/-- Whether a text is a number of one byte without leading zeros. -/
def isByte (cs : List Char) : Bool :=
  match cs with
  | '0' :: _ :: _ => false
  | _ =>
      match Number.readDigits? cs with
      | some n => n ≤ 255
      | none => false

/-- Whether a text is four numbers of one byte with points between them. -/
def isQuad (cs : List Char) : Bool :=
  let parts := cs.splitOn '.'
  parts.length == 4 && parts.all isByte

/-- Whether a text is the digits of one group. -/
def isGroup (cs : List Char) : Bool :=
  cs ≠ [] && cs.length ≤ 4 && cs.all fun c => (Text.Hex.value? c).isSome

/-- How many groups some pieces stand for; the last may be four decimal numbers. -/
def countGroups? (quad : Bool) : List (List Char) → Option Nat
  | [] => some 0
  | [piece] => if isGroup piece then some 1 else if quad && isQuad piece then some 2 else none
  | piece :: rest => if isGroup piece then (countGroups? quad rest).map (· + 1) else none

/-- How many groups a text with colons between them stands for; an empty text has none. -/
def groups? (quad : Bool) (cs : List Char) : Option Nat :=
  if cs = [] then some 0 else countGroups? quad (cs.splitOn ':')

/-- Splits at the first two colons in a row. -/
def splitGap? : List Char → Option (List Char × List Char)
  | [] => none
  | ':' :: ':' :: rest => some ([], rest)
  | c :: rest => (splitGap? rest).map fun (front, back) => (c :: front, back)

/-- Whether a text is an address. -/
def isAddress (cs : List Char) : Bool :=
  match splitGap? cs with
  | none => groups? true cs == some 8
  | some (front, back) =>
      match groups? false front, groups? true back with
      | some m, some n => m + n ≤ 7
      | _, _ => false

end Ip6

/-- Where a server listens. -/
inductive Host where
  | named (name : String) (port : Option Nat)
  /-- A socket of the file system. -/
  | socket (path : String)
deriving DecidableEq

/-- The address of a deployment. -/
structure Address where
  /-- Whether the hosts are found through a record of the name service. -/
  byRecord : Bool
  hosts : List Host
  login : Option Login
  database : Option String
  options : Options
deriving DecidableEq

namespace Address

open Number Options

/-- Reads a port. -/
def port? (cs : List Char) : Option Nat :=
  match readUnsigned? cs with
  | some n => if 0 < n ∧ n < 65536 then some n else none
  | none => none

/-- A host with a name and perhaps the text of a port. -/
def named? (name : List Char) (port : Option (List Char)) : Option Host :=
  if name = [] then none
  else
    let name := String.ofList (name.map lowerAscii)
    match port with
    | none => some (.named name none)
    | some ds => (port? ds).map fun n => .named name (some n)

/-- The end of the path of a socket. -/
def socketEnding : List Char := ['.', 's', 'o', 'c', 'k']

/-- Reads a host: a socket, an IPv6 address in brackets, or a name. -/
def host? (cs : List Char) : Option Host :=
  if socketEnding.isSuffixOf cs then (Text.ofUtf8? (bytesOf cs)).map .socket
  else
    match cs with
    | '[' :: rest =>
        match Text.splitAt? ']' rest with
        | some (name, port) =>
            if Ip6.isAddress name then
              match port with
              | [] => named? name none
              | ':' :: ds => named? name (some ds)
              | _ => none
            else none
        | none => none
    | _ =>
        match Text.splitAt? ':' cs with
        | some (name, ds) => named? name (some ds)
        | none => named? cs none

/-- Characters that no database's name has. -/
def forbiddenInDatabase : List Char := ['/', '\\', ' ', '"', '$']

/-- Reads the name of a database, if there is one. -/
def database? (cs : List Char) : Option (Option String) :=
  if cs = [] then some none
  else
    match Text.ofUtf8? (bytesOf cs) with
    | some name => if name.toList.any forbiddenInDatabase.contains then none else some (some name)
    | none => none

/-- Splits off who logs in, who stands before the last at sign. -/
def splitLogin? (cs : List Char) : Option (Option Login × List Char) :=
  match Text.splitAt? '@' cs.reverse with
  | none => some (none, cs)
  | some (hosts, login) =>
      (Login.parse? login.reverse).map fun login => (some login, hosts.reverse)

/-- Whether hosts can be looked up in the name service: a single name without a port. -/
def isRecordName : List Host → Bool
  | [.named _ none] => true
  | _ => false

/-- Reads an address without its scheme.  Options follow a slash. -/
def afterScheme? (byRecord : Bool) (cs : List Char) : Option Address := do
  let (front, tail) ←
    match Text.splitAt? '/' cs with
    | some parts => some parts
    | none => if cs.contains '?' then none else some (cs, [])
  let (name, rest) := (Text.splitAt? '?' tail).getD (tail, [])
  let (login, hosts) ← splitLogin? front
  let hosts ← (hosts.splitOn ',').mapM host?
  let database ← database? name
  let options ← if rest = [] then some [] else Options.parse? rest
  if byRecord && !isRecordName hosts then none
  else if areUsable options byRecord hosts.length && Login.isUsable login options then
    some ⟨byRecord, hosts, login, database, options⟩
  else none

/-- Splits at the first mark that ends a scheme. -/
def splitScheme? : List Char → Option (List Char × List Char)
  | [] => none
  | ':' :: '/' :: '/' :: rest => some ([], rest)
  | c :: rest => (splitScheme? rest).map fun (scheme, rest) => (c :: scheme, rest)

/-- Reads an address. -/
def parse? (text : String) : Option Address :=
  match splitScheme? text.toList with
  | some (scheme, rest) =>
      if String.ofList scheme = "mongodb" then afterScheme? false rest
      else if String.ofList scheme = "mongodb+srv" then afterScheme? true rest
      else none
  | none => none

end Address

end Keyset
