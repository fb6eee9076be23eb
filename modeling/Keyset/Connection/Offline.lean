import Keyset.Connection.Address
import Keyset.Connection.Basic
import Keyset.Failure

/-! # Without a network

What is known of an address, and what comes of connecting to it, where neither a name service nor a
server can be reached. -/

namespace Keyset

/-- The address that a text is, if no name service is needed to find its hosts. -/
def Address.offline? (text : String) : Option Address :=
  match parse? text with
  | some a => if a.byRecord then none else some a
  | none => none

namespace Options

/-- The paths that a client is made with. -/
def paths (o : Options) : List String :=
  (text? o "tlscafile").toList ++ (text? o "tlscertificatekeyfile").toList

/-- The words for what keeps a client from being made. -/
def obstacleText (words : String) : String := "Kind: " ++ words ++ ", labels: \x7b\x7d"

/-- Why no client can trust the authorities of a file, if none can. -/
def authorityObstacle? (path : String) : FileContent → Option String
  | .missing reason => some (obstacleText ("I/O error: " ++ reason))
  | .unreadable _ =>
      some (obstacleText ("Unable to parse PEM-encoded root certificate from " ++ path))
  | .text _ => none

/-- Why no client can show the certificate of a file.  A file that has a key is not known: its text
is read as one without. -/
def certificateObstacle (path : String) : FileContent → String
  | .missing reason => obstacleText ("I/O error: " ++ reason)
  | .unreadable reason =>
      obstacleText
        ("Unable to parse PEM-encoded client certificate from " ++ path ++ ": " ++ reason)
  | .text _ => obstacleText ("No PEM-encoded keys in " ++ path)

/-- Why no client can be made with some options, if none can.  The authorities that a client trusts
are read before its own certificate. -/
def obstacle? (o : Options) (read : String → FileContent) : Option String :=
  let authority := (text? o "tlscafile").bind fun path => authorityObstacle? path (read path)
  let own := (text? o "tlscertificatekeyfile").map fun path => certificateObstacle path (read path)
  authority.or own

end Options

/-- What comes of an attempt to connect: an address whose options name files that are of no use
makes no client, and no server answers the client of another. -/
def Attempt.offline {Client : Type} (read : String → FileContent) (text : String) :
    Attempt Client :=
  match Address.offline? text with
  | none => .badAddress "not the address of a server"
  | some a =>
      match a.options.obstacle? read with
      | some obstacle => .noClient obstacle
      | none => .noAnswer "no server"

end Keyset
