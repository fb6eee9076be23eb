import Keyset.Failure

/-! # Connections

A connection keeps the client of its last attempt that succeeded and the state that the last call
left it in.  An attempt that fails changes the state and leaves the client as it was. -/

namespace Keyset

/-- The state of a connection. -/
inductive ConnectionState where
  | disconnected
  | connecting
  | connected
  | failed (reason : String)
deriving DecidableEq

/-- The state in words. -/
def ConnectionState.text : ConnectionState → String
  | disconnected => "disconnected"
  | connecting => "connecting"
  | connected => "connected"
  | failed reason => "failed: " ++ reason

/-- A connection whose clients are of a type. -/
structure Connection (Client : Type) where
  client? : Option Client
  state : ConnectionState

/-- What comes of an attempt to connect. -/
inductive Attempt (Client : Type) where
  /-- The address cannot be read. -/
  | badAddress (reason : String)
  /-- No client can be made for the address. -/
  | noClient (reason : String)
  /-- The server does not answer the client. -/
  | noAnswer (reason : String)
  | connected (client : Client)

namespace Connection

variable {Client : Type}

/-- A connection that has not been made. -/
def new : Connection Client := ⟨none, .disconnected⟩

/-- Takes what comes of an attempt. -/
def connect (c : Connection Client) :
    Attempt Client → Connection Client × Except ConnectionFault Unit
  | .badAddress reason =>
      let fault := ConnectionFault.badAddress reason
      (⟨c.client?, .failed (Failure.connection fault).message⟩, .error fault)
  | .noClient reason => (⟨c.client?, .failed reason⟩, .error (.failed reason))
  | .noAnswer reason =>
      let fault := ConnectionFault.noAnswer reason
      (⟨c.client?, .failed (Failure.connection fault).message⟩, .error fault)
  | .connected client => (⟨some client, .connected⟩, .ok ())

/-- Gives up the client. -/
def disconnect (_c : Connection Client) : Connection Client := ⟨none, .disconnected⟩

/-- The client, if there is one. -/
def client (c : Connection Client) : Except ConnectionFault Client :=
  match c.client? with
  | some client => .ok client
  | none => .error .notConnected

/-- Whether the state says that there is a connection. -/
def isConnected (c : Connection Client) : Bool := c.state == .connected

/-- Whether the server answers the client. -/
def health (c : Connection Client) (answers : Client → Bool) : Except ConnectionFault Bool :=
  c.client.map answers

end Connection

end Keyset
