import Keyset.JsonLines
import Keyset.ServerError
import Keyset.Token.Error

/-! # Failures

What is found where a path leads, and why a request is not answered.  A failure is the client's fault
exactly if its token was refused; everything else is a fault of the configuration or of what lies
behind it. -/

namespace Keyset

/-- What a path leads to. -/
inductive FileContent where
  /-- Nothing can be opened there, for some reason. -/
  | missing (reason : String)
  | text (content : String)
  /-- What is opened there cannot be read, for some reason. -/
  | unreadable (reason : String)
deriving DecidableEq

/-- What is wrong with a configuration. -/
inductive ConfigFault where
  | notFound (path : String)
  | badFormat (reason : String)
  | badValue (field value : String)
deriving DecidableEq

/-- The fault in words. -/
def ConfigFault.message : ConfigFault → String
  | notFound path => "Config file not found: " ++ path
  | badFormat reason => "Invalid config format: " ++ reason
  | badValue field value => "Invalid value '" ++ value ++ "' for field '" ++ field ++ "'"

/-- Why rows cannot be read. -/
inductive StorageFault where
  | badLine (number : Nat) (fault : JsonLines.Fault)
  | readFailed (reason : String)
  | unavailable (reason : String)
deriving DecidableEq

/-- The fault in words. -/
def StorageFault.message : StorageFault → String
  | badLine number fault => "Read failed: line " ++ toString number ++ ": " ++ fault.message
  | readFailed reason => "Read failed: " ++ reason
  | unavailable reason => "Store unavailable: " ++ reason

/-- Why a server cannot be used. -/
inductive ConnectionFault where
  | failed (reason : String)
  | badAddress (reason : String)
  | notConnected
  | noAnswer (reason : String)
deriving DecidableEq

/-- The fault in words. -/
def ConnectionFault.message : ConnectionFault → String
  | failed reason => "Failed to connect: " ++ reason
  | badAddress reason => "Invalid connection URI: " ++ reason
  | notConnected => "Not connected to MongoDB"
  | noAnswer reason => "Ping failed: " ++ reason

/-- Why a request is not answered. -/
inductive Failure where
  | token (error : TokenError)
  | ordering (fault : OrderFault)
  | config (fault : ConfigFault)
  | storage (fault : StorageFault)
  | connection (fault : ConnectionFault)
  | server (error : ServerError)
  /-- A file or stream that cannot be read or written. -/
  | file (reason : String)
  | other (reason : String)
deriving DecidableEq

namespace Failure

/-- The failure in words. -/
def message : Failure → String
  | token error => "Bad request: " ++ error.message
  | ordering fault => "Ordering error: " ++ fault.message
  | config fault => "Configuration error: " ++ fault.message
  | storage fault => "Storage error: " ++ fault.message
  | connection fault => "Connection error: " ++ fault.message
  | server error => error.text
  | file reason => "I/O error: " ++ reason
  | other reason => reason

/-- Whether the client is at fault. -/
def isClientFault : Failure → Bool
  | token _ => true
  | _ => false

end Failure

end Keyset
