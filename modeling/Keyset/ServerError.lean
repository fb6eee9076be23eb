import Keyset.Json.Printer

/-! # Server errors

What is known of an error that a server or its driver reports, and how it is written. -/

namespace Keyset

/-- What is known of an error. -/
structure ServerError where
  kind : Option String
  code : Option Int32
  name : Option String
  message : Option String
deriving DecidableEq

namespace ServerError

/-- The names of the codes that a read can meet. -/
def codeNames : List (Int × String) := [
  (2, "BadValue"),
  (13, "Unauthorized"),
  (18, "AuthenticationFailed"),
  (26, "NamespaceNotFound"),
  (50, "MaxTimeMSExpired"),
  (96, "OperationFailed"),
  (292, "QueryExceededMemoryLimitNoDiskUseAllowed")]

/-- The error of a command that a server refuses. -/
def ofCommand (code : Int32) (message : String) : ServerError :=
  ⟨some "mongo.command_error", some code, codeNames.lookup code.toInt, some message⟩

/-- The error of a login that fails. -/
def ofLogin (message : String) : ServerError :=
  ⟨some "mongo.authentication_error", none, none, some message⟩

/-- The error of an argument that cannot be used. -/
def ofArgument (message : String) : ServerError :=
  ⟨some "mongo.invalid_argument", none, none, some message⟩

/-- The error of a read for which there is no server. -/
def ofSelection (message : String) : ServerError :=
  ⟨some "mongo.server_selection_error", none, none, some message⟩

/-- Any other error. -/
def ofMessage (message : String) : ServerError := ⟨none, none, none, some message⟩

/-- The member of an object for a part that is known. -/
def member {α : Type} (key : String) (write : α → Json) : Option α → List (String × Json)
  | none => []
  | some a => [(key, write a)]

/-- The error as an object of the parts that are known. -/
def toJson (e : ServerError) : Json :=
  .object (member "type" Json.string e.kind
    ++ member "code" (fun c => .integer c.toInt) e.code
    ++ member "name" Json.string e.name
    ++ member "message" Json.string e.message)

/-- The error as a reader sees it. -/
def text (e : ServerError) : String :=
  "Storage error:\n" ++ Json.pretty 2 (.object [("error", e.toJson)])

end ServerError

end Keyset
