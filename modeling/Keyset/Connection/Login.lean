import Keyset.Connection.Options

/-! # Logins

Who logs in at a server, and by which mechanism.  Every mechanism has its own rules on what must be
given and what must not. -/

namespace Keyset

/-- Who logs in. -/
structure Login where
  user : Option String
  password : Option String
deriving DecidableEq

namespace Login

/-- Characters that a name or password has only as escapes. -/
def reserved : List Char := [':', '/', '?', '#', '[', ']', '@']

/-- Whether every percent sign begins an escape. -/
def escapesAreWhole : List Char → Bool
  | [] => true
  | '%' :: a :: b :: rest =>
      (Text.Hex.value? a).isSome && (Text.Hex.value? b).isSome && escapesAreWhole (a :: b :: rest)
  | '%' :: _ => false
  | _ :: rest => escapesAreWhole rest

/-- Reads a name or a password. -/
def word? (cs : List Char) : Option String :=
  if cs.any reserved.contains || !escapesAreWhole cs then none
  else Text.ofUtf8? (Options.bytesOf cs)

/-- Reads a login.  Nobody's password is not looked at. -/
def parse? (cs : List Char) : Option Login :=
  let (user, password) :=
    match Text.splitAt? ':' cs with
    | some (user, password) => (user, some password)
    | none => (cs, none)
  if user = [] then some ⟨none, none⟩
  else
    match word? user, password with
    | some user, none => some ⟨some user, none⟩
    | some user, some cs => (word? cs).map fun password => ⟨some user, some password⟩
    | none, _ => none

/-- Nobody. -/
def nobody : Login := ⟨none, none⟩

/-! ## Mechanisms -/

/-- Whether the accounts are those of no database. -/
def isExternal (source : Option String) : Bool := source.getD "$external" == "$external"

/-- Whether the properties of a mechanism that shows a token of identity fit each other: the kind of
surroundings that issues the token decides whether its use is named, and whether a user can be. -/
def propertiesAreUsable (properties : List (String × String)) (hasUser : Bool) : Bool :=
  let resource := (properties.map Prod.fst).contains "TOKEN_RESOURCE"
  (properties.all fun p => p.1 == "ENVIRONMENT" || p.1 == "TOKEN_RESOURCE") &&
    match (properties.filter fun p => p.1 == "ENVIRONMENT").getLast? with
    | none => !resource
    | some (_, "azure") => resource
    | some (_, "gcp") => resource && !hasUser
    | some (_, "k8s") => !resource && !hasUser
    | some (_, "test") => !resource && !hasUser
    | some _ => false

/-- Whether the mechanism that the options name, if they do, can be used with a login. -/
def suits (l : Login) (o : Options) : Bool :=
  let source := Options.text? o "authsource"
  let properties :=
    match Options.text? o "authmechanismproperties" with
    | some text => (Options.properties? text.toList).getD []
    | none => []
  match Options.text? o "authmechanism" with
  | some "SCRAM-SHA-1" => l.user.isSome
  | some "SCRAM-SHA-256" => l.user.isSome
  | some "MONGODB-X509" => l.password.isNone && isExternal source
  | some "PLAIN" => l.user.isSome && l.password.isSome
  | some "MONGODB-OIDC" =>
      l.password.isNone && isExternal source && propertiesAreUsable properties l.user.isSome
  | _ => true

/-- Whether somebody can log in: with a name, or by a mechanism that may need none. -/
def isUsable (login : Option Login) (o : Options) : Bool :=
  Options.text? o "authsource" != some "" && (login.getD nobody).suits o &&
    match login with
    | none => true
    | some l => l.user.isSome || (Options.text? o "authmechanism").isSome

end Login

end Keyset
