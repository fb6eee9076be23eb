import Keyset.Boundary
import Keyset.Text.Base64

/-! # Token errors

Why a page token is refused.  Every one of these is the fault of the client that sent it. -/

namespace Keyset

/-- Why a text is no page token. -/
inductive Malformation where
  | notBase64 (fault : Text.Base64.Fault)
  | payloadNotText
  | missingValue (piece : String)
  | repeatedField (key : String)
  | badEscape
  | fieldNotText
  | badReverse (text : String)
  | boundary (fault : Boundary.Fault)
  /-- A reason in the words of who gives it. -/
  | stated (words : String)
deriving DecidableEq

/-- The reason in words. -/
def Malformation.message : Malformation → String
  | notBase64 fault => "not base64: " ++ fault.message
  | payloadNotText => "payload is not UTF-8"
  | missingValue piece => "field without value: '" ++ piece ++ "'"
  | repeatedField key => "field '" ++ key ++ "' given more than once"
  | badEscape => "invalid escape"
  | fieldNotText => "field is not UTF-8"
  | badReverse text => "invalid reverse flag '" ++ text ++ "'"
  | boundary (.position fault) => "position: " ++ fault.message
  | boundary (.arity values fields) =>
      "position has " ++ toString values ++ " values, ordering has " ++ toString fields ++ " fields"
  | stated words => words

/-- Why a page token is refused. -/
inductive TokenError where
  | malformed (why : Malformation)
  | badOffset (text : String)
  | tooLong (length limit : Nat)
deriving DecidableEq

/-- The error in words. -/
def TokenError.message : TokenError → String
  | malformed why => "Malformed page token: " ++ why.message
  | badOffset text => "Invalid page token offset: '" ++ text ++ "'"
  | tooLong length limit =>
      "Page token too long: " ++ toString length ++ " characters (max " ++ toString limit ++ ")"

end Keyset
