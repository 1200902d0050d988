import ShareWire.Document.Error

/-!
# Exchange errors

What can go wrong when a response is read or a request is prepared.
-/

namespace ShareWire.Http

open Text (Utf8Error IntegerFault)
open Time (PatternFault)

inductive HeaderFault where
  /-- The value is not UTF-8. -/
  | notUtf8 (error : Utf8Error)
  | integer (text : String) (fault : IntegerFault)
  | timestamp (text : String) (fault : PatternFault)
  | badName
  | badValue
deriving DecidableEq, Repr

def HeaderFault.message : HeaderFault → String
  | .notUtf8 error => "value is not UTF-8: " ++ error.message
  | .integer text fault => "invalid integer '" ++ text ++ "': " ++ fault.message
  | .timestamp text fault => (ValueError.timestamp text fault).message
  | .badName => "invalid HTTP header name"
  | .badValue => "failed to parse header value"

inductive ExchangeError where
  /-- The body is no document of the expected kind. -/
  | document (error : DocumentError)
  | invalidHeader (name : String) (fault : HeaderFault)
  | signing (reason : String)
deriving DecidableEq, Repr

def ExchangeError.message : ExchangeError → String
  | .document error => error.message
  | .invalidHeader name fault => "invalid header " ++ name ++ ": " ++ fault.message
  | .signing reason => "request signing failed: " ++ reason

def ExchangeError.causes : ExchangeError → List String
  | .document error => error.causes
  | error => [error.message]

end ShareWire.Http
