import ShareWire.Markup.Error
import ShareWire.Markup.Event
import ShareWire.Text.Integer
import ShareWire.Time.Pattern

/-!
# Document errors

What can be wrong with a document once its markup is split into events: its elements do not form one
tree, a record lacks an element, or a text denotes no value of the wanted type.
-/

namespace ShareWire

open Text (Utf8Error IntegerFault)
open Time (PatternFault)
open Markup (MarkupError Event)

/-- Why the characters of a document cannot be used. -/
inductive ValueError where
  | textOutsideRoot
  /-- A character data section stands outside the root element. -/
  | cdataOutsideRoot
  /-- A reference stands outside the root element. -/
  | referenceOutsideRoot
  /-- The input ends inside the element `name`. -/
  | endInside (name : String)
  | noRoot
  /-- Characters between tags are not UTF-8. -/
  | textEncoding (error : Utf8Error)
  /-- A name, a reference or a character data section is not UTF-8. -/
  | encoding (error : Utf8Error)
  | referenceNumber (body : String) (fault : IntegerFault)
  /-- A character reference has a number that is no character's. -/
  | notCharacter (body : String)
  | unknownEntity (body : String)
  /-- A text is no integer of the type that `label` names. -/
  | integer (label text : String) (fault : IntegerFault)
  | timestamp (text : String) (fault : PatternFault)
deriving DecidableEq, Repr

def ValueError.detail : ValueError → String
  | .textOutsideRoot => "text outside the root element"
  | .cdataOutsideRoot => "CDATA outside the root element"
  | .referenceOutsideRoot => "reference outside the root element"
  | .endInside name => "unexpected EOF inside " ++ name
  | .noRoot => "document has no root element"
  | .textEncoding error => "cannot decode input using UTF-8: " ++ error.message
  | .encoding error => error.message
  | .referenceNumber body fault =>
    "invalid character reference '&" ++ body ++ ";': " ++ fault.message
  | .notCharacter body => "invalid character reference '&" ++ body ++ ";'"
  | .unknownEntity body => "unknown entity '&" ++ body ++ ";'"
  | .integer label text fault => "invalid " ++ label ++ " '" ++ text ++ "': " ++ fault.message
  | .timestamp text fault => "invalid timestamp '" ++ text ++ "': " ++ fault.message

def ValueError.message (e : ValueError) : String :=
  "failed to parse value: " ++ e.detail

inductive DocumentError where
  | markup (error : MarkupError)
  /-- An element lacks a child that its record needs. -/
  | missingElement (parent child : String)
  /-- Something other than white space, comments and instructions follows the root element. -/
  | trailingContent (root : String) (kind : Event.Kind)
  | closeWithoutOpen
  | value (error : ValueError)
deriving DecidableEq, Repr

/-- Wording of a document error. Of what follows the root element it names the kind only; the dump of the
construct that goes with it is left out. -/
def DocumentError.message : DocumentError → String
  | .markup error => "XML processing error: " ++ error.message
  | .missingElement parent child => "missing required XML element: " ++ parent ++ "/" ++ child
  | .trailingContent root kind =>
    "unexpected XML element: content after root element " ++ root ++ ": " ++ kind.word
  | .closeWithoutOpen => "unexpected XML element: end tag without start tag"
  | .value error => error.message

/-- The chain of causes of a document error, the widest first. A fault of the markup is told three
times: as part of the document, by itself, and without its heading. -/
def DocumentError.causes : DocumentError → List String
  | .markup error => [(DocumentError.markup error).message, error.message, error.detail]
  | error => [error.message]

end ShareWire
