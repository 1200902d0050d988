import ShareWire.Text.Utf8

/-!
# Markup errors

What can be wrong with the markup of a document, before anything is said about its elements. A
syntax error is a construct that the input leaves open or begins in an unknown way; a document is
ill formed when its constructs are complete and do not fit together.
-/

namespace ShareWire.Markup

open Text (Utf8Error)

/-- The two quotation marks that hide markup inside a tag. -/
inductive Quote where
  | single
  | double
deriving DecidableEq, Repr

def Quote.byte : Quote → UInt8
  | .single => 0x27
  | .double => 0x22

def Quote.ofByte? (b : UInt8) : Option Quote :=
  if b = 0x27 then some .single else if b = 0x22 then some .double else none

inductive MarkupError where
  | tagNotClosed
  /-- The input ends inside a quoted part of a tag. -/
  | attributeNotClosed (quote : Quote)
  /-- An exclamation mark after an angle bracket begins no known construct. -/
  | unknownMarkup
  /-- A comment is not begun or not ended as one. -/
  | commentNotClosed
  /-- A character data section is not begun or not ended as one. -/
  | cdataNotClosed
  /-- A document type declaration is not begun or not ended as one. -/
  | doctypeNotClosed
  | declarationNotClosed
  | instructionNotClosed
  | referenceNotClosed
  | doctypeWithoutName
  /-- An end tag names another element than the innermost open one. -/
  | mismatchedClose (expected found : Bytes)
  /-- An end tag stands where no element is open. -/
  | unmatchedClose (found : Bytes)
deriving DecidableEq, Repr

inductive MarkupError.Family where
  /-- A construct is left open or begins in an unknown way. -/
  | syntaxError
  | illFormed
deriving DecidableEq, Repr

def MarkupError.family : MarkupError → Family
  | .referenceNotClosed | .doctypeWithoutName | .mismatchedClose .. | .unmatchedClose .. => .illFormed
  | _ => .syntaxError

/-- A name as messages show it: empty if it is not UTF-8. -/
def shownName (name : Bytes) : String :=
  match Text.decode name with
  | .ok text => text
  | .error _ => ""

def MarkupError.detail : MarkupError → String
  | .tagNotClosed => "tag not closed: `>` not found before end of input"
  | .attributeNotClosed .single =>
    "attribute value not closed: `'` not found before end of input"
  | .attributeNotClosed .double =>
    "attribute value not closed: `\"` not found before end of input"
  | .unknownMarkup => "unknown or missed symbol in markup"
  | .commentNotClosed => "comment not closed: `-->` not found before end of input"
  | .cdataNotClosed => "CDATA not closed: `]]>` not found before end of input"
  | .doctypeNotClosed => "DOCTYPE not closed: `>` not found before end of input"
  | .declarationNotClosed => "XML declaration not closed: `?>` not found before end of input"
  | .instructionNotClosed =>
    "processing instruction not closed: `?>` not found before end of input"
  | .referenceNotClosed =>
    "entity or character reference not closed: `;` not found before end of input"
  | .doctypeWithoutName =>
    "`<!DOCTYPE>` declaration does not contain a name of a document type"
  | .mismatchedClose expected found =>
    "expected `</" ++ shownName expected ++ ">`, but `</" ++ shownName found ++ ">` was found"
  | .unmatchedClose found =>
    "close tag `</" ++ shownName found ++ ">` does not match any open tag"

def MarkupError.Family.heading : Family → String
  | .syntaxError => "syntax error: "
  | .illFormed => "ill-formed document: "

def MarkupError.message (e : MarkupError) : String :=
  e.family.heading ++ e.detail

end ShareWire.Markup
