import ShareWire.Text.Utf8

/-!
# Markup events

The constructs that a document is a sequence of. Attributes, comments, instructions and declarations
are told apart and not kept.
-/

namespace ShareWire.Markup

/-- One construct of a document. Names and contents are still bytes. -/
inductive Event where
  | start (name : Bytes)
  | empty (name : Bytes)
  | close (name : Bytes)
  | text (content : Bytes)
  | cdata (content : Bytes)
  /-- What stands between the ampersand and the semicolon of a reference. -/
  | reference (body : Bytes)
  | declaration
  | comment
  | instruction
  | doctype
deriving DecidableEq, Repr

/-- The constructs that may not follow the root element, as messages name them. -/
inductive Event.Kind where
  | start
  | empty
  | close
  | text
  | cdata
  | reference
  | declaration
  | comment
  | instruction
  | doctype
deriving DecidableEq, Repr

def Event.kind : Event → Kind
  | .start _ => .start
  | .empty _ => .empty
  | .close _ => .close
  | .text _ => .text
  | .cdata _ => .cdata
  | .reference _ => .reference
  | .declaration => .declaration
  | .comment => .comment
  | .instruction => .instruction
  | .doctype => .doctype

def Event.Kind.word : Kind → String
  | .start => "Start"
  | .empty => "Empty"
  | .close => "End"
  | .text => "Text"
  | .cdata => "CData"
  | .reference => "GeneralRef"
  | .declaration => "Decl"
  | .comment => "Comment"
  | .instruction => "PI"
  | .doctype => "DocType"

/-- ASCII white space of character data: tab, line feed, form feed, carriage return, space. -/
def isBlankByte (b : UInt8) : Bool :=
  b = 0x20 || b = 0x09 || b = 0x0A || b = 0x0C || b = 0x0D

def blankBytes (bytes : Bytes) : Bool :=
  bytes.all isBlankByte

end ShareWire.Markup
