import ShareWire.Document.Element
import ShareWire.Document.Reference
import ShareWire.Markup.Reading

/-!
# From events to a tree

`Element.parse` reads a document. The events of its markup drive a machine whose state is the stack
of open elements, and after the root element is closed, that element. The machine stops at the first
event that it cannot use; an error of the markup comes behind all events before it.
-/

namespace ShareWire

open Text (decode)
open Markup (Event Reading blankBytes MarkupError)

/-- ASCII white space: tab, line feed, form feed, carriage return, space. -/
def isIndentChar (c : Char) : Bool :=
  c = ' ' || c = '\t' || c = '\n' || c = '\x0c' || c = '\r'

def isIndentation (s : String) : Bool :=
  s.toList.all isIndentChar

/-- An element whose end tag has not been read yet. -/
structure OpenElement where
  name : String
  text : String := ""
  /-- The children read so far, newest first. -/
  newest : List Element := []

/-- The element that an open one becomes at its end tag. Indentation between children is dropped. -/
def OpenElement.toElement (o : OpenElement) : Element where
  name := o.name
  text := if !o.newest.isEmpty && isIndentation o.text then "" else o.text
  children := o.newest.reverse

inductive Progress where
  /-- The root element is not closed yet; open elements, innermost first. -/
  | within (opened : List OpenElement)
  | after (root : Element)

namespace Progress

def decoded (wrap : Text.Utf8Error → ValueError) (bytes : Bytes) : Except DocumentError String :=
  match decode bytes with
  | .ok text => .ok text
  | .error fault => .error (.value (wrap fault))

/-- Puts a finished element into the innermost open one; outside all of them it is the root. -/
def attach (opened : List OpenElement) (e : Element) : Progress :=
  match opened with
  | [] => .after e
  | o :: outer => .within ({ o with newest := e :: o.newest } :: outer)

def append (o : OpenElement) (outer : List OpenElement) (text : String) : Progress :=
  .within ({ o with text := o.text ++ text } :: outer)

/-- The progress that one event makes while the root element is not closed. -/
def stepWithin (opened : List OpenElement) (event : Event) : Except DocumentError Progress :=
  match event with
  | .start name => do
    let name ← decoded .encoding name
    return .within ({ name } :: opened)
  | .empty name => do
    let name ← decoded .encoding name
    return attach opened { name }
  | .close _ =>
    match opened with
    | [] => .error .closeWithoutOpen
    | o :: outer => .ok (attach outer o.toElement)
  | .text content =>
    match opened with
    | [] =>
      if blankBytes content then .ok (.within []) else .error (.value .textOutsideRoot)
    | o :: outer => do
      let text ← decoded .textEncoding content
      return append o outer text
  | .cdata content =>
    match opened with
    | [] => .error (.value .cdataOutsideRoot)
    | o :: outer => do
      let text ← decoded .encoding content
      return append o outer text
  | .reference body =>
    match opened with
    | [] => .error (.value .referenceOutsideRoot)
    | o :: outer => do
      let body ← decoded .encoding body
      match Reference.resolve body with
      | .ok c => return append o outer (String.singleton c)
      | .error fault => .error (.value fault)
  | .declaration | .comment | .instruction | .doctype => .ok (.within opened)

/-- The progress that one event makes behind the root element: none, or an error. -/
def stepAfter (root : Element) (event : Event) : Except DocumentError Progress :=
  match event with
  | .comment | .instruction => .ok (.after root)
  | .text content =>
    if blankBytes content then .ok (.after root)
    else .error (.trailingContent root.name .text)
  | event => .error (.trailingContent root.name event.kind)

def step : Progress → Event → Except DocumentError Progress
  | .within opened, event => stepWithin opened event
  | .after root, event => stepAfter root event

def finish : Progress → Except DocumentError Element
  | .within [] => .error (.value .noRoot)
  | .within (o :: _) => .error (.value (.endInside o.name))
  | .after root => .ok root

end Progress

def Element.ofReading (reading : Reading) : Except DocumentError Element := do
  let progress ← reading.events.foldlM Progress.step (.within [])
  match reading.fault with
  | some fault => .error (.markup fault)
  | none => progress.finish

def Element.parse (input : Bytes) : Except DocumentError Element :=
  Element.ofReading (Reading.ofBytes input)

end ShareWire
