import ShareWire.Document.Render
import ShareWire.Text.Commas
import ShareWire.Text.Integer
import ShareWire.Time.Layout

/-!
# Writing records

A record becomes the children of an element, one for each field that is present, in a fixed order.
-/

namespace ShareWire

open Text (FixedWidth)
open Time (Instant)

class ToElements (α : Type) where
  toElements : α → List Element

export ToElements (toElements)

def toXml {α : Type} [ToElements α] (root : String) (value : α) : String :=
  Element.document { name := root, children := toElements value }

namespace Element

def leaf (name text : String) : Element :=
  { name, text }

def record {α : Type} [ToElements α] (name : String) (value : α) : Element :=
  { name, children := toElements value }

def ofBool (name : String) (b : Bool) : Element :=
  leaf name (if b then "true" else "false")

def ofInteger {α : Type} [FixedWidth α] (name : String) (n : α) : Element :=
  leaf name (Text.integerText n)

/-- A comma list; one that is absent is written like one without entries. -/
def ofEntries (name : String) (entries : Option (List String)) : Element :=
  leaf name (Text.joinCommas (entries.getD []))

def ofInstant (name : String) (t : Instant) : Element :=
  leaf name t.isoSeconds

end Element

end ShareWire
