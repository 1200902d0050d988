import ShareWire.Document.Tree
import ShareWire.Text.Commas
import ShareWire.Time.Timestamp

/-!
# Decoding records

A record is read from an element whose children carry its fields. The name of the element itself is
not looked at, and neither are children that the record does not know.
-/

namespace ShareWire

open Text (FixedWidth IntegerFault)
open Time (Instant)

class FromElement (α : Type) where
  ofElement : Element → Except DocumentError α

export FromElement (ofElement)

def fromXml (α : Type) [FromElement α] (input : Bytes) : Except DocumentError α := do
  let root ← Element.parse input
  ofElement root

/-- A truth value: `true` in any case, white space around it aside; every other text is false. -/
def readBool (s : String) : Bool :=
  Text.equalsIgnoringCase (Text.trim s.toList) "true".toList

def readDecimal (α : Type) [FixedWidth α] (s : String) : Except IntegerFault α :=
  Text.readInteger α .decimal (Text.trim s.toList)

def readInteger (α : Type) [FixedWidth α] (s : String) : Except DocumentError α :=
  match readDecimal α s with
  | .ok n => .ok n
  | .error fault => .error (.value (.integer (FixedWidth.label α) s fault))

def readTimestamp (s : String) : Except DocumentError Instant :=
  match Instant.ofText s with
  | .ok t => .ok t
  | .error fault => .error (.value (.timestamp s fault))

def Element.optional (α : Type) [FromElement α] (e : Element) (name : String) :
    Except DocumentError (Option α) :=
  match e.child? name with
  | none => .ok none
  | some c => (ofElement c).map some

def Element.optionalText {α : Type} (e : Element) (name : String)
    (read : String → Except DocumentError α) : Except DocumentError (Option α) :=
  match e.childText? name with
  | none => .ok none
  | some text => (read text).map some

def Element.all (α : Type) [FromElement α] (e : Element) (name : String) :
    Except DocumentError (List α) :=
  (e.childrenNamed name).mapM ofElement

end ShareWire
