import ShareWire.Document.Error

/-!
# Elements

A document as a tree of elements with text. Attributes, comments and the places of text between
children are not kept.
-/

namespace ShareWire

/-- An element: its name, the text directly inside it, and its children in document order. -/
structure Element where
  name : String
  /-- All characters directly inside the element. -/
  text : String := ""
  children : List Element := []
deriving Repr

namespace Element

def child? (e : Element) (name : String) : Option Element :=
  e.children.find? fun c => c.name = name

def childrenNamed (e : Element) (name : String) : List Element :=
  e.children.filter fun c => c.name = name

def require (e : Element) (name : String) : Except DocumentError Element :=
  match e.child? name with
  | some c => .ok c
  | none => .error (.missingElement e.name name)

def childText? (e : Element) (name : String) : Option String :=
  (e.child? name).map Element.text

def requiredText (e : Element) (name : String) : Except DocumentError String :=
  (e.require name).map Element.text

/-- The text of the first child of a name, unless it is empty or white space. -/
def filledText? (e : Element) (name : String) : Option String :=
  (e.childText? name).filter fun text => !Text.allBlank text

end Element

end ShareWire
