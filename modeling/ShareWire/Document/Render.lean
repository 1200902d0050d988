import ShareWire.Document.Element

/-!
# Writing documents

A tree is written with a start and an end tag for every element and nothing between them but text
and children. The five characters that markup uses are written as references.
-/

namespace ShareWire

/-- A character of text, as a reference where markup would use it. -/
def escapeChar (c : Char) : List Char :=
  if c = '<' then "&lt;".toList
  else if c = '>' then "&gt;".toList
  else if c = '&' then "&amp;".toList
  else if c = '\x27' then "&apos;".toList
  else if c = '\x22' then "&quot;".toList
  else [c]

def escapeText (s : String) : String :=
  String.ofList (s.toList.flatMap escapeChar)

def xmlDeclaration : String :=
  "<?xml version=\"1.0\" encoding=\"utf-8\"?>"

mutual

/-- An element as markup: its text, then its children, between its tags. -/
def Element.render : Element → String
  | ⟨name, text, children⟩ =>
    "<" ++ name ++ ">" ++ escapeText text ++ Element.renderAll children ++ "</" ++ name ++ ">"

def Element.renderAll : List Element → String
  | [] => ""
  | e :: rest => e.render ++ Element.renderAll rest

end

def Element.document (root : Element) : String :=
  xmlDeclaration ++ root.render

end ShareWire
