/-!
# JSON

JSON values without fractions, and their text with one member or item a line, indented by two spaces
for each level.
-/

namespace ShareWire

/-- A JSON value. Members of an object keep their order. -/
inductive Json where
  | null
  | bool (b : Bool)
  | int (n : Int)
  | str (s : String)
  | arr (items : List Json)
  | obj (members : List (String × Json))

namespace Json

def hexDigit (n : Nat) : Char :=
  if n < 10 then Char.ofNat (48 + n) else Char.ofNat (87 + n)

/-- A character inside a quoted text. Only quotation marks, backslashes and control characters need
an escape. -/
def escapeChar (c : Char) : List Char :=
  if c = '\x22' then ['\\', '\x22']
  else if c = '\\' then ['\\', '\\']
  else if c = '\x08' then ['\\', 'b']
  else if c = '\x0c' then ['\\', 'f']
  else if c = '\n' then ['\\', 'n']
  else if c = '\r' then ['\\', 'r']
  else if c = '\t' then ['\\', 't']
  else if c.toNat < 32 then ['\\', 'u', '0', '0', hexDigit (c.toNat / 16), hexDigit (c.toNat % 16)]
  else [c]

def quote (s : String) : String :=
  String.ofList ('\x22' :: s.toList.flatMap escapeChar ++ ['\x22'])

def newLine (level : Nat) : String :=
  String.ofList ('\n' :: List.replicate (2 * level) ' ')

mutual

/-- The text of a value that stands at a level of nesting. -/
def print (level : Nat) : Json → String
  | .null => "null"
  | .bool b => if b then "true" else "false"
  | .int n => toString n
  | .str s => quote s
  | .arr [] => "[]"
  | .arr (item :: items) =>
    "[" ++ newLine (level + 1) ++ print (level + 1) item ++ printItems (level + 1) items ++
      newLine level ++ "]"
  | .obj [] => "\x7b\x7d"
  | .obj ((name, value) :: members) =>
    "\x7b" ++ newLine (level + 1) ++ quote name ++ ": " ++ print (level + 1) value ++
      printMembers (level + 1) members ++ newLine level ++ "\x7d"

/-- The items behind the first one. -/
def printItems (level : Nat) : List Json → String
  | [] => ""
  | item :: items => "," ++ newLine level ++ print level item ++ printItems level items

def printMembers (level : Nat) : List (String × Json) → String
  | [] => ""
  | (name, value) :: members =>
    "," ++ newLine level ++ quote name ++ ": " ++ print level value ++ printMembers level members

end

def pretty (j : Json) : String :=
  j.print 0

end Json

class HasJson (α : Type) where
  json : α → Json

export HasJson (json)

instance : HasJson String := ⟨.str⟩

instance : HasJson Bool := ⟨.bool⟩

instance {α : Type} [HasJson α] : HasJson (Option α) where
  json
    | none => .null
    | some a => json a

instance {α : Type} [HasJson α] : HasJson (List α) where
  json l := .arr (l.map json)

end ShareWire
