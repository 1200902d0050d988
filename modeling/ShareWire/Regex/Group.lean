import ShareWire.Regex.Node
import ShareWire.Text.Letter

/-!
# Openings of groups

Reads what opens a group: a parenthesis, perhaps with a name or with switches. Switches that are
closed at once are no group but hold for what follows.
-/

namespace ShareWire.Regex

open Text (isAlphabetic isAlphanumeric)

/-- Reads switches up to a colon or a closing parenthesis. -/
def readFlags (items : List FlagItem) (place : Place) :
    List Char → Except Fault (List FlagItem × Place × List Char)
  | [] => .error { kind := .flagEnd, span := ⟨place, place⟩ }
  | d :: ds =>
    let span : Span := ⟨place, place.after d⟩
    if d = ':' || d = ')' then
      match items with
      | ⟨span, none⟩ :: _ => .error { kind := .flagNegationDangling, span }
      | _ => .ok (items.reverse, place, d :: ds)
    else
      let flag := Flag.ofChar? d
      if d ≠ '-' && flag.isNone then .error { kind := .flag, span }
      else
        match items.find? fun item => item.flag = flag with
        | none => readFlags (⟨span, flag⟩ :: items) (place.after d) ds
        | some earlier =>
          .error
            { kind := if flag.isNone then .flagNegationRepeated else .flagRepeated
              span
              earlier := some earlier.span }

def isGroupNameChar (first : Bool) (c : Char) : Bool :=
  c = '_' ||
    if first then isAlphabetic c else c = '.' || c = '[' || c = ']' || isAlphanumeric c

/-- Reads the name of a group up to its closing angle, with the place of that. -/
def readGroupName (first : Bool) (place : Place) : List Char → Except Fault (List Char × Place)
  | [] => .error { kind := .groupNameEnd, span := ⟨place, place⟩ }
  | d :: ds =>
    if d = '>' then .ok ([], place)
    else if isGroupNameChar first d then
      (readGroupName false (place.after d) ds).map fun (name, stop) => (d :: name, stop)
    else .error { kind := .groupName, span := ⟨place, place.after d⟩ }

/-- The names of groups so far, with their spans. -/
abbrev GroupNames := List (String × Span)

inductive Opening where
  | group (items : List FlagItem)
  | flags (node : Node) (items : List FlagItem)

def lookArounds : List String := ["?=", "?!", "?<=", "?<!"]

/-- Reads a name from a cursor behind its opening angle, and adds it to the names. -/
def addGroupName (names : GroupNames) (c : Cursor) : Except Fault (GroupNames × Cursor) := do
  let (name, stop) ← readGroupName true c.place c.rest
  let text := String.ofList name
  let span : Span := ⟨c.place, stop⟩
  if name.isEmpty then throw { kind := .groupNameEmpty, span := c.here }
  match names.find? fun known => known.1 = text with
  | some known => throw { kind := .groupNameRepeated, span, earlier := some known.2 }
  | none => return ((text, span) :: names, c.advance (name.length + 1))

def readOpening (names : GroupNames) (c : Cursor) :
    Except Fault (Opening × GroupNames × Cursor) := do
  let parenthesis := c.hereChar
  let c := c.next.skip
  if let some look := lookArounds.find? c.startsWith then
    throw
      { kind := .lookAround
        span := (c.advance look.length).since parenthesis.start }
  if let some mark := ["?P<", "?<"].find? c.startsWith then
    let (names, c) ← addGroupName names (c.advance mark.length)
    return (.group [], names, c)
  if !c.startsWith "?" then return (.group [], names, c)
  let mark := c
  let c := c.next
  if c.rest.isEmpty then throw { kind := .groupUnclosed, span := parenthesis }
  let (items, place, rest) ← readFlags [] c.place c.rest
  let final : Cursor := { c with place, rest }
  if rest.head? = some ':' then return (.group items, names, final.next)
  if items.isEmpty then throw { kind := .repetition, span := mark.here }
  return (.flags (.flags (final.next.since parenthesis.start) items) items, names, final.next)

end ShareWire.Regex
