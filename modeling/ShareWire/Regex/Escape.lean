import ShareWire.Regex.Node
import ShareWire.Text.Integer

/-!
# Escapes

What a backslash and the characters behind it stand for: a character that would have a meaning of its
own, a character by its code, a set of characters, or a boundary of words.
-/

namespace ShareWire.Regex

open Text (Base)

def metaChars : List Char :=
  ['\\', '.', '+', '*', '?', '(', ')', '|', '[', ']', '\x7b', '\x7d', '^', '$', '#', '&', '-', '~']

/-- Whether a backslash before a character makes it stand for itself. The letters, the digits and
the angles of ASCII have meanings with a backslash, and nothing beyond ASCII takes one. -/
def takesBackslash (c : Char) : Bool :=
  metaChars.contains c || (c.toNat < 128 && !c.isAlphanum && c ≠ '<' && c ≠ '>')

/-- The control character that a letter behind a backslash stands for. -/
def control? : Char → Option Char
  | 'a' => some '\x07'
  | 'f' => some '\x0c'
  | 't' => some '\t'
  | 'n' => some '\n'
  | 'r' => some '\r'
  | 'v' => some '\x0b'
  | _ => none

/-- The number of digits of a code behind a backslash and a letter. -/
def codeLength? : Char → Option Nat
  | 'x' => some 2
  | 'u' => some 4
  | 'U' => some 8
  | _ => none

def readHexDigits (c : Cursor) : Nat → Except Fault (List Char × Cursor)
  | 0 => .ok ([], c)
  | n + 1 =>
    match c.rest with
    | [] => .error { kind := .escapeEnd, span := c.here }
    | d :: _ =>
      if (Base.hexadecimal.digit? d).isSome then
        (readHexDigits c.nextPart n).map fun (digits, after) => (d :: digits, after)
      else .error { kind := .hexDigit, span := c.hereChar }

/-- The fault of hexadecimal digits in braces, from the opening brace: since nothing closes it, it is
the first thing that is no digit, or the end. -/
def openHexFault (brace : Place) (c : Cursor) : List Char → Fault
  | [] => { kind := .escapeEnd, span := c.since brace }
  | _ :: ds =>
    let c := c.nextPart
    match c.rest with
    | [] => { kind := .escapeEnd, span := c.since brace }
    | d :: _ =>
      if (Base.hexadecimal.digit? d).isSome then openHexFault brace c ds
      else { kind := .hexDigit, span := c.hereChar }

/-- Reads a character by its code, from the letter before the code. -/
def readCode (start : Place) (letter : Char) (length : Nat) (c : Cursor) :
    Except Fault (Node × Cursor) := do
  let c := c.nextPart
  if c.rest.head? = some '\x7b' then throw (openHexFault c.place c c.rest)
  let (digits, after) ← readHexDigits c length
  let value := (digits.filterMap Base.hexadecimal.digit?).foldl (fun n d => n * 16 + d) 0
  if value.isValidChar then
    return (.literal
      { span := after.since start, char := Char.ofNat value, isByte := letter = 'x' }, after)
  else throw { kind := .hexValue, span := after.since c.place }

/-- Reads a set by the one letter of its property. A name in braces is never closed. -/
def readProperty (start : Place) (c : Cursor) : Except Fault (Node × Cursor) :=
  let c := c.nextPart
  match c.rest with
  | [] => .error { kind := .escapeEnd, span := c.here }
  | d :: _ =>
    if d = '\x7b' then
      let final := c.advance c.rest.length
      .error { kind := .escapeEnd, span := final.here }
    else if d = '\\' then .error { kind := .propertyName, span := c.hereChar }
    else
      let after := c.nextPart
      .ok (.property (after.since start), after)

def isBoundaryChar (c : Char) : Bool :=
  c.isAlpha || c = '-'

/-- Passes the characters of the name of a word boundary, of which there are at most so many. -/
def passBoundaryName (c : Cursor) : Nat → Cursor
  | 0 => c
  | n + 1 =>
    match c.rest with
    | [] => c
    | d :: _ => if isBoundaryChar d then passBoundaryName c.nextPart n else c

/-- Reads a word boundary, from what follows its letter. An opening brace starts its name, which is
never closed, unless something follows that only a count could start with. -/
def readBoundary (start : Place) (c : Cursor) : Except Fault (Node × Cursor) :=
  let boundary : Node := .assertion (c.since start) true
  if c.rest.head? = some '\x7b' then
    let name := c.nextPart
    match name.rest with
    | [] => .error { kind := .boundaryEnd, span := name.since start }
    | d :: _ =>
      if isBoundaryChar d then
        let final := passBoundaryName name name.rest.length
        .error { kind := .boundaryUnclosed, span := final.since c.place }
      else .ok (boundary, c)
  else .ok (boundary, c)

def readEscape (c : Cursor) : Except Fault (Node × Cursor) :=
  let start := c.place
  let c := c.next
  match c.rest with
  | [] => .error { kind := .escapeEnd, span := c.since start }
  | d :: _ =>
    let after := c.next
    let span := after.since start
    if d.isDigit then .error { kind := .backreference, span }
    else if let some length := codeLength? d then readCode start d length c
    else if d = 'p' || d = 'P' then readProperty start c
    else if d = 'd' || d = 's' || d = 'w' then .ok (.shorthand span false, after)
    else if d = 'D' || d = 'S' || d = 'W' then .ok (.shorthand span true, after)
    else if takesBackslash d then .ok (.literal { span, char := d }, after)
    else if let some control := control? d then .ok (.literal { span, char := control }, after)
    else if d = 'A' || d = 'z' then .ok (.assertion span false, after)
    else if d = 'b' then readBoundary start after
    else if d = 'B' || d = '<' || d = '>' then .ok (.assertion span true, after)
    else .error { kind := .escape, span }

end ShareWire.Regex
