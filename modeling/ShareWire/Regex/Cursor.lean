import ShareWire.Text.Blank

/-!
# Places in a pattern

Lines and columns of a pattern, the spans between them, and the cursor that reads a pattern from the
front. Where a pattern asks for it, white space and comments between its parts are skipped.
-/

namespace ShareWire.Regex

open Text (isBlank)

/-- A place in a pattern. Lines and columns count from one. -/
structure Place where
  line : Nat := 1
  column : Nat := 1
deriving DecidableEq, Repr

def Place.after (p : Place) (c : Char) : Place :=
  if c = '\n' then { line := p.line + 1, column := 1 }
  else { line := p.line, column := p.column + 1 }

structure Span where
  start : Place
  stop : Place
deriving DecidableEq, Repr

structure Cursor where
  place : Place := {}
  rest : List Char
  /-- Whether white space and comments are skipped. -/
  spaced : Bool := false
deriving DecidableEq, Repr

namespace Cursor

def here (c : Cursor) : Span :=
  ⟨c.place, c.place⟩

def hereChar (c : Cursor) : Span :=
  match c.rest with
  | [] => c.here
  | d :: _ => ⟨c.place, c.place.after d⟩

def since (c : Cursor) (start : Place) : Span :=
  ⟨start, c.place⟩

def next (c : Cursor) : Cursor :=
  match c.rest with
  | [] => c
  | d :: ds => { c with place := c.place.after d, rest := ds }

def advance (c : Cursor) : Nat → Cursor
  | 0 => c
  | n + 1 => c.next.advance n

/-- Skips white space, and comments from a hash to the end of their line. -/
def skipFrom (comment : Bool) (place : Place) : List Char → Place × List Char
  | [] => (place, [])
  | d :: ds =>
    if comment then skipFrom (d ≠ '\n') (place.after d) ds
    else if isBlank d then skipFrom false (place.after d) ds
    else if d = '#' then skipFrom true (place.after d) ds
    else (place, d :: ds)

/-- Skips white space and comments where they are to be skipped. -/
def skip (c : Cursor) : Cursor :=
  if c.spaced then
    let (place, rest) := skipFrom false c.place c.rest
    { c with place, rest }
  else c

/-- The cursor behind the next character and what is skipped after it. -/
def nextPart (c : Cursor) : Cursor :=
  c.next.skip

/-- Looks beyond white space and comments. Behind a hash only white space is passed. -/
def peekFrom (comment : Bool) : List Char → Option Char
  | [] => none
  | d :: ds =>
    if isBlank d then peekFrom comment ds
    else if !comment && d = '#' then peekFrom true ds
    else some d

/-- The character behind the next one, beyond what is skipped. If nothing else comes, it is what
directly follows. -/
def peekPart (c : Cursor) : Option Char :=
  let behind := c.rest.drop 1
  if c.spaced then (peekFrom false behind).or behind.head? else behind.head?

def startsWith (c : Cursor) (s : String) : Bool :=
  s.toList.isPrefixOf c.rest

end Cursor

end ShareWire.Regex
