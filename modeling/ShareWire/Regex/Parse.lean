import ShareWire.Regex.CharClass
import ShareWire.Regex.Group

/-!
# Reading patterns

Reads a pattern as a tree: branches of parts one after the other, in groups. The pattern is read from
the front, and the groups that are open are kept in a list.
-/

namespace ShareWire.Regex

/-- The branches read so far of a pattern or a group. -/
structure Branches where
  first : Place
  /-- The finished branches, the newest first. -/
  finished : List Node := []
  start : Place
  /-- The parts of the present branch, the newest first. -/
  parts : List Node := []

namespace Branches

def startingAt (place : Place) : Branches :=
  { first := place, start := place }

def push (b : Branches) (part : Node) : Branches :=
  { b with parts := part :: b.parts }

def present (b : Branches) (stop : Place) : Node :=
  .ofParts ⟨b.start, stop⟩ b.parts.reverse

/-- Ends the present branch at a place, and starts the next one at another. -/
def alternate (b : Branches) (stop next : Place) : Branches :=
  { first := b.first, finished := b.present stop :: b.finished, start := next }

/-- All branches, of which the present one stops at a place, as one part. -/
def close (b : Branches) (stop : Place) : Node :=
  if b.finished.isEmpty then b.present stop
  else .alternation ⟨b.first, stop⟩ (b.present stop :: b.finished).reverse

end Branches

structure OpenGroup where
  span : Span
  items : List FlagItem
  around : Branches
  spaced : Bool

structure Progress where
  /-- The branches of the innermost group, or of the pattern. -/
  branches : Branches
  /-- The open groups, the innermost first. -/
  opened : List OpenGroup := []
  names : GroupNames := []
  cursor : Cursor

namespace Progress

def push (p : Progress) (part : Node × Cursor) : Progress :=
  { p with branches := p.branches.push part.1, cursor := part.2 }

def openGroup (p : Progress) : Except Fault Progress := do
  let c := p.cursor
  let (opening, names, after) ← readOpening p.names c
  let skips (items : List FlagItem) := (flagState .ignoreBlanks true items).getD c.spaced
  match opening with
  | .flags node items =>
    return { p.push (node, { after with spaced := skips items }) with names }
  | .group items =>
    let group : OpenGroup :=
      { span := c.hereChar, items, around := p.branches, spaced := c.spaced }
    let branches := Branches.startingAt after.place
    let cursor := { after with spaced := skips items }
    return { branches, opened := group :: p.opened, names, cursor }

def closeGroup (p : Progress) : Except Fault Progress :=
  let c := p.cursor
  match p.opened with
  | [] => .error { kind := .groupUnopened, span := c.hereChar }
  | group :: opened =>
    let after := c.next
    let part : Node :=
      .group (after.since group.span.start) group.items (p.branches.close c.place)
    .ok
      { p with
        branches := group.around.push part
        opened
        cursor := { after with spaced := group.spaced } }

/-- Repeats the newest part, which must be there, at a cursor. -/
def repeatable (p : Progress) : Except Fault (Node × List Node) :=
  match p.branches.parts with
  | part :: parts =>
    if part.isRepeatable then .ok (part, parts)
    else .error { kind := .repetition, span := p.cursor.here }
  | [] => .error { kind := .repetition, span := p.cursor.here }

/-- Reads a sign of repetition, with the question mark behind it if there is one. -/
def readRepetition (p : Progress) : Except Fault Progress := do
  let (part, parts) ← p.repeatable
  let after := p.cursor.next
  let after := if after.rest.head? = some '?' then after.next else after
  let repeated : Node := .repetition (after.since part.span.start) part
  return { p with branches := { p.branches with parts := repeated :: parts }, cursor := after }

/-- The cursor behind the digits of a count, of which there are at most `n`. -/
def passDigits (c : Cursor) : Nat → Cursor × List Char
  | 0 => (c, [])
  | n + 1 =>
    match c.rest with
    | [] => (c, [])
    | d :: _ =>
      if d.isDigit then
        let (after, digits) := passDigits c.nextPart n
        (after, d :: digits)
      else (c, [])

/-- The cursor behind white space, of which there are at most `n` characters. -/
def passBlanks (c : Cursor) : Nat → Cursor
  | 0 => c
  | n + 1 =>
    match c.rest with
    | [] => c
    | d :: _ => if Text.isBlank d then passBlanks c.nextPart n else c

/-- The fault of a count, which nothing closes. -/
def countFault (p : Progress) : Fault :=
  match p.repeatable with
  | .error fault => fault
  | .ok _ =>
    let brace := p.cursor.place
    let c := p.cursor.nextPart
    let blanks := c.rest.takeWhile Text.isBlank
    let number := c.advance blanks.length
    let (behind, digits) := passDigits number number.rest.length
    let final := passBlanks behind behind.rest.length
    if c.rest.isEmpty || final.rest.isEmpty then
      { kind := .countUnclosed, span := (if c.rest.isEmpty then c else final).since brace }
    else if digits.isEmpty then { kind := .countMissing, span := behind.since number.place }
    else
      match Text.readInteger UInt32 .decimal digits with
      | .error _ => { kind := .decimal, span := behind.since number.place }
      | .ok _ => { kind := .countUnclosed, span := final.since brace }

def step (p : Progress) (next : Char) : Except Fault Progress :=
  let c := p.cursor
  match next with
  | '(' => p.openGroup
  | ')' => p.closeGroup
  | '|' =>
    .ok { p with branches := p.branches.alternate c.place c.next.place, cursor := c.next }
  | '[' => (readClass c).map p.push
  | '?' | '*' | '+' => p.readRepetition
  | '\x7b' => .error p.countFault
  | '\\' => (readEscape c).map p.push
  | '.' => .ok (p.push (.dot c.hereChar, c.next))
  | '^' | '$' => .ok (p.push (.assertion c.hereChar false, c.next))
  | d => .ok (p.push (.literal { span := c.hereChar, char := d }, c.next))

def finish (p : Progress) : Except Fault Node :=
  match p.opened with
  | [] => .ok (p.branches.close p.cursor.place)
  | group :: _ => .error { kind := .groupUnclosed, span := group.span }

/-- Reads the constructs of a pattern up to its end. Each takes a character at least, so there are no
more than `n` of them if `n` is the number of characters to come. -/
def run (p : Progress) : Nat → Except Fault Node
  | 0 => { p with cursor := p.cursor.skip }.finish
  | n + 1 => do
    let p := { p with cursor := p.cursor.skip }
    match p.cursor.rest with
    | [] => p.finish
    | d :: _ => (← p.step d).run n

end Progress

def Node.parse (pattern : String) : Except Fault Node :=
  let cursor : Cursor := { rest := pattern.toList }
  Progress.run { branches := .startingAt cursor.place, cursor } pattern.toList.length

end ShareWire.Regex
