import ShareWire.Regex.Escape

/-!
# Classes of characters

Reads a class in brackets: characters, ranges and sets, classes inside it, and the operations between
them, which associate to the left.
-/

namespace ShareWire.Regex

structure OpenClass where
  opening : Span
  /-- Whether it holds the characters that are not named. -/
  negated : Bool
  /-- The operation before the present items, and the set to its left. -/
  pending : Option (SetOperation × ClassItem) := none
  span : Span
  /-- The present items, the newest first. -/
  items : List ClassItem := []

namespace OpenClass

def push (o : OpenClass) (item : ClassItem) : OpenClass :=
  let start := if o.items.isEmpty then item.span.start else o.span.start
  { o with span := ⟨start, item.span.stop⟩, items := item :: o.items }

def union (o : OpenClass) : ClassItem :=
  match o.items with
  | [] => .empty o.span
  | [item] => item
  | items => .union o.span items.reverse

def content (o : OpenClass) : ClassItem :=
  match o.pending with
  | none => o.union
  | some (op, left) => .operation ⟨left.span.start, o.union.span.stop⟩ op left o.union

def operate (o : OpenClass) (op : SetOperation) (c : Cursor) : OpenClass :=
  { o with pending := some (op, o.content), span := c.here, items := [] }

end OpenClass

def classItemOf : Node → Except Fault ClassItem
  | .literal l => .ok (.literal l)
  | .property span => .ok (.property span)
  | .shorthand span negated => .ok (.shorthand span negated)
  | node => .error { kind := .classEscape, span := node.span }

def rangeBoundOf : Node → Except Fault Literal
  | .literal l => .ok l
  | node => .error { kind := .classRangeBound, span := node.span }

def readClassPart (c : Cursor) : Except Fault (Node × Cursor) :=
  match c.rest with
  | [] => .ok (.empty c.here, c)
  | d :: _ =>
    if d = '\\' then readEscape c
    else .ok (.literal { span := c.hereChar, char := d }, c.next)

/-- Reads one item of a class, or a range. A hyphen before a closing bracket or another hyphen makes
no range. `opening` is what opens the class. -/
def readClassRange (opening : Span) (c : Cursor) : Except Fault (ClassItem × Cursor) := do
  let unclosed : Fault := { kind := .classUnclosed, span := opening }
  let (low, c) ← readClassPart c
  let c := c.skip
  match c.rest with
  | [] => throw unclosed
  | d :: _ =>
    if d ≠ '-' || c.peekPart = some ']' || c.peekPart = some '-' then
      return (← classItemOf low, c)
    else
      let c := c.nextPart
      if c.rest.isEmpty then throw unclosed
      let (high, c) ← readClassPart c
      let span : Span := ⟨low.span.start, high.span.stop⟩
      let first ← rangeBoundOf low
      let last ← rangeBoundOf high
      if first.char ≤ last.char then return (.range span first last, c)
      else throw { kind := .classRange, span }

def setNames : List String :=
  ["alnum", "alpha", "ascii", "blank", "cntrl", "digit", "graph", "lower", "print", "punct",
    "space", "upper", "word", "xdigit"]

/-- Whether a set of ASCII characters by its name comes next, with its negation and its length. -/
def namedSet? : List Char → Option (Bool × Nat)
  | '[' :: ':' :: rest =>
    let negated := rest.head? = some '^'
    let rest := if negated then rest.drop 1 else rest
    let name := rest.takeWhile (· ≠ ':')
    if [':', ']'].isPrefixOf (rest.drop name.length) && setNames.contains (String.ofList name) then
      some (negated, (if negated then 3 else 2) + name.length + 2)
    else none
  | _ => none

/-- The hyphens at the start of a class stand for themselves. Of those there are at most so many. -/
def readHyphens (start : Place) (o : OpenClass) (c : Cursor) :
    Nat → Except Fault (OpenClass × Cursor)
  | 0 => .ok (o, c)
  | n + 1 =>
    match c.rest with
    | '-' :: _ =>
      let after := c.nextPart
      if after.rest.isEmpty then .error { kind := .classUnclosed, span := ⟨start, start⟩ }
      else readHyphens start (o.push (.literal { span := c.hereChar, char := '-' })) after n
    | _ => .ok (o, c)

/-- Opens a class, from its bracket. A closing bracket that directly follows stands for itself. -/
def openClass (c : Cursor) : Except Fault (OpenClass × Cursor) := do
  let start := c.place
  let c := c.nextPart
  if c.rest.isEmpty then throw { kind := .classUnclosed, span := c.since start }
  let negated := c.rest.head? = some '^'
  let c := if negated then c.nextPart else c
  if c.rest.isEmpty then throw { kind := .classUnclosed, span := c.since start }
  let (o, c) ← readHyphens start { opening := c.here, negated, span := c.here } c c.rest.length
  if o.items.isEmpty && c.rest.head? = some ']' then
    let o := o.push (.literal { span := c.hereChar, char := ']' })
    let c := c.nextPart
    if c.rest.isEmpty then throw { kind := .classUnclosed, span := c.since start }
    return ({ o with opening := c.since start }, c)
  else return ({ o with opening := c.since start }, c)

inductive ClassProgress where
  /-- Classes are open: the present one, and those around it, the nearest first. -/
  | within (o : OpenClass) (outer : List OpenClass)
  | done (node : Node)

def classStep (o : OpenClass) (outer : List OpenClass) (c : Cursor) :
    Except Fault (ClassProgress × Cursor) :=
  match c.rest with
  | [] => .error { kind := .classUnclosed, span := o.opening }
  | '[' :: _ =>
    match namedSet? c.rest with
    | some (negated, length) =>
      let after := c.advance length
      .ok (.within (o.push (.named (after.since c.place) negated)) outer, after)
    | none => (openClass c).map fun (inner, after) => (.within inner (o :: outer), after)
  | ']' :: _ =>
    let after := c.next
    let span := after.since o.opening.start
    match outer with
    | [] => .ok (.done (.bracket span o.negated o.content), after)
    | parent :: outer =>
      .ok (.within (parent.push (.nested span o.negated o.content)) outer, after)
  | '&' :: '&' :: _ => .ok (.within (o.operate .intersection (c.advance 2)) outer, c.advance 2)
  | '-' :: '-' :: _ => .ok (.within (o.operate .difference (c.advance 2)) outer, c.advance 2)
  | '~' :: '~' :: _ =>
    .ok (.within (o.operate .symmetricDifference (c.advance 2)) outer, c.advance 2)
  | _ :: _ =>
    (readClassRange o.opening c).map fun (item, after) => (.within (o.push item) outer, after)

/-- Reads the constructs of a class up to its closing bracket. Each takes a character at least, so
there are no more than `n` of them if `n` is the number of characters to come, and with one more the
end is seen. -/
def readClassRest (o : OpenClass) (outer : List OpenClass) (c : Cursor) :
    Nat → Except Fault (Node × Cursor)
  | 0 => .error { kind := .classUnclosed, span := o.opening }
  | n + 1 => do
    match ← classStep o outer c.skip with
    | (.within o outer, after) => readClassRest o outer after n
    | (.done node, after) => return (node, after)

def readClass (c : Cursor) : Except Fault (Node × Cursor) := do
  let (o, after) ← openClass c
  readClassRest o [] after (after.rest.length + 1)

end ShareWire.Regex
