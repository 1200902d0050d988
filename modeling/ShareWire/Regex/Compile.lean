import ShareWire.Regex.Parse
import ShareWire.Regex.Report

/-!
# Which patterns can be compiled

A pattern is compiled into an automaton over bytes without tables of characters. So it cannot ask for
Unicode's properties, shorthands, letters in other cases or boundaries of words, and it cannot match
bytes that are not UTF-8. Parts may stand in each other up to a limit of depth.
-/

namespace ShareWire.Regex

def depthLimit : Nat := 250

mutual

/-- The first item that stands too deep, where `depth` parts are around the given one. -/
def ClassItem.tooDeep? (depth : Nat) : ClassItem → Option Span
  | .nested span _ content =>
    if depth < depthLimit then content.tooDeep? (depth + 1) else some span
  | .union span items =>
    if depth < depthLimit then ClassItem.anyTooDeep? (depth + 1) items else some span
  | .operation span _ left right =>
    if depth < depthLimit then (left.tooDeep? (depth + 1)).or (right.tooDeep? (depth + 1))
    else some span
  | .empty _ | .literal _ | .range _ _ _ | .named _ _ | .property _ | .shorthand _ _ => none

def ClassItem.anyTooDeep? (depth : Nat) : List ClassItem → Option Span
  | [] => none
  | item :: items => (item.tooDeep? depth).or (ClassItem.anyTooDeep? depth items)

end

mutual

def Node.tooDeep? (depth : Nat) : Node → Option Span
  | .bracket span _ content =>
    if depth < depthLimit then content.tooDeep? (depth + 1) else some span
  | .repetition span part | .group span _ part =>
    if depth < depthLimit then part.tooDeep? (depth + 1) else some span
  | .alternation span parts | .concat span parts =>
    if depth < depthLimit then Node.anyTooDeep? (depth + 1) parts else some span
  | .empty _ | .flags _ _ | .literal _ | .dot _ | .assertion _ _ | .property _ | .shorthand _ _ =>
    none

def Node.anyTooDeep? (depth : Nat) : List Node → Option Span
  | [] => none
  | part :: parts => (part.tooDeep? depth).or (Node.anyTooDeep? depth parts)

end

/-- How the parts of a pattern are to be understood. -/
structure Mode where
  caseless : Bool := false
  /-- Whether characters, and not bytes, are matched. -/
  unicode : Bool := true
deriving DecidableEq, Repr

def Mode.switch (m : Mode) (items : List FlagItem) : Mode :=
  { caseless := (flagState .caseInsensitive true items).getD m.caseless
    unicode := (flagState .unicode true items).getD m.unicode }

/-- Whether the other cases of letters are wanted for which there is no table. -/
def Mode.folds (m : Mode) : Bool :=
  m.caseless && m.unicode

/-- What is known of a set of characters when letters match in any case. -/
inductive Coverage where
  /-- It is empty, and so has all cases of its letters. -/
  | nothing
  /-- It holds all characters, and so all cases of its letters. -/
  | everything
  /-- The other cases of its letters are yet to be added. -/
  | unfolded
deriving DecidableEq, Repr

namespace Coverage

def union : Coverage → Coverage → Coverage
  | .nothing, b => b
  | a, .nothing => a
  | .everything, .everything => .everything
  | _, _ => .unfolded

def complement : Coverage → Coverage
  | .nothing => .everything
  | .everything => .nothing
  | .unfolded => .unfolded

def operate : SetOperation → Coverage → Coverage → Coverage
  | .intersection, .everything, b => b
  | .intersection, .nothing, _ => .nothing
  | .intersection, a, .everything => a
  | .intersection, _, .nothing => .nothing
  | .difference, a, .nothing => a
  | .difference, .nothing, _ => .nothing
  | .difference, _, .everything => .nothing
  | .symmetricDifference, .nothing, b => b
  | .symmetricDifference, a, .nothing => a
  | .symmetricDifference, .everything, b => b.complement
  | .symmetricDifference, a, .everything => a.complement
  | _, .unfolded, .unfolded | .difference, .everything, .unfolded => .unfolded

def fold (m : Mode) (span : Span) (a : Coverage) : Except Fault Coverage :=
  if m.folds && a = .unfolded then .error { kind := .noCaseFolding, span } else .ok a

end Coverage

/-- The set of a class with a negation or without. A negated set of bytes holds such that are not
UTF-8. -/
def classCoverage (m : Mode) (span : Span) (negated : Bool) (content : Coverage) :
    Except Fault Coverage := do
  let folded ← content.fold m span
  if negated && !m.unicode then throw { kind := .notUtf8, span }
  return if negated then folded.complement else folded

/-- Checks that a character is one, and not a byte beyond ASCII. -/
def checkLiteral (m : Mode) (l : Literal) : Except Fault PUnit :=
  if !m.unicode && l.isByte && 128 ≤ l.char.toNat then
    .error { kind := .notUtf8, span := l.span }
  else .ok ()

/-- Checks a character of a class. A class of bytes can hold no characters beyond ASCII. -/
def checkClassLiteral (m : Mode) (l : Literal) : Except Fault PUnit := do
  checkLiteral m l
  if !m.unicode && 128 ≤ l.char.toNat then throw { kind := .bytesOnly, span := l.span }

def propertyFault (m : Mode) (span : Span) : Fault :=
  { kind := if m.unicode then .noProperty else .bytesOnly, span }

/-- Checks a shorthand: for characters there are no tables, and the negated ones hold bytes that are
not UTF-8. -/
def checkShorthand (m : Mode) (span : Span) (negated : Bool) : Except Fault PUnit :=
  if m.unicode then .error { kind := .noShorthand, span }
  else if negated then .error { kind := .notUtf8, span }
  else .ok ()

mutual

def ClassItem.check (m : Mode) : ClassItem → Except Fault Coverage
  | .empty _ => .ok .nothing
  | .literal l => do
    checkClassLiteral m l
    return .unfolded
  | .range _ low high => do
    checkClassLiteral m low
    checkClassLiteral m high
    return .unfolded
  | .named span negated => classCoverage m span negated .unfolded
  | .property span => .error (propertyFault m span)
  | .shorthand span negated => do
    checkShorthand m span negated
    return .unfolded
  | .nested span negated content => do
    classCoverage m span negated (← content.check m)
  | .union _ items => ClassItem.checkAll m .nothing items
  | .operation _ op left right => do
    let a ← left.check m
    let b ← right.check m
    let b ← b.fold m right.span
    let a ← a.fold m left.span
    return a.operate op b

/-- Checks items side by side, where a set is known of those before them. -/
def ClassItem.checkAll (m : Mode) (before : Coverage) : List ClassItem → Except Fault Coverage
  | [] => .ok before
  | item :: items => do
    let coverage ← item.check m
    ClassItem.checkAll m (before.union coverage) items

end

/-- What is known of a pattern in front of one of its parts. -/
structure Knowledge where
  mode : Mode := {}
  /-- Whether there was a boundary of words, by the letters of Unicode. -/
  hasBoundary : Bool := false

mutual

/-- Checks a part, and gives what is known behind it. Switches hold to the end of their group. -/
def Node.check (k : Knowledge) : Node → Except Fault Knowledge
  | .empty _ => .ok k
  | .flags _ items => .ok { k with mode := k.mode.switch items }
  | .literal l => do
    checkLiteral k.mode l
    if k.mode.folds then throw { kind := .noCaseFolding, span := l.span }
    return k
  | .dot span => if k.mode.unicode then .ok k else .error { kind := .notUtf8, span }
  | .assertion _ isBoundary =>
    .ok { k with hasBoundary := k.hasBoundary || (isBoundary && k.mode.unicode) }
  | .property span => .error (propertyFault k.mode span)
  | .shorthand span negated => do
    checkShorthand k.mode span negated
    return k
  | .bracket span negated content => do
    let coverage ← content.check k.mode
    let _ ← classCoverage k.mode span negated coverage
    return k
  | .repetition _ part => part.check k
  | .group _ items part => do
    let behind ← part.check { k with mode := k.mode.switch items }
    return { behind with mode := k.mode }
  | .alternation _ parts | .concat _ parts => Node.checkAll k parts

def Node.checkAll (k : Knowledge) : List Node → Except Fault Knowledge
  | [] => .ok k
  | part :: parts => do
    Node.checkAll (← part.check k) parts

end

inductive CompileFault where
  /-- It is not well formed, or asks for what is not at hand. -/
  | refused (text : String) (fault : Fault)
  /-- It looks for boundaries of words by the letters of Unicode. -/
  | boundary
deriving DecidableEq, Repr

def CompileFault.message : CompileFault → String
  | .refused _ _ => "error building NFA"
  | .boundary =>
    "unsupported regex feature for DFAs: cannot build DFAs for regexes with Unicode word " ++
      "boundaries; switch to ASCII word boundaries, or heuristically enable Unicode word " ++
      "boundaries or use a different regex engine"

def CompileFault.causes : CompileFault → List String
  | .refused text fault => ["error parsing regex", fault.report text]
  | .boundary => []

/-- The tree of a pattern, if it is well formed and what it asks for is at hand, and whether it looks
for boundaries of words. -/
def Node.ofPattern (pattern : String) : Except Fault (Node × Bool) := do
  let node ← Node.parse pattern
  if let some span := node.tooDeep? 0 then throw { kind := .depth depthLimit, span }
  let known ← node.check {}
  return (node, known.hasBoundary)

def compileFault? (pattern : String) : Option CompileFault :=
  match Node.ofPattern pattern with
  | .error fault => some (.refused pattern fault)
  | .ok (_, hasBoundary) => if hasBoundary then some .boundary else none

end ShareWire.Regex
