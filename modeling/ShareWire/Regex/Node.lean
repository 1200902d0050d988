import ShareWire.Regex.Fault

/-!
# Patterns as trees

The parts of a pattern: characters, classes of characters, assertions, repetitions, groups and
branches, each with its span. What a count or a name in braces would add is not there, since the
patterns of field filters hold no closing brace.
-/

namespace ShareWire.Regex

structure Literal where
  span : Span
  char : Char
  /-- Whether two hexadecimal digits spell it, so that it is a byte where patterns match bytes. -/
  isByte : Bool := false
deriving DecidableEq, Repr

inductive SetOperation where
  | intersection
  /-- The characters of the first set that are not in the second. -/
  | difference
  /-- The characters of one set that are not in the other. -/
  | symmetricDifference
deriving DecidableEq, Repr

inductive ClassItem where
  | empty (span : Span)
  | literal (l : Literal)
  | range (span : Span) (low high : Literal)
  | named (span : Span) (negated : Bool)
  | property (span : Span)
  /-- The digits, the white space or the letters of words. -/
  | shorthand (span : Span) (negated : Bool)
  | nested (span : Span) (negated : Bool) (content : ClassItem)
  | union (span : Span) (items : List ClassItem)
  | operation (span : Span) (op : SetOperation) (left right : ClassItem)

def ClassItem.span : ClassItem → Span
  | .empty span | .range span _ _ | .named span _ | .property span | .shorthand span _
  | .nested span _ _ | .union span _ | .operation span _ _ _ => span
  | .literal l => l.span

inductive Flag where
  | caseInsensitive
  | multiLine
  | dotMatchesNewLine
  | swapGreed
  | unicode
  /-- A carriage return belongs to the end of a line. -/
  | carriageReturn
  | ignoreBlanks
deriving DecidableEq, Repr

def Flag.ofChar? : Char → Option Flag
  | 'i' => some .caseInsensitive
  | 'm' => some .multiLine
  | 's' => some .dotMatchesNewLine
  | 'U' => some .swapGreed
  | 'u' => some .unicode
  | 'R' => some .carriageReturn
  | 'x' => some .ignoreBlanks
  | _ => none

structure FlagItem where
  span : Span
  /-- The switch; none is the sign that turns off the switches behind it. -/
  flag : Option Flag
deriving DecidableEq, Repr

def flagState (flag : Flag) (on : Bool) : List FlagItem → Option Bool
  | [] => none
  | item :: items =>
    if item.flag = none then flagState flag false items
    else if item.flag = some flag then some on
    else flagState flag on items

inductive Node where
  | empty (span : Span)
  /-- Switches for what follows in the same group. -/
  | flags (span : Span) (items : List FlagItem)
  | literal (l : Literal)
  | dot (span : Span)
  /-- A place that has to be of some kind, such as the boundary of a word. -/
  | assertion (span : Span) (isBoundary : Bool)
  | property (span : Span)
  /-- A digit, white space or a letter of a word. -/
  | shorthand (span : Span) (negated : Bool)
  | bracket (span : Span) (negated : Bool) (content : ClassItem)
  /-- A part any number of times, or at most once. -/
  | repetition (span : Span) (part : Node)
  | group (span : Span) (items : List FlagItem) (part : Node)
  | alternation (span : Span) (branches : List Node)
  | concat (span : Span) (parts : List Node)

namespace Node

def span : Node → Span
  | .empty span | .flags span _ | .dot span | .assertion span _ | .property span
  | .shorthand span _ | .bracket span _ _ | .repetition span _ | .group span _ _
  | .alternation span _ | .concat span _ => span
  | .literal l => l.span

def ofParts (span : Span) : List Node → Node
  | [] => .empty span
  | [part] => part
  | parts => .concat span parts

def isRepeatable : Node → Bool
  | .empty _ | .flags _ _ => false
  | _ => true

end Node

end ShareWire.Regex
