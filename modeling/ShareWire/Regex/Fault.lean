import ShareWire.Regex.Cursor

/-!
# Faults of a pattern

What can be wrong with a pattern, and where: faults of its form, and faults of its meaning, such as
the wish for tables of characters that are not at hand.
-/

namespace ShareWire.Regex

inductive FaultKind where
  /-- A class holds an escape that stands for no characters. -/
  | classEscape
  /-- A range of characters ends before it starts. -/
  | classRange
  /-- A range of characters is bounded by something else than characters. -/
  | classRangeBound
  | classUnclosed
  | decimal
  | hexValue
  | hexDigit
  | escapeEnd
  | escape
  /-- A negation of flags has no flags behind it. -/
  | flagNegationDangling
  | flagRepeated
  | flagNegationRepeated
  | flagEnd
  | flag
  | groupNameRepeated
  | groupNameEmpty
  /-- A character cannot be in the name of a group. -/
  | groupName
  | groupNameEnd
  | groupUnclosed
  | groupUnopened
  /-- Parts stand in each other deeper than the limit. -/
  | depth (limit : Nat)
  | countMissing
  | countUnclosed
  | repetition
  | boundaryUnclosed
  /-- The pattern ends in a name of a word boundary, or in the count of its repetition. -/
  | boundaryEnd
  | propertyName
  /-- The pattern refers to what a group matched. -/
  | backreference
  | lookAround
  | bytesOnly
  /-- The part can match bytes that are not UTF-8. -/
  | notUtf8
  | noProperty
  /-- There is no table of the digits, the white space or the letters of words. -/
  | noShorthand
  /-- There is no table of letters in other cases. -/
  | noCaseFolding
deriving DecidableEq, Repr

def FaultKind.message : FaultKind → String
  | .classEscape => "invalid escape sequence found in character class"
  | .classRange => "invalid character class range, the start must be <= the end"
  | .classRangeBound => "invalid range boundary, must be a literal"
  | .classUnclosed => "unclosed character class"
  | .decimal => "decimal literal invalid"
  | .hexValue => "hexadecimal literal is not a Unicode scalar value"
  | .hexDigit => "invalid hexadecimal digit"
  | .escapeEnd => "incomplete escape sequence, reached end of pattern prematurely"
  | .escape => "unrecognized escape sequence"
  | .flagNegationDangling => "dangling flag negation operator"
  | .flagRepeated => "duplicate flag"
  | .flagNegationRepeated => "flag negation operator repeated"
  | .flagEnd => "expected flag but got end of regex"
  | .flag => "unrecognized flag"
  | .groupNameRepeated => "duplicate capture group name"
  | .groupNameEmpty => "empty capture group name"
  | .groupName => "invalid capture group character"
  | .groupNameEnd => "unclosed capture group name"
  | .groupUnclosed => "unclosed group"
  | .groupUnopened => "unopened group"
  | .depth limit =>
    "exceed the maximum number of nested parentheses/brackets (" ++ toString limit ++ ")"
  | .countMissing => "repetition quantifier expects a valid decimal"
  | .countUnclosed => "unclosed counted repetition"
  | .repetition => "repetition operator missing expression"
  | .boundaryUnclosed =>
    "special word boundary assertion is either unclosed or contains an invalid character"
  | .boundaryEnd =>
    "found either the beginning of a special word boundary or a bounded repetition on a \\b " ++
      "with an opening brace, but no closing brace"
  | .propertyName => "invalid Unicode character class"
  | .backreference => "backreferences are not supported"
  | .lookAround => "look-around, including look-ahead and look-behind, is not supported"
  | .bytesOnly => "Unicode not allowed here"
  | .notUtf8 => "pattern can match invalid UTF-8"
  | .noProperty => "Unicode property not found"
  | .noShorthand =>
    "Unicode-aware Perl class not found (make sure the unicode-perl feature is enabled)"
  | .noCaseFolding =>
    "Unicode-aware case insensitivity matching is not available " ++
      "(make sure the unicode-case feature is enabled)"

structure Fault where
  kind : FaultKind
  span : Span
  /-- The earlier part that it is in conflict with, if there is one. -/
  earlier : Option Span := none
deriving DecidableEq, Repr

end ShareWire.Regex
