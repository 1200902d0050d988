import ShareWire.Regex.Fault

/-!
# Reports of faults

A fault is shown under the pattern: the lines of the pattern, and carets under the parts that are
wrong. The lines of a pattern with several are numbered.
-/

namespace ShareWire.Regex

/-- The lines of a text without their ends. A carriage return before a line end belongs to it. -/
def linesOf : List Char → List (List Char)
  | [] => []
  | '\r' :: '\n' :: cs => [] :: linesOf cs
  | '\n' :: cs => [] :: linesOf cs
  | c :: cs =>
    match linesOf cs with
    | [] => [[c]]
    | line :: lines => (c :: line) :: lines

def repeated (n : Nat) (c : Char) : String :=
  String.ofList (List.replicate n c)

namespace Fault

def spans (f : Fault) : List Span :=
  match f.earlier with
  | none => [f.span]
  | some earlier => [earlier, f.span]

/-- Carets under parts of one line, from a column on. A part has one caret at least. -/
def carets (column : Nat) : List Span → String
  | [] => ""
  | span :: spans =>
    let gap := span.start.column - column
    let width := max 1 (span.stop.column - span.start.column)
    repeated gap ' ' ++ repeated width '^' ++ carets (column + gap + width) spans

/-- The line of carets under a line, if parts of it are wrong. -/
def caretLine (f : Fault) (line : Nat) (margin : Nat) : String :=
  let spans := f.spans.filter fun span => span.start.line = line && span.stop.line = line
  if spans.isEmpty then "" else repeated margin ' ' ++ carets 1 spans ++ "\n"

/-- The number of a line in columns of the given width; no columns are four blanks. -/
def lineMark (width line : Nat) : String :=
  if width = 0 then repeated 4 ' '
  else
    let number := toString line
    repeated (width - number.length) ' ' ++ number ++ ": "

/-- The lines of a pattern from a given one on, each with its carets. -/
def notedLines (f : Fault) (width line : Nat) : List (List Char) → String
  | [] => ""
  | text :: texts =>
    lineMark width line ++ String.ofList text ++ "\n" ++
      f.caretLine line (if width = 0 then 4 else width + 2) ++ f.notedLines width (line + 1) texts

/-- The lines of a pattern, with numbers if there are several, and with carets. -/
def noted (f : Fault) (pattern : String) : String :=
  let lines := linesOf pattern.toList
  let count := lines.length + if pattern.toList.getLast? = some '\n' then 1 else 0
  f.notedLines (if count ≤ 1 then 0 else (toString count).length) 1 lines

def spanNote (span : Span) : String :=
  "on line " ++ toString span.start.line ++ " (column " ++ toString span.start.column ++
    ") through line " ++ toString span.stop.line ++ " (column " ++
    toString (span.stop.column - 1) ++ ")"

def spanNotes (f : Fault) : String :=
  let spans := f.spans.filter fun span => span.start.line ≠ span.stop.line
  if spans.isEmpty then "" else "\n".intercalate (spans.map spanNote) ++ "\n"

def report (f : Fault) (pattern : String) : String :=
  let body :=
    if pattern.toList.contains '\n' then
      let divider := repeated 79 '~' ++ "\n"
      divider ++ f.noted pattern ++ divider ++ f.spanNotes
    else f.noted pattern
  "regex parse error:\n" ++ body ++ "error: " ++ f.kind.message

end Fault

end ShareWire.Regex
