import ShareWire.Time.Scan

/-!
# Time patterns

A pattern is a list of items, each of which takes its part of a text. Numbers may have white space
before them and fewer digits than their width. Of several faults the first from the left counts, and
text behind the last item counts before a date that does not exist.
-/

namespace ShareWire.Time

open Text (trimStart)

inductive PatternFault where
  /-- The text ends where a number or a fixed part must begin. -/
  | premature
  | invalid
  /-- A number is too large or too small for its place, or there is no such date. -/
  | outOfRange
  | trailing
deriving DecidableEq, Repr

def PatternFault.message : PatternFault → String
  | .premature => "premature end of input"
  | .invalid => "input contains invalid characters"
  | .outOfRange => "input is out of range"
  | .trailing => "trailing input"

inductive TimeUnit where
  /-- The year, with a sign if it has more than four digits. -/
  | year
  /-- The month, 1 to 12. -/
  | month
  /-- The day of the month, 1 to 31. -/
  | day
  /-- The hour, 0 to 23. -/
  | hour
  /-- The minute, 0 to 59. -/
  | minute
  /-- The second, 0 to 60. -/
  | second
deriving DecidableEq, Repr

inductive PatternItem where
  | number (unit : TimeUnit)
  | monthName
  | blank
  | literal (c : Char)
  | fraction
deriving DecidableEq, Repr

abbrev Pattern := List PatternItem

def Pattern.scanDigits (limit : Nat) (cs : List Char) : Except PatternFault (Nat × List Char) :=
  match cs with
  | [] => .error .premature
  | _ :: _ =>
    match scanNumber 1 limit cs with
    | none => .error .invalid
    | some found => .ok found

/-- Scans a year: up to four digits, or any number of them behind a sign. -/
def Pattern.scanYear (cs : List Char) : Except PatternFault (Int × List Char) :=
  match cs with
  | '-' :: rest => (scanDigits rest.length rest).map fun (n, rest) => (-(n : Int), rest)
  | '+' :: rest => (scanDigits rest.length rest).map fun (n, rest) => ((n : Int), rest)
  | cs => (scanDigits 4 cs).map fun (n, rest) => ((n : Int), rest)

def TimeUnit.set (unit : TimeUnit) (n : Int) (fields : Fields) : Except PatternFault Fields :=
  match unit with
  | .year =>
    if -2147483648 ≤ n ∧ n ≤ 2147483647 then .ok { fields with year := n } else .error .outOfRange
  | .month => if 1 ≤ n ∧ n ≤ 12 then .ok { fields with month := n.toNat } else .error .outOfRange
  | .day => if 1 ≤ n ∧ n ≤ 31 then .ok { fields with day := n.toNat } else .error .outOfRange
  | .hour => if 0 ≤ n ∧ n ≤ 23 then .ok { fields with hour := n.toNat } else .error .outOfRange
  | .minute => if 0 ≤ n ∧ n ≤ 59 then .ok { fields with minute := n.toNat } else .error .outOfRange
  | .second => if 0 ≤ n ∧ n ≤ 60 then .ok { fields with second := n.toNat } else .error .outOfRange

def TimeUnit.scan (unit : TimeUnit) (cs : List Char) : Except PatternFault (Int × List Char) :=
  match unit with
  | .year => Pattern.scanYear cs
  | _ => (Pattern.scanDigits 2 cs).map fun (n, rest) => ((n : Int), rest)

def PatternItem.read (item : PatternItem) (fields : Fields) (cs : List Char) :
    Except PatternFault (Fields × List Char) :=
  match item with
  | .number unit => do
    let (n, rest) ← unit.scan (trimStart cs)
    let fields ← unit.set n fields
    return (fields, rest)
  | .monthName =>
    match scanMonth cs with
    | none => .error (if cs.length < 3 then .premature else .invalid)
    | some (month, rest) => .ok ({ fields with month }, rest)
  | .blank => .ok (fields, trimStart cs)
  | .literal c =>
    match cs with
    | [] => .error .premature
    | d :: rest => if d = c then .ok (fields, rest) else .error .invalid
  | .fraction =>
    match scanOptionalFraction cs with
    | none => .error .invalid
    | some (nanos, rest) => .ok ({ fields with nanos }, rest)

/-- Takes the items of a pattern off a text one after the other. -/
def Pattern.read (fields : Fields) : Pattern → List Char → Except PatternFault (Fields × List Char)
  | [], cs => .ok (fields, cs)
  | item :: pattern, cs => do
    let (fields, rest) ← item.read fields cs
    read fields pattern rest

def Pattern.instant (pattern : Pattern) (cs : List Char) : Except PatternFault Instant := do
  let (fields, rest) ← pattern.read {} cs
  if rest.isEmpty then
    match fields.toInstant? 0 with
    | none => .error .outOfRange
    | some t => .ok t
  else .error .trailing

end ShareWire.Time
