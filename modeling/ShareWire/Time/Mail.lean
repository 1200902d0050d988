import ShareWire.Time.Scan

/-!
# Mail times

The form of date lines in mail and in most protocol headers: an optional day of the week that must be
right, day, month name, year, time, zone, and comments in parentheses.
-/

namespace ShareWire.Time.Mail

open Text (trimStart lowerAscii)

/-- A year as its digits mean it: two digits lie between 1950 and 2049, three count from 1900. -/
def yearOfDigits (digits : List Char) : Nat :=
  let n := natOfDigits digits
  if digits.length = 2 then (if n < 50 then n + 2000 else n + 1900)
  else if digits.length = 3 then n + 1900
  else n

def scanYear (cs : List Char) : Option (Nat × List Char) :=
  let digits := cs.takeWhile Char.isDigit
  if digits.length < 2 then none else some (yearOfDigits digits, cs.dropWhile Char.isDigit)

/-- Scans a day of the week and its comma. A text that begins with no such day is left alone; one
that does must go on with the comma. -/
def scanOptionalWeekday (cs : List Char) : Option (Option Weekday × List Char) :=
  match scanWeekday cs with
  | none => some (none, cs)
  | some (day, rest) => (scanChar ',' rest).map fun rest => (some day, rest)

/-- The hours of a named zone, the name in lower case. A single letter other than `j` stands for
universal time. -/
def zoneHours? (name : String) : Option Int :=
  if name = "gmt" || name = "ut" || name = "z" then some 0
  else if name = "edt" then some (-4)
  else if name = "est" || name = "cdt" then some (-5)
  else if name = "cst" || name = "mdt" then some (-6)
  else if name = "mst" || name = "pdt" then some (-7)
  else if name = "pst" then some (-8)
  else if name.length = 1 && name ≠ "j" then some 0
  else none

def isLetter (c : Char) : Bool :=
  ('a' ≤ c && c ≤ 'z') || ('A' ≤ c && c ≤ 'Z')

/-- Scans a zone: a name, or a sign and four digits. -/
def scanZone (cs : List Char) : Option (Int × List Char) :=
  let name := cs.takeWhile isLetter
  if name.isEmpty then
    match cs with
    | [] => none
    | c :: rest =>
      if c = '+' || c = '-' then do
        let (hours, rest) ← scanNumber 2 2 rest
        let (minutes, rest) ← scanNumber 2 2 rest
        let offset ← offsetOf? (c = '-') hours minutes
        return (offset, rest)
      else none
  else
    (zoneHours? (String.ofList (name.map lowerAscii))).map fun hours =>
      (hours * 60, cs.dropWhile isLetter)

/-- Whether a text is nothing but white space and comments in parentheses. `depth` counts the
parentheses that are open; inside, a backslash takes the meaning from the next character. -/
def onlyComments (depth : Nat) (escaped : Bool) : List Char → Bool
  | [] => depth = 0
  | c :: rest =>
    if depth = 0 then
      if c = '(' then onlyComments 1 false rest
      else Text.isBlank c && onlyComments 0 false rest
    else if escaped then onlyComments depth false rest
    else if c = '\\' then onlyComments depth true rest
    else if c = '(' then onlyComments (depth + 1) false rest
    else if c = ')' then onlyComments (depth - 1) false rest
    else onlyComments depth false rest

/-- Scans the seconds behind the minutes, which may be missing; the colon may have white space before
it and none behind. -/
def scanOptionalSecond (cs : List Char) : Option (Nat × List Char) :=
  match scanChar ':' (trimStart cs) with
  | none => some (0, cs)
  | some rest => scanNumber 2 2 rest

def scanDate (cs : List Char) : Option (Fields × List Char) := do
  let (day, cs) ← scanNumber 1 2 (trimStart cs)
  let cs ← scanBlank cs
  let (month, cs) ← scanMonth cs
  let cs ← scanBlank cs
  let (year, cs) ← scanYear cs
  let cs ← scanBlank cs
  return ({ year, month, day }, cs)

def scanClock (fields : Fields) (cs : List Char) : Option (Fields × List Char) := do
  let (hour, cs) ← scanNumber 2 2 cs
  let cs ← scanChar ':' (trimStart cs)
  let (minute, cs) ← scanNumber 2 2 (trimStart cs)
  let (second, cs) ← scanOptionalSecond cs
  let cs ← scanBlank cs
  return ({ fields with hour, minute, second }, cs)

def instant? (cs : List Char) : Option Instant := do
  let (weekday, cs) ← scanOptionalWeekday (trimStart cs)
  let (fields, cs) ← scanDate cs
  let (fields, cs) ← scanClock fields cs
  let (offset, cs) ← scanZone cs
  if onlyComments 0 false cs ∧
      weekday.all (fun day => day = .ofDayNumber fields.date.dayNumber) then
    fields.toInstant? offset
  else none

end ShareWire.Time.Mail
