import ShareWire.Time.Scan

/-!
# Internet times

The strict form `YYYY-MM-DDThh:mm:ss[.fraction]` with an offset from universal time: all numbers have
their full width, and the offset is `Z` or a sign with hours and minutes.
-/

namespace ShareWire.Time.Internet

/-- Scans the separator of date and time: `T` in either case, or a space. -/
def scanSeparator : List Char → Option (List Char)
  | [] => none
  | c :: rest => if c = 'T' || c = 't' || c = ' ' then some rest else none

/-- Scans an offset in minutes. The minus may also be the mathematical sign, code point `2212`. -/
def scanOffset : List Char → Option (Int × List Char)
  | [] => none
  | c :: rest =>
    if c = 'Z' || c = 'z' then some (0, rest)
    else if c = '+' || c = '-' || c = '\u2212' then do
      let (hours, rest) ← scanNumber 2 2 rest
      let rest ← scanChar ':' rest
      let (minutes, rest) ← scanNumber 2 2 rest
      let offset ← offsetOf? (c ≠ '+') hours minutes
      return (offset, rest)
    else none

def scanDate (cs : List Char) : Option (Fields × List Char) := do
  let (year, cs) ← scanNumber 4 4 cs
  let cs ← scanChar '-' cs
  let (month, cs) ← scanNumber 2 2 cs
  let cs ← scanChar '-' cs
  let (day, cs) ← scanNumber 2 2 cs
  return ({ year, month, day }, cs)

def scanClock (fields : Fields) (cs : List Char) : Option (Fields × List Char) := do
  let (hour, cs) ← scanNumber 2 2 cs
  let cs ← scanChar ':' cs
  let (minute, cs) ← scanNumber 2 2 cs
  let cs ← scanChar ':' cs
  let (second, cs) ← scanNumber 2 2 cs
  let (nanos, cs) ← scanOptionalFraction cs
  return ({ fields with hour, minute, second, nanos }, cs)

def instant? (cs : List Char) : Option Instant := do
  let (fields, cs) ← scanDate cs
  let cs ← scanSeparator cs
  let (fields, cs) ← scanClock fields cs
  let (offset, cs) ← scanOffset cs
  if cs.isEmpty then fields.toInstant? offset else none

end ShareWire.Time.Internet
