import ShareWire.Time.Instant

/-!
# Written times

The three ways in which instants are written: the date header of the protocol, the seconds of stored
access policies, and the full precision of reports.
-/

namespace ShareWire.Time

def padded (width n : Nat) : String :=
  let digits := toString n
  String.ofList (List.replicate (width - digits.length) '0') ++ digits

/-- A year: four digits from 0 to 9999, elsewhere a sign and at least four digits. -/
def yearText (year : Int) : String :=
  if 0 ≤ year ∧ year ≤ 9999 then padded 4 year.toNat
  else if 0 ≤ year then "+" ++ padded 4 year.toNat
  else "-" ++ padded 4 (-year).toNat

/-- A fraction of a second: nothing if it is zero, else the fewest of three, six or nine digits that
are exact. -/
def fractionText (nanos : Nat) : String :=
  if nanos = 0 then ""
  else if nanos % 1000000 = 0 then "." ++ padded 3 (nanos / 1000000)
  else if nanos % 1000 = 0 then "." ++ padded 6 (nanos / 1000)
  else "." ++ padded 9 nanos

namespace Instant

def clockText (t : Instant) : String :=
  padded 2 t.hour ++ ":" ++ padded 2 t.minute ++ ":" ++ padded 2 t.second

def dateText (t : Instant) : String :=
  yearText t.date.year ++ "-" ++ padded 2 t.date.month ++ "-" ++ padded 2 t.date.day

/-- The form of date headers, for example `Wed, 01 Jul 2015 08:49:37 GMT`. -/
def httpDate (t : Instant) : String :=
  t.weekday.abbreviation ++ ", " ++ padded 2 t.date.day ++ " " ++ monthAbbreviation t.date.month ++
    " " ++ yearText t.date.year ++ " " ++ t.clockText ++ " GMT"

/-- The form of stored access policies, to the second: `2015-07-01T08:49:37Z`. -/
def isoSeconds (t : Instant) : String :=
  t.dateText ++ "T" ++ t.clockText ++ "Z"

def isoPrecise (t : Instant) : String :=
  t.dateText ++ "T" ++ t.clockText ++ fractionText t.fraction ++ "Z"

end Instant

end ShareWire.Time
