/-!
# The calendar

The Gregorian calendar, extended to all years before and after its use, with a year zero. Days are
numbered from the first of January 1970.
-/

namespace ShareWire.Time

def isLeapYear (year : Int) : Bool :=
  year % 4 = 0 && (year % 100 ≠ 0 || year % 400 = 0)

/-- The number of days of a month, counted from 1; zero if there is no such month. -/
def daysInMonth (leap : Bool) : Nat → Nat
  | 1 => 31
  | 2 => if leap then 29 else 28
  | 3 => 31
  | 4 => 30
  | 5 => 31
  | 6 => 30
  | 7 => 31
  | 8 => 31
  | 9 => 30
  | 10 => 31
  | 11 => 30
  | 12 => 31
  | _ => 0

/-- The number of days of the year before a month begins. -/
def daysBeforeMonth (leap : Bool) : Nat → Nat
  | 0 => 0
  | month + 1 => daysBeforeMonth leap month + daysInMonth leap month

/-- The number of days from the first of January of year zero to that of `year`, negative for
earlier years. -/
def daysBeforeYear (year : Int) : Int :=
  365 * year + (year + 3) / 4 - (year + 99) / 100 + (year + 399) / 400

def epochDay : Int := 719528

/-- A year, a month and a day of the month, whether or not there is such a date. -/
@[ext] structure Date where
  /-- The year; zero and negative years count on backwards from year one. -/
  year : Int
  /-- The month, counted from 1. -/
  month : Nat
  /-- The day of the month, counted from 1. -/
  day : Nat
deriving DecidableEq, Repr

def Date.Real (d : Date) : Prop :=
  1 ≤ d.day ∧ d.day ≤ daysInMonth (isLeapYear d.year) d.month

instance (d : Date) : Decidable d.Real :=
  inferInstanceAs (Decidable (_ ∧ _))

/-- The number of days from the first of January 1970 to a date. -/
def Date.dayNumber (d : Date) : Int :=
  daysBeforeYear d.year + daysBeforeMonth (isLeapYear d.year) d.month + d.day - 1 - epochDay

/-- The year of the `n`-th day from the first of January of year zero. The quotient misses the year
by one at most. -/
def yearOfDay (n : Int) : Int :=
  let guess := n * 400 / 146097
  if n < daysBeforeYear guess then guess - 1
  else if n < daysBeforeYear (guess + 1) then guess
  else guess + 1

/-- Month and day of the month of the `n`-th day of a year, both found by going through the months
from `month` on, of which there are `remaining`. -/
def monthAndDay (leap : Bool) : (remaining month n : Nat) → Nat × Nat
  | 0, month, n => (month, n + 1)
  | remaining + 1, month, n =>
    if n < daysInMonth leap month then (month, n + 1)
    else monthAndDay leap remaining (month + 1) (n - daysInMonth leap month)

def Date.ofDayNumber (n : Int) : Date :=
  let day := n + epochDay
  let year := yearOfDay day
  let (month, dayOfMonth) := monthAndDay (isLeapYear year) 11 1 (day - daysBeforeYear year).toNat
  ⟨year, month, dayOfMonth⟩

inductive Weekday where
  | monday
  | tuesday
  | wednesday
  | thursday
  | friday
  | saturday
  | sunday
deriving DecidableEq, Repr

def Weekday.all : List Weekday :=
  [.monday, .tuesday, .wednesday, .thursday, .friday, .saturday, .sunday]

def Weekday.abbreviation : Weekday → String
  | .monday => "Mon"
  | .tuesday => "Tue"
  | .wednesday => "Wed"
  | .thursday => "Thu"
  | .friday => "Fri"
  | .saturday => "Sat"
  | .sunday => "Sun"

/-- The day of the week of a day number: the first of January 1970 is a Thursday. -/
def Weekday.ofDayNumber (n : Int) : Weekday :=
  match (n % 7).toNat with
  | 0 => .thursday
  | 1 => .friday
  | 2 => .saturday
  | 3 => .sunday
  | 4 => .monday
  | 5 => .tuesday
  | _ => .wednesday

def monthAbbreviations : List String :=
  ["Jan", "Feb", "Mar", "Apr", "May", "Jun", "Jul", "Aug", "Sep", "Oct", "Nov", "Dec"]

/-- The three-letter name of a month, counted from 1; empty if there is no such month. -/
def monthAbbreviation (month : Nat) : String :=
  match month with
  | 0 => ""
  | index + 1 => monthAbbreviations.getD index ""

end ShareWire.Time
