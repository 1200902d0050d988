import ShareWire.Time.Calendar

/-!
# Instants

Points of universal time with nanoseconds. A leap second has no number of its own: it shares the number
of the second before and has a billion more nanoseconds. Clocks show a leap second as the second that
follows, which at the end of a minute is second 60.
-/

namespace ShareWire.Time

def leastYear : Int := -262143

def greatestYear : Int := 262142

/-- The number of the first second of the first year, counted from the start of 1970. -/
def leastSecond : Int := -8334601228800

def greatestSecond : Int := 8210266876799

structure Instant where
  /-- Whole seconds from the start of 1970, leap seconds not counted. -/
  seconds : Int
  /-- Nanoseconds since the start of that second; a billion or more inside a leap second. -/
  nanos : Nat
  least_le : leastSecond ≤ seconds
  le_greatest : seconds ≤ greatestSecond
  /-- A second and its leap second are two billion nanoseconds. Any second can have a leap second. -/
  nanos_lt : nanos < 2000000000
deriving DecidableEq, Repr

namespace Instant

def ofUnix? (seconds : Int) (nanos : Nat) : Option Instant :=
  if h : leastSecond ≤ seconds ∧ seconds ≤ greatestSecond ∧ nanos < 2000000000 then
    some ⟨seconds, nanos, h.1, h.2.1, h.2.2⟩
  else none

def isLeap (t : Instant) : Bool :=
  1000000000 ≤ t.nanos

def date (t : Instant) : Date :=
  .ofDayNumber (t.seconds / 86400)

def weekday (t : Instant) : Weekday :=
  .ofDayNumber (t.seconds / 86400)

def hour (t : Instant) : Nat :=
  (t.seconds % 86400).toNat / 3600

def minute (t : Instant) : Nat :=
  (t.seconds % 86400).toNat / 60 % 60

/-- The second of the minute, 0 to 60. A leap second is shown as the second that follows. -/
def second (t : Instant) : Nat :=
  (t.seconds % 86400).toNat % 60 + if t.isLeap then 1 else 0

/-- The nanoseconds of the second that `second` names. -/
def fraction (t : Instant) : Nat :=
  t.nanos % 1000000000

end Instant

/-- The numbers that a written time consists of. What a text leaves out keeps its default. -/
structure Fields where
  year : Int := 0
  /-- The month, counted from 1. -/
  month : Nat := 0
  day : Nat := 0
  hour : Nat := 0
  minute : Nat := 0
  second : Nat := 0
  nanos : Nat := 0
deriving DecidableEq, Repr

def Fields.date (f : Fields) : Date :=
  ⟨f.year, f.month, f.day⟩

/-- Fields make a time when their date is real and within the years of instants, and the clock shows
at most 23:59:60. -/
def Fields.Real (f : Fields) : Prop :=
  leastYear ≤ f.year ∧ f.year ≤ greatestYear ∧ f.date.Real ∧
    f.hour ≤ 23 ∧ f.minute ≤ 59 ∧ f.second ≤ 60

instance (f : Fields) : Decidable f.Real :=
  inferInstanceAs (Decidable (_ ∧ _ ∧ _ ∧ _ ∧ _ ∧ _))

/-- The number of the second that the fields name at the given distance from universal time. Second
60 shares its number with second 59. -/
def Fields.unixSecond (f : Fields) (offsetMinutes : Int) : Int :=
  f.date.dayNumber * 86400 + f.hour * 3600 + f.minute * 60 +
    (if f.second = 60 then 59 else (f.second : Int)) - offsetMinutes * 60

/-- The instant that the fields name `offsetMinutes` ahead of universal time. -/
def Fields.toInstant? (f : Fields) (offsetMinutes : Int) : Option Instant :=
  if f.Real then
    Instant.ofUnix? (f.unixSecond offsetMinutes) (f.nanos + if f.second = 60 then 1000000000 else 0)
  else none

end ShareWire.Time
