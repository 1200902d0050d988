import ShareWire.Text.Blank
import ShareWire.Time.Instant

/-!
# Scanning numbers and names

The pieces that all written times share. A scanner takes a piece off the front and returns what is
left.
-/

namespace ShareWire.Time

open Text (isBlank trimStart equalsIgnoringCase)

/-- The digits at the front, at most `limit` of them. -/
def leadingDigits (limit : Nat) (cs : List Char) : List Char :=
  (cs.take limit).takeWhile Char.isDigit

def natOfDigits (digits : List Char) : Nat :=
  digits.foldl (fun n c => n * 10 + (c.toNat - 48)) 0

def scanNumber (least limit : Nat) (cs : List Char) : Option (Nat × List Char) :=
  let digits := leadingDigits limit cs
  if digits.length < least then none else some (natOfDigits digits, cs.drop digits.length)

def scanChar (c : Char) : List Char → Option (List Char)
  | [] => none
  | d :: rest => if d = c then some rest else none

def scanBlank : List Char → Option (List Char)
  | [] => none
  | c :: rest => if isBlank c then some (trimStart rest) else none

/-- The nanoseconds that the digits of a fraction denote: its first nine digits, where zeros stand in
for those that are missing. -/
def nanosOfDigits (digits : List Char) : Nat :=
  natOfDigits ((digits ++ List.replicate 9 '0').take 9)

def scanFraction (cs : List Char) : Option (Nat × List Char) :=
  let digits := cs.takeWhile Char.isDigit
  if digits.isEmpty then none
  else some (nanosOfDigits digits, cs.dropWhile Char.isDigit)

/-- Scans a decimal point and the digits behind it; without a point the fraction is zero. -/
def scanOptionalFraction : List Char → Option (Nat × List Char)
  | [] => some (0, [])
  | c :: rest => if c = '.' then scanFraction rest else some (0, c :: rest)

def scanMonth (cs : List Char) : Option (Nat × List Char) :=
  (monthAbbreviations.findIdx? fun name => equalsIgnoringCase (cs.take 3) name.toList).map
    fun index => (index + 1, cs.drop 3)

def scanWeekday (cs : List Char) : Option (Weekday × List Char) :=
  (Weekday.all.find? fun day => equalsIgnoringCase (cs.take 3) day.abbreviation.toList).map
    fun day => (day, cs.drop 3)

/-- The minutes of a distance from universal time, if it is less than a day. -/
def offsetOf? (negative : Bool) (hours minutes : Nat) : Option Int :=
  if hours ≤ 23 ∧ minutes ≤ 59 then
    let total : Int := hours * 60 + minutes
    some (if negative then -total else total)
  else none

end ShareWire.Time
