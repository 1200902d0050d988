/-!
# Integer texts

Integers of fixed width as texts: an optional sign and digits of a base, read digit by digit so that
the first digit that leaves the range ends the reading.
-/

namespace ShareWire.Text

inductive IntegerFault where
  | empty
  /-- A character is no digit, or there is a sign and nothing else. -/
  | invalidDigit
  /-- The digits read so far already exceed the greatest value. -/
  | tooLarge
  /-- The digits read so far already fall below the least value. -/
  | tooSmall
deriving DecidableEq, Repr

def IntegerFault.message : IntegerFault → String
  | .empty => "cannot parse integer from empty string"
  | .invalidDigit => "invalid digit found in string"
  | .tooLarge => "number too large to fit in target type"
  | .tooSmall => "number too small to fit in target type"

/-- An integer type of fixed width: its bounds and the passage to and from the integers. -/
class FixedWidth (α : Type) where
  label : String
  least : Int
  greatest : Int
  /-- The value that an integer within the bounds denotes. -/
  ofInt : Int → α
  toInt : α → Int

instance : FixedWidth Int32 where
  label := "i32"
  least := -2147483648
  greatest := 2147483647
  ofInt := Int32.ofInt
  toInt := Int32.toInt

instance : FixedWidth Int64 where
  label := "i64"
  least := -9223372036854775808
  greatest := 9223372036854775807
  ofInt := Int64.ofInt
  toInt := Int64.toInt

instance : FixedWidth UInt32 where
  label := "u32"
  least := 0
  greatest := 4294967295
  ofInt n := UInt32.ofNat n.toNat
  toInt n := (n.toNat : Int)

instance : FixedWidth UInt64 where
  label := "u64"
  least := 0
  greatest := 18446744073709551615
  ofInt n := UInt64.ofNat n.toNat
  toInt n := (n.toNat : Int)

inductive Base where
  | decimal
  | hexadecimal
deriving DecidableEq, Repr

def Base.size : Base → Nat
  | .decimal => 10
  | .hexadecimal => 16

def Base.digit? (base : Base) (c : Char) : Option Nat :=
  if '0' ≤ c && c ≤ '9' then some (c.toNat - 48)
  else match base with
    | .decimal => none
    | .hexadecimal =>
      if 'a' ≤ c && c ≤ 'f' then some (c.toNat - 87)
      else if 'A' ≤ c && c ≤ 'F' then some (c.toNat - 55)
      else none

/-- On which side of zero the digits of a text count. -/
inductive Sign where
  | plus
  | minus
deriving DecidableEq, Repr

/-- Appends digits to `value`, away from zero, and stops at the first character that is no digit or
takes the value out of bounds. -/
def readDigits (base : Base) (sign : Sign) (least greatest : Int) :
    Int → List Char → Except IntegerFault Int
  | value, [] => .ok value
  | value, c :: cs =>
    match base.digit? c with
    | none => .error .invalidDigit
    | some digit =>
      match sign with
      | .plus =>
        let next := value * base.size + digit
        if greatest < next then .error .tooLarge
        else readDigits base sign least greatest next cs
      | .minus =>
        let next := value * base.size - digit
        if next < least then .error .tooSmall
        else readDigits base sign least greatest next cs

/-- Reads an optional sign and at least one digit. A minus sign belongs only to types with negative
values; elsewhere it is no digit. -/
def readBounded (base : Base) (least greatest : Int) : List Char → Except IntegerFault Int
  | [] => .error .empty
  | [c] =>
    if c = '+' || c = '-' then .error .invalidDigit
    else readDigits base .plus least greatest 0 [c]
  | c :: cs =>
    if c = '+' then readDigits base .plus least greatest 0 cs
    else if c = '-' && least < 0 then readDigits base .minus least greatest 0 cs
    else readDigits base .plus least greatest 0 (c :: cs)

def readInteger (α : Type) [FixedWidth α] (base : Base) (cs : List Char) :
    Except IntegerFault α :=
  (readBounded base (FixedWidth.least α) (FixedWidth.greatest α) cs).map FixedWidth.ofInt

def integerText {α : Type} [FixedWidth α] (n : α) : String :=
  toString (FixedWidth.toInt n)

end ShareWire.Text
