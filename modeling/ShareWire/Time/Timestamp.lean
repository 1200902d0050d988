import ShareWire.Time.Internet
import ShareWire.Time.Mail
import ShareWire.Time.Pattern

/-!
# Timestamps of the service

Listings and headers carry mail times, sometimes with a wrong day of the week; access policies carry
internet times, sometimes without an offset, without seconds, or as a bare date. The forms are tried
in a fixed order, and a text that has none of them is reported as a malformed date.
-/

namespace ShareWire.Time

/-- What stands behind the day of the week in a date header: `01 Jul 2015 08:49:37 GMT`. -/
def Pattern.header : Pattern :=
  [.number .day, .blank, .monthName, .blank, .number .year, .blank, .number .hour, .literal ':',
    .number .minute, .literal ':', .number .second, .blank, .literal 'G', .literal 'M',
    .literal 'T']

def Pattern.date : Pattern :=
  [.number .year, .literal '-', .number .month, .literal '-', .number .day]

def Pattern.toMinute : Pattern :=
  Pattern.date ++ [.literal 'T', .number .hour, .literal ':', .number .minute]

/-- A date and time with an optional fraction: `2015-07-01T08:49:37.5`. -/
def Pattern.toFraction : Pattern :=
  Pattern.toMinute ++ [.literal ':', .number .second, .fraction]

def Pattern.dateTimes : List Pattern :=
  [Pattern.toFraction ++ [.literal 'Z'], Pattern.toFraction, Pattern.toMinute ++ [.literal 'Z']]

def afterCommaSpace : List Char → Option (List Char)
  | [] => none
  | ',' :: ' ' :: rest => some rest
  | _ :: rest => afterCommaSpace rest

/-- The instant of a text in the header form, the day of the week unread. -/
def headerInstant? (cs : List Char) : Option Instant :=
  (afterCommaSpace cs).bind fun rest => (Pattern.header.instant rest).toOption

def timedInstant? (cs : List Char) : Option Instant :=
  (Internet.instant? cs).or <| (Mail.instant? cs).or <| (headerInstant? cs).or <|
    Pattern.dateTimes.findSome? fun pattern => (pattern.instant cs).toOption

/-- The instant that a timestamp denotes, white space around it aside. -/
def Instant.ofText (s : String) : Except PatternFault Instant :=
  let cs := Text.trim s.toList
  match timedInstant? cs with
  | some t => .ok t
  | none => Pattern.date.instant cs

end ShareWire.Time
