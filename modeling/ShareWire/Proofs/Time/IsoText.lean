import ShareWire.Proofs.Time.HeaderDate
import ShareWire.Proofs.Time.Pattern

/-!
# Internet times and their short forms

Dates with a time of day to the second, an optional fraction of any length and a zone that may be
missing; with a time of day to the minute in universal time; and bare dates. The strict form takes those
with a zone, and for each of the other ones there is a pattern.
-/

namespace ShareWire.Time

/-! ## Counting days -/

/-- A real date has the number that counting from the first of January 1970 gives, on to later dates and
back to earlier ones. -/
inductive DayCount : Date → Int → Prop where
  | epoch : DayCount ⟨1970, 1, 1⟩ 0
  | later {d : Date} {days : Int} : DayCount d days → DayCount d.next (days + 1)
  | earlier {d : Date} {days : Int} : d.Real → DayCount d.next (days + 1) → DayCount d days

theorem DayCount.days_eq {d : Date} {days : Int} (h : DayCount d days) :
    d.Real ∧ days = d.dayNumber := by
  induction h with
  | epoch => decide
  | later _ ih =>
    obtain ⟨hreal, rfl⟩ := ih
    obtain ⟨hnext, hnumber⟩ := hreal.next_spec
    exact ⟨hnext, hnumber.symm⟩
  | earlier hreal _ ih =>
    obtain ⟨_, hdays⟩ := ih
    rw [hreal.next_spec.2] at hdays
    exact ⟨hreal, by omega⟩

theorem dayCount_ofDayNumber (n : Int) : DayCount (.ofDayNumber n) n := by
  induction n using Int.induction_on with
  | zero => exact .epoch
  | succ n ih =>
    rw [Date.ofDayNumber_succ]
    exact .later ih
  | pred n ih =>
    refine .earlier (Date.ofDayNumber_spec _).1 ?_
    rw [← Date.ofDayNumber_succ, Int.sub_add_cancel]
    exact ih

/-- Counting gives a real date one number, its day number. -/
theorem dayCount_iff {d : Date} {days : Int} : DayCount d days ↔ d.Real ∧ days = d.dayNumber := by
  constructor
  · exact DayCount.days_eq
  · intro ⟨hreal, hdays⟩
    have hcount := dayCount_ofDayNumber d.dayNumber
    rwa [hreal.ofDayNumber_dayNumber, ← hdays] at hcount

/-! ## The texts and what they mean -/

/-- The digits behind a decimal point. -/
structure Decimals where
  digits : List Char
  digits_ne_nil : digits ≠ []
  isDigit_of_mem : ∀ c ∈ digits, c.isDigit = true

/-- The fraction that the digits write, in nanoseconds; what is smaller is cut off. -/
def Decimals.nanos (decimals : Decimals) : Nat :=
  Nat.ofDigitChars 10 decimals.digits 0 * 1000000000 / 10 ^ decimals.digits.length

theorem Decimals.nanos_lt (decimals : Decimals) : decimals.nanos < 1000000000 := by
  have hlt := ofDigitChars_lt decimals.isDigit_of_mem
  exact Nat.div_lt_of_lt_mul (Nat.mul_lt_mul_of_pos_right hlt (by decide))

/-- The zone behind a time to the second. -/
inductive Zone where
  | universal
  /-- A distance from universal time, `behind` it or ahead of it. -/
  | distance (behind : Bool) (hours minutes : Fin 100)
  | unwritten

namespace Zone

def chars : Zone → List Char
  | universal => ['Z']
  | distance behind hours minutes =>
    (if behind then '-' else '+') :: ((padded 2 hours).toList ++ ':' :: (padded 2 minutes).toList)
  | unwritten => []

/-- Whether the distance is at most `23:59`, as hours and minutes of a clock are. -/
def Valid : Zone → Prop
  | distance _ hours minutes => hours.val ≤ 23 ∧ minutes.val ≤ 59
  | _ => True

def minutesAhead : Zone → Int
  | distance behind hours minutes =>
    let total : Int := hours.val * 60 + minutes.val
    if behind then -total else total
  | _ => 0

end Zone

/-- What stands behind the date. -/
inductive IsoClock where
  | absent
  /-- The time `Thh:mmZ`. -/
  | toMinute (hour minute : Fin 100)
  /-- The time `Thh:mm:ss` with an optional fraction and a zone. -/
  | toSecond (hour minute second : Fin 100) (fraction : Option Decimals) (zone : Zone)

/-- A text that begins with the date `YYYY-MM-DD`. The numbers of the text are any with as many digits,
whether or not there is such a time. -/
structure IsoText where
  year : Fin 10000
  month : Fin 100
  day : Fin 100
  clock : IsoClock

def fractionChars : Option Decimals → List Char
  | none => []
  | some decimals => '.' :: decimals.digits

def IsoClock.chars : IsoClock → List Char
  | absent => []
  | toMinute hour minute =>
    'T' :: ((padded 2 hour).toList ++ ':' :: ((padded 2 minute).toList ++ ['Z']))
  | toSecond hour minute second fraction zone =>
    'T' :: ((padded 2 hour).toList ++ ':' :: ((padded 2 minute).toList ++
      ':' :: ((padded 2 second).toList ++ (fractionChars fraction ++ zone.chars))))

def IsoClock.fill (fields : Fields) : IsoClock → Fields
  | absent => fields
  | toMinute hour minute => { fields with hour, minute }
  | toSecond hour minute second fraction _ =>
    { fields with hour, minute, second, nanos := (fraction.map Decimals.nanos).getD 0 }

namespace IsoText

def chars (text : IsoText) : List Char :=
  (padded 4 text.year).toList ++ '-' :: ((padded 2 text.month).toList ++
    '-' :: ((padded 2 text.day).toList ++ text.clock.chars))

def zone (text : IsoText) : Zone :=
  match text.clock with
  | .absent => .unwritten
  | .toMinute _ _ => .universal
  | .toSecond _ _ _ _ zone => zone

def dateFields (text : IsoText) : Fields :=
  { year := text.year.val, month := text.month, day := text.day }

/-- The numbers of the text; those that it leaves out are zero. -/
def fields (text : IsoText) : Fields :=
  text.clock.fill text.dateFields

/-- Whether there are such a date, such a time of day and such a distance from universal time. -/
def Valid (text : IsoText) : Prop :=
  text.fields.date.Real ∧ text.fields.hour ≤ 23 ∧ text.fields.minute ≤ 59 ∧
    text.fields.second ≤ 60 ∧ text.zone.Valid

/-- An instant is the one of a text if its seconds are those of the days before the date and of the time
of day, less the distance from universal time. Second 60 is second 59 with a billion more nanoseconds. -/
structure Denotes (text : IsoText) (t : Instant) : Prop where
  seconds : ∃ days, DayCount text.fields.date days ∧
    t.seconds = days * 86400 + text.fields.hour * 3600 + text.fields.minute * 60 +
      (if text.fields.second = 60 then 59 else (text.fields.second : Int)) - text.zone.minutesAhead * 60
  nanos : t.nanos = text.fields.nanos + if text.fields.second = 60 then 1000000000 else 0

end IsoText

/-! ## Scanning the parts -/

theorem scanOptionalFraction_chars (fraction : Option Decimals) {rest : List Char}
    (hstop : ∀ c ∈ rest.head?, c.isDigit = false ∧ c ≠ '.') :
    scanOptionalFraction (fractionChars fraction ++ rest) =
      some ((fraction.map Decimals.nanos).getD 0, rest) := by
  cases fraction with
  | none =>
    cases rest with
    | nil => rfl
    | cons c rest => exact if_neg (hstop c rfl).2
  | some decimals =>
    have hscan := scanFraction_append decimals.digits_ne_nil decimals.isDigit_of_mem
      fun c hc => (hstop c hc).1
    rw [nanosOfDigits_eq decimals.isDigit_of_mem] at hscan
    exact hscan

/-- A zone does not go on with the number before it. -/
theorem Zone.head_chars (zone : Zone) : ∀ c ∈ zone.chars.head?, c.isDigit = false ∧ c ≠ '.' := by
  cases zone with
  | universal => simp [chars]
  | unwritten => simp [chars]
  | distance behind hours minutes => cases behind <;> simp [chars]

/-- The distance from universal time that the strict form finds, which asks for a zone. -/
def Zone.strictOffset? : Zone → Option Int
  | universal => some 0
  | distance behind hours minutes => offsetOf? behind hours minutes
  | unwritten => none

theorem Internet.scanOffset_chars (zone : Zone) :
    scanOffset zone.chars = zone.strictOffset?.map (·, []) := by
  cases zone with
  | universal => rfl
  | unwritten => rfl
  | distance behind hours minutes =>
    have hminutes : scanNumber 2 2 (padded 2 minutes).toList = some (minutes.val, []) := by
      have hscan := scanNumber_two (Nat.le_refl 2) minutes.isLt []
      rwa [List.append_nil] at hscan
    cases hoffset : offsetOf? behind hours minutes with
    | none =>
      rw [Zone.strictOffset?, hoffset]
      cases behind with
      | false | true =>
        refine bind_none (scanNumber_two (by decide) hours.isLt _) (bind_none rfl ?_)
        exact bind_none hminutes (Option.bind_eq_none_iff.2 fun offset h => nomatch hoffset.symm.trans h)
    | some offset =>
      rw [Zone.strictOffset?, hoffset]
      cases behind with
      | false | true =>
        refine bind_some (scanNumber_two (by decide) hours.isLt _) (bind_some rfl ?_)
        exact bind_some hminutes (bind_some hoffset rfl)

/-! ## The pattern of a text -/

namespace Zone

theorem chars_eq_nil_iff (zone : Zone) : zone.chars = [] ↔ zone = .unwritten := by
  cases zone <;> simp [chars]

theorem read_literal_iff (zone : Zone) {fields next : Fields} :
    Pattern.read fields [.literal 'Z'] zone.chars = .ok (next, []) ↔
      zone = .universal ∧ fields = next := by
  cases zone with
  | universal => simp [chars, Pattern.read_literal_cons_iff, Pattern.read_nil_iff]
  | unwritten => simp [chars, Pattern.read_literal_iff]
  | distance behind hours minutes =>
    cases behind <;> simp [chars, Pattern.read_literal_cons_iff]

end Zone

namespace IsoClock

def minuteTail : Pattern :=
  [.literal 'T', .number .hour, .literal ':', .number .minute, .literal 'Z']

def secondTail : Pattern :=
  [.literal 'T', .number .hour, .literal ':', .number .minute, .literal ':', .number .second, .fraction]

def universalTail : Pattern :=
  [.literal 'T', .number .hour, .literal ':', .number .minute, .literal ':', .number .second, .fraction,
    .literal 'Z']

/-- The tails of all patterns, in the order in which these are tried. -/
def tails : List Pattern :=
  [universalTail, secondTail, minuteTail, []]

/-- The tail that takes a clock; there is none for a distance from universal time. -/
def tail? : IsoClock → Option Pattern
  | absent => some []
  | toMinute _ _ => some minuteTail
  | toSecond _ _ _ _ .universal => some universalTail
  | toSecond _ _ _ _ .unwritten => some secondTail
  | toSecond _ _ _ _ (.distance _ _ _) => none

/-- Whether the numbers are ones that their units allow. -/
def Allowed : IsoClock → Prop
  | absent => True
  | toMinute hour minute => TimeUnit.hour.Allows hour ∧ TimeUnit.minute.Allows minute
  | toSecond hour minute second _ _ =>
    TimeUnit.hour.Allows hour ∧ TimeUnit.minute.Allows minute ∧ TimeUnit.second.Allows second

section

variable {fields next : Fields} {tail : Pattern}

theorem read_tail_absent_iff (h : tail ∈ tails) :
    Pattern.read fields tail absent.chars = .ok (next, []) ↔
      absent.tail? = some tail ∧ absent.Allowed ∧ absent.fill fields = next := by
  simp only [tails, List.mem_cons, List.not_mem_nil, or_false] at h
  rcases h with rfl | rfl | rfl | rfl <;>
    simp [chars, tail?, minuteTail, secondTail, universalTail, Allowed, fill, Pattern.read_literal_iff,
      Pattern.read_nil_iff]

theorem read_tail_toMinute_iff (hour minute : Fin 100) (h : tail ∈ tails) :
    Pattern.read fields tail (toMinute hour minute).chars = .ok (next, []) ↔
      (toMinute hour minute).tail? = some tail ∧ (toMinute hour minute).Allowed ∧
        (toMinute hour minute).fill fields = next := by
  have hhour : TimeUnit.hour ≠ .year := by decide
  have hminute : TimeUnit.minute ≠ .year := by decide
  simp only [tails, List.mem_cons, List.not_mem_nil, or_false] at h
  rcases h with rfl | rfl | rfl | rfl <;>
    simp [chars, tail?, minuteTail, secondTail, universalTail, Allowed, fill,
      Pattern.read_literal_cons_iff, Pattern.read_nil_iff, Pattern.read_two_iff hhour hour.isLt,
      Pattern.read_two_iff hminute minute.isLt, TimeUnit.put, and_assoc]

theorem read_tail_toSecond_iff (hour minute second : Fin 100) (fraction : Option Decimals) (zone : Zone)
    (h : tail ∈ tails) :
    Pattern.read fields tail (toSecond hour minute second fraction zone).chars = .ok (next, []) ↔
      (toSecond hour minute second fraction zone).tail? = some tail ∧
        (toSecond hour minute second fraction zone).Allowed ∧
          (toSecond hour minute second fraction zone).fill fields = next := by
  have hhour : TimeUnit.hour ≠ .year := by decide
  have hminute : TimeUnit.minute ≠ .year := by decide
  have hsecond : TimeUnit.second ≠ .year := by decide
  have hfraction := scanOptionalFraction_chars fraction zone.head_chars
  simp only [tails, List.mem_cons, List.not_mem_nil, or_false] at h
  rcases h with rfl | rfl | rfl | rfl <;>
    simp [chars, tail?, minuteTail, secondTail, universalTail, Allowed, fill,
      Pattern.read_literal_cons_iff, Pattern.read_nil_iff, Pattern.read_two_iff hhour hour.isLt,
      Pattern.read_two_iff hminute minute.isLt, Pattern.read_two_iff hsecond second.isLt,
      Pattern.read_fraction_iff, hfraction, zone.read_literal_iff, zone.chars_eq_nil_iff, TimeUnit.put,
      and_assoc] <;>
    cases zone <;> simp

theorem read_tail_iff {clock : IsoClock} (h : tail ∈ tails) :
    Pattern.read fields tail clock.chars = .ok (next, []) ↔
      clock.tail? = some tail ∧ clock.Allowed ∧ clock.fill fields = next := by
  cases clock with
  | absent => exact read_tail_absent_iff h
  | toMinute hour minute => exact read_tail_toMinute_iff hour minute h
  | toSecond hour minute second fraction zone =>
    exact read_tail_toSecond_iff hour minute second fraction zone h

end

end IsoClock

namespace IsoText

variable (text : IsoText)

theorem read_date_iff {more : Pattern} {result : Fields × List Char} :
    Pattern.read {} (Pattern.date ++ more) text.chars = .ok result ↔
      TimeUnit.month.Allows text.month ∧ TimeUnit.day.Allows text.day ∧
        Pattern.read text.dateFields more text.clock.chars = .ok result := by
  have hmonth : TimeUnit.month ≠ .year := by decide
  have hday : TimeUnit.day ≠ .year := by decide
  unfold Pattern.date chars
  simp only [List.cons_append, List.nil_append, Pattern.read_four_iff text.year.isLt,
    Pattern.read_literal_cons_iff, Pattern.read_two_iff hmonth text.month.isLt,
    Pattern.read_two_iff hday text.day.isLt, true_and]
  rfl

variable {text}

/-- Every number of a real time is one that its unit allows. -/
theorem allowed_of_real (h : text.fields.Real) :
    TimeUnit.month.Allows text.month ∧ TimeUnit.day.Allows text.day ∧ text.clock.Allowed := by
  obtain ⟨year, month, day, clock⟩ := text
  obtain ⟨_, _, hdate, hhour, hminute, hsecond⟩ := h
  cases clock with
  | absent => exact ⟨hdate.month_mem, hdate.day_mem, trivial⟩
  | toMinute hour minute => exact ⟨hdate.month_mem, hdate.day_mem, hhour, hminute⟩
  | toSecond hour minute second fraction zone =>
    exact ⟨hdate.month_mem, hdate.day_mem, hhour, hminute, hsecond⟩

/-- A pattern takes the texts that have its tail, and takes them in universal time. -/
theorem instant_tail_iff {tail : Pattern} (h : tail ∈ IsoClock.tails) {t : Instant} :
    (Pattern.date ++ tail).instant text.chars = .ok t ↔
      text.clock.tail? = some tail ∧ text.fields.toInstant? 0 = some t := by
  rw [Pattern.instant_iff]
  constructor
  · intro ⟨next, hread, hinstant⟩
    obtain ⟨_, _, hclock⟩ := text.read_date_iff.1 hread
    obtain ⟨htail, _, rfl⟩ := (IsoClock.read_tail_iff h).1 hclock
    exact ⟨htail, hinstant⟩
  · intro ⟨htail, hinstant⟩
    obtain ⟨hmonth, hday, hallowed⟩ := allowed_of_real (Fields.toInstant?_eq_some_iff.1 hinstant).1
    have hclock : Pattern.read text.dateFields tail text.clock.chars = .ok (text.fields, []) :=
      (IsoClock.read_tail_iff h).2 ⟨htail, hallowed, rfl⟩
    exact ⟨text.fields, text.read_date_iff.2 ⟨hmonth, hday, hclock⟩, hinstant⟩

end IsoText

/-! ## The strict form -/

namespace Internet

variable (text : IsoText)

theorem scanDate_chars : scanDate text.chars = some (text.dateFields, text.clock.chars) := by
  refine bind_some (scanNumber_four (by decide) text.year.isLt _) (bind_some (scanChar_self _ _) ?_)
  refine bind_some (scanNumber_two (by decide) text.month.isLt _) (bind_some (scanChar_self _ _) ?_)
  exact bind_some (scanNumber_two (by decide) text.day.isLt _) rfl

theorem scanClock_toSecond (fields : Fields) (hour minute second : Fin 100) (fraction : Option Decimals)
    (zone : Zone) :
    scanClock fields ((padded 2 hour).toList ++ ':' :: ((padded 2 minute).toList ++
        ':' :: ((padded 2 second).toList ++ (fractionChars fraction ++ zone.chars)))) =
      some ((IsoClock.toSecond hour minute second fraction zone).fill fields, zone.chars) := by
  refine bind_some (scanNumber_two (by decide) hour.isLt _) (bind_some (scanChar_self _ _) ?_)
  refine bind_some (scanNumber_two (by decide) minute.isLt _) (bind_some (scanChar_self _ _) ?_)
  refine bind_some (scanNumber_two (by decide) second.isLt _) ?_
  exact bind_some (scanOptionalFraction_chars fraction zone.head_chars) rfl

theorem scanClock_toMinute (fields : Fields) (hour minute : Fin 100) :
    scanClock fields ((padded 2 hour).toList ++ ':' :: ((padded 2 minute).toList ++ ['Z'])) = none := by
  refine bind_none (scanNumber_two (by decide) hour.isLt _) (bind_none (scanChar_self _ _) ?_)
  exact bind_none (scanNumber_two (by decide) minute.isLt _) rfl

def strictOffset? (text : IsoText) : Option Int :=
  match text.clock with
  | .toSecond _ _ _ _ zone => zone.strictOffset?
  | _ => none

theorem instant?_chars : instant? text.chars = (strictOffset? text).bind text.fields.toInstant? := by
  have hdate := scanDate_chars text
  unfold strictOffset? IsoText.fields
  cases hclock : text.clock with
  | absent =>
    rw [hclock] at hdate
    exact bind_none hdate rfl
  | toMinute hour minute =>
    rw [hclock] at hdate
    have hseparator : scanSeparator (IsoClock.toMinute hour minute).chars =
      some ((padded 2 hour).toList ++ ':' :: ((padded 2 minute).toList ++ ['Z'])) := rfl
    simp only [instant?, Option.bind_eq_bind, hdate, hseparator, scanClock_toMinute, Option.bind_some,
      Option.bind_none]
  | toSecond hour minute second fraction zone =>
    rw [hclock] at hdate
    have hseparator : scanSeparator (IsoClock.toSecond hour minute second fraction zone).chars =
      some ((padded 2 hour).toList ++ ':' :: ((padded 2 minute).toList ++
        ':' :: ((padded 2 second).toList ++ (fractionChars fraction ++ zone.chars)))) := rfl
    simp only [instant?, Option.bind_eq_bind, hdate, hseparator, scanClock_toSecond, scanOffset_chars,
      Option.bind_some]
    cases zone.strictOffset? <;> rfl

end Internet

end ShareWire.Time
