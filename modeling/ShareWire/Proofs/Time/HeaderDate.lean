import ShareWire.Proofs.Time.Weekday
import ShareWire.Proofs.Time.Year

/-!
# Reading written header dates

The date header of an instant denotes the second that clocks show at that instant. Years of four digits
make it a mail time; a year with a sign is no mail time, and what stands behind the day of the week is
then read by the header pattern.
-/

namespace ShareWire.Time

open Text (isBlank trimStart trimStart_of_head)

theorem bind_none {α β : Type} {x : Option α} {f : α → Option β} {a : α} (hx : x = some a)
    (hf : f a = none) : x >>= f = none := by
  rw [hx]
  exact hf

/-! ## Names of days and months -/

structure IsName (cs : List Char) : Prop where
  length : cs.length = 3
  letters : ∀ c ∈ cs, c.isAlpha = true

instance (cs : List Char) : Decidable (IsName cs) :=
  decidable_of_iff (cs.length = 3 ∧ cs.all Char.isAlpha = true)
    ⟨fun h => ⟨h.1, List.all_eq_true.1 h.2⟩, fun h => ⟨h.1, List.all_eq_true.2 h.2⟩⟩

theorem Weekday.isName_abbreviation (day : Weekday) : IsName day.abbreviation.toList := by
  cases day <;> decide

theorem month_cases {month : Nat} (h : 1 ≤ month ∧ month ≤ 12) : month = 1 ∨ month = 2 ∨ month = 3 ∨
    month = 4 ∨ month = 5 ∨ month = 6 ∨ month = 7 ∨ month = 8 ∨ month = 9 ∨ month = 10 ∨
    month = 11 ∨ month = 12 := by
  omega

theorem isName_monthAbbreviation {month : Nat} (h : 1 ≤ month ∧ month ≤ 12) :
    IsName (monthAbbreviation month).toList := by
  rcases month_cases h with rfl | rfl | rfl | rfl | rfl | rfl | rfl | rfl | rfl | rfl | rfl | rfl <;>
    decide

theorem toNat_of_isAlpha {c : Char} (h : c.isAlpha = true) :
    65 ≤ c.toNat ∧ c.toNat ≤ 90 ∨ 97 ≤ c.toNat ∧ c.toNat ≤ 122 := by
  have hcases : (decide (65 ≤ c.val ∧ c.val ≤ 90) || decide (97 ≤ c.val) && decide (c.val ≤ 122)) =
      true := h
  simpa [UInt32.le_iff_toNat_le] using hcases

theorem isBlank_eq_false_of_isAlpha {c : Char} (h : c.isAlpha = true) : isBlank c = false := by
  have hrange := toNat_of_isAlpha h
  exact Text.isBlank_eq_false_of_graphic (by omega) (by omega)

theorem IsName.trimStart_append {cs : List Char} (h : IsName cs) (rest : List Char) :
    trimStart (cs ++ rest) = cs ++ rest := by
  obtain ⟨c, more, rfl⟩ := List.exists_cons_of_length_pos (by rw [h.length]; decide)
  refine trimStart_of_head fun d hd => ?_
  obtain rfl := Option.some.inj hd
  exact isBlank_eq_false_of_isAlpha (h.letters _ (by simp))

theorem scanWeekday_abbreviation (day : Weekday) (rest : List Char) :
    scanWeekday (day.abbreviation.toList ++ rest) = some (day, rest) := by
  cases day <;> rfl

theorem scanMonth_abbreviation {month : Nat} (h : 1 ≤ month ∧ month ≤ 12) (rest : List Char) :
    scanMonth ((monthAbbreviation month).toList ++ rest) = some (month, rest) := by
  rcases month_cases h with rfl | rfl | rfl | rfl | rfl | rfl | rfl | rfl | rfl | rfl | rfl | rfl <;>
    rfl

theorem trimStart_space (rest : List Char) : trimStart (' ' :: rest) = trimStart rest :=
  List.dropWhile_cons_of_pos (by decide)

theorem trimStart_colon (rest : List Char) : trimStart (':' :: rest) = ':' :: rest :=
  List.dropWhile_cons_of_neg (by decide)

theorem scanBlank_space {rest : List Char} (h : trimStart rest = rest) :
    scanBlank (' ' :: rest) = some rest := by
  rw [scanBlank, if_pos (by decide), h]

theorem scanChar_self (c : Char) (rest : List Char) : scanChar c (c :: rest) = some rest :=
  if_pos rfl

/-! ## Written header dates -/

namespace Instant

def headerClock (t : Instant) : List Char :=
  (padded 2 t.hour).toList ++ ':' :: ((padded 2 t.minute).toList ++
    ':' :: ((padded 2 t.second).toList ++ [' ', 'G', 'M', 'T']))

def behindMonth (t : Instant) : List Char :=
  (yearText t.date.year).toList ++ ' ' :: t.headerClock

def behindWeekday (t : Instant) : List Char :=
  (padded 2 t.date.day).toList ++ ' ' :: ((monthAbbreviation t.date.month).toList ++
    ' ' :: t.behindMonth)

theorem httpDate_toList (t : Instant) :
    t.httpDate.toList = t.weekday.abbreviation.toList ++ ',' :: ' ' :: t.behindWeekday := by
  have hcomma : ", ".toList = [',', ' '] := rfl
  have hspace : " ".toList = [' '] := rfl
  have hcolon : ":".toList = [':'] := rfl
  have hzone : " GMT".toList = [' ', 'G', 'M', 'T'] := rfl
  simp only [httpDate, clockText, behindWeekday, behindMonth, headerClock, String.toList_append, hcomma,
    hspace, hcolon, hzone, List.append_assoc, List.cons_append, List.nil_append]

theorem trimStart_headerClock (t : Instant) : trimStart t.headerClock = t.headerClock :=
  trimStart_padded 2 t.hour _

theorem trimStart_behindWeekday (t : Instant) : trimStart t.behindWeekday = t.behindWeekday :=
  trimStart_padded 2 t.date.day _

theorem dayNumber_date (t : Instant) : t.date.dayNumber = t.seconds / 86400 :=
  (Date.ofDayNumber_spec _).2

/-- The day of the week of an instant is that on which its date falls. -/
theorem fallsOn_date_iff {t : Instant} {day : Weekday} : FallsOn t.date day ↔ day = t.weekday := by
  have hreal : t.date.Real := (Date.ofDayNumber_spec _).1
  rw [fallsOn_iff, t.dayNumber_date]
  exact and_iff_right hreal

end Instant

/-! ## Years of four digits -/

namespace Mail

theorem scanYear_padded {n : Nat} (hn : n < 10000) {rest : List Char}
    (h : ∀ c ∈ rest.head?, c.isDigit = false) :
    scanYear ((padded 4 n).toList ++ rest) = some (n, rest) := by
  have hdigits : ∀ c ∈ (padded 4 n).toList, c.isDigit = true := fun _ => isDigit_of_mem_padded
  have hlength : (padded 4 n).toList.length = 4 :=
    length_padded ((Nat.length_toDigits_le_iff (by decide) (by decide)).2 hn)
  have hyear : yearOfDigits (padded 4 n).toList = n := by
    rw [yearOfDigits, hlength, natOfDigits_padded]
    rfl
  obtain ⟨htake, hdrop⟩ := takeWhile_append_stop hdigits h
  rw [scanYear, htake, hdrop, hyear, hlength]
  rfl

variable {t : Instant}

theorem scanDate_behindWeekday (h : 0 ≤ t.date.year ∧ t.date.year ≤ 9999) :
    scanDate (' ' :: t.behindWeekday) =
      some ({ year := t.date.year, month := t.date.month, day := t.date.day }, t.headerClock) := by
  have hmonth := t.month_mem
  have hday := t.day_mem
  have hyear : (t.date.year.toNat : Int) = t.date.year := Int.toNat_of_nonneg h.1
  have hname := (isName_monthAbbreviation hmonth).trimStart_append (' ' :: t.behindMonth)
  have hbehind : t.behindMonth = (padded 4 t.date.year.toNat).toList ++ ' ' :: t.headerClock := by
    rw [Instant.behindMonth, yearText, if_pos h]
  have hstart : trimStart (' ' :: t.behindWeekday) = t.behindWeekday :=
    (trimStart_space _).trans t.trimStart_behindWeekday
  rw [← hyear, scanDate, hstart]
  refine bind_some (scanNumber_two (by decide) (by omega) _) ?_
  refine bind_some (scanBlank_space hname) (bind_some (scanMonth_abbreviation hmonth _) ?_)
  rw [hbehind]
  refine bind_some (scanBlank_space (trimStart_padded 4 _ _)) ?_
  refine bind_some (scanYear_padded (by omega) (by simp)) ?_
  exact bind_some (scanBlank_space t.trimStart_headerClock) rfl

theorem scanOptionalSecond_colon {n : Nat} (h : n < 100) (rest : List Char) :
    scanOptionalSecond (':' :: ((padded 2 n).toList ++ rest)) = some (n, rest) := by
  rw [scanOptionalSecond, trimStart_colon, scanChar_self]
  exact scanNumber_two (by decide) h rest

theorem scanClock_headerClock (t : Instant) (fields : Fields) :
    scanClock fields t.headerClock = some ({ fields with
      hour := t.hour, minute := t.minute, second := t.second }, ['G', 'M', 'T']) := by
  have hhour := t.hour_le
  have hminute := t.minute_le
  have hsecond := t.second_le.1
  have hcolon (rest : List Char) : scanChar ':' (trimStart (':' :: rest)) = some rest := by
    rw [trimStart_colon, scanChar_self]
  have hnumber {n : Nat} (hn : n < 100) (rest : List Char) :
      scanNumber 2 2 (trimStart ((padded 2 n).toList ++ rest)) = some (n, rest) := by
    rw [trimStart_padded]
    exact scanNumber_two (by decide) hn rest
  refine bind_some (scanNumber_two (by decide) (by omega) _) (bind_some (hcolon _) ?_)
  refine bind_some (hnumber (by omega) _) (bind_some (scanOptionalSecond_colon (by omega) _) ?_)
  exact bind_some (scanBlank_space rfl) rfl

theorem scanOptionalWeekday_httpDate (t : Instant) :
    scanOptionalWeekday (trimStart t.httpDate.toList) =
      some (some t.weekday, ' ' :: t.behindWeekday) := by
  rw [t.httpDate_toList, t.weekday.isName_abbreviation.trimStart_append, scanOptionalWeekday,
    scanWeekday_abbreviation]
  rfl

theorem instant?_httpDate (h : 0 ≤ t.date.year ∧ t.date.year ≤ 9999) :
    instant? t.httpDate.toList = some t.toSecond := by
  have hweekday : t.weekday = .ofDayNumber t.fields.date.dayNumber :=
    congrArg Weekday.ofDayNumber t.dayNumber_date.symm
  refine bind_some (scanOptionalWeekday_httpDate t) (bind_some (scanDate_behindWeekday h) ?_)
  refine bind_some (scanClock_headerClock t _) (bind_some (show scanZone _ = some (0, []) from rfl) ?_)
  exact (if_pos ⟨rfl, decide_eq_true hweekday⟩).trans t.toInstant?_fields

/-! ## Years with a sign -/

theorem scanYear_signed (year : Int) (rest : List Char) : scanYear (yearSign year :: rest) = none := by
  rcases yearSign_cases year with hsign | hsign <;> rw [hsign] <;> rfl

end Mail

variable {t : Instant}

theorem Instant.behindMonth_signed (h : ¬ (0 ≤ t.date.year ∧ t.date.year ≤ 9999)) :
    t.behindMonth =
      yearSign t.date.year :: ((padded 4 t.date.year.natAbs).toList ++ ' ' :: t.headerClock) := by
  rw [behindMonth, yearText_toList h]
  rfl

/-- The mail form reads on to the sign and gives up there. -/
theorem Mail.instant?_httpDate_signed (h : ¬ (0 ≤ t.date.year ∧ t.date.year ≤ 9999)) :
    instant? t.httpDate.toList = none := by
  have hmonth := t.month_mem
  have hday := t.day_mem
  have hname := (isName_monthAbbreviation hmonth).trimStart_append (' ' :: t.behindMonth)
  have hstart : trimStart (' ' :: t.behindWeekday) = t.behindWeekday :=
    (trimStart_space _).trans t.trimStart_behindWeekday
  have hdate : scanDate (' ' :: t.behindWeekday) = none := by
    rw [scanDate, hstart]
    refine bind_none (scanNumber_two (by decide) (by omega) _) ?_
    refine bind_none (scanBlank_space hname) (bind_none (scanMonth_abbreviation hmonth _) ?_)
    rw [t.behindMonth_signed h]
    refine bind_none (scanBlank_space (trimStart_yearSign _ _)) ?_
    rw [scanYear_signed]
    rfl
  refine bind_none (scanOptionalWeekday_httpDate t) ?_
  simp only [hdate]
  rfl

namespace Pattern

theorem read_blank_space_iff {pattern : Pattern} {fields : Fields} {result : Fields × List Char}
    {rest : List Char} (h : trimStart rest = rest) :
    read fields (.blank :: pattern) (' ' :: rest) = .ok result ↔
      read fields pattern rest = .ok result := by
  rw [read_blank_iff, trimStart_space, h]

theorem read_header (h : ¬ (0 ≤ t.date.year ∧ t.date.year ≤ 9999)) :
    read {} header t.behindWeekday = .ok (t.fields, []) := by
  have hyear := t.year_mem
  have hmonth := t.month_mem
  have hday := t.day_mem
  have hhour := t.hour_le
  have hminute := t.minute_le
  have hsecond := t.second_le.1
  have hname := (isName_monthAbbreviation hmonth).trimStart_append (' ' :: t.behindMonth)
  unfold leastYear greatestYear at hyear
  refine (read_two_iff (by decide) (by omega)).2 ⟨hday, ?_⟩
  refine (read_blank_space_iff hname).2 ?_
  refine read_monthName_iff.2 ⟨_, _, scanMonth_abbreviation hmonth _, ?_⟩
  rw [t.behindMonth_signed h]
  refine (read_blank_space_iff (trimStart_yearSign _ _)).2 ?_
  refine (read_signed_iff (by omega) (by simp)).2 ?_
  refine (read_blank_space_iff t.trimStart_headerClock).2 ?_
  refine (read_two_iff (by decide) (by omega)).2 ⟨hhour, ?_⟩
  refine read_literal_cons_iff.2 ⟨rfl, ?_⟩
  refine (read_two_iff (by decide) (by omega)).2 ⟨hminute, ?_⟩
  refine read_literal_cons_iff.2 ⟨rfl, ?_⟩
  refine (read_two_iff (by decide) (by omega)).2 ⟨hsecond, ?_⟩
  rfl

end Pattern

theorem headerInstant?_httpDate (h : ¬ (0 ≤ t.date.year ∧ t.date.year ≤ 9999)) :
    headerInstant? t.httpDate.toList = some t.toSecond := by
  have hbehind : afterCommaSpace t.httpDate.toList = some t.behindWeekday := by
    rw [t.httpDate_toList]
    cases t.weekday <;> rfl
  have hinstant : Pattern.header.instant t.behindWeekday = .ok t.toSecond := by
    rw [Pattern.instant, Pattern.read_header h]
    simp only [bind, Except.bind, List.isEmpty_nil, if_true, t.toInstant?_fields]
  rw [headerInstant?, hbehind, Option.bind_some, hinstant]
  rfl

/-! ## All years -/

namespace Instant

theorem trim_httpDate (t : Instant) : Text.trim t.httpDate.toList = t.httpDate.toList := by
  have hlast : t.httpDate.toList.getLast? = some 'T' := by
    simp [httpDate_toList, behindWeekday, behindMonth, headerClock, List.getLast?_append,
      List.getLast?_cons]
  have hstart : trimStart t.httpDate.toList = t.httpDate.toList := by
    rw [httpDate_toList]
    exact t.weekday.isName_abbreviation.trimStart_append _
  have hend : ∀ c ∈ t.httpDate.toList.getLast?, isBlank c = false := by
    intro c hc
    obtain rfl : 'T' = c := Option.some.inj (hlast.symm.trans hc)
    decide
  rw [Text.trim, hstart, Text.trimEnd_of_getLast hend]

/-- The date header of an instant is read as the second that clocks show, in every year that there is. -/
theorem ofText_httpDate (t : Instant) : ofText t.httpDate = .ok t.toSecond := by
  have hinternet : Internet.instant? t.httpDate.toList = none := by
    rw [httpDate_toList]
    cases t.weekday <;> rfl
  have htimed : timedInstant? t.httpDate.toList = some t.toSecond := by
    by_cases h : 0 ≤ t.date.year ∧ t.date.year ≤ 9999
    · rw [timedInstant?, hinternet, Mail.instant?_httpDate h]
      rfl
    · rw [timedInstant?, hinternet, Mail.instant?_httpDate_signed h, headerInstant?_httpDate h]
      rfl
  unfold ofText
  simp only [t.trim_httpDate, htimed]

end Instant

/-! ## Form -/

/-- The digit of a number that counts multiples of `place`, a power of ten. -/
def digit (place n : Nat) : Char :=
  Nat.digitChar (n / place % 10)

/-- The form `Www, dd Mmm yyyy hh:mm:ss GMT`, in which every number has its full width. -/
def Fields.headerForm (f : Fields) (day : Weekday) : List Char :=
  day.abbreviation.toList ++ [',', ' ', digit 10 f.day, digit 1 f.day, ' '] ++
    (monthAbbreviation f.month).toList ++
    [' ', digit 1000 f.year.toNat, digit 100 f.year.toNat, digit 10 f.year.toNat,
      digit 1 f.year.toNat, ' ', digit 10 f.hour, digit 1 f.hour, ':', digit 10 f.minute,
      digit 1 f.minute, ':', digit 10 f.second, digit 1 f.second, ' ', 'G', 'M', 'T']

theorem padded_two {n : Nat} (h : n < 100) : (padded 2 n).toList = [digit 10 n, digit 1 n] := by
  have htens : n / 10 < 10 := by omega
  rw [padded_succ (by decide), padded_one htens, digit, digit, Nat.mod_eq_of_lt htens, Nat.div_one]
  rfl

theorem padded_four {n : Nat} (h : n < 10000) :
    (padded 4 n).toList = [digit 1000 n, digit 100 n, digit 10 n, digit 1 n] := by
  rw [padded_succ (by decide), padded_succ (by decide), padded_two (by omega)]
  simp [digit, Nat.div_div_eq_div_mul]

namespace Instant

variable {t : Instant}

theorem httpDate_eq_headerForm (h : 0 ≤ t.date.year ∧ t.date.year ≤ 9999) :
    t.httpDate.toList = t.fields.headerForm t.weekday := by
  have hday := t.day_mem
  have hhour := t.hour_le
  have hminute := t.minute_le
  have hsecond := t.second_le.1
  rw [httpDate_toList, behindWeekday, behindMonth, headerClock, yearText, if_pos h,
    padded_four (by omega), padded_two (by omega), padded_two (by omega), padded_two (by omega),
    padded_two (by omega)]
  simp only [Fields.headerForm, fields, List.append_assoc, List.cons_append, List.nil_append]

theorem length_headerForm (t : Instant) : (t.fields.headerForm t.weekday).length = 29 := by
  have hday := t.weekday.isName_abbreviation.length
  have hmonth : (monthAbbreviation t.fields.month).toList.length = 3 :=
    (isName_monthAbbreviation t.month_mem).length
  simp only [Fields.headerForm, List.length_append, List.length_cons, List.length_nil, hday, hmonth]

/-- Letters, digits, signs, colons, spaces and a comma are all that is written in a header date. -/
theorem mem_httpDate {c : Char} (h : c ∈ t.httpDate.toList) :
    c.isAlpha = true ∨ c.isDigit = true ∨ c ∈ [',', ' ', ':', '+', '-'] := by
  have hday := t.weekday.isName_abbreviation.letters
  have hmonth := (isName_monthAbbreviation t.month_mem).letters
  simp only [httpDate_toList, behindWeekday, behindMonth, headerClock, List.mem_append,
    List.mem_cons, List.not_mem_nil, or_false] at h
  rcases h with h | rfl | rfl | h | rfl | h | rfl | h | rfl | h | rfl | h | rfl | h | rfl | rfl | rfl | rfl
  case inl => exact .inl (hday c h)
  case inr.inr.inr.inr.inr.inl => exact .inl (hmonth c h)
  case inr.inr.inr.inr.inr.inr.inr.inl =>
    rcases mem_yearText h with hdigit | rfl | rfl
    · exact .inr (.inl hdigit)
    · exact .inr (.inr (by decide))
    · exact .inr (.inr (by decide))
  all_goals first | exact .inr (.inl (isDigit_of_mem_padded h)) | decide

/-- A header date is visible ASCII, with spaces. -/
theorem visible_of_mem_httpDate {c : Char} (h : c ∈ t.httpDate.toList) : ' ' ≤ c ∧ c ≤ '~' := by
  have hrange : 0x20 ≤ c.toNat ∧ c.toNat ≤ 0x7E := by
    rcases mem_httpDate h with hletter | hdigit | hmark
    · have hrange := toNat_of_isAlpha hletter
      omega
    · have hdigit := Char.isDigit_iff_toNat.1 hdigit
      simp only [Char.reduceToNat] at hdigit
      omega
    · simp only [List.mem_cons, List.not_mem_nil, or_false] at hmark
      rcases hmark with rfl | rfl | rfl | rfl | rfl <;> decide
  exact hrange

end Instant

end ShareWire.Time
