import Mathlib.Data.List.DropRight
import ShareWire.Proofs.Time.IsoReading

/-!
# Days of the week in front of one text

A date header whose day of the week is right is read as a mail time, and one whose day is wrong by the
header pattern. The two agree on day, month, clock and zone of all texts that both take, and on years of
four digits; a year of two or three digits is another one for each. Main statement: the day of the week
matters exactly for these years, when it makes a text change from one form to the other.
-/

namespace ShareWire.Time

open Text (isBlank trimStart trimStart_of_head)

/-! ## Mail times behind the day of the week -/

namespace Mail

/-- The fields and the zone of a mail time, day of the week and all that must go with it aside. -/
def fields? (cs : List Char) : Option (Fields × Int) := do
  let (fields, cs) ← scanDate cs
  let (fields, cs) ← scanClock fields cs
  let (offset, cs) ← scanZone cs
  if onlyComments 0 false cs then some (fields, offset) else none

theorem instant?_weekday (day : Weekday) (cs : List Char) :
    instant? (day.abbreviation.toList ++ ',' :: cs) = (fields? cs).bind fun (fields, offset) =>
      if day = .ofDayNumber fields.date.dayNumber then fields.toInstant? offset else none := by
  have hweekday : scanOptionalWeekday (trimStart (day.abbreviation.toList ++ ',' :: cs)) =
      some (some day, cs) := by
    rw [day.isName_abbreviation.trimStart_append, scanOptionalWeekday, scanWeekday_abbreviation]
    rfl
  simp only [instant?, hweekday, fields?, Option.bind_eq_bind, Option.bind_some]
  cases scanDate cs with
  | none => rfl
  | some found =>
    obtain ⟨fields, cs⟩ := found
    simp only [Option.bind_some]
    cases scanClock fields cs with
    | none => rfl
    | some found =>
      obtain ⟨fields, cs⟩ := found
      simp only [Option.bind_some]
      cases scanZone cs with
      | none => rfl
      | some found =>
        obtain ⟨offset, cs⟩ := found
        cases hcomments : onlyComments 0 false cs with
        | false => simp [hcomments]
        | true => simp [hcomments]

end Mail

/-! ## Both forms on one text -/

/-- The digits of the year, behind the digits of the day and the three letters of the month. -/
def yearDigits (cs : List Char) : List Char :=
  (trimStart ((trimStart ((trimStart cs).dropWhile Char.isDigit)).drop 3)).takeWhile Char.isDigit

def Pattern.headerClock : Pattern :=
  [.blank, .number .hour, .literal ':', .number .minute, .literal ':', .number .second, .blank,
    .literal 'G', .literal 'M', .literal 'T']

theorem trimStart_trimStart (cs : List Char) : trimStart (trimStart cs) = trimStart cs :=
  List.dropWhile_idempotent isBlank cs

/-- The header pattern takes at most four digits for the year. -/
theorem scanYear_digits {digits rest : List Char} (hdigits : ∀ c ∈ digits, c.isDigit = true)
    (hne : digits ≠ []) (hstop : ∀ c ∈ rest.head?, c.isDigit = false) :
    Pattern.scanYear (digits ++ rest) =
      .ok ((natOfDigits (digits.take 4) : Int), digits.drop 4 ++ rest) := by
  have hstopFour : (digits.take 4).length = 4 ∨
      ∀ c ∈ (digits.drop 4 ++ rest).head?, c.isDigit = false := by
    by_cases hlength : 4 ≤ digits.length
    · exact .inl (by simp [hlength])
    · rw [List.drop_of_length_le (by omega)]
      exact .inr hstop
  have hnumber : scanNumber 1 4 (digits.take 4 ++ (digits.drop 4 ++ rest)) =
      some (natOfDigits (digits.take 4), digits.drop 4 ++ rest) :=
    scanNumber_append (fun c hc => hdigits c (List.mem_of_mem_take hc))
      (by rw [List.length_take]; have := List.length_pos_iff.2 hne; omega)
      (List.length_take_le _ _) hstopFour
  rw [← List.append_assoc, List.take_append_drop] at hnumber
  obtain ⟨c, more, rfl⟩ := List.exists_cons_of_ne_nil hne
  exact (Pattern.scanYear_of_digit (hdigits c List.mem_cons_self)).trans
    (congrArg _ (Pattern.scanDigits_eq_ok_iff.2 hnumber))

theorem isDigit_of_mem_yearDigits {cs : List Char} : ∀ c ∈ yearDigits cs, c.isDigit = true :=
  fun _ hc => List.mem_takeWhile_imp hc

theorem Mail.eq_of_scanYear {cs rest : List Char} {year : Nat} (h : scanYear cs = some (year, rest)) :
    2 ≤ (cs.takeWhile Char.isDigit).length ∧ year = yearOfDigits (cs.takeWhile Char.isDigit) ∧
      cs = cs.takeWhile Char.isDigit ++ rest := by
  unfold scanYear at h
  simp only at h
  split at h
  · cases h
  · next htwo =>
    cases h
    exact ⟨by omega, rfl, List.takeWhile_append_dropWhile.symm⟩

/-- The parts of a date that the mail form takes. -/
theorem Mail.exists_of_scanDate {cs rest : List Char} {f : Fields}
    (h : scanDate cs = some (f, rest)) : ∃ afterDay afterMonth afterYear,
      scanNumber 1 2 (trimStart cs) = some (f.day, afterDay) ∧
      scanMonth (trimStart afterDay) = some (f.month, afterMonth) ∧
      trimStart afterMonth = yearDigits cs ++ afterYear ∧ 2 ≤ (yearDigits cs).length ∧
      StartsBlank afterYear ∧ trimStart afterYear = rest ∧
      f = { year := yearOfDigits (yearDigits cs), month := f.month, day := f.day } := by
  unfold scanDate at h
  obtain ⟨⟨day, afterDay⟩, hday, h⟩ := Option.bind_eq_some_iff.1 h
  obtain ⟨beforeMonth, hbeforeMonth, h⟩ := Option.bind_eq_some_iff.1 h
  obtain ⟨⟨month, afterMonth⟩, hmonth, h⟩ := Option.bind_eq_some_iff.1 h
  obtain ⟨beforeYear, hbeforeYear, h⟩ := Option.bind_eq_some_iff.1 h
  obtain ⟨⟨year, afterYear⟩, hyear, h⟩ := Option.bind_eq_some_iff.1 h
  obtain ⟨rest', hrest, h⟩ := Option.bind_eq_some_iff.1 h
  cases h
  obtain ⟨hblank, rfl⟩ := scanBlank_eq_some_iff.1 hbeforeMonth
  obtain ⟨hblankMonth, rfl⟩ := scanBlank_eq_some_iff.1 hbeforeYear
  obtain ⟨hblankYear, rfl⟩ := scanBlank_eq_some_iff.1 hrest
  have hdigits : yearDigits cs = (trimStart afterMonth).takeWhile Char.isDigit := by
    obtain ⟨digits, hcs, hall, -⟩ := exists_of_scanNumber hday
    have hdrop := (takeWhile_append_stop hall hblank.stop).2
    rw [yearDigits, hcs, hdrop, drop_of_scanMonth hmonth]
  obtain ⟨htwo, rfl, hsplit⟩ := eq_of_scanYear hyear
  rw [← hdigits] at htwo hsplit ⊢
  exact ⟨afterDay, afterMonth, afterYear, hday, hmonth, hsplit, htwo, hblankYear, rfl, rfl⟩

/-- A date that the mail form takes is taken by the header pattern with the first four digits of the
year. -/
theorem exists_header_of_scanDate {cs rest : List Char} {f : Fields} {result : Fields × List Char}
    (hmail : Mail.scanDate cs = some (f, rest))
    (hheader : Pattern.read {} Pattern.header cs = .ok result) :
    ∃ afterYear, trimStart afterYear = rest ∧ StartsBlank afterYear ∧ 2 ≤ (yearDigits cs).length ∧
      f.year = Mail.yearOfDigits (yearDigits cs) ∧ f.nanos = 0 ∧
      Pattern.read { f with year := natOfDigits ((yearDigits cs).take 4) } Pattern.headerClock
        ((yearDigits cs).drop 4 ++ afterYear) = .ok result := by
  obtain ⟨afterDay, afterMonth, afterYear, hday, hmonth, hsplit, htwo, hblank, hrest, hf⟩ :=
    Mail.exists_of_scanDate hmail
  have hne : yearDigits cs ≠ [] := List.ne_nil_of_length_pos (by omega)
  have hyear := scanYear_digits isDigit_of_mem_yearDigits hne hblank.stop
  rw [← hsplit] at hyear
  have hread : Pattern.read {} (.number .day :: .blank :: .monthName :: .blank :: .number .year ::
      Pattern.headerClock) cs = .ok result := hheader
  obtain ⟨_, _, hnumber, _, hread⟩ := (Pattern.read_short_iff (by decide)).1 hread
  obtain ⟨rfl, rfl⟩ := Prod.mk.inj (Option.some.inj (hday.symm.trans hnumber))
  obtain ⟨_, _, hname, hread⟩ := Pattern.read_monthName_iff.1 (Pattern.read_blank_iff.1 hread)
  obtain ⟨rfl, rfl⟩ := Prod.mk.inj (Option.some.inj (hmonth.symm.trans hname))
  obtain ⟨_, _, _, hscan, hset, hread⟩ := Pattern.read_number_iff.1 (Pattern.read_blank_iff.1 hread)
  rw [trimStart_trimStart] at hscan
  obtain ⟨rfl, rfl⟩ := Prod.mk.inj (Except.ok.inj (hyear.symm.trans hscan))
  obtain ⟨_, rfl⟩ := TimeUnit.set_natCast_iff.1 hset
  rw [hf]
  exact ⟨afterYear, hrest, hblank, htwo, rfl, rfl, hread⟩

/-- More digits than four leave some for the hour, behind which there is then no colon. -/
theorem not_read_headerClock {digits rest : List Char} {f : Fields} {result : Fields × List Char}
    (hdigits : ∀ c ∈ digits, c.isDigit = true) (hne : digits ≠ []) (hblank : StartsBlank rest) :
    Pattern.read f Pattern.headerClock (digits ++ rest) ≠ .ok result := by
  intro hread
  have htrim : trimStart (digits ++ rest) = digits ++ rest := by
    obtain ⟨c, more, rfl⟩ := List.exists_cons_of_ne_nil hne
    refine trimStart_of_head fun b hb => ?_
    obtain rfl := Option.some.inj hb
    exact Text.isBlank_eq_false_of_isDigit (hdigits _ List.mem_cons_self)
  obtain ⟨_, _, hhour, _, hread⟩ :=
    (Pattern.read_short_iff (by decide)).1 (Pattern.read_blank_iff.1 hread)
  obtain ⟨afterColon, rfl, -⟩ := Pattern.read_literal_iff.1 hread
  rw [htrim, htrim] at hhour
  obtain ⟨hourDigits, hsplit, hhourDigits, -⟩ := exists_of_scanNumber hhour
  have hcolon : (digits ++ rest).dropWhile Char.isDigit = ':' :: afterColon := by
    rw [hsplit]
    exact (takeWhile_append_stop hhourDigits (by simp)).2
  have hrest := (takeWhile_append_stop hdigits hblank.stop).2.symm.trans hcolon
  obtain ⟨c, hc, hcblank⟩ := hblank
  rw [hrest] at hc
  obtain rfl := Option.some.inj hc
  cases hcblank

/-- Both forms take the same clock, and the header pattern universal time only. -/
theorem clock_eq_of_header {cs afterYear rest : List Char} {f₀ f g₀ g : Fields}
    (hstart : trimStart afterYear = cs) (hmail : Mail.scanClock f₀ cs = some (f, rest))
    (hheader : Pattern.read g₀ Pattern.headerClock afterYear = .ok (g, [])) :
    rest = ['G', 'M', 'T'] ∧ f = { f₀ with hour := f.hour, minute := f.minute, second := f.second } ∧
      g = { g₀ with hour := f.hour, minute := f.minute, second := f.second } := by
  have htrim : trimStart cs = cs := by
    rw [← hstart, trimStart_trimStart]
  unfold Mail.scanClock at hmail
  obtain ⟨⟨hour, afterHour⟩, hhour, hmail⟩ := Option.bind_eq_some_iff.1 hmail
  obtain ⟨beforeMinute, hcolon, hmail⟩ := Option.bind_eq_some_iff.1 hmail
  obtain ⟨⟨minute, afterMinute⟩, hminute, hmail⟩ := Option.bind_eq_some_iff.1 hmail
  obtain ⟨⟨second, afterSecond⟩, hsecond, hmail⟩ := Option.bind_eq_some_iff.1 hmail
  obtain ⟨rest', hrest, hmail⟩ := Option.bind_eq_some_iff.1 hmail
  cases hmail
  obtain ⟨_, rfl⟩ := scanBlank_eq_some_iff.1 hrest
  rw [scanChar_eq_some_iff] at hcolon
  -- The header pattern takes the numbers one after the other, as the mail form did.
  obtain ⟨_, _, hnumber, _, hread⟩ :=
    (Pattern.read_short_iff (by decide)).1 (Pattern.read_blank_iff.1 hheader)
  rw [hstart, htrim, scanNumber_of_least (by decide) hhour] at hnumber
  obtain ⟨rfl, rfl⟩ := Prod.mk.inj (Option.some.inj hnumber)
  obtain ⟨afterColon, rfl, hread⟩ := Pattern.read_literal_iff.1 hread
  rw [trimStart_colon] at hcolon
  obtain ⟨-, rfl⟩ := List.cons.inj hcolon
  obtain ⟨_, _, hnumber, _, hread⟩ := (Pattern.read_short_iff (by decide)).1 hread
  rw [scanNumber_of_least (by decide) hminute] at hnumber
  obtain ⟨rfl, rfl⟩ := Prod.mk.inj (Option.some.inj hnumber)
  obtain ⟨beforeSecond, rfl, hread⟩ := Pattern.read_literal_iff.1 hread
  rw [Mail.scanOptionalSecond, trimStart_colon, scanChar_self] at hsecond
  obtain ⟨_, _, hnumber, _, hread⟩ := (Pattern.read_short_iff (by decide)).1 hread
  rw [trimStart_of_scanNumber (by decide) hsecond, scanNumber_of_least (by decide) hsecond] at hnumber
  obtain ⟨rfl, rfl⟩ := Prod.mk.inj (Option.some.inj hnumber)
  obtain ⟨afterG, hG, hread⟩ := Pattern.read_literal_iff.1 (Pattern.read_blank_iff.1 hread)
  obtain ⟨afterM, hM, hread⟩ := Pattern.read_literal_iff.1 hread
  obtain ⟨afterT, hT, hread⟩ := Pattern.read_literal_iff.1 hread
  obtain ⟨rfl, rfl⟩ := Prod.mk.inj (Pattern.read_nil_iff.1 hread)
  exact ⟨by rw [hG, hM, hT], rfl, rfl⟩

/-- A text of both forms is in universal time, and both find the same numbers in it but for the year,
which has two to four digits. -/
theorem fields_eq_of_header {cs : List Char} {f g : Fields} {offset : Int}
    (hmail : Mail.fields? cs = some (f, offset))
    (hheader : Pattern.read {} Pattern.header cs = .ok (g, [])) :
    offset = 0 ∧ g = { f with year := natOfDigits (yearDigits cs) } ∧
      f.year = Mail.yearOfDigits (yearDigits cs) ∧ f.nanos = 0 ∧ 2 ≤ (yearDigits cs).length ∧
      (yearDigits cs).length ≤ 4 := by
  unfold Mail.fields? at hmail
  obtain ⟨⟨dateFields, afterDate⟩, hdate, hmail⟩ := Option.bind_eq_some_iff.1 hmail
  obtain ⟨⟨clockFields, afterClock⟩, hclock, hmail⟩ := Option.bind_eq_some_iff.1 hmail
  obtain ⟨⟨zone, afterZone⟩, hzone, hmail⟩ := Option.bind_eq_some_iff.1 hmail
  obtain ⟨afterYear, hstart, hblank, htwo, hyear, hnanos, hread⟩ :=
    exists_header_of_scanDate hdate hheader
  have hfour : (yearDigits cs).length ≤ 4 := by
    by_contra hlong
    exact not_read_headerClock (fun c hc => isDigit_of_mem_yearDigits c (List.mem_of_mem_drop hc))
      (by rw [Ne, List.drop_eq_nil_iff]; omega) hblank hread
  rw [List.drop_of_length_le hfour, List.take_of_length_le hfour, List.nil_append] at hread
  obtain ⟨rfl, hf, hg⟩ := clock_eq_of_header hstart hclock hread
  have hgmt : Mail.scanZone ['G', 'M', 'T'] = some (0, []) := by decide
  obtain ⟨rfl, rfl⟩ := Prod.mk.inj (Option.some.inj (hgmt.symm.trans hzone))
  cases hmail
  rw [hf]
  exact ⟨rfl, hg, hyear, hnanos, htwo, hfour⟩

/-- The two forms mean the same year by its digits if these are four, and else different ones. -/
theorem yearOfDigits_eq_iff {digits : List Char} (htwo : 2 ≤ digits.length) (hfour : digits.length ≤ 4) :
    Mail.yearOfDigits digits = natOfDigits digits ↔ digits.length = 4 := by
  unfold Mail.yearOfDigits
  simp only
  split
  · split <;> omega
  split
  · omega
  · exact iff_of_true rfl (by omega)

theorem yearOfDigits_le {digits : List Char} (hdigits : ∀ c ∈ digits, c.isDigit = true)
    (htwo : 2 ≤ digits.length) (hfour : digits.length ≤ 4) : Mail.yearOfDigits digits ≤ 9999 := by
  have hlt := ofDigitChars_lt hdigits
  rw [← natOfDigits_eq] at hlt
  have hcases : digits.length = 2 ∨ digits.length = 3 ∨ digits.length = 4 := by omega
  unfold Mail.yearOfDigits
  simp only
  rcases hcases with hlength | hlength | hlength
  · rw [hlength] at hlt ⊢
    rw [if_pos rfl]
    split <;> omega
  · rw [hlength] at hlt ⊢
    rw [if_neg (by decide), if_pos rfl]
    omega
  · rw [hlength] at hlt ⊢
    rw [if_neg (by decide), if_neg (by decide)]
    omega

/-- Two times that differ in the year at most are the same exactly if the years are. -/
theorem toInstant?_year_iff {f : Fields} {year : Int} {t u : Instant} (ht : f.toInstant? 0 = some t)
    (hu : Fields.toInstant? { f with year } 0 = some u) : t = u ↔ f.year = year := by
  obtain ⟨⟨_, _, hdate, _⟩, hseconds, _⟩ := Fields.toInstant?_eq_some_iff.1 ht
  obtain ⟨⟨_, _, hdate', _⟩, hseconds', _⟩ := Fields.toInstant?_eq_some_iff.1 hu
  constructor
  · intro heq
    have hnumber : f.date.dayNumber = ({ f with year } : Fields).date.dayNumber := by
      rw [heq, hseconds'] at hseconds
      simp only [Fields.unixSecond] at hseconds
      omega
    exact congrArg Date.year (hdate.eq_of_dayNumber_eq hdate' hnumber)
  · intro heq
    subst heq
    exact Option.some.inj (ht.symm.trans hu)

/-! ## Two days of the week -/

def behindComma (rest : String) : List Char :=
  Text.trimEnd rest.toList

/-- The date behind the comma, as mail times mean its year, falls on this day of the week. -/
def IsMailWeekday (day : Weekday) (rest : String) : Prop :=
  ∃ fields offset, Mail.fields? (behindComma rest) = some (fields, offset) ∧ FallsOn fields.date day

theorem Mail.fields?_space (cs : List Char) : fields? (' ' :: cs) = fields? cs := by
  rw [fields?, fields?, scanDate, scanDate, trimStart_space]

theorem trimStart_weekday (day : Weekday) (rest : String) :
    trimStart (day.abbreviation ++ ", " ++ rest).toList =
      day.abbreviation.toList ++ ',' :: ' ' :: rest.toList := by
  have hcomma : ", ".toList = [',', ' '] := rfl
  have hstart := day.isName_abbreviation.trimStart_append (',' :: ' ' :: rest.toList)
  rw [String.toList_append, String.toList_append, hcomma, List.append_assoc]
  exact hstart

theorem trim_weekday {day : Weekday} {rest : String} (h : behindComma rest ≠ []) :
    Text.trim (day.abbreviation ++ ", " ++ rest).toList =
      day.abbreviation.toList ++ ',' :: ' ' :: behindComma rest := by
  have hend := Text.trimEnd_append_of_ne_nil (day.abbreviation.toList ++ [',', ' ']) h
  rw [List.append_assoc, List.append_assoc] at hend
  rw [Text.trim, trimStart_weekday]
  exact hend

/-- Behind the comma there is more than white space. -/
theorem behindComma_ne_nil {day : Weekday} {rest : String} {t : Instant}
    (ht : Instant.ofText (day.abbreviation ++ ", " ++ rest) = .ok t) : behindComma rest ≠ [] := by
  intro hnil
  have hblank : ∀ c ∈ ' ' :: rest.toList, isBlank c = true := by
    have hdrop : rest.toList.reverse.dropWhile isBlank = [] := List.reverse_eq_nil_iff.1 hnil
    refine List.forall_mem_cons.2 ⟨by decide, fun c hc => ?_⟩
    exact List.dropWhile_eq_nil_iff.1 hdrop c (List.mem_reverse.2 hc)
  have htrim : Text.trim (day.abbreviation ++ ", " ++ rest).toList =
      day.abbreviation.toList ++ [','] := by
    have hend := Text.trimEnd_append_blank (day.abbreviation.toList ++ [',']) hblank
    rw [List.append_assoc] at hend
    rw [Text.trim, trimStart_weekday]
    refine hend.trans (Text.trimEnd_of_getLast ?_)
    simp
    decide
  unfold Instant.ofText at ht
  simp only [htrim] at ht
  cases day <;> cases ht

/-- The instant of a date behind a day of the week: the mail form comes first and asks for the day that is
right, and the header pattern takes any other. -/
theorem ofText_weekday_eq_ok_iff (day : Weekday) {rest : String} (h : behindComma rest ≠ [])
    {t : Instant} :
    Instant.ofText (day.abbreviation ++ ", " ++ rest) = .ok t ↔
      ((Mail.fields? (behindComma rest)).bind fun (fields, offset) =>
        if day = .ofDayNumber fields.date.dayNumber then fields.toInstant? offset else none).or
          (Pattern.header.instant (behindComma rest)).toOption = some t := by
  have hmail := Mail.instant?_weekday day (' ' :: behindComma rest)
  rw [Mail.fields?_space] at hmail
  unfold Instant.ofText
  simp only [trim_weekday h]
  generalize behindComma rest = cs at hmail ⊢
  -- A letter in front is taken by no form but these two.
  have hinternet : Internet.instant? (day.abbreviation.toList ++ ',' :: ' ' :: cs) = none := by
    cases day <;> rfl
  have hheader : afterCommaSpace (day.abbreviation.toList ++ ',' :: ' ' :: cs) = some cs := by
    cases day <;> rfl
  have hpatterns : (Pattern.dateTimes.findSome? fun pattern =>
      (pattern.instant (day.abbreviation.toList ++ ',' :: ' ' :: cs)).toOption) = none := by
    cases day <;> rfl
  have hdate (t : Instant) :
      Pattern.date.instant (day.abbreviation.toList ++ ',' :: ' ' :: cs) ≠ .ok t := by
    cases day <;> exact fun h => nomatch h
  rw [timedInstant?, hinternet, hmail, headerInstant?, hheader, hpatterns, Option.bind_some,
    Option.none_or, Option.or_none]
  cases hfound : Option.or _ _ with
  | some u => simp
  | none => simp [hdate]

/-- What the header pattern takes is a mail time too if its date is one as mail times mean the year. -/
theorem exists_mail_of_header {cs : List Char} {f : Fields} {offset : Int} {t : Instant}
    (hmail : Mail.fields? cs = some (f, offset)) (hdate : f.date.Real)
    (hheader : Pattern.header.instant cs = .ok t) : ∃ u, f.toInstant? offset = some u := by
  obtain ⟨g, hread, hinstant⟩ := Pattern.instant_iff.1 hheader
  obtain ⟨rfl, rfl, hyear, hnanos, htwo, hfour⟩ := fields_eq_of_header hmail hread
  obtain ⟨⟨_, _, _, hclock⟩, _⟩ := Fields.toInstant?_eq_some_iff.1 hinstant
  have hle := yearOfDigits_le isDigit_of_mem_yearDigits htwo hfour
  have hrange : leastYear ≤ f.year ∧ f.year ≤ greatestYear := by
    unfold leastYear greatestYear
    omega
  exact Fields.exists_toInstant? ⟨hrange.1, hrange.2, hdate, hclock⟩ (by omega) (by omega) (by decide)

/-- A text with a day of the week is read as a mail time if the day is right, and else by the header
pattern. -/
theorem ofText_weekday_cases {day : Weekday} {rest : String} {t : Instant}
    (ht : Instant.ofText (day.abbreviation ++ ", " ++ rest) = .ok t) :
    (IsMailWeekday day rest ∧ ∃ fields offset,
      Mail.fields? (behindComma rest) = some (fields, offset) ∧ fields.toInstant? offset = some t) ∨
    (¬ IsMailWeekday day rest ∧ Pattern.header.instant (behindComma rest) = .ok t) := by
  have hcases := (ofText_weekday_eq_ok_iff day (behindComma_ne_nil ht)).1 ht
  rcases Option.or_eq_some_iff.1 hcases with hmail | ⟨hmail, hheader⟩
  · obtain ⟨⟨fields, offset⟩, hfields, hinstant⟩ := Option.bind_eq_some_iff.1 hmail
    simp only at hinstant
    split at hinstant
    · next hday =>
      obtain ⟨_, _, hdate, _⟩ := (Fields.toInstant?_eq_some_iff.1 hinstant).1
      have hright : IsMailWeekday day rest := ⟨fields, offset, hfields, fallsOn_iff.2 ⟨hdate, hday⟩⟩
      exact .inl ⟨hright, fields, offset, hfields, hinstant⟩
    · cases hinstant
  · have hheader : Pattern.header.instant (behindComma rest) = .ok t := by
      cases hresult : Pattern.header.instant (behindComma rest) with
      | error fault => rw [hresult] at hheader; cases hheader
      | ok u => rw [hresult] at hheader; cases hheader; rfl
    refine .inr ⟨?_, hheader⟩
    intro ⟨fields, offset, hfields, hfalls⟩
    obtain ⟨hdate, hday⟩ := fallsOn_iff.1 hfalls
    obtain ⟨u, hu⟩ := exists_mail_of_header hfields hdate hheader
    rw [hfields, Option.bind_some] at hmail
    simp only [if_pos hday, hu] at hmail
    cases hmail

/-- Read once as a mail time and once by the header pattern, a text gives the same instant exactly if its
year has four digits. -/
theorem eq_iff_of_mail_of_header {cs : List Char} {f : Fields} {offset : Int} {t u : Instant}
    (hmail : Mail.fields? cs = some (f, offset)) (ht : f.toInstant? offset = some t)
    (hu : Pattern.header.instant cs = .ok u) :
    t = u ↔ ¬ ((yearDigits cs).length = 2 ∨ (yearDigits cs).length = 3) := by
  obtain ⟨g, hread, hinstant⟩ := Pattern.instant_iff.1 hu
  obtain ⟨rfl, rfl, hyear, _, htwo, hfour⟩ := fields_eq_of_header hmail hread
  rw [toInstant?_year_iff ht hinstant, hyear, Int.natCast_inj, yearOfDigits_eq_iff htwo hfour]
  omega

/-- Two days of the week in front of one text give the same instant exactly if its year has neither two
digits nor three, or both of them are the day of the date as mail times mean it, or neither is. -/
theorem ofText_weekday_iff {v w : Weekday} {rest : String} {t u : Instant}
    (ht : Instant.ofText (v.abbreviation ++ ", " ++ rest) = .ok t)
    (hu : Instant.ofText (w.abbreviation ++ ", " ++ rest) = .ok u) :
    t = u ↔ ((yearDigits (behindComma rest)).length = 2 ∨ (yearDigits (behindComma rest)).length = 3 →
      (IsMailWeekday v rest ↔ IsMailWeekday w rest)) := by
  rcases ofText_weekday_cases ht with ⟨hv, f, offset, hf, ht⟩ | ⟨hv, ht⟩
  all_goals rcases ofText_weekday_cases hu with ⟨hw, g, offset', hg, hu⟩ | ⟨hw, hu⟩
  · obtain ⟨rfl, rfl⟩ := Prod.mk.inj (Option.some.inj (hf.symm.trans hg))
    exact iff_of_true (Option.some.inj (ht.symm.trans hu)) fun _ => iff_of_true hv hw
  · have hdiffer : ¬ (IsMailWeekday v rest ↔ IsMailWeekday w rest) := fun h => hw (h.1 hv)
    rw [eq_iff_of_mail_of_header hf ht hu]
    exact ⟨fun hlength hshort => absurd hshort hlength, fun h hshort => hdiffer (h hshort)⟩
  · have hdiffer : ¬ (IsMailWeekday v rest ↔ IsMailWeekday w rest) := fun h => hv (h.2 hw)
    rw [eq_comm, eq_iff_of_mail_of_header hg hu ht]
    exact ⟨fun hlength hshort => absurd hshort hlength, fun h hshort => hdiffer (h hshort)⟩
  · exact iff_of_true (Except.ok.inj (ht.symm.trans hu)) fun _ => iff_of_false hv hw

/-- A Wednesday, under its name and under that of the day after it. -/
theorem ofText_weekday_iff_fourDigits : ∃ t u,
    Instant.ofText (Weekday.wednesday.abbreviation ++ ", " ++ "01 Jul 2015 08:49:37 GMT") = .ok t ∧
    Instant.ofText (Weekday.thursday.abbreviation ++ ", " ++ "01 Jul 2015 08:49:37 GMT") = .ok u ∧
    t = u := by
  let t : Instant := ⟨1435740577, 0, by decide, by decide, by decide⟩
  let rest : String := "01 Jul 2015 08:49:37 GMT"
  have ht : Instant.ofText (Weekday.wednesday.abbreviation ++ ", " ++ rest) = .ok t := by
    decide +kernel
  have hu : Instant.ofText (Weekday.thursday.abbreviation ++ ", " ++ rest) = .ok t := by
    decide +kernel
  have hfour : (yearDigits (behindComma rest)).length = 4 := by decide +kernel
  exact ⟨t, t, ht, hu, (ofText_weekday_iff ht hu).2 fun hshort => by omega⟩

/-- The same with a year of two digits, which is 2015 as a mail time and 15 by the header pattern. -/
theorem ofText_weekday_twoDigits : ∃ t u,
    Instant.ofText (Weekday.wednesday.abbreviation ++ ", " ++ "01 Jul 15 08:49:37 GMT") = .ok t ∧
    Instant.ofText (Weekday.thursday.abbreviation ++ ", " ++ "01 Jul 15 08:49:37 GMT") = .ok u ∧
    t ≠ u := by
  let t : Instant := ⟨1435740577, 0, by decide, by decide, by decide⟩
  let u : Instant := ⟨-61678163423, 0, by decide, by decide, by decide⟩
  have hmail : Instant.ofText "Wed, 01 Jul 15 08:49:37 GMT" = .ok t := by decide +kernel
  have hheader : Instant.ofText "Thu, 01 Jul 15 08:49:37 GMT" = .ok u := by decide +kernel
  exact ⟨t, u, hmail, hheader, by decide⟩

end ShareWire.Time
