import ShareWire.Proofs.Time.IsoText

/-!
# Reading internet times and their short forms

No mail time and no header date begins as these texts do, so the strict form and the patterns decide.
Main statement: such a text is read exactly if it names a date, a time of day and a distance from
universal time that there are, and the instant is then the one that the days counted from the first of
January 1970, the time of day and the distance give.
-/

namespace ShareWire.Time

open Text (isBlank trimStart trimStart_of_head lowerAscii equalsIgnoringCase)

/-! ## Forms that begin otherwise -/

theorem lowerAscii_of_isDigit {c : Char} (h : c.isDigit = true) : lowerAscii c = c := by
  have hrange := Char.isDigit_iff_toNat.1 h
  simp only [Char.reduceToNat] at hrange
  refine if_neg fun hupper => ?_
  have hletter : 'A' ≤ c := by simpa using (Bool.and_eq_true_iff.1 hupper).1
  have hcode : 65 ≤ c.toNat := hletter
  omega

theorem scanWeekday_of_isDigit {c : Char} (h : c.isDigit = true) (rest : List Char) :
    scanWeekday (c :: rest) = none := by
  rw [scanWeekday, Option.map_eq_none_iff, List.find?_eq_none]
  intro day _ heq
  rw [List.take_succ_cons, equalsIgnoringCase, beq_iff_eq, List.map_cons, lowerAscii_of_isDigit h] at heq
  have hhead : c = lowerAscii (day.abbreviation.toList.headD ' ') := by
    cases day <;> exact (List.cons.inj heq).1
  rw [hhead] at h
  cases day <;> cases h

/-- A mail time has at most two digits in front, and a blank behind them. -/
theorem Mail.instant?_of_three_digits {c d e : Char} (hc : c.isDigit = true) (hd : d.isDigit = true)
    (he : e.isDigit = true) (rest : List Char) : instant? (c :: d :: e :: rest) = none := by
  have htrim : trimStart (c :: d :: e :: rest) = c :: d :: e :: rest := by
    refine trimStart_of_head fun b hb => ?_
    obtain rfl := Option.some.inj hb
    exact Text.isBlank_eq_false_of_isDigit hc
  have hweekday : scanOptionalWeekday (trimStart (c :: d :: e :: rest)) =
      some (none, c :: d :: e :: rest) := by
    rw [htrim, scanOptionalWeekday, scanWeekday_of_isDigit hc]
  have hday : scanNumber 1 2 ([c, d] ++ e :: rest) = some (natOfDigits [c, d], e :: rest) :=
    scanNumber_append (by simp [hc, hd]) (by simp) (by simp) (.inl rfl)
  have hblank : scanBlank (e :: rest) = none :=
    if_neg (by rw [Text.isBlank_eq_false_of_isDigit he]; decide)
  have hdate : scanDate (c :: d :: e :: rest) = none := by
    rw [scanDate, htrim]
    exact bind_none hday (by simp only [hblank]; rfl)
  refine bind_none hweekday ?_
  simp only [hdate]
  rfl

theorem IsoText.mail_instant?_chars (text : IsoText) : Mail.instant? text.chars = none := by
  have hfour := padded_four text.year.isLt
  have hdigits : ∀ c ∈ (padded 4 text.year).toList, c.isDigit = true := fun _ => isDigit_of_mem_padded
  rw [hfour] at hdigits
  rw [chars, hfour]
  exact Mail.instant?_of_three_digits (hdigits _ (by simp)) (hdigits _ (by simp)) (hdigits _ (by simp)) _

namespace IsoText

def marks : List Char :=
  ['-', '+', ':', 'T', 'Z', '.']

theorem mem_zone_chars {zone : Zone} {c : Char} (h : c ∈ zone.chars) :
    c.isDigit = true ∨ c ∈ marks := by
  cases zone with
  | universal => exact .inr (by simp_all [Zone.chars, marks])
  | unwritten => cases h
  | distance behind hours minutes =>
    simp only [Zone.chars, List.mem_cons, List.mem_append] at h
    rcases h with rfl | h | rfl | h
    · exact .inr (by cases behind <;> decide)
    · exact .inl (isDigit_of_mem_padded h)
    · exact .inr (by decide)
    · exact .inl (isDigit_of_mem_padded h)

theorem mem_fractionChars {fraction : Option Decimals} {c : Char} (h : c ∈ fractionChars fraction) :
    c.isDigit = true ∨ c ∈ marks := by
  cases fraction with
  | none => cases h
  | some decimals =>
    rcases List.mem_cons.1 h with rfl | h
    · exact .inr (by decide)
    · exact .inl (decimals.isDigit_of_mem c h)

theorem mem_clock_chars {clock : IsoClock} {c : Char} (h : c ∈ clock.chars) :
    c.isDigit = true ∨ c ∈ marks := by
  cases clock with
  | absent => cases h
  | toMinute hour minute =>
    simp only [IsoClock.chars, List.mem_cons, List.mem_append, List.not_mem_nil, or_false] at h
    rcases h with rfl | h | rfl | h | rfl
    all_goals first | exact .inl (isDigit_of_mem_padded h) | exact .inr (by decide)
  | toSecond hour minute second fraction zone =>
    simp only [IsoClock.chars, List.mem_cons, List.mem_append] at h
    rcases h with rfl | h | rfl | h | rfl | h | h | h
    case inr.inr.inr.inr.inr.inr.inl => exact mem_fractionChars h
    case inr.inr.inr.inr.inr.inr.inr => exact mem_zone_chars h
    all_goals first | exact .inl (isDigit_of_mem_padded h) | exact .inr (by decide)

theorem mem_chars {text : IsoText} {c : Char} (h : c ∈ text.chars) :
    c.isDigit = true ∨ c ∈ marks := by
  simp only [chars, List.mem_cons, List.mem_append] at h
  rcases h with h | rfl | h | rfl | h | h
  case inr.inr.inr.inr.inr => exact mem_clock_chars h
  all_goals first | exact .inl (isDigit_of_mem_padded h) | exact .inr (by decide)

/-- Neither digits nor marks are commas. -/
theorem ne_comma {c : Char} (h : c.isDigit = true ∨ c ∈ marks) : c ≠ ',' := by
  rintro rfl
  rcases h with hdigit | hmark
  · cases hdigit
  · exact absurd hmark (by decide)

theorem isBlank_eq_false {c : Char} (h : c.isDigit = true ∨ c ∈ marks) : isBlank c = false := by
  have hmarks : ∀ mark ∈ marks, isBlank mark = false := by
    simp [marks, isBlank, Text.blankRanges]
  exact h.elim Text.isBlank_eq_false_of_isDigit (hmarks c)

theorem comma_not_mem_chars (text : IsoText) : ',' ∉ text.chars :=
  fun h => ne_comma (mem_chars h) rfl

theorem trim_chars (text : IsoText) : Text.trim text.chars = text.chars :=
  Text.trim_of_forall fun _ hc => isBlank_eq_false (mem_chars hc)

end IsoText

/-! ## What a text is read as -/

namespace IsoText

variable {text : IsoText} {before after : String} {t : Instant}

def written (text : IsoText) : String :=
  String.ofList text.chars

theorem trim_written (hbefore : Text.allBlank before = true) (hafter : Text.allBlank after = true) :
    Text.trim (before ++ text.written ++ after).toList = text.chars := by
  rw [String.toList_append, String.toList_append, written, String.toList_ofList,
    Text.trim_append_blank _ (List.all_eq_true.1 hbefore) (List.all_eq_true.1 hafter), trim_chars]

theorem timedInstant?_chars (text : IsoText) : timedInstant? text.chars =
    ((Internet.strictOffset? text).bind text.fields.toInstant?).or
      (Pattern.dateTimes.findSome? fun pattern => (pattern.instant text.chars).toOption) := by
  rw [timedInstant?, Internet.instant?_chars, text.mail_instant?_chars, headerInstant?,
    afterCommaSpace_eq_none text.comma_not_mem_chars, Option.bind_none, Option.none_or, Option.none_or]

theorem ofText_of_strict (hbefore : Text.allBlank before = true) (hafter : Text.allBlank after = true)
    (h : (Internet.strictOffset? text).bind text.fields.toInstant? = some t) :
    Instant.ofText (before ++ text.written ++ after) = .ok t := by
  unfold Instant.ofText
  simp only [trim_written hbefore hafter, timedInstant?_chars, h]
  rfl

/-- The patterns with a time are those whose tail is not empty. -/
theorem exists_tail_of_mem_dateTimes {pattern : Pattern} (h : pattern ∈ Pattern.dateTimes) :
    ∃ tail ∈ IsoClock.tails, pattern = Pattern.date ++ tail := by
  have hmem : pattern ∈ (IsoClock.tails.take 3).map (Pattern.date ++ ·) := h
  obtain ⟨tail, htail, rfl⟩ := List.mem_map.1 hmem
  exact ⟨tail, List.mem_of_mem_take htail, rfl⟩

theorem mem_dateTimes_of_tail? {clock : IsoClock} {tail : Pattern} (h : clock.tail? = some tail) :
    tail = [] ∨ Pattern.date ++ tail ∈ Pattern.dateTimes := by
  unfold IsoClock.tail? at h
  split at h
  case h_1 => exact .inl (Option.some.inj h).symm
  case h_5 => cases h
  all_goals
    obtain rfl := Option.some.inj h
    exact .inr (by decide)

theorem instant_tail_toOption_iff {tail : Pattern} (h : tail ∈ IsoClock.tails) :
    ((Pattern.date ++ tail).instant text.chars).toOption = some t ↔
      text.clock.tail? = some tail ∧ text.fields.toInstant? 0 = some t := by
  rw [← instant_tail_iff h]
  cases (Pattern.date ++ tail).instant text.chars <;> simp [Except.toOption]

/-- A text that is not of the strict form is read by the pattern with its tail. -/
theorem ofText_of_not_strict (hbefore : Text.allBlank before = true)
    (hafter : Text.allBlank after = true)
    (h : (Internet.strictOffset? text).bind text.fields.toInstant? = none) :
    Instant.ofText (before ++ text.written ++ after) = .ok t ↔
      text.clock.tail?.isSome ∧ text.fields.toInstant? 0 = some t := by
  unfold Instant.ofText
  simp only [trim_written hbefore hafter, timedInstant?_chars, h, Option.none_or]
  cases hfind : Pattern.dateTimes.findSome? fun pattern => (pattern.instant text.chars).toOption with
  | some u =>
    obtain ⟨pattern, hpattern, hinstant⟩ := List.exists_of_findSome?_eq_some hfind
    obtain ⟨tail, hmem, rfl⟩ := exists_tail_of_mem_dateTimes hpattern
    obtain ⟨htail, hu⟩ := (instant_tail_toOption_iff hmem).1 hinstant
    simp [htail, hu]
  | none =>
    have hnone := List.findSome?_eq_none_iff.1 hfind
    have hdate : Pattern.date.instant text.chars = .ok t ↔
        text.clock.tail? = some [] ∧ text.fields.toInstant? 0 = some t :=
      instant_tail_iff (show [] ∈ IsoClock.tails by simp [IsoClock.tails])
    simp only [hdate]
    refine and_congr_left fun hinstant => ?_
    constructor
    · intro htail
      rw [htail]
      rfl
    · intro hsome
      obtain ⟨tail, htail⟩ := Option.isSome_iff_exists.1 hsome
      rcases mem_dateTimes_of_tail? htail with rfl | hmem
      · exact htail
      · obtain ⟨tail', hmem', heq⟩ := exists_tail_of_mem_dateTimes hmem
        obtain rfl := List.append_cancel_left heq
        have hfound := (instant_tail_toOption_iff hmem').2 ⟨htail, hinstant⟩
        cases (hnone _ hmem).symm.trans hfound

theorem strictOffset?_eq_some_iff {zone : Zone} {offset : Int} : zone.strictOffset? = some offset ↔
    zone ≠ .unwritten ∧ zone.Valid ∧ zone.minutesAhead = offset := by
  cases zone with
  | universal => simp [Zone.strictOffset?, Zone.Valid, Zone.minutesAhead]
  | unwritten => simp [Zone.strictOffset?]
  | distance behind hours minutes =>
    have hsome : (if hours.val ≤ 23 ∧ minutes.val ≤ 59 then
        some (Zone.distance behind hours minutes).minutesAhead else none) = some offset ↔
          (hours.val ≤ 23 ∧ minutes.val ≤ 59) ∧
            (Zone.distance behind hours minutes).minutesAhead = offset := by
      split <;> simp [*]
    exact hsome.trans (and_iff_right (by simp)).symm

/-- A text is read exactly if its zone is valid and its fields make up an instant at the distance that
the zone names. -/
theorem ofText_written_iff (hbefore : Text.allBlank before = true)
    (hafter : Text.allBlank after = true) :
    Instant.ofText (before ++ text.written ++ after) = .ok t ↔
      text.zone.Valid ∧ text.fields.toInstant? text.zone.minutesAhead = some t := by
  cases hstrict : (Internet.strictOffset? text).bind text.fields.toInstant? with
  | some u =>
    rw [ofText_of_strict hbefore hafter hstrict, Except.ok.injEq]
    obtain ⟨offset, hoffset, hinstant⟩ := Option.bind_eq_some_iff.1 hstrict
    obtain ⟨hvalid, rfl⟩ : text.zone.Valid ∧ text.zone.minutesAhead = offset := by
      unfold Internet.strictOffset? at hoffset
      unfold zone
      cases hclock : text.clock with
      | absent | toMinute _ _ => simp [hclock] at hoffset
      | toSecond _ _ _ _ zone =>
        rw [hclock] at hoffset
        exact (strictOffset?_eq_some_iff.1 hoffset).2
    rw [hinstant, Option.some.injEq]
    exact (and_iff_right hvalid).symm
  | none =>
    rw [ofText_of_not_strict hbefore hafter hstrict]
    unfold zone
    cases hclock : text.clock with
    | absent | toMinute _ _ => simp [IsoClock.tail?, Zone.Valid, Zone.minutesAhead]
    | toSecond _ _ _ _ zone =>
      cases zone with
      | universal | unwritten => simp [IsoClock.tail?, Zone.Valid, Zone.minutesAhead]
      | distance behind hours minutes =>
        refine iff_of_false (by simp [IsoClock.tail?]) fun hdenoted => ?_
        obtain ⟨hvalid, hinstant⟩ := hdenoted
        have hoffset : Internet.strictOffset? text =
            some (Zone.distance behind hours minutes).minutesAhead := by
          rw [Internet.strictOffset?, hclock]
          exact strictOffset?_eq_some_iff.2 ⟨by simp, hvalid, rfl⟩
        rw [hoffset] at hstrict
        cases hstrict.symm.trans hinstant

theorem fields_bounds (text : IsoText) :
    0 ≤ text.fields.year ∧ text.fields.year ≤ 9999 ∧ text.fields.nanos < 1000000000 := by
  obtain ⟨year, month, day, clock⟩ := text
  have hyear := year.isLt
  cases clock with
  | absent | toMinute _ _ =>
    simp only [fields, IsoClock.fill, dateFields]
    omega
  | toSecond _ _ _ fraction _ =>
    have hnanos : (fraction.map Decimals.nanos).getD 0 < 1000000000 := by
      cases fraction with
      | none => decide
      | some decimals => exact decimals.nanos_lt
    simp only [fields, IsoClock.fill, dateFields]
    omega

theorem minutesAhead_bounds {zone : Zone} (h : zone.Valid) :
    -1440 < zone.minutesAhead ∧ zone.minutesAhead < 1440 := by
  cases zone with
  | universal | unwritten => decide
  | distance behind hours minutes =>
    have hdistance : hours.val ≤ 23 ∧ minutes.val ≤ 59 := h
    cases behind <;> simp [Zone.minutesAhead] <;> omega

/-- A text is valid exactly if its zone is and its fields are those of a time. -/
theorem valid_iff : text.Valid ↔ text.zone.Valid ∧ text.fields.Real := by
  obtain ⟨hlow, hhigh, _⟩ := text.fields_bounds
  have hyear : leastYear ≤ text.fields.year ∧ text.fields.year ≤ greatestYear := by
    unfold leastYear greatestYear
    omega
  constructor
  · intro ⟨hdate, hhour, hminute, hsecond, hzone⟩
    exact ⟨hzone, hyear.1, hyear.2, hdate, hhour, hminute, hsecond⟩
  · intro ⟨hzone, _, _, hdate, hhour, hminute, hsecond⟩
    exact ⟨hdate, hhour, hminute, hsecond, hzone⟩

end IsoText

/-- Within the years of four digits, the fields of a time always make up an instant. -/
theorem Fields.exists_toInstant? {f : Fields} {offsetMinutes : Int} (h : f.Real)
    (hyear : 0 ≤ f.year ∧ f.year ≤ 9999) (hnanos : f.nanos < 1000000000)
    (hoffset : -1440 < offsetMinutes ∧ offsetMinutes < 1440) :
    ∃ t, f.toInstant? offsetMinutes = some t := by
  obtain ⟨_, _, hdate, hhour, hminute, hsecond⟩ := id h
  obtain ⟨hlast, hend⟩ := hdate.day_le_year
  have hday := hdate.1
  have hlength : daysBeforeMonth (isLeapYear f.date.year) 13 ≤ 366 := by
    cases isLeapYear f.date.year <;> decide
  have hnumber : -800000 ≤ f.date.dayNumber ∧ f.date.dayNumber ≤ 4000000 := by
    have hdateYear : f.date.year = f.year := rfl
    unfold Date.dayNumber daysBeforeYear epochDay
    omega
  have hinstant : f.instantNanos < 2000000000 := by
    unfold instantNanos
    split <;> omega
  have hrange : leastSecond ≤ f.unixSecond offsetMinutes ∧
      f.unixSecond offsetMinutes ≤ greatestSecond := by
    unfold unixSecond leastSecond greatestSecond
    split <;> omega
  exact ⟨⟨_, _, hrange.1, hrange.2, hinstant⟩, toInstant?_eq_some_iff.2 ⟨h, rfl, rfl⟩⟩

/-- A date, a date with a time to the minute in universal time, and a date with a time to the second, a
fraction of any length and a zone, each with white space around it, is read exactly if there are such a
date, such a time of day and such a distance from universal time. The instant is then the one that the
text denotes. -/
theorem ofText_isoText (text : IsoText) {before after : String} (hbefore : Text.allBlank before = true)
    (hafter : Text.allBlank after = true) :
    ((∃ t, Instant.ofText (before ++ text.written ++ after) = .ok t) ↔ text.Valid) ∧
      ∀ t, Instant.ofText (before ++ text.written ++ after) = .ok t → text.Denotes t := by
  have hread (t : Instant) : Instant.ofText (before ++ text.written ++ after) = .ok t ↔
      text.zone.Valid ∧ text.fields.toInstant? text.zone.minutesAhead = some t :=
    IsoText.ofText_written_iff hbefore hafter
  obtain ⟨hlow, hhigh, hnanos⟩ := text.fields_bounds
  refine ⟨⟨?_, ?_⟩, ?_⟩
  · intro ⟨t, ht⟩
    obtain ⟨hzone, hinstant⟩ := (hread t).1 ht
    exact IsoText.valid_iff.2 ⟨hzone, (Fields.toInstant?_eq_some_iff.1 hinstant).1⟩
  · intro hvalid
    obtain ⟨hzone, hreal⟩ := IsoText.valid_iff.1 hvalid
    obtain ⟨t, ht⟩ := Fields.exists_toInstant? hreal ⟨hlow, hhigh⟩ hnanos
      (IsoText.minutesAhead_bounds hzone)
    exact ⟨t, (hread t).2 ⟨hzone, ht⟩⟩
  · intro t ht
    obtain ⟨hreal, hseconds, hnanos⟩ := Fields.toInstant?_eq_some_iff.1 ((hread t).1 ht).2
    obtain ⟨_, _, hdate, _⟩ := hreal
    exact ⟨⟨_, dayCount_iff.2 ⟨hdate, rfl⟩, hseconds⟩, hnanos⟩

/-- A leap second with ten digits behind the point, in a zone where the year has not ended yet. -/
theorem ofText_isoText_leap :
    ∃ t, Instant.ofText " 2016-12-31T23:59:60.1234567899-08:15\n" = .ok t ∧
      t.seconds = 1483258499 ∧ t.nanos = 1123456789 := by
  let text : IsoText := ⟨2016, 12, 31, .toSecond 23 59 60
    (some ⟨"1234567899".toList, by decide, by simp⟩) (.distance true 8 15)⟩
  have hwritten : " " ++ text.written ++ "\n" = " 2016-12-31T23:59:60.1234567899-08:15\n" := by
    decide +kernel
  have hfields : text.fields = ⟨2016, 12, 31, 23, 59, 60, 123456789⟩ := by decide +kernel
  have hvalid : text.Valid := by
    unfold IsoText.Valid
    rw [hfields]
    exact ⟨by decide, by decide, by decide, by decide, by decide, by decide⟩
  obtain ⟨haccepts, hdenotes⟩ := ofText_isoText text (show Text.allBlank " " = true from rfl)
    (show Text.allBlank "\n" = true from rfl)
  rw [hwritten] at haccepts hdenotes
  obtain ⟨t, ht⟩ := haccepts.2 hvalid
  obtain ⟨⟨days, hdays, hseconds⟩, hnanos⟩ := hdenotes t ht
  obtain ⟨_, rfl⟩ := dayCount_iff.1 hdays
  rw [hfields] at hseconds hnanos
  exact ⟨t, ht, hseconds, hnanos⟩

end ShareWire.Time
