import ShareWire.Proofs.Time.IsoReading

/-!
# Reading times of full precision

The text that is written for an instant with the fraction of its second denotes what clocks show at that
instant. Years of four digits make it an internet time; all others have a sign, which no form takes but the
first of the patterns. The text to the second denotes the second that clocks show.
-/

namespace ShareWire.Time

/-! ## Fractions -/

namespace Decimals

/-- A number in as many digits as there are places behind the point. -/
def ofPadded (places n : Nat) : Decimals where
  digits := (padded places n).toList
  digits_ne_nil := by
    obtain ⟨c, rest, hcons, -⟩ := padded_eq_cons places n
    rw [hcons]
    exact List.cons_ne_nil c rest
  isDigit_of_mem _ := isDigit_of_mem_padded

theorem nanos_ofPadded {places n : Nat} (hplaces : 0 < places) (h : n < 10 ^ places) :
    (ofPadded places n).nanos = n * 1000000000 / 10 ^ places := by
  have hlength : (padded places n).toList.length = places :=
    length_padded ((Nat.length_toDigits_le_iff (by decide) hplaces).2 h)
  rw [nanos, ofPadded, hlength, ← natOfDigits_eq, natOfDigits_padded]

/-- The digits that are written of a fraction of a second; there are none if it is zero. -/
def ofFraction? (nanos : Nat) : Option Decimals :=
  if nanos = 0 then none
  else if nanos % 1000000 = 0 then some (ofPadded 3 (nanos / 1000000))
  else if nanos % 1000 = 0 then some (ofPadded 6 (nanos / 1000))
  else some (ofPadded 9 nanos)

theorem point_append (places n : Nat) :
    ("." ++ padded places n).toList = fractionChars (some (ofPadded places n)) := by
  have hpoint : ".".toList = ['.'] := rfl
  simp only [String.toList_append, hpoint, fractionChars, ofPadded, List.singleton_append]

theorem fractionText_toList (nanos : Nat) :
    (fractionText nanos).toList = fractionChars (ofFraction? nanos) := by
  rw [fractionText, ofFraction?]
  by_cases hzero : nanos = 0
  · rw [if_pos hzero, if_pos hzero]
    rfl
  rw [if_neg hzero, if_neg hzero]
  by_cases hmillis : nanos % 1000000 = 0
  · rw [if_pos hmillis, if_pos hmillis, point_append]
  rw [if_neg hmillis, if_neg hmillis]
  by_cases hmicros : nanos % 1000 = 0
  · rw [if_pos hmicros, if_pos hmicros, point_append]
  · rw [if_neg hmicros, if_neg hmicros, point_append]

/-- The digits are exact. -/
theorem nanos_ofFraction? {nanos : Nat} (h : nanos < 1000000000) :
    ((ofFraction? nanos).map Decimals.nanos).getD 0 = nanos := by
  unfold ofFraction?
  split
  · next hzero => exact hzero.symm
  · split
    · rw [Option.map_some, Option.getD_some, nanos_ofPadded (by decide) (by omega)]
      omega
    · split
      · rw [Option.map_some, Option.getD_some, nanos_ofPadded (by decide) (by omega)]
        omega
      · rw [Option.map_some, Option.getD_some, nanos_ofPadded (by decide) (by omega)]
        omega

end Decimals

/-! ## Written instants -/

namespace Instant

theorem fraction_lt (t : Instant) : t.fraction < 1000000000 :=
  Nat.mod_lt _ (by decide)

def isoClock (t : Instant) : IsoClock :=
  have hhour := t.hour_le
  have hminute := t.minute_le
  have hsecond := t.second_le.1
  .toSecond ⟨t.hour, by omega⟩ ⟨t.minute, by omega⟩ ⟨t.second, by omega⟩
    (Decimals.ofFraction? t.fraction) .universal

theorem isoClock_allowed (t : Instant) : t.isoClock.Allowed :=
  ⟨t.hour_le, t.minute_le, t.second_le.1⟩

def behindYear (t : Instant) : List Char :=
  '-' :: ((padded 2 t.date.month).toList ++ '-' :: ((padded 2 t.date.day).toList ++ t.isoClock.chars))

theorem isoPrecise_toList (t : Instant) :
    t.isoPrecise.toList = (yearText t.date.year).toList ++ t.behindYear := by
  have hdash : "-".toList = ['-'] := rfl
  have hcolon : ":".toList = [':'] := rfl
  have htime : "T".toList = ['T'] := rfl
  have hzone : "Z".toList = ['Z'] := rfl
  simp only [isoPrecise, dateText, clockText, behindYear, isoClock, IsoClock.chars, Zone.chars,
    Decimals.fractionText_toList, String.toList_append, hdash, hcolon, htime, hzone, List.append_assoc,
    List.cons_append, List.nil_append]

theorem fill_isoClock (t : Instant) {fields : Fields} (h : fields.year = t.date.year)
    (hmonth : fields.month = t.date.month) (hday : fields.day = t.date.day) :
    t.isoClock.fill fields = t.preciseFields := by
  simp only [isoClock, IsoClock.fill, Decimals.nanos_ofFraction? t.fraction_lt, h, hmonth, hday]
  rfl

/-! ## Years of four digits -/

def isoText (t : Instant) (h : 0 ≤ t.date.year ∧ t.date.year ≤ 9999) : IsoText where
  year := ⟨t.date.year.toNat, by omega⟩
  month := ⟨t.date.month, by have := t.month_mem; omega⟩
  day := ⟨t.date.day, by have := t.day_mem; omega⟩
  clock := t.isoClock

theorem written_isoText {t : Instant} (h : 0 ≤ t.date.year ∧ t.date.year ≤ 9999) :
    (t.isoText h).written = t.isoPrecise := by
  rw [← String.toList_inj, IsoText.written, String.toList_ofList, isoPrecise_toList, yearText, if_pos h]
  rfl

theorem ofText_isoPrecise_four {t : Instant} (h : 0 ≤ t.date.year ∧ t.date.year ≤ 9999) :
    ofText t.isoPrecise = .ok t.onClock := by
  have hblank : Text.allBlank "" = true := rfl
  have hfields : (t.isoText h).fields = t.preciseFields :=
    t.fill_isoClock (Int.toNat_of_nonneg h.1) rfl rfl
  have hread : ofText ("" ++ (t.isoText h).written ++ "") = .ok t.onClock :=
    (IsoText.ofText_written_iff hblank hblank).2 ⟨trivial, hfields ▸ t.toInstant?_preciseFields⟩
  rwa [String.empty_append, String.append_empty, written_isoText] at hread

/-! ## Years with a sign -/

theorem instant_isoPrecise_signed {t : Instant} (h : ¬ (0 ≤ t.date.year ∧ t.date.year ≤ 9999)) :
    Pattern.instant (Pattern.toFraction ++ [.literal 'Z']) t.isoPrecise.toList = .ok t.onClock := by
  have hyear := t.year_mem
  have hmonth := t.month_mem
  have hday := t.day_mem
  unfold leastYear greatestYear at hyear
  refine Pattern.instant_iff.2 ⟨t.preciseFields, ?_, t.toInstant?_preciseFields⟩
  rw [t.isoPrecise_toList, yearText_toList h]
  refine (Pattern.read_signed_iff (by omega) (by simp [behindYear])).2 ?_
  refine Pattern.read_literal_cons_iff.2 ⟨rfl, ?_⟩
  refine (Pattern.read_two_iff (by decide) (by omega)).2 ⟨hmonth, ?_⟩
  refine Pattern.read_literal_cons_iff.2 ⟨rfl, ?_⟩
  refine (Pattern.read_two_iff (by decide) (by omega)).2 ⟨hday, ?_⟩
  have htail : IsoClock.universalTail ∈ IsoClock.tails := by simp [IsoClock.tails]
  exact (IsoClock.read_tail_iff htail).2 ⟨rfl, t.isoClock_allowed, t.fill_isoClock rfl rfl rfl⟩

/-- Digits and marks are all that is written for an instant. -/
theorem mem_isoPrecise {t : Instant} {c : Char} (h : c ∈ t.isoPrecise.toList) :
    c.isDigit = true ∨ c ∈ IsoText.marks := by
  rw [isoPrecise_toList, List.mem_append] at h
  rcases h with h | h
  · exact (mem_yearText h).imp_right fun hsign => by rcases hsign with rfl | rfl <;> decide
  simp only [behindYear, List.mem_cons, List.mem_append] at h
  rcases h with rfl | h | rfl | h | h
  case inr.inr.inr.inr => exact IsoText.mem_clock_chars h
  all_goals first | exact .inl (isDigit_of_mem_padded h) | exact .inr (by decide)

theorem ofText_isoPrecise_signed {t : Instant} (h : ¬ (0 ≤ t.date.year ∧ t.date.year ≤ 9999)) :
    ofText t.isoPrecise = .ok t.onClock := by
  have htrim : Text.trim t.isoPrecise.toList = t.isoPrecise.toList :=
    Text.trim_of_forall fun c hc => IsoText.isBlank_eq_false (mem_isoPrecise hc)
  -- A sign makes all forms fail that are tried before the patterns.
  have hcomma : ',' ∉ t.isoPrecise.toList := fun hc => IsoText.ne_comma (mem_isoPrecise hc) rfl
  have hmail : Mail.instant? t.isoPrecise.toList = none := by
    rw [isoPrecise_toList, yearText_toList h]
    exact Mail.instant?_signed _ _
  have hinternet : Internet.instant? t.isoPrecise.toList = none := by
    rw [isoPrecise_toList, yearText_toList h]
    exact Internet.instant?_signed _ _
  have htimed : timedInstant? t.isoPrecise.toList = some t.onClock := by
    rw [timedInstant?, hinternet, hmail, headerInstant?, afterCommaSpace_eq_none hcomma,
      Pattern.dateTimes, List.findSome?_cons, instant_isoPrecise_signed h]
    rfl
  unfold ofText
  simp only [htrim, htimed]

/-! ## All years -/

/-- The text that is written for an instant is read as what clocks show, in every year that there is. -/
theorem ofText_isoPrecise (t : Instant) : ofText t.isoPrecise = .ok t.onClock := by
  by_cases h : 0 ≤ t.date.year ∧ t.date.year ≤ 9999
  · exact ofText_isoPrecise_four h
  · exact ofText_isoPrecise_signed h

theorem isoPrecise_onClock (t : Instant) : t.onClock.isoPrecise = t.isoPrecise := by
  have hfields {α : Type} (f : Fields → α) : f t.onClock.preciseFields = f t.preciseFields :=
    congrArg f t.preciseFields_onClock
  have hyear : t.onClock.date.year = t.date.year := hfields Fields.year
  have hmonth : t.onClock.date.month = t.date.month := hfields Fields.month
  have hday : t.onClock.date.day = t.date.day := hfields Fields.day
  have hhour : t.onClock.hour = t.hour := hfields Fields.hour
  have hminute : t.onClock.minute = t.minute := hfields Fields.minute
  have hsecond : t.onClock.second = t.second := hfields Fields.second
  simp only [isoPrecise, dateText, clockText, hyear, hmonth, hday, hhour, hminute, hsecond,
    fraction_onClock]

/-- Without a fraction, nothing is written behind the second. -/
theorem isoSeconds_eq_isoPrecise (t : Instant) : t.isoSeconds = t.truncated.isoPrecise := by
  have hclock : t.truncated.clockText = t.clockText := by
    rw [clockText, second_truncated]
    rfl
  rw [isoPrecise, hclock, fraction_truncated, isoSeconds]
  exact congrArg (· ++ "Z") String.append_empty.symm

/-- The text to the second is read as the second that clocks show. -/
theorem ofText_isoSeconds (t : Instant) : ofText t.isoSeconds = .ok t.toSecond := by
  rw [isoSeconds_eq_isoPrecise, ofText_isoPrecise, toSecond]

end Instant

end ShareWire.Time
