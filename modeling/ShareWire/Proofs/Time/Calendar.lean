import ShareWire.Time.Instant

/-!
# Laws of the calendar

Every day number has one date, which is real and has that day number. The search for the year is at
most one off after the division, and the search for the month goes through the days before each one.
-/

namespace ShareWire.Time

/-! ## Years -/

theorem daysBeforeYear_succ (year : Int) :
    daysBeforeYear (year + 1) = daysBeforeYear year + daysBeforeMonth (isLeapYear year) 13 := by
  have hyear (leap : Bool) : daysBeforeMonth leap 13 = if leap then 366 else 365 := by
    cases leap <;> rfl
  rw [hyear]
  unfold daysBeforeYear isLeapYear
  by_cases hfour : year % 4 = 0 <;> by_cases hcentury : year % 100 = 0 <;>
    by_cases hcycle : year % 400 = 0 <;> simp [hfour, hcentury, hcycle] <;> omega

theorem daysBeforeYear_lt {year later : Int} (h : year < later) :
    daysBeforeYear year < daysBeforeYear later := by
  unfold daysBeforeYear
  omega

theorem year_le_of_daysBeforeYear_le {year later : Int}
    (h : daysBeforeYear year < daysBeforeYear (later + 1)) : year ≤ later := by
  by_cases hle : year ≤ later
  · exact hle
  · have hlater : later + 1 ≤ year := by omega
    rcases Int.lt_or_eq_of_le hlater with hlt | rfl
    · have := daysBeforeYear_lt hlt
      omega
    · omega

theorem yearOfDay_spec (n : Int) :
    daysBeforeYear (yearOfDay n) ≤ n ∧ n < daysBeforeYear (yearOfDay n + 1) := by
  have hguess : 146097 * (n * 400 / 146097) ≤ n * 400 ∧
      n * 400 < 146097 * (n * 400 / 146097) + 146097 := by omega
  unfold yearOfDay
  generalize n * 400 / 146097 = guess at hguess ⊢
  obtain ⟨hlow, hhigh⟩ := hguess
  -- A year has a little more than 365 days on average, so the guess is right or one too late or early.
  have hbefore : daysBeforeYear (guess - 1) ≤ n := by
    unfold daysBeforeYear
    omega
  have hafter : n < daysBeforeYear (guess + 1 + 1) := by
    unfold daysBeforeYear
    omega
  simp only
  split
  · next h => exact ⟨hbefore, by rw [Int.sub_add_cancel]; exact h⟩
  split
  · next hguess hnext => exact ⟨by omega, hnext⟩
  · next hguess hnext => exact ⟨by omega, hafter⟩

/-! ## Months -/

/-- A day of the year lies in the month that is found for it. -/
theorem monthAndDay_spec (leap : Bool) (remaining month n : Nat)
    (h : daysBeforeMonth leap month + n < daysBeforeMonth leap (month + remaining + 1)) :
    1 ≤ (monthAndDay leap remaining month n).2 ∧
    (monthAndDay leap remaining month n).2 ≤
      daysInMonth leap (monthAndDay leap remaining month n).1 ∧
    daysBeforeMonth leap (monthAndDay leap remaining month n).1 +
      (monthAndDay leap remaining month n).2 = daysBeforeMonth leap month + n + 1 := by
  induction remaining generalizing month n with
  | zero =>
    rw [Nat.add_zero, daysBeforeMonth] at h
    simp only [monthAndDay]
    omega
  | succ remaining ih =>
    rw [monthAndDay]
    split
    · next hin => simp only; omega
    · next hout =>
      have hmonth : daysBeforeMonth leap (month + 1) =
          daysBeforeMonth leap month + daysInMonth leap month := rfl
      have hnext : month + 1 + remaining + 1 = month + (remaining + 1) + 1 := by omega
      obtain ⟨hone, hday, hsum⟩ := ih (month + 1) (n - daysInMonth leap month) (by
        rw [hnext, hmonth]
        omega)
      refine ⟨hone, hday, ?_⟩
      rw [hsum, hmonth]
      omega

theorem monthAndDay_year (leap : Bool) (n : Nat) (h : n < daysBeforeMonth leap 13) :
    1 ≤ (monthAndDay leap 11 1 n).2 ∧
    (monthAndDay leap 11 1 n).2 ≤ daysInMonth leap (monthAndDay leap 11 1 n).1 ∧
    daysBeforeMonth leap (monthAndDay leap 11 1 n).1 + (monthAndDay leap 11 1 n).2 = n + 1 := by
  have hfirst : daysBeforeMonth leap 1 = 0 := rfl
  have hspec := monthAndDay_spec leap 11 1 n (by rw [hfirst, Nat.zero_add]; exact h)
  rw [hfirst, Nat.zero_add] at hspec
  exact hspec

theorem month_mem_of_daysInMonth_pos {leap : Bool} {month : Nat} (h : 0 < daysInMonth leap month) :
    1 ≤ month ∧ month ≤ 12 := by
  unfold daysInMonth at h
  split at h <;> omega

theorem daysInMonth_le (leap : Bool) (month : Nat) : daysInMonth leap month ≤ 31 := by
  unfold daysInMonth
  split <;> first | omega | (cases leap <;> simp)

/-! ## Dates -/

namespace Date

/-- The date of a day number is real and has that day number. -/
theorem ofDayNumber_spec (n : Int) : (ofDayNumber n).Real ∧ (ofDayNumber n).dayNumber = n := by
  obtain ⟨hlow, hhigh⟩ := yearOfDay_spec (n + epochDay)
  rw [daysBeforeYear_succ] at hhigh
  obtain ⟨hone, hday, hsum⟩ := monthAndDay_year (isLeapYear (yearOfDay (n + epochDay)))
    (n + epochDay - daysBeforeYear (yearOfDay (n + epochDay))).toNat (by omega)
  refine ⟨⟨hone, hday⟩, ?_⟩
  unfold dayNumber ofDayNumber
  simp only
  omega

/-- The days of a range of years have dates in these years. -/
theorem year_ofDayNumber_mem {n least greatest : Int} (hlow : daysBeforeYear least ≤ n + epochDay)
    (hhigh : n + epochDay < daysBeforeYear (greatest + 1)) :
    least ≤ (ofDayNumber n).year ∧ (ofDayNumber n).year ≤ greatest := by
  have hyear : (ofDayNumber n).year = yearOfDay (n + epochDay) := rfl
  obtain ⟨hfrom, hto⟩ := yearOfDay_spec (n + epochDay)
  rw [hyear]
  exact ⟨year_le_of_daysBeforeYear_le (by omega), year_le_of_daysBeforeYear_le (by omega)⟩

theorem Real.month_mem {d : Date} (h : d.Real) : 1 ≤ d.month ∧ d.month ≤ 12 := by
  obtain ⟨hone, hday⟩ := h
  exact month_mem_of_daysInMonth_pos (Nat.lt_of_lt_of_le hone hday)

theorem Real.day_mem {d : Date} (h : d.Real) : 1 ≤ d.day ∧ d.day ≤ 31 := by
  obtain ⟨hone, hday⟩ := h
  exact ⟨hone, Nat.le_trans hday (daysInMonth_le _ _)⟩

end Date

end ShareWire.Time
