import Mathlib.Data.Int.Init
import Mathlib.Order.Monotone.Basic
import ShareWire.Proofs.Time.Calendar

/-!
# Days of the week

The calendar as it is lived through, one day after the other: which date comes after a date, and on
which day of the week a date falls if days are counted from Thursday, the first of January 1970. Main
statement: the day of the week that is computed from the day number is the one that counting gives.
-/

namespace ShareWire.Time

theorem daysBeforeMonth_mono (leap : Bool) : Monotone (daysBeforeMonth leap) :=
  monotone_nat_of_le_succ fun _ => Nat.le_add_right _ _

theorem daysInMonth_pos (leap : Bool) {month : Nat} (h : 1 ≤ month ∧ month ≤ 12) :
    0 < daysInMonth leap month := by
  have hmonths : ∀ leap : Bool, ∀ index : Fin 12, 0 < daysInMonth leap (index + 1) := by decide
  have hmonth := hmonths leap ⟨month - 1, by omega⟩
  rwa [show month - 1 + 1 = month by omega] at hmonth

namespace Date

/-! ## Real dates and their numbers -/

/-- A real date lies in its month, and with it in its year. -/
theorem Real.day_le_year {d : Date} (h : d.Real) :
    daysBeforeMonth (isLeapYear d.year) d.month + d.day ≤
        daysBeforeMonth (isLeapYear d.year) (d.month + 1) ∧
      daysBeforeMonth (isLeapYear d.year) (d.month + 1) ≤ daysBeforeMonth (isLeapYear d.year) 13 := by
  have hmonth := h.month_mem
  exact ⟨Nat.add_le_add_left h.2 _, daysBeforeMonth_mono _ (by omega)⟩

theorem Real.year_le {d e : Date} (hd : d.Real) (he : e.Real) (h : d.dayNumber ≤ e.dayNumber) :
    d.year ≤ e.year := by
  have hday := hd.1
  obtain ⟨hin, hyear⟩ := he.day_le_year
  refine year_le_of_daysBeforeYear_le ?_
  rw [daysBeforeYear_succ]
  unfold dayNumber at h
  omega

theorem Real.month_le {d e : Date} (hd : d.Real) (he : e.Real) (hyear : d.year = e.year)
    (h : d.dayNumber ≤ e.dayNumber) : d.month ≤ e.month := by
  by_cases hle : d.month ≤ e.month
  · exact hle
  · have hday := hd.1
    have hlast := he.day_le_year.1
    have hlater := daysBeforeMonth_mono (isLeapYear e.year) (show e.month + 1 ≤ d.month by omega)
    unfold dayNumber at h
    rw [hyear] at h
    omega

/-- Two real dates with the same number are the same. -/
theorem Real.eq_of_dayNumber_eq {d e : Date} (hd : d.Real) (he : e.Real)
    (h : d.dayNumber = e.dayNumber) : d = e := by
  have hyear : d.year = e.year :=
    Int.le_antisymm (hd.year_le he (Int.le_of_eq h)) (he.year_le hd (Int.le_of_eq h.symm))
  have hmonth : d.month = e.month :=
    Nat.le_antisymm (hd.month_le he hyear (Int.le_of_eq h))
      (he.month_le hd hyear.symm (Int.le_of_eq h.symm))
  have hday : d.day = e.day := by
    unfold dayNumber at h
    rw [hyear, hmonth] at h
    omega
  exact Date.ext hyear hmonth hday

theorem Real.ofDayNumber_dayNumber {d : Date} (h : d.Real) : ofDayNumber d.dayNumber = d :=
  (ofDayNumber_spec d.dayNumber).1.eq_of_dayNumber_eq h (ofDayNumber_spec d.dayNumber).2

/-! ## The next day -/

def next (d : Date) : Date :=
  if d.day < daysInMonth (isLeapYear d.year) d.month then { d with day := d.day + 1 }
  else if d.month < 12 then ⟨d.year, d.month + 1, 1⟩
  else ⟨d.year + 1, 1, 1⟩

theorem Real.next_spec {d : Date} (h : d.Real) :
    d.next.Real ∧ d.next.dayNumber = d.dayNumber + 1 := by
  have hmonth := h.month_mem
  have hday := h.2
  have hend : daysBeforeMonth (isLeapYear d.year) (d.month + 1) =
      daysBeforeMonth (isLeapYear d.year) d.month + daysInMonth (isLeapYear d.year) d.month := rfl
  unfold next
  split
  · next hin => exact ⟨⟨by simp, hin⟩, by simp only [dayNumber]; omega⟩
  split
  · next hlast hdecember =>
    refine ⟨⟨Nat.le_refl 1, daysInMonth_pos _ (by simp only; omega)⟩, ?_⟩
    simp only [dayNumber]
    omega
  · next hlast hdecember =>
    have htwelve : d.month + 1 = 13 := by omega
    have hfirst : daysBeforeMonth (isLeapYear (d.year + 1)) 1 = 0 := rfl
    rw [htwelve] at hend
    refine ⟨⟨Nat.le_refl 1, daysInMonth_pos _ (by simp)⟩, ?_⟩
    simp only [dayNumber, hfirst, daysBeforeYear_succ, hend]
    omega

theorem ofDayNumber_succ (n : Int) : ofDayNumber (n + 1) = (ofDayNumber n).next := by
  obtain ⟨hreal, hnumber⟩ := ofDayNumber_spec n
  obtain ⟨hnext, hsucc⟩ := hreal.next_spec
  obtain ⟨hlater, hlaterNumber⟩ := ofDayNumber_spec (n + 1)
  exact hlater.eq_of_dayNumber_eq hnext (by rw [hlaterNumber, hsucc, hnumber])

end Date

/-! ## Counting the days of the week -/

def Weekday.next : Weekday → Weekday
  | .monday => .tuesday
  | .tuesday => .wednesday
  | .wednesday => .thursday
  | .thursday => .friday
  | .friday => .saturday
  | .saturday => .sunday
  | .sunday => .monday

theorem Weekday.next_injective {v w : Weekday} (h : v.next = w.next) : v = w := by
  cases v <;> cases w <;> first | rfl | cases h

theorem Weekday.ofDayNumber_succ (n : Int) : ofDayNumber (n + 1) = (ofDayNumber n).next := by
  have hrest : n % 7 = 0 ∨ n % 7 = 1 ∨ n % 7 = 2 ∨ n % 7 = 3 ∨ n % 7 = 4 ∨ n % 7 = 5 ∨ n % 7 = 6 := by
    omega
  unfold ofDayNumber
  rw [Int.add_emod]
  rcases hrest with h | h | h | h | h | h | h <;> rw [h] <;> rfl

/-- A real date falls on the day of the week that counting from the first of January 1970 gives, on to
later dates and back to earlier ones. -/
inductive FallsOn : Date → Weekday → Prop where
  | epoch : FallsOn ⟨1970, 1, 1⟩ .thursday
  | later {d : Date} {w : Weekday} : FallsOn d w → FallsOn d.next w.next
  | earlier {d : Date} {w : Weekday} : d.Real → FallsOn d.next w.next → FallsOn d w

theorem FallsOn.weekday_eq {d : Date} {w : Weekday} (h : FallsOn d w) :
    d.Real ∧ w = .ofDayNumber d.dayNumber := by
  induction h with
  | epoch => decide
  | later _ ih =>
    obtain ⟨hreal, rfl⟩ := ih
    obtain ⟨hnext, hnumber⟩ := hreal.next_spec
    rw [hnumber, Weekday.ofDayNumber_succ]
    exact ⟨hnext, rfl⟩
  | earlier hreal _ ih =>
    obtain ⟨_, hweekday⟩ := ih
    rw [hreal.next_spec.2, Weekday.ofDayNumber_succ] at hweekday
    exact ⟨hreal, Weekday.next_injective hweekday⟩

theorem fallsOn_ofDayNumber (n : Int) : FallsOn (.ofDayNumber n) (.ofDayNumber n) := by
  induction n using Int.induction_on with
  | zero => exact .epoch
  | succ n ih =>
    rw [Date.ofDayNumber_succ, Weekday.ofDayNumber_succ]
    exact .later ih
  | pred n ih =>
    refine .earlier (Date.ofDayNumber_spec _).1 ?_
    rw [← Date.ofDayNumber_succ, ← Weekday.ofDayNumber_succ, Int.sub_add_cancel]
    exact ih

/-- A date falls on one day of the week, the one that its day number has. -/
theorem fallsOn_iff {d : Date} {w : Weekday} :
    FallsOn d w ↔ d.Real ∧ w = .ofDayNumber d.dayNumber := by
  constructor
  · exact FallsOn.weekday_eq
  · rintro ⟨hreal, rfl⟩
    have hfalls := fallsOn_ofDayNumber d.dayNumber
    rwa [hreal.ofDayNumber_dayNumber] at hfalls

end ShareWire.Time
