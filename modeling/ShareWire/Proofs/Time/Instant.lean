import ShareWire.Proofs.Time.Calendar

/-!
# Instants and their fields

The date and the clock of an instant make up that instant again, without the fraction of its second. A
leap second inside a minute is lost on clocks: they show the second that follows. Fields make up the
instant that has the number of their second and their nanoseconds, if there is one.
-/

namespace ShareWire.Time

namespace Instant

/-! ## Whole seconds -/

/-- The instant without the fraction of its second. A leap second stays one. -/
def truncated (t : Instant) : Instant where
  seconds := t.seconds
  nanos := if t.isLeap then 1000000000 else 0
  least_le := t.least_le
  le_greatest := t.le_greatest
  nanos_lt := by split <;> omega

theorem isLeap_iff {t : Instant} : t.isLeap = true ↔ 1000000000 ≤ t.nanos :=
  decide_eq_true_iff

theorem eq_of_seconds_of_nanos {t u : Instant} (hseconds : t.seconds = u.seconds)
    (hnanos : t.nanos = u.nanos) : t = u := by
  cases t
  cases u
  cases hseconds
  cases hnanos
  rfl

/-- Exactly the instants without a fraction of a second are their own truncation. -/
theorem truncated_eq_self_iff {t : Instant} : t.truncated = t ↔ t.fraction = 0 := by
  have hlt := t.nanos_lt
  have hnanos : t.truncated.nanos = t.nanos ↔ t.fraction = 0 := by
    unfold truncated fraction
    simp only
    by_cases hleap : t.isLeap = true
    · rw [if_pos hleap]
      have := isLeap_iff.1 hleap
      omega
    · rw [if_neg hleap]
      have := mt isLeap_iff.2 hleap
      omega
  rw [← hnanos]
  constructor
  · intro h
    rw [h]
  · intro h
    exact eq_of_seconds_of_nanos rfl h

theorem fraction_truncated (t : Instant) : t.truncated.fraction = 0 := by
  unfold fraction truncated
  simp only
  split <;> rfl

theorem isLeap_truncated (t : Instant) : t.truncated.isLeap = t.isLeap := by
  have hnanos : t.truncated.nanos = if t.isLeap then 1000000000 else 0 := rfl
  rw [isLeap, hnanos]
  cases t.isLeap <;> rfl

/-! ## Leap seconds on clocks -/

/-- If the instant lies inside a leap second, then inside one at the end of a minute. -/
def LeapEndsMinute (t : Instant) : Prop :=
  t.isLeap = true → t.seconds % 60 = 59

instance (t : Instant) : Decidable t.LeapEndsMinute :=
  inferInstanceAs (Decidable (_ → _))

/-- The instant that clocks show. A leap second inside a minute looks like the second that follows. -/
def onClock (t : Instant) : Instant :=
  if h : t.LeapEndsMinute then t
  else
    { seconds := t.seconds + 1
      nanos := t.nanos - 1000000000
      least_le := Int.le_add_one t.least_le
      le_greatest := by
        have hgreatest := t.le_greatest
        obtain ⟨-, hinside⟩ := Classical.not_imp.1 h
        unfold greatestSecond at hgreatest ⊢
        omega
      nanos_lt := by
        have hlt := t.nanos_lt
        omega }

theorem onClock_of_leapEndsMinute {t : Instant} (h : t.LeapEndsMinute) : t.onClock = t :=
  dif_pos h

theorem seconds_onClock (t : Instant) :
    t.onClock.seconds = if t.LeapEndsMinute then t.seconds else t.seconds + 1 := by
  unfold onClock
  split <;> rfl

theorem nanos_onClock (t : Instant) :
    t.onClock.nanos = if t.LeapEndsMinute then t.nanos else t.nanos - 1000000000 := by
  unfold onClock
  split <;> rfl

/-- Exactly a leap second inside a minute is another instant on clocks. -/
theorem onClock_eq_self_iff {t : Instant} : t.onClock = t ↔ t.LeapEndsMinute := by
  refine ⟨fun h => Decidable.by_contra fun hinside => ?_, onClock_of_leapEndsMinute⟩
  have hseconds := t.seconds_onClock
  rw [if_neg hinside, h] at hseconds
  omega

theorem leapEndsMinute_onClock (t : Instant) : t.onClock.LeapEndsMinute := by
  by_cases h : t.LeapEndsMinute
  · rwa [onClock_of_leapEndsMinute h]
  · intro hleap
    have hlt := t.nanos_lt
    have hnanos := isLeap_iff.1 hleap
    rw [nanos_onClock, if_neg h] at hnanos
    omega

theorem fraction_onClock (t : Instant) : t.onClock.fraction = t.fraction := by
  unfold fraction
  rw [nanos_onClock]
  split
  · rfl
  · next h =>
    obtain ⟨hleap, -⟩ := Classical.not_imp.1 h
    have hnanos := isLeap_iff.1 hleap
    omega

/-- The whole second that clocks show at an instant. -/
def toSecond (t : Instant) : Instant :=
  t.truncated.onClock

theorem leapEndsMinute_truncated_iff {t : Instant} :
    t.truncated.LeapEndsMinute ↔ t.LeapEndsMinute := by
  rw [LeapEndsMinute, isLeap_truncated]
  rfl

theorem fraction_toSecond (t : Instant) : t.toSecond.fraction = 0 := by
  rw [toSecond, fraction_onClock, fraction_truncated]

theorem toSecond_eq_truncated_iff {t : Instant} : t.toSecond = t.truncated ↔ t.LeapEndsMinute :=
  onClock_eq_self_iff.trans leapEndsMinute_truncated_iff

/-- Exactly a second without a fraction that is no leap second inside a minute is shown as it is. -/
theorem toSecond_eq_self_iff {t : Instant} : t.toSecond = t ↔ t.fraction = 0 ∧ t.LeapEndsMinute := by
  constructor
  · intro h
    rw [← h]
    exact ⟨t.fraction_toSecond, t.truncated.leapEndsMinute_onClock⟩
  · rintro ⟨hfraction, hends⟩
    rw [toSecond_eq_truncated_iff.2 hends, truncated_eq_self_iff.2 hfraction]

theorem toSecond_toSecond (t : Instant) : t.toSecond.toSecond = t.toSecond :=
  toSecond_eq_self_iff.2 ⟨t.fraction_toSecond, t.truncated.leapEndsMinute_onClock⟩

/-! ## Date and clock -/

def fields (t : Instant) : Fields where
  year := t.date.year
  month := t.date.month
  day := t.date.day
  hour := t.hour
  minute := t.minute
  second := t.second

theorem year_mem (t : Instant) : leastYear ≤ t.date.year ∧ t.date.year ≤ greatestYear := by
  have hleast := t.least_le
  have hgreatest := t.le_greatest
  have hfirst : daysBeforeYear leastYear = leastSecond / 86400 + epochDay := by decide
  have hlast : daysBeforeYear (greatestYear + 1) = greatestSecond / 86400 + epochDay + 1 := by decide
  unfold leastSecond at hleast hfirst
  unfold greatestSecond at hgreatest hlast
  exact Date.year_ofDayNumber_mem (by omega) (by omega)

theorem month_mem (t : Instant) : 1 ≤ t.date.month ∧ t.date.month ≤ 12 :=
  (Date.ofDayNumber_spec _).1.month_mem

theorem day_mem (t : Instant) : 1 ≤ t.date.day ∧ t.date.day ≤ 31 :=
  (Date.ofDayNumber_spec _).1.day_mem

theorem hour_le (t : Instant) : t.hour ≤ 23 := by
  unfold hour
  omega

theorem minute_le (t : Instant) : t.minute ≤ 59 := by
  unfold minute
  omega

/-- Second 60 is shown inside the leap seconds that end a minute. -/
theorem second_le (t : Instant) :
    t.second ≤ 60 ∧ (t.second = 60 ↔ t.isLeap = true ∧ t.LeapEndsMinute) := by
  unfold second LeapEndsMinute
  by_cases hleap : t.isLeap = true
  · simp only [hleap, if_true, true_and, forall_const]
    omega
  · rw [if_neg hleap]
    exact ⟨by omega, iff_of_false (by omega) fun h => hleap h.1⟩

theorem real_fields (t : Instant) : t.fields.Real := by
  obtain ⟨hleast, hgreatest⟩ := t.year_mem
  obtain ⟨hreal, _⟩ := Date.ofDayNumber_spec (t.seconds / 86400)
  exact ⟨hleast, hgreatest, hreal, t.hour_le, t.minute_le, t.second_le.1⟩

theorem unixSecond_fields (t : Instant) : t.fields.unixSecond 0 = t.onClock.seconds := by
  have hday : t.fields.date.dayNumber = t.seconds / 86400 := (Date.ofDayNumber_spec _).2
  have hhour : t.fields.hour = (t.seconds % 86400).toNat / 3600 := rfl
  have hminute : t.fields.minute = (t.seconds % 86400).toNat / 60 % 60 := rfl
  have hsecond : t.fields.second = (t.seconds % 86400).toNat % 60 + if t.isLeap then 1 else 0 := rfl
  rw [Fields.unixSecond, hday, seconds_onClock]
  unfold LeapEndsMinute
  by_cases hleap : t.isLeap = true
  · simp only [hleap, if_true, forall_const] at hsecond ⊢
    split <;> split <;> omega
  · simp only [hleap] at hsecond ⊢
    simp at hsecond ⊢
    split <;> omega

theorem ofUnix?_eq_some_iff {seconds : Int} {nanos : Nat} {t : Instant} :
    ofUnix? seconds nanos = some t ↔ t.seconds = seconds ∧ t.nanos = nanos := by
  unfold ofUnix?
  constructor
  · intro h
    split at h
    · obtain rfl := Option.some.inj h
      exact ⟨rfl, rfl⟩
    · cases h
  · rintro ⟨rfl, rfl⟩
    exact dif_pos ⟨t.least_le, t.le_greatest, t.nanos_lt⟩

end Instant

/-! ## Instants from fields -/

namespace Fields

/-- The nanoseconds of an instant with these fields. A leap second has a billion more. -/
def instantNanos (f : Fields) : Nat :=
  f.nanos + if f.second = 60 then 1000000000 else 0

theorem toInstant?_eq_some_iff {f : Fields} {offsetMinutes : Int} {t : Instant} :
    f.toInstant? offsetMinutes = some t ↔
      f.Real ∧ t.seconds = f.unixSecond offsetMinutes ∧ t.nanos = f.instantNanos := by
  unfold toInstant?
  split
  · next hreal => exact Instant.ofUnix?_eq_some_iff.trans (and_iff_right hreal).symm
  · next hreal => exact iff_of_false (fun h => nomatch h) (fun h => hreal h.1)

end Fields

/-! ## Instants on clocks -/

namespace Instant

def preciseFields (t : Instant) : Fields :=
  { t.fields with nanos := t.fraction }

/-- Date and clock of an instant with the fraction of its second make up what clocks show. -/
theorem toInstant?_preciseFields (t : Instant) : t.preciseFields.toInstant? 0 = some t.onClock := by
  refine Fields.toInstant?_eq_some_iff.2 ⟨t.real_fields, t.unixSecond_fields.symm, ?_⟩
  have hsixty : t.preciseFields.second = 60 ↔ t.isLeap = true ∧ t.LeapEndsMinute := t.second_le.2
  have hfraction : t.preciseFields.nanos = t.nanos % 1000000000 := rfl
  have hlt := t.nanos_lt
  rw [nanos_onClock, Fields.instantNanos, hfraction]
  simp only [hsixty]
  by_cases hleap : t.isLeap = true
  · have hnanos := isLeap_iff.1 hleap
    simp only [hleap, true_and]
    split <;> omega
  · have hnanos := mt isLeap_iff.2 hleap
    have hends : t.LeapEndsMinute := fun h => absurd h hleap
    rw [if_pos hends, if_neg fun h => hleap h.1]
    omega

/-- Clocks show the same at an instant and at the one that it looks like. -/
theorem preciseFields_onClock (t : Instant) : t.onClock.preciseFields = t.preciseFields := by
  by_cases hends : t.LeapEndsMinute
  · rw [onClock_of_leapEndsMinute hends]
  -- The next second is in the same minute.
  obtain ⟨hleap, hinside⟩ := Classical.not_imp.1 hends
  have hseconds := t.seconds_onClock
  rw [if_neg hends] at hseconds
  have hleap' : t.onClock.isLeap = false := by
    have hlt := t.nanos_lt
    refine Bool.eq_false_iff.2 fun h => ?_
    have hnanos := isLeap_iff.1 h
    rw [nanos_onClock, if_neg hends] at hnanos
    omega
  have hday : t.onClock.seconds / 86400 = t.seconds / 86400 := by omega
  have hhour : t.onClock.hour = t.hour := by
    unfold hour
    omega
  have hminute : t.onClock.minute = t.minute := by
    unfold minute
    omega
  have hsecond : t.onClock.second = t.second := by
    unfold second
    rw [hleap, hleap']
    simp
    omega
  simp only [preciseFields, fields, date, hday, hhour, hminute, hsecond, fraction_onClock]

theorem second_truncated (t : Instant) : t.truncated.second = t.second := by
  rw [second, isLeap_truncated]
  rfl

theorem preciseFields_truncated (t : Instant) : t.truncated.preciseFields = t.fields := by
  rw [preciseFields, fraction_truncated, fields, second_truncated]
  rfl

/-- Date and clock of an instant make up the second that clocks show. -/
theorem toInstant?_fields (t : Instant) : t.fields.toInstant? 0 = some t.toSecond := by
  rw [← t.preciseFields_truncated, toInstant?_preciseFields]
  rfl

end Instant

end ShareWire.Time
