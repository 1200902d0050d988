import ShareWire.Proofs.Time.Instant
import ShareWire.Proofs.Time.Pattern

/-!
# Written years

Years of four digits are written without a sign, all others with one. No form of a time takes a sign, but
patterns do.
-/

namespace ShareWire.Time

open Text (trimStart trimStart_of_head)

/-! ## Signs -/

/-- The sign of a year that does not have four digits. -/
def yearSign (year : Int) : Char :=
  if 0 ≤ year then '+' else '-'

theorem yearSign_cases (year : Int) : yearSign year = '+' ∨ yearSign year = '-' := by
  unfold yearSign
  split
  · exact .inl rfl
  · exact .inr rfl

theorem trimStart_yearSign (year : Int) (rest : List Char) :
    trimStart (yearSign year :: rest) = yearSign year :: rest := by
  refine trimStart_of_head fun c hc => ?_
  obtain rfl := Option.some.inj hc
  rcases yearSign_cases year with hsign | hsign <;> rw [hsign] <;> rfl

theorem yearText_toList {year : Int} (h : ¬ (0 ≤ year ∧ year ≤ 9999)) :
    (yearText year).toList = yearSign year :: (padded 4 year.natAbs).toList := by
  rw [yearText, if_neg h, yearSign]
  by_cases hpos : 0 ≤ year
  · have habs : year.toNat = year.natAbs := by omega
    rw [if_pos hpos, if_pos hpos, String.toList_append, habs]
    rfl
  · have habs : (-year).toNat = year.natAbs := by omega
    rw [if_neg hpos, if_neg hpos, String.toList_append, habs]
    rfl

theorem mem_yearText {year : Int} {c : Char} (h : c ∈ (yearText year).toList) :
    c.isDigit = true ∨ c = '+' ∨ c = '-' := by
  by_cases hfour : 0 ≤ year ∧ year ≤ 9999
  · rw [yearText, if_pos hfour] at h
    exact .inl (isDigit_of_mem_padded h)
  · rw [yearText_toList hfour] at h
    rcases List.mem_cons.1 h with rfl | h
    · exact .inr (yearSign_cases year)
    · exact .inl (isDigit_of_mem_padded h)

namespace Pattern

theorem scanYear_signed (year : Int) {rest : List Char} (h : ∀ c ∈ rest.head?, c.isDigit = false) :
    scanYear (yearSign year :: ((padded 4 year.natAbs).toList ++ rest)) = .ok (year, rest) := by
  have hscan : scanDigits ((padded 4 year.natAbs).toList ++ rest).length
      ((padded 4 year.natAbs).toList ++ rest) = .ok (year.natAbs, rest) := by
    have hdigits : ∀ c ∈ (padded 4 year.natAbs).toList, c.isDigit = true :=
      fun _ => isDigit_of_mem_padded
    obtain ⟨c, more, hcons, _⟩ := padded_eq_cons 4 year.natAbs
    have hlength : 1 ≤ (padded 4 year.natAbs).toList.length := by
      rw [hcons]
      simp
    rw [scanDigits_eq_ok_iff.2 (scanNumber_append hdigits hlength (by simp) (.inr h)),
      natOfDigits_padded]
  rw [yearSign]
  by_cases hpos : 0 ≤ year
  · rw [if_pos hpos, scanYear, hscan]
    simp only [Except.map]
    rw [Int.natAbs_of_nonneg hpos]
  · have hneg : -(year.natAbs : Int) = year := by omega
    rw [if_neg hpos, scanYear, hscan]
    simp only [Except.map, hneg]

theorem read_signed_iff {pattern : Pattern} {fields : Fields} {result : Fields × List Char} {year : Int}
    {rest : List Char} (hyear : -2147483648 ≤ year ∧ year ≤ 2147483647)
    (h : ∀ c ∈ rest.head?, c.isDigit = false) :
    read fields (.number .year :: pattern)
      (yearSign year :: ((padded 4 year.natAbs).toList ++ rest)) = .ok result ↔
        read { fields with year } pattern rest = .ok result := by
  have hset : TimeUnit.year.set year fields = .ok { fields with year } := if_pos hyear
  rw [read_number_iff, trimStart_yearSign, TimeUnit.scan, scanYear_signed year h]
  simp [hset]

end Pattern

/-! ## Other forms -/

theorem Mail.instant?_signed (year : Int) (rest : List Char) :
    instant? (yearSign year :: rest) = none := by
  rcases yearSign_cases year with hsign | hsign <;> rw [hsign] <;> rfl

theorem Internet.instant?_signed (year : Int) (rest : List Char) :
    instant? (yearSign year :: rest) = none := by
  rcases yearSign_cases year with hsign | hsign <;> rw [hsign] <;> rfl

theorem afterCommaSpace_eq_none {cs : List Char} (h : ',' ∉ cs) : afterCommaSpace cs = none := by
  induction cs with
  | nil => rfl
  | cons c cs ih =>
    obtain ⟨hc, hcs⟩ := not_or.1 (mt List.mem_cons.2 h)
    rw [afterCommaSpace, ih hcs]
    rintro rest rfl _
    exact hc rfl

end ShareWire.Time
