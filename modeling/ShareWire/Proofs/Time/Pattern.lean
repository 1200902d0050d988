import ShareWire.Proofs.Fallible
import ShareWire.Proofs.Time.Scan
import ShareWire.Time.Timestamp

/-!
# Laws of time patterns

When an item takes its part of a text, and what it then leaves for the items behind it. A pattern gives
an instant when its items take the whole text and the fields that they found make up that instant.
-/

namespace ShareWire.Time

open Text (trimStart)

/-! ## Fields -/

namespace TimeUnit

def Allows : TimeUnit → Nat → Prop
  | year, n => n ≤ 2147483647
  | month, n => 1 ≤ n ∧ n ≤ 12
  | day, n => 1 ≤ n ∧ n ≤ 31
  | hour, n => n ≤ 23
  | minute, n => n ≤ 59
  | second, n => n ≤ 60

/-- The fields with a number in the one of a unit. -/
def put : TimeUnit → Nat → Fields → Fields
  | year, n, fields => { fields with year := n }
  | month, n, fields => { fields with month := n }
  | day, n, fields => { fields with day := n }
  | hour, n, fields => { fields with hour := n }
  | minute, n, fields => { fields with minute := n }
  | second, n, fields => { fields with second := n }

theorem set_natCast_iff {unit : TimeUnit} {n : Nat} {fields next : Fields} :
    unit.set n fields = .ok next ↔ unit.Allows n ∧ unit.put n fields = next := by
  cases unit <;> refine ite_ok_iff.trans (and_congr_left' ?_) <;> unfold Allows <;> omega

end TimeUnit

/-! ## Items -/

namespace Pattern

variable {pattern : Pattern} {fields : Fields} {cs : List Char} {result : Fields × List Char}

theorem read_nil_iff : read fields [] cs = .ok result ↔ (fields, cs) = result := by
  rw [read, Except.ok.injEq]

theorem read_cons_iff {item : PatternItem} : read fields (item :: pattern) cs = .ok result ↔
    ∃ next rest, item.read fields cs = .ok (next, rest) ∧ read next pattern rest = .ok result := by
  constructor
  · intro h
    obtain ⟨⟨next, rest⟩, hitem, hmore⟩ := exists_of_bind_ok h
    exact ⟨next, rest, hitem, hmore⟩
  · intro ⟨next, rest, hitem, hmore⟩
    exact bind_ok hitem hmore

theorem read_number_iff {unit : TimeUnit} :
    read fields (.number unit :: pattern) cs = .ok result ↔
      ∃ n rest next, unit.scan (trimStart cs) = .ok (n, rest) ∧ unit.set n fields = .ok next ∧
        read next pattern rest = .ok result := by
  rw [read_cons_iff]
  constructor
  · intro ⟨next, rest, hitem, hmore⟩
    obtain ⟨⟨n, rest'⟩, hscan, hitem⟩ := exists_of_bind_ok hitem
    obtain ⟨next', hset, hitem⟩ := exists_of_bind_ok hitem
    cases hitem
    exact ⟨n, rest, next, hscan, hset, hmore⟩
  · intro ⟨n, rest, next, hscan, hset, hmore⟩
    exact ⟨next, rest, bind_ok hscan (bind_ok hset rfl), hmore⟩

theorem scanDigits_eq_ok_iff {limit n : Nat} {rest : List Char} :
    scanDigits limit cs = .ok (n, rest) ↔ scanNumber 1 limit cs = some (n, rest) := by
  constructor
  · intro h
    cases cs with
    | nil => cases h
    | cons c cs =>
      unfold scanDigits at h
      simp only at h
      split at h
      · cases h
      · next hscan =>
        cases h
        exact hscan
  · intro h
    cases cs with
    | nil => simp [scanNumber, leadingDigits] at h
    | cons c cs => simp only [scanDigits, h]

theorem scan_of_ne_year {unit : TimeUnit} (hunit : unit ≠ .year) (cs : List Char) :
    unit.scan cs = (scanDigits 2 cs).map fun (n, rest) => ((n : Int), rest) := by
  cases unit with
  | year => exact absurd rfl hunit
  | month | day | hour | minute | second => rfl

/-- All units but the year take one or two digits. -/
theorem read_short_iff {unit : TimeUnit} (hunit : unit ≠ .year) :
    read fields (.number unit :: pattern) cs = .ok result ↔
      ∃ n rest, scanNumber 1 2 (trimStart cs) = some (n, rest) ∧ unit.Allows n ∧
        read (unit.put n fields) pattern rest = .ok result := by
  rw [read_number_iff, scan_of_ne_year hunit]
  constructor
  · intro ⟨m, rest, next, hdigits, hset, hmore⟩
    obtain ⟨⟨n, rest'⟩, hdigits, heq⟩ := exists_of_map_ok hdigits
    cases heq
    obtain ⟨hallows, rfl⟩ := TimeUnit.set_natCast_iff.1 hset
    exact ⟨n, rest, scanDigits_eq_ok_iff.1 hdigits, hallows, hmore⟩
  · intro ⟨n, rest, hnumber, hallows, hmore⟩
    refine ⟨n, rest, unit.put n fields, ?_, TimeUnit.set_natCast_iff.2 ⟨hallows, rfl⟩, hmore⟩
    rw [scanDigits_eq_ok_iff.2 hnumber]
    rfl

theorem read_literal_iff {c : Char} : read fields (.literal c :: pattern) cs = .ok result ↔
    ∃ rest, cs = c :: rest ∧ read fields pattern rest = .ok result := by
  rw [read_cons_iff]
  constructor
  · intro ⟨next, rest, hitem, hmore⟩
    unfold PatternItem.read at hitem
    cases cs with
    | nil => cases hitem
    | cons d cs =>
      simp only at hitem
      split at hitem
      · next heq =>
        cases hitem
        exact ⟨rest, by rw [heq], hmore⟩
      · cases hitem
  · rintro ⟨rest, rfl, hmore⟩
    exact ⟨fields, rest, if_pos rfl, hmore⟩

theorem read_blank_iff : read fields (.blank :: pattern) cs = .ok result ↔
    read fields pattern (trimStart cs) = .ok result := by
  rw [read_cons_iff]
  constructor
  · intro ⟨next, rest, hitem, hmore⟩
    cases hitem
    exact hmore
  · intro hmore
    exact ⟨fields, trimStart cs, rfl, hmore⟩

theorem read_monthName_iff : read fields (.monthName :: pattern) cs = .ok result ↔
    ∃ month rest, scanMonth cs = some (month, rest) ∧
      read { fields with month } pattern rest = .ok result := by
  rw [read_cons_iff]
  constructor
  · intro ⟨next, rest, hitem, hmore⟩
    unfold PatternItem.read at hitem
    simp only at hitem
    split at hitem
    · cases hitem
    · next month _ hscan =>
      cases hitem
      exact ⟨month, rest, hscan, hmore⟩
  · intro ⟨month, rest, hscan, hmore⟩
    refine ⟨{ fields with month }, rest, ?_, hmore⟩
    simp only [PatternItem.read, hscan]

theorem read_fraction_iff : read fields (.fraction :: pattern) cs = .ok result ↔
    ∃ nanos rest, scanOptionalFraction cs = some (nanos, rest) ∧
      read { fields with nanos } pattern rest = .ok result := by
  rw [read_cons_iff]
  constructor
  · intro ⟨next, rest, hitem, hmore⟩
    unfold PatternItem.read at hitem
    simp only at hitem
    split at hitem
    · cases hitem
    · next nanos _ hscan =>
      cases hitem
      exact ⟨nanos, rest, hscan, hmore⟩
  · intro ⟨nanos, rest, hscan, hmore⟩
    refine ⟨{ fields with nanos }, rest, ?_, hmore⟩
    simp only [PatternItem.read, hscan]

/-! ## Written numbers and fixed parts -/

section

variable {rest : List Char} {n : Nat}

theorem read_two_iff {unit : TimeUnit} (hunit : unit ≠ .year) (hn : n < 100) :
    read fields (.number unit :: pattern) ((padded 2 n).toList ++ rest) = .ok result ↔
      unit.Allows n ∧ read (unit.put n fields) pattern rest = .ok result := by
  rw [read_short_iff hunit, trimStart_padded, scanNumber_two (by decide) hn]
  simp

/-- A year without a sign has at most four digits. -/
theorem scanYear_of_digit {c : Char} (h : c.isDigit = true) :
    scanYear (c :: rest) = (scanDigits 4 (c :: rest)).map fun (n, rest) => ((n : Int), rest) := by
  unfold scanYear
  split
  · next heq =>
    obtain ⟨rfl, -⟩ := List.cons.inj heq
    cases h
  · next heq =>
    obtain ⟨rfl, -⟩ := List.cons.inj heq
    cases h
  · rfl

theorem scanYear_padded (hn : n < 10000) :
    scanYear ((padded 4 n).toList ++ rest) = .ok ((n : Int), rest) := by
  have hscan : scanDigits 4 ((padded 4 n).toList ++ rest) = .ok (n, rest) :=
    scanDigits_eq_ok_iff.2 (scanNumber_four (by decide) hn rest)
  obtain ⟨c, more, hcons, hc⟩ := padded_eq_cons 4 n
  rw [hcons, List.cons_append] at hscan ⊢
  rw [scanYear_of_digit hc, hscan]
  rfl

theorem read_four_iff (hn : n < 10000) :
    read fields (.number .year :: pattern) ((padded 4 n).toList ++ rest) = .ok result ↔
      read { fields with year := n } pattern rest = .ok result := by
  have hset : TimeUnit.year.set (n : Int) fields = .ok { fields with year := n } := if_pos (by omega)
  rw [read_number_iff, trimStart_padded, TimeUnit.scan, scanYear_padded hn]
  simp [hset]

theorem read_literal_cons_iff {c d : Char} :
    read fields (.literal c :: pattern) (d :: rest) = .ok result ↔
      d = c ∧ read fields pattern rest = .ok result := by
  rw [read_literal_iff]
  simp [and_assoc]

end

/-! ## Whole texts -/

theorem instant_iff {t : Instant} : pattern.instant cs = .ok t ↔
    ∃ fields, read {} pattern cs = .ok (fields, []) ∧ fields.toInstant? 0 = some t := by
  constructor
  · intro h
    obtain ⟨⟨fields, rest⟩, hread, h⟩ := exists_of_bind_ok h
    simp only [List.isEmpty_iff] at h
    split at h
    · next hrest =>
      subst hrest
      split at h
      · cases h
      · next t' hinstant =>
        cases h
        exact ⟨fields, hread, hinstant⟩
    · cases h
  · intro ⟨fields, hread, hinstant⟩
    refine bind_ok hread ?_
    simp only [List.isEmpty_nil, if_true, hinstant]

end Pattern

end ShareWire.Time
