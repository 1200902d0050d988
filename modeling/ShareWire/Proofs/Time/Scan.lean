import Mathlib.Algebra.Group.Nat.Defs
import ShareWire.Proofs.Text.Blank
import ShareWire.Time.Layout
import ShareWire.Time.Scan

/-!
# Scanning written numbers

A number that is written with leading zeros is scanned as that number, if the scanner stops at its
last digit, and a fraction of any length as the whole nanoseconds in it.
-/

namespace ShareWire.Time

open Text (isBlank trimStart isBlank_eq_false_of_isDigit trimStart_of_head)

/-! ## Written numbers -/

theorem padded_toList (width n : Nat) : (padded width n).toList =
    List.replicate (width - (Nat.toDigits 10 n).length) '0' ++ Nat.toDigits 10 n := by
  have hdigits : (toString n).toList = Nat.toDigits 10 n := Nat.toList_repr
  unfold padded
  rw [String.toList_append, String.toList_ofList, ← String.length_toList, hdigits]

theorem isDigit_of_mem_padded {width n : Nat} {c : Char} (h : c ∈ (padded width n).toList) :
    c.isDigit = true := by
  rw [padded_toList] at h
  rcases List.mem_append.1 h with h | h
  · rw [List.eq_of_mem_replicate h]
    rfl
  · exact Nat.isDigit_of_mem_toDigits (by decide) (by decide) h

theorem padded_eq_cons (width n : Nat) :
    ∃ c rest, (padded width n).toList = c :: rest ∧ c.isDigit = true := by
  have hne : (padded width n).toList ≠ [] := by
    rw [padded_toList]
    exact List.append_ne_nil_of_right_ne_nil _ Nat.toDigits_ne_nil
  obtain ⟨c, rest, hcons⟩ := List.exists_cons_of_ne_nil hne
  exact ⟨c, rest, hcons, isDigit_of_mem_padded (by rw [hcons]; simp)⟩

theorem length_padded {width n : Nat} (h : (Nat.toDigits 10 n).length ≤ width) :
    (padded width n).toList.length = width := by
  rw [padded_toList, List.length_append, List.length_replicate]
  omega

theorem padded_one {n : Nat} (h : n < 10) : (padded 1 n).toList = [Nat.digitChar n] := by
  rw [padded_toList, Nat.toDigits_of_lt_base h]
  rfl

/-- The last digit stands behind what is written of the other ones. -/
theorem padded_succ {width : Nat} (hwidth : 0 < width) (n : Nat) :
    (padded (width + 1) n).toList = (padded width (n / 10)).toList ++ [Nat.digitChar (n % 10)] := by
  rw [padded_toList, padded_toList]
  by_cases hn : n < 10
  · obtain ⟨width, rfl⟩ := Nat.exists_eq_succ_of_ne_zero (by omega : width ≠ 0)
    rw [Nat.div_eq_of_lt hn, Nat.mod_eq_of_lt hn, Nat.toDigits_of_lt_base hn, Nat.toDigits_zero]
    exact congrArg (· ++ [Nat.digitChar n]) (List.replicate_succ' (n := width))
  · rw [Nat.toDigits_of_base_le (by decide) (by omega), List.length_append, ← List.append_assoc]
    exact congrArg (List.replicate · '0' ++ _ ++ _) (by simp)

theorem natOfDigits_eq (digits : List Char) : natOfDigits digits = Nat.ofDigitChars 10 digits 0 := by
  rw [natOfDigits, Nat.ofDigitChars_eq_foldl]
  congr 1
  funext n c
  rw [Nat.mul_comm]
  rfl

theorem natOfDigits_padded (width n : Nat) : natOfDigits (padded width n).toList = n := by
  rw [natOfDigits_eq, padded_toList, Nat.ofDigitChars_append, Nat.ofDigitChars_replicate_zero,
    Nat.mul_zero, Nat.ofDigitChars_ten_toDigits]

/-! ## Scanning -/

theorem bind_some {α β : Type} {x : Option α} {f : α → Option β} {a : α} {b : β}
    (hx : x = some a) (hf : f a = some b) : x >>= f = some b := by
  rw [hx]
  exact hf

/-- What has a property is taken up to the first character without it. -/
theorem takeWhile_append_stop {p : Char → Bool} {cs rest : List Char} (hcs : ∀ c ∈ cs, p c = true)
    (hstop : ∀ c ∈ rest.head?, p c = false) :
    (cs ++ rest).takeWhile p = cs ∧ (cs ++ rest).dropWhile p = rest := by
  rw [List.takeWhile_append_of_pos hcs, List.dropWhile_append_of_pos hcs]
  cases rest with
  | nil => exact ⟨List.append_nil cs, rfl⟩
  | cons c rest => simp [hstop c rfl]

theorem leadingDigits_append {limit : Nat} {digits rest : List Char}
    (hdigits : ∀ c ∈ digits, c.isDigit = true) (hlimit : digits.length ≤ limit)
    (hstop : digits.length = limit ∨ ∀ c ∈ rest.head?, c.isDigit = false) :
    leadingDigits limit (digits ++ rest) = digits := by
  have hrest : (rest.take (limit - digits.length)).takeWhile Char.isDigit = [] := by
    rcases hstop with heq | hstop
    · rw [heq, Nat.sub_self]
      rfl
    · cases rest with
      | nil => simp
      | cons c rest =>
        cases limit - digits.length with
        | zero => rfl
        | succ k => rw [List.take_succ_cons, List.takeWhile_cons_of_neg (by simpa using hstop c rfl)]
  rw [leadingDigits, List.take_append, List.take_of_length_le hlimit,
    List.takeWhile_append_of_pos hdigits, hrest, List.append_nil]

theorem scanNumber_append {least limit : Nat} {digits rest : List Char}
    (hdigits : ∀ c ∈ digits, c.isDigit = true) (hleast : least ≤ digits.length)
    (hlimit : digits.length ≤ limit)
    (hstop : digits.length = limit ∨ ∀ c ∈ rest.head?, c.isDigit = false) :
    scanNumber least limit (digits ++ rest) = some (natOfDigits digits, rest) := by
  rw [scanNumber, leadingDigits_append hdigits hlimit hstop, if_neg (by omega), List.drop_left]

/-- A number that fills the width of the scanner is scanned whatever follows. -/
theorem scanNumber_padded {least width n : Nat} (hleast : least ≤ width)
    (h : (Nat.toDigits 10 n).length ≤ width) (rest : List Char) :
    scanNumber least width ((padded width n).toList ++ rest) = some (n, rest) := by
  have hlength := length_padded h
  rw [scanNumber_append (fun _ => isDigit_of_mem_padded) (by omega) (by omega) (.inl hlength),
    natOfDigits_padded]

theorem scanNumber_two {least n : Nat} (hleast : least ≤ 2) (h : n < 100) (rest : List Char) :
    scanNumber least 2 ((padded 2 n).toList ++ rest) = some (n, rest) :=
  scanNumber_padded hleast ((Nat.length_toDigits_le_iff (by decide) (by decide)).2 h) rest

theorem scanNumber_four {least n : Nat} (hleast : least ≤ 4) (h : n < 10000) (rest : List Char) :
    scanNumber least 4 ((padded 4 n).toList ++ rest) = some (n, rest) :=
  scanNumber_padded hleast ((Nat.length_toDigits_le_iff (by decide) (by decide)).2 h) rest

theorem trimStart_padded (width n : Nat) (rest : List Char) :
    trimStart ((padded width n).toList ++ rest) = (padded width n).toList ++ rest := by
  obtain ⟨c, more, hcons, hc⟩ := padded_eq_cons width n
  refine trimStart_of_head fun d hd => ?_
  rw [hcons, List.cons_append, List.head?_cons] at hd
  obtain rfl := Option.some.inj hd
  exact isBlank_eq_false_of_isDigit hc

/-! ## Fractions -/

theorem ofDigitChars_lt {digits : List Char} (h : ∀ c ∈ digits, c.isDigit = true) :
    Nat.ofDigitChars 10 digits 0 < 10 ^ digits.length := by
  induction digits with
  | nil => decide
  | cons c digits ih =>
    have hc := Char.isDigit_iff_toNat.1 (h c List.mem_cons_self)
    have hdigits := ih fun d hd => h d (List.mem_cons_of_mem c hd)
    simp only [Char.reduceToNat] at hc
    rw [Nat.ofDigitChars_cons, Nat.ofDigitChars_eq_ofDigitChars_zero, List.length_cons, Nat.pow_succ]
    have hmul : 10 ^ digits.length * (10 * 0 + (c.toNat - '0'.toNat)) ≤ 10 ^ digits.length * 9 :=
      Nat.mul_le_mul_left _ (by simp only [Char.reduceToNat]; omega)
    omega

theorem nanosOfDigits_eq {digits : List Char} (h : ∀ c ∈ digits, c.isDigit = true) :
    nanosOfDigits digits =
      Nat.ofDigitChars 10 digits 0 * 1000000000 / 10 ^ digits.length := by
  have hzeros : Nat.ofDigitChars 10 (digits ++ List.replicate 9 '0') 0 =
      Nat.ofDigitChars 10 digits 0 * 1000000000 := by
    rw [Nat.ofDigitChars_append, Nat.ofDigitChars_replicate_zero]
    omega
  have hall : ∀ c ∈ digits ++ List.replicate 9 '0', c.isDigit = true := by
    intro c hc
    rcases List.mem_append.1 hc with hc | hc
    · exact h c hc
    · rw [List.eq_of_mem_replicate hc]
      rfl
  have hlength : ((digits ++ List.replicate 9 '0').drop 9).length = digits.length := by simp
  have hlow : Nat.ofDigitChars 10 ((digits ++ List.replicate 9 '0').drop 9) 0 <
      10 ^ digits.length := by
    rw [← hlength]
    exact ofDigitChars_lt fun c hc => hall c (List.mem_of_mem_drop hc)
  -- The nine digits that count, and as many behind them as there are in the fraction.
  have hsplit : Nat.ofDigitChars 10 digits 0 * 1000000000 = 10 ^ digits.length *
      nanosOfDigits digits +
        Nat.ofDigitChars 10 ((digits ++ List.replicate 9 '0').drop 9) 0 := by
    rw [← hzeros, nanosOfDigits, natOfDigits_eq, ← hlength, ← Nat.ofDigitChars_eq_ofDigitChars_zero,
      ← Nat.ofDigitChars_append, List.take_append_drop]
  rw [hsplit, Nat.mul_add_div (Nat.pow_pos (by decide)), Nat.div_eq_of_lt hlow, Nat.add_zero]

/-- The digits of a fraction are scanned up to the first character that is none. -/
theorem scanFraction_append {digits rest : List Char} (hne : digits ≠ [])
    (hdigits : ∀ c ∈ digits, c.isDigit = true) (hstop : ∀ c ∈ rest.head?, c.isDigit = false) :
    scanFraction (digits ++ rest) = some (nanosOfDigits digits, rest) := by
  obtain ⟨htake, hdrop⟩ := takeWhile_append_stop hdigits hstop
  rw [scanFraction, htake, hdrop, if_neg (by simpa using hne)]

/-! ## Scanners taken apart -/

def StartsBlank (cs : List Char) : Prop :=
  ∃ c ∈ cs.head?, isBlank c = true

theorem isDigit_eq_false_of_isBlank {c : Char} (h : isBlank c = true) : c.isDigit = false := by
  by_contra hdigit
  rw [Text.isBlank_eq_false_of_isDigit (Bool.not_eq_false _ ▸ hdigit)] at h
  cases h

theorem StartsBlank.stop {cs : List Char} (h : StartsBlank cs) : ∀ c ∈ cs.head?, c.isDigit = false := by
  obtain ⟨b, hb, hblank⟩ := h
  intro c hc
  obtain rfl := Option.some.inj (hb.symm.trans hc)
  exact isDigit_eq_false_of_isBlank hblank

theorem scanBlank_eq_some_iff {cs rest : List Char} :
    scanBlank cs = some rest ↔ StartsBlank cs ∧ trimStart cs = rest := by
  cases cs with
  | nil => simp [scanBlank, StartsBlank]
  | cons c cs =>
    by_cases hc : isBlank c = true
    · simp [scanBlank, StartsBlank, hc, trimStart]
    · simp [scanBlank, StartsBlank, hc]

theorem scanChar_eq_some_iff {c : Char} {cs rest : List Char} :
    scanChar c cs = some rest ↔ cs = c :: rest := by
  cases cs with
  | nil => simp [scanChar]
  | cons d cs => simp [scanChar]

theorem exists_of_scanNumber {least limit n : Nat} {cs rest : List Char}
    (h : scanNumber least limit cs = some (n, rest)) :
    ∃ digits, cs = digits ++ rest ∧ (∀ c ∈ digits, c.isDigit = true) ∧ least ≤ digits.length := by
  unfold scanNumber at h
  simp only at h
  split at h
  · cases h
  · next hleast =>
    obtain ⟨-, rfl⟩ := Prod.mk.inj (Option.some.inj h)
    have hprefix : leadingDigits limit cs <+: cs :=
      (List.takeWhile_prefix _).trans (List.take_prefix _ _)
    refine ⟨leadingDigits limit cs, ?_, fun c hc => List.mem_takeWhile_imp hc, by omega⟩
    exact (List.prefix_iff_eq_append.1 hprefix).symm

/-- A scanner that asks for fewer digits takes the same ones. -/
theorem scanNumber_of_least {least fewer limit : Nat} {cs : List Char} {result : Nat × List Char}
    (hfewer : fewer ≤ least) (h : scanNumber least limit cs = some result) :
    scanNumber fewer limit cs = some result := by
  unfold scanNumber at h ⊢
  simp only at h ⊢
  split at h
  · cases h
  · rw [if_neg (by omega), h]

theorem trimStart_of_scanNumber {least limit : Nat} {cs : List Char} {result : Nat × List Char}
    (hleast : 0 < least) (h : scanNumber least limit cs = some result) : trimStart cs = cs := by
  obtain ⟨digits, rfl, hdigits, hlength⟩ := exists_of_scanNumber h
  obtain ⟨c, more, rfl⟩ := List.exists_cons_of_length_pos (Nat.lt_of_lt_of_le hleast hlength)
  refine trimStart_of_head fun b hb => ?_
  obtain rfl := Option.some.inj hb
  exact Text.isBlank_eq_false_of_isDigit (hdigits _ List.mem_cons_self)

theorem drop_of_scanMonth {month : Nat} {cs rest : List Char} (h : scanMonth cs = some (month, rest)) :
    rest = cs.drop 3 := by
  obtain ⟨index, _, heq⟩ := Option.map_eq_some_iff.1 h
  exact (Prod.mk.inj heq).2.symm

end ShareWire.Time
