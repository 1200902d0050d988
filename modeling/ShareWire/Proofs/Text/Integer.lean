import ShareWire.Proofs.Text.Blank
import ShareWire.Text.Integer

/-!
# Laws of integer texts

Digits are read to the number that they denote, provided that it stays within the bounds of the type.
In particular the decimal text of an integer is read to that integer.
-/

namespace ShareWire.Text

/-- The number that digits of a base denote, behind digits that denote `init`. Characters that are no
digits count as zero. -/
def Base.value (base : Base) (init : Nat) : List Char → Nat
  | [] => init
  | c :: cs => base.value (init * base.size + (base.digit? c).getD 0) cs

structure Base.Digits (base : Base) (cs : List Char) : Prop where
  nonempty : cs ≠ []
  digits : ∀ c ∈ cs, (base.digit? c).isSome = true

instance (base : Base) (cs : List Char) : Decidable (base.Digits cs) :=
  decidable_of_iff (cs ≠ [] ∧ (cs.all fun c => (base.digit? c).isSome) = true)
    ⟨fun h => ⟨h.1, List.all_eq_true.1 h.2⟩, fun h => ⟨h.1, List.all_eq_true.2 h.2⟩⟩

theorem Base.size_pos (base : Base) : 0 < base.size := by
  cases base <;> decide

theorem Base.le_value (base : Base) (init : Nat) (cs : List Char) : init ≤ base.value init cs := by
  induction cs generalizing init with
  | nil => exact Nat.le_refl _
  | cons c cs ih =>
    have hmul := Nat.le_mul_of_pos_right init base.size_pos
    have hrest := ih (init * base.size + (base.digit? c).getD 0)
    rw [value]
    omega

theorem Base.digit?_plus (base : Base) : base.digit? '+' = none := by
  cases base <;> rfl

theorem Base.digit?_minus (base : Base) : base.digit? '-' = none := by
  cases base <;> rfl

/-! ## Reading digits -/

theorem readDigits_plus {base : Base} (least : Int) {greatest : Int} {init : Nat} {cs : List Char}
    (hcs : ∀ c ∈ cs, (base.digit? c).isSome = true) (hle : (base.value init cs : Int) ≤ greatest) :
    readDigits base .plus least greatest init cs = .ok (base.value init cs : Int) := by
  induction cs generalizing init with
  | nil => rfl
  | cons c cs ih =>
    obtain ⟨digit, hdigit⟩ := Option.isSome_iff_exists.1 (hcs c (by simp))
    have hnext : (init : Int) * base.size + digit = ((init * base.size + digit : Nat) : Int) := by
      simp
    simp only [Base.value, hdigit, Option.getD_some] at hle ⊢
    have hgrow := base.le_value (init * base.size + digit) cs
    simp only [readDigits, hdigit]
    rw [hnext, if_neg (by omega)]
    exact ih (fun c hc => hcs c (by simp [hc])) hle

theorem readDigits_minus {base : Base} {least : Int} (greatest : Int) {init : Nat} {cs : List Char}
    (hcs : ∀ c ∈ cs, (base.digit? c).isSome = true) (hle : least ≤ -(base.value init cs : Int)) :
    readDigits base .minus least greatest (-(init : Int)) cs = .ok (-(base.value init cs : Int)) := by
  induction cs generalizing init with
  | nil => rfl
  | cons c cs ih =>
    obtain ⟨digit, hdigit⟩ := Option.isSome_iff_exists.1 (hcs c (by simp))
    have hnext : -(init : Int) * base.size - digit = -((init * base.size + digit : Nat) : Int) := by
      simp only [Int.natCast_add, Int.natCast_mul, Int.neg_mul]
      omega
    simp only [Base.value, hdigit, Option.getD_some] at hle ⊢
    have hgrow := base.le_value (init * base.size + digit) cs
    simp only [readDigits, hdigit]
    rw [hnext, if_neg (by omega)]
    exact ih (fun c hc => hcs c (by simp [hc])) hle

/-! ## Signs -/

section Signs

variable {base : Base} {least greatest : Int} {cs : List Char}

theorem readBounded_bare (hcs : base.Digits cs) :
    readBounded base least greatest cs = readDigits base .plus least greatest 0 cs := by
  match cs, hcs with
  | [c], hcs =>
    have hc := hcs.digits c (by simp)
    have hplus : c ≠ '+' := by rintro rfl; simp [base.digit?_plus] at hc
    have hminus : c ≠ '-' := by rintro rfl; simp [base.digit?_minus] at hc
    simp [readBounded, hplus, hminus]
  | c :: d :: cs, hcs =>
    have hc := hcs.digits c (by simp)
    have hplus : c ≠ '+' := by rintro rfl; simp [base.digit?_plus] at hc
    have hminus : c ≠ '-' := by rintro rfl; simp [base.digit?_minus] at hc
    simp [readBounded, hplus, hminus]

theorem readBounded_plus_cons (hne : cs ≠ []) :
    readBounded base least greatest ('+' :: cs) = readDigits base .plus least greatest 0 cs := by
  match cs, hne with
  | c :: cs, _ => simp [readBounded]

theorem readBounded_minus_cons (hleast : least < 0) (hne : cs ≠ []) :
    readBounded base least greatest ('-' :: cs) = readDigits base .minus least greatest 0 cs := by
  match cs, hne with
  | c :: cs, _ => simp [readBounded, hleast]

theorem readBounded_digits (hcs : base.Digits cs) (hle : (base.value 0 cs : Int) ≤ greatest) :
    readBounded base least greatest cs = .ok (base.value 0 cs : Int) := by
  rw [readBounded_bare hcs]
  exact readDigits_plus least hcs.digits hle

theorem readBounded_minus (hcs : base.Digits cs) (hleast : least < 0)
    (hle : least ≤ -(base.value 0 cs : Int)) :
    readBounded base least greatest ('-' :: cs) = .ok (-(base.value 0 cs : Int)) := by
  rw [readBounded_minus_cons hleast hcs.nonempty]
  exact readDigits_minus greatest hcs.digits hle

end Signs

/-! ## Reading decimal texts -/

class LawfulFixedWidth (α : Type) [FixedWidth α] : Prop where
  least_le : ∀ n : α, FixedWidth.least α ≤ FixedWidth.toInt n
  le_greatest : ∀ n : α, FixedWidth.toInt n ≤ FixedWidth.greatest α
  ofInt_toInt : ∀ n : α, FixedWidth.ofInt (FixedWidth.toInt n) = n
  toInt_ofInt : ∀ n : Int, FixedWidth.least α ≤ n → n ≤ FixedWidth.greatest α →
    FixedWidth.toInt (FixedWidth.ofInt n : α) = n

instance : LawfulFixedWidth Int32 where
  least_le n := n.le_toInt
  le_greatest n := n.toInt_le
  ofInt_toInt _ := Int32.ofInt_toInt _
  toInt_ofInt _ hleast hgreatest := Int32.toInt_ofInt_of_le hleast (Int.lt_add_one_of_le hgreatest)

instance : LawfulFixedWidth Int64 where
  least_le n := n.le_toInt
  le_greatest n := n.toInt_le
  ofInt_toInt _ := Int64.ofInt_toInt _
  toInt_ofInt _ hleast hgreatest := Int64.toInt_ofInt_of_le hleast (Int.lt_add_one_of_le hgreatest)

instance : LawfulFixedWidth UInt64 where
  least_le n := Int.natCast_nonneg n.toNat
  le_greatest n := Int.le_of_lt_add_one (Int.ofNat_lt.2 n.toNat_lt)
  ofInt_toInt n := by
    show UInt64.ofNat (n.toNat : Int).toNat = n
    rw [Int.toNat_natCast, UInt64.ofNat_toNat]
  toInt_ofInt n hleast hgreatest := by
    have hleast : 0 ≤ n := hleast
    have hgreatest : n ≤ 18446744073709551615 := hgreatest
    show ((UInt64.ofNat n.toNat).toNat : Int) = n
    rw [UInt64.toNat_ofNat_of_lt' (by simp only [UInt64.size]; omega)]
    exact Int.toNat_of_nonneg hleast

theorem decimal_digit?_of_isDigit {c : Char} (h : c.isDigit = true) :
    Base.decimal.digit? c = some (c.toNat - 48) := by
  simp only [Char.isDigit, Bool.and_eq_true, decide_eq_true_eq] at h
  have hrange : '0' ≤ c ∧ c ≤ '9' := h
  rw [Base.digit?, if_pos (by simpa using hrange)]

theorem isDigit_of_decimal_digit? {c : Char} (h : (Base.decimal.digit? c).isSome = true) :
    c.isDigit = true := by
  rw [Base.digit?] at h
  split at h
  · next hrange =>
    obtain ⟨hlow, hhigh⟩ : '0' ≤ c ∧ c ≤ '9' := by simpa using hrange
    simp only [Char.isDigit, Bool.and_eq_true, decide_eq_true_eq]
    exact ⟨hlow, hhigh⟩
  · cases h

theorem decimal_digits_toDigits (n : Nat) : Base.decimal.Digits (Nat.toDigits 10 n) where
  nonempty := Nat.toDigits_ne_nil
  digits c hc := by
    rw [decimal_digit?_of_isDigit (Nat.isDigit_of_mem_toDigits (by decide) (by decide) hc)]
    rfl

theorem decimal_value {cs : List Char} (hcs : ∀ c ∈ cs, c.isDigit = true) (init : Nat) :
    Base.decimal.value init cs = Nat.ofDigitChars 10 cs init := by
  induction cs generalizing init with
  | nil => simp [Base.value]
  | cons c cs ih =>
    rw [Base.value, decimal_digit?_of_isDigit (hcs c (by simp)), Nat.ofDigitChars_cons,
      ih (fun c hc => hcs c (by simp [hc])), Nat.mul_comm]
    rfl

theorem decimal_value_toDigits (n : Nat) : Base.decimal.value 0 (Nat.toDigits 10 n) = n := by
  rw [decimal_value (fun c hc => Nat.isDigit_of_mem_toDigits (by decide) (by decide) hc),
    Nat.ofDigitChars_ten_toDigits]

theorem toString_toList (n : Int) : (toString n).toList =
    if n < 0 then '-' :: Nat.toDigits 10 n.natAbs else Nat.toDigits 10 n.natAbs := by
  cases n with
  | ofNat m => simp [toString, Int.repr]
  | negSucc m => simp [toString, Int.repr]

theorem integerText_toList {α : Type} [FixedWidth α] (n : α) :
    (integerText n).toList =
      if FixedWidth.toInt n < 0 then '-' :: Nat.toDigits 10 (FixedWidth.toInt n).natAbs
      else Nat.toDigits 10 (FixedWidth.toInt n).natAbs :=
  toString_toList (FixedWidth.toInt n)

/-- The decimal text of an integer is read to that integer. -/
theorem readInteger_integerText {α : Type} [FixedWidth α] [LawfulFixedWidth α] (n : α) :
    readInteger α .decimal (integerText n).toList = .ok n := by
  have hleast := LawfulFixedWidth.least_le n
  have hgreatest := LawfulFixedWidth.le_greatest n
  have hdigits := decimal_digits_toDigits (FixedWidth.toInt n).natAbs
  have hvalue := decimal_value_toDigits (FixedWidth.toInt n).natAbs
  have hread : readBounded .decimal (FixedWidth.least α) (FixedWidth.greatest α)
      (integerText n).toList = .ok (FixedWidth.toInt n) := by
    rw [integerText_toList]
    split
    · rw [readBounded_minus hdigits (by omega) (by rw [hvalue]; omega), hvalue]
      congr 1; omega
    · rw [readBounded_digits hdigits (by rw [hvalue]; omega), hvalue]
      congr 1; omega
  rw [readInteger, hread, Except.map, LawfulFixedWidth.ofInt_toInt]

/-- The decimal text of an integer has no white space. -/
theorem trim_integerText {α : Type} [FixedWidth α] (n : α) :
    trim (integerText n).toList = (integerText n).toList := by
  have hdigits : ∀ c ∈ Nat.toDigits 10 (FixedWidth.toInt n).natAbs, isBlank c = false :=
    fun c hc => isBlank_eq_false_of_isDigit
      (Nat.isDigit_of_mem_toDigits (by decide) (by decide) hc)
  refine trim_of_forall fun c hc => ?_
  rw [integerText_toList] at hc
  split at hc
  · rcases List.mem_cons.1 hc with rfl | hc
    · rfl
    · exact hdigits c hc
  · exact hdigits c hc

end ShareWire.Text
