import ShareWire.Proofs.Text.Integer

/-!
# Numerals

The texts that denote integers within bounds: a sign, which may be missing, and digits. The reader of
integers accepts exactly these, and gives the integer that they denote.
-/

namespace ShareWire.Text

/-- The numerals of a base, with the integers that they denote. There is a minus sign only where integers
below zero are among the wanted ones. -/
inductive Numeral (base : Base) (least : Int) : List Char → Int → Prop where
  | bare {cs : List Char} : base.Digits cs → Numeral base least cs (base.value 0 cs)
  | plus {cs : List Char} : base.Digits cs → Numeral base least ('+' :: cs) (base.value 0 cs)
  | minus {cs : List Char} : least < 0 → base.Digits cs →
      Numeral base least ('-' :: cs) (-(base.value 0 cs : Int))

variable {base : Base} {least greatest : Int} {cs : List Char}

theorem Numeral.nonempty {v : Int} (h : Numeral base least cs v) : cs ≠ [] := by
  cases h with
  | bare hdigits => exact hdigits.nonempty
  | plus | minus => exact List.cons_ne_nil _ _

/-! ## Digits -/

theorem of_readDigits_plus (init : Nat) {v : Int}
    (h : readDigits base .plus least greatest init cs = .ok v) (hinit : (init : Int) ≤ greatest) :
    (∀ c ∈ cs, (base.digit? c).isSome = true) ∧ v = base.value init cs ∧ v ≤ greatest := by
  induction cs generalizing init with
  | nil =>
    obtain rfl := Except.ok.inj h
    exact ⟨List.forall_mem_nil _, rfl, hinit⟩
  | cons c cs ih =>
    rw [readDigits] at h
    split at h
    · contradiction
    · next digit hdigit =>
      simp only at h
      split at h
      · contradiction
      · next hle =>
        have hnext : (init : Int) * base.size + digit = ((init * base.size + digit : Nat) : Int) := by
          simp
        rw [hnext] at h hle
        obtain ⟨hdigits, hv, hbound⟩ := ih _ h (by omega)
        refine ⟨List.forall_mem_cons.2 ⟨by rw [hdigit]; rfl, hdigits⟩, ?_, hbound⟩
        rw [Base.value, hdigit]
        exact hv

theorem of_readDigits_minus (init : Nat) {v : Int}
    (h : readDigits base .minus least greatest (-(init : Int)) cs = .ok v)
    (hinit : least ≤ -(init : Int)) :
    (∀ c ∈ cs, (base.digit? c).isSome = true) ∧ v = -(base.value init cs : Int) ∧ least ≤ v := by
  induction cs generalizing init with
  | nil =>
    obtain rfl := Except.ok.inj h
    exact ⟨List.forall_mem_nil _, rfl, hinit⟩
  | cons c cs ih =>
    rw [readDigits] at h
    split at h
    · contradiction
    · next digit hdigit =>
      simp only at h
      split at h
      · contradiction
      · next hle =>
        have hnext : -(init : Int) * base.size - digit =
            -((init * base.size + digit : Nat) : Int) := by
          simp only [Int.natCast_add, Int.natCast_mul, Int.neg_mul]
          omega
        rw [hnext] at h hle
        obtain ⟨hdigits, hv, hbound⟩ := ih _ h (by omega)
        refine ⟨List.forall_mem_cons.2 ⟨by rw [hdigit]; rfl, hdigits⟩, ?_, hbound⟩
        rw [Base.value, hdigit]
        exact hv

/-! ## Signed digits -/

/-- A reader of digits that has begun behind the sign gives a numeral within the bounds. -/
theorem numeral_of_readBounded {v : Int} (hleast : least ≤ 0) (hgreatest : 0 ≤ greatest)
    (h : readBounded base least greatest cs = .ok v) :
    Numeral base least cs v ∧ least ≤ v ∧ v ≤ greatest := by
  have bare {cs : List Char} (hne : cs ≠ [])
      (h : readDigits base .plus least greatest 0 cs = .ok v) :
      base.Digits cs ∧ v = base.value 0 cs ∧ least ≤ v ∧ v ≤ greatest := by
    obtain ⟨hdigits, rfl, hbound⟩ := of_readDigits_plus 0 h hgreatest
    exact ⟨⟨hne, hdigits⟩, rfl, by omega, hbound⟩
  have minus {cs : List Char} (hne : cs ≠ [])
      (h : readDigits base .minus least greatest 0 cs = .ok v) :
      base.Digits cs ∧ v = -(base.value 0 cs : Int) ∧ least ≤ v ∧ v ≤ greatest := by
    obtain ⟨hdigits, rfl, hbound⟩ := of_readDigits_minus 0 h hleast
    exact ⟨⟨hne, hdigits⟩, rfl, hbound, by omega⟩
  match cs with
  | [] => cases h
  | [c] =>
    rw [readBounded] at h
    split at h
    · contradiction
    · obtain ⟨hdigits, rfl, hrange⟩ := bare (List.cons_ne_nil _ _) h
      exact ⟨.bare hdigits, hrange⟩
  | c :: d :: cs =>
    rw [readBounded] at h
    · split at h
      · next hc =>
        obtain rfl := hc
        obtain ⟨hdigits, rfl, hrange⟩ := bare (List.cons_ne_nil _ _) h
        exact ⟨.plus hdigits, hrange⟩
      · split at h
        · next hc =>
          obtain ⟨rfl, hnegative⟩ : c = '-' ∧ least < 0 := by simpa using hc
          obtain ⟨hdigits, rfl, hrange⟩ := minus (List.cons_ne_nil _ _) h
          exact ⟨.minus hnegative hdigits, hrange⟩
        · obtain ⟨hdigits, rfl, hrange⟩ := bare (List.cons_ne_nil _ _) h
          exact ⟨.bare hdigits, hrange⟩
    · simp

theorem readBounded_plus (hcs : base.Digits cs) (hle : (base.value 0 cs : Int) ≤ greatest) :
    readBounded base least greatest ('+' :: cs) = .ok (base.value 0 cs : Int) := by
  rw [readBounded_plus_cons hcs.nonempty]
  exact readDigits_plus least hcs.digits hle

theorem readBounded_eq_ok_iff {v : Int} (hleast : least ≤ 0) (hgreatest : 0 ≤ greatest) :
    readBounded base least greatest cs = .ok v ↔
      Numeral base least cs v ∧ least ≤ v ∧ v ≤ greatest := by
  refine ⟨numeral_of_readBounded hleast hgreatest, ?_⟩
  rintro ⟨hnumeral, hlow, hhigh⟩
  cases hnumeral with
  | bare hdigits => exact readBounded_digits hdigits hhigh
  | plus hdigits => exact readBounded_plus hdigits hhigh
  | minus hnegative hdigits => exact readBounded_minus hdigits hnegative hlow

/-! ## Numerals out of bounds -/

/-- The first digit that takes the value beyond the greatest one ends the reading. -/
theorem readDigits_tooLarge (init : Nat) (hcs : ∀ c ∈ cs, (base.digit? c).isSome = true)
    (hinit : (init : Int) ≤ greatest) (hlt : greatest < base.value init cs) :
    readDigits base .plus least greatest init cs = .error .tooLarge := by
  induction cs generalizing init with
  | nil => exact absurd hinit (Int.not_le.2 hlt)
  | cons c cs ih =>
    obtain ⟨digit, hdigit⟩ := Option.isSome_iff_exists.1 (hcs c List.mem_cons_self)
    have hnext : (init : Int) * base.size + digit = ((init * base.size + digit : Nat) : Int) := by
      simp
    simp only [Base.value, hdigit, Option.getD_some] at hlt
    simp only [readDigits, hdigit]
    rw [hnext]
    split
    · rfl
    · next hle => exact ih _ (fun c hc => hcs c (List.mem_cons_of_mem _ hc)) (by omega) hlt

theorem readDigits_tooSmall (init : Nat) (hcs : ∀ c ∈ cs, (base.digit? c).isSome = true)
    (hinit : least ≤ -(init : Int)) (hlt : -(base.value init cs : Int) < least) :
    readDigits base .minus least greatest (-(init : Int)) cs = .error .tooSmall := by
  induction cs generalizing init with
  | nil => exact absurd hinit (Int.not_le.2 hlt)
  | cons c cs ih =>
    obtain ⟨digit, hdigit⟩ := Option.isSome_iff_exists.1 (hcs c List.mem_cons_self)
    have hnext : -(init : Int) * base.size - digit = -((init * base.size + digit : Nat) : Int) := by
      simp only [Int.natCast_add, Int.natCast_mul, Int.neg_mul]
      omega
    simp only [Base.value, hdigit, Option.getD_some] at hlt
    simp only [readDigits, hdigit]
    rw [hnext]
    split
    · rfl
    · next hle => exact ih _ (fun c hc => hcs c (List.mem_cons_of_mem _ hc)) (by omega) hlt

theorem readBounded_tooLarge {v : Int} (h : Numeral base least cs v) (hgreatest : 0 ≤ greatest)
    (hlt : greatest < v) : readBounded base least greatest cs = .error .tooLarge := by
  cases h with
  | bare hdigits =>
    rw [readBounded_bare hdigits]
    exact readDigits_tooLarge 0 hdigits.digits hgreatest hlt
  | plus hdigits =>
    rw [readBounded_plus_cons hdigits.nonempty]
    exact readDigits_tooLarge 0 hdigits.digits hgreatest hlt
  | minus _ hdigits => omega

theorem readBounded_tooSmall {v : Int} (h : Numeral base least cs v) (hleast : least ≤ 0)
    (hlt : v < least) : readBounded base least greatest cs = .error .tooSmall := by
  cases h with
  | bare | plus => omega
  | minus hnegative hdigits =>
    rw [readBounded_minus_cons hnegative hdigits.nonempty]
    exact readDigits_tooSmall 0 hdigits.digits hleast hlt

/-! ## Texts of values -/

/-- A decimal text denotes an integer within bounds, white space around it aside. -/
def Denotes (least greatest : Int) (s : String) (n : Int) : Prop :=
  Numeral .decimal least (trim s.toList) n ∧ least ≤ n ∧ n ≤ greatest

end ShareWire.Text
