import ShareWire.Proofs.Document.Reference

/-!
# The grammar of references

A reference is a predefined name, or the number of a character in decimal or hexadecimal digits. Main
statement: all of these are resolved, and a number that has a plus sign is resolved too; every other body
is an error that quotes it.
-/

namespace ShareWire.Reference

open Text (Base Numeral)

/-! ## Grammar -/

inductive Proper : String → Char → Prop where
  | named {name : String} {c : Char} : (name, c) ∈ predefined → Proper name c
  | number {base : Base} {digits : List Char} {c : Char} : base.Digits digits →
      base.value 0 digits = c.toNat → Proper (numberBody base digits) c

/-- Bodies that are outside the grammar: a number with a plus sign before its digits. -/
inductive Signed : String → Char → Prop where
  | number {base : Base} {digits : List Char} {c : Char} : base.Digits digits →
      base.value 0 digits = c.toNat → Signed (numberBody base ('+' :: digits)) c

/-- The ways to say that a body stands for no character. All of them quote it. -/
inductive Quotes (body : String) : ValueError → Prop where
  | name : Quotes body (.unknownEntity body)
  | digits (fault : Text.IntegerFault) : Quotes body (.referenceNumber body fault)
  | character : Quotes body (.notCharacter body)

theorem plus_mem_of_signed {body : String} {c : Char} (h : Signed body c) : '+' ∈ body.toList := by
  obtain ⟨-, -⟩ := h
  simp [numberBody]

theorem plus_not_mem_of_proper {body : String} {c : Char} (h : Proper body c) :
    '+' ∉ body.toList := by
  cases h with
  | named hname =>
    simp only [predefined, List.mem_cons, List.not_mem_nil, or_false, Prod.mk.injEq] at hname
    rcases hname with ⟨rfl, -⟩ | ⟨rfl, -⟩ | ⟨rfl, -⟩ | ⟨rfl, -⟩ | ⟨rfl, -⟩ <;> decide
  | @number base digits _ hdigits =>
    rw [numberBody, String.toList_ofList, List.mem_append]
    rintro (hmark | hplus)
    · cases base <;> exact absurd hmark (by decide)
    · have hdigit := hdigits.digits '+' hplus
      rw [base.digit?_plus] at hdigit
      cases hdigit

/-- No body is in the grammar and outside it. -/
theorem Signed.not_proper {body : String} {c d : Char} (h : Signed body c) : ¬ Proper body d :=
  fun hproper => plus_not_mem_of_proper hproper (plus_mem_of_signed h)

/-! ## Numbers -/

/-- Leading zeros do not change what digits denote. -/
theorem value_leading_zeros (base : Base) (count : Nat) (digits : List Char) :
    base.value 0 (List.replicate count '0' ++ digits) = base.value 0 digits := by
  have hzero : base.digit? '0' = some 0 := by cases base <;> rfl
  induction count with
  | zero => rfl
  | succ count ih =>
    rw [List.replicate_succ, List.cons_append, Base.value, hzero]
    simpa using ih

theorem digits_leading_zeros {base : Base} {digits : List Char} (h : base.Digits digits) (count : Nat) :
    base.Digits (List.replicate count '0' ++ digits) where
  nonempty := List.append_ne_nil_of_right_ne_nil _ h.nonempty
  digits c hc := by
    rcases List.mem_append.1 hc with hc | hc
    · obtain rfl := List.eq_of_mem_replicate hc
      cases base <;> rfl
    · exact h.digits c hc

/-! ## Main statement -/

theorem proper_or_signed_of_stands {body : String} {c : Char} (h : Stands body c) :
    Proper body c ∨ Signed body c := by
  have number (base : Base) {cs : List Char} (hcs : Numeral base 0 cs c.toNat) :
      Proper (numberBody base cs) c ∨ Signed (numberBody base cs) c := by
    generalize hv : (c.toNat : Int) = v at hcs
    cases hcs with
    | bare hdigits => exact .inl (.number hdigits (Int.ofNat_inj.1 hv.symm))
    | plus hdigits => exact .inr (.number hdigits (Int.ofNat_inj.1 hv.symm))
    | minus hnegative => exact absurd hnegative (by decide)
  cases h with
  | named hname => exact .inl (.named hname)
  | decimal hcs => exact number .decimal hcs
  | hexadecimal hcs => exact number .hexadecimal hcs

theorem resolve_of_proper_or_signed {body : String} {c : Char} (h : Proper body c ∨ Signed body c) :
    resolve body = .ok c := by
  rcases h with h | h
  · cases h with
    | named hname => exact resolve_predefined hname
    | number hdigits hvalue => exact resolve_digits hdigits hvalue
  · obtain ⟨hdigits, hvalue⟩ := h
    exact resolve_numberBody (hvalue ▸ .plus hdigits)

theorem quotes_of_numbered {body : String} {base : Base} {cs : List Char} {fault : ValueError}
    (h : numbered body base cs = .error fault) : Quotes body fault := by
  unfold numbered at h
  split at h
  · cases h
    exact .digits _
  · split at h
    · contradiction
    · cases h
      exact .character

theorem quotes_of_resolve {body : String} {fault : ValueError} (h : resolve body = .error fault) :
    Quotes body fault := by
  unfold resolve at h
  split at h
  · exact quotes_of_numbered h
  · exact quotes_of_numbered h
  · split at h
    · contradiction
    · cases h
      exact .name

/-- Exactly the references of the grammar are resolved, to the characters that they stand for, and besides
them the numbers with a plus sign, of which none is in the grammar. Every other body is an error that
quotes it. Leading zeros make no difference. -/
theorem resolve_grammar (body : String) :
    (∀ c, resolve body = .ok c ↔ Proper body c ∨ Signed body c) ∧
    (∀ c d, Signed body c → ¬ Proper body d) ∧
    ((∀ c, ¬ Proper body c ∧ ¬ Signed body c) →
      ∃ fault, resolve body = .error fault ∧ Quotes body fault) ∧
    ∀ (base : Base) (digits : List Char) (c : Char) (zeros : Nat), base.Digits digits →
      base.value 0 digits = c.toNat →
      resolve (numberBody base (List.replicate zeros '0' ++ digits)) = .ok c := by
  refine ⟨fun c => ⟨fun h => proper_or_signed_of_stands (stands_of_resolve h),
    resolve_of_proper_or_signed⟩, fun c d => Signed.not_proper, fun hnone => ?_, ?_⟩
  · cases hbody : resolve body with
    | error fault => exact ⟨fault, rfl, quotes_of_resolve hbody⟩
    | ok c =>
      obtain ⟨hproper, hsigned⟩ := hnone c
      exact absurd (proper_or_signed_of_stands (stands_of_resolve hbody)) (not_or.2 ⟨hproper, hsigned⟩)
  · intro base digits c zeros hdigits hvalue
    exact resolve_of_proper_or_signed
      (.inl (.number (digits_leading_zeros hdigits zeros) (by rw [value_leading_zeros, hvalue])))

/-- An unknown name, and the letter A behind two zeros. -/
theorem resolve_grammar_shy_and_zeros :
    (∃ fault, resolve "shy" = .error fault ∧ Quotes "shy" fault) ∧
    resolve (numberBody .hexadecimal (List.replicate 2 '0' ++ ['4', '1'])) = .ok 'A' := by
  refine ⟨(resolve_grammar "shy").2.2.1 fun c => ?_,
    (resolve_grammar "").2.2.2 .hexadecimal ['4', '1'] 'A' 2 (by decide) (by decide)⟩
  have hshy : resolve "shy" = .error (.unknownEntity "shy") := rfl
  refine not_or.1 fun h => ?_
  have hc := resolve_of_proper_or_signed h
  rw [hshy] at hc
  contradiction

/-- A number with a plus sign is resolved, and no character has this reference in the grammar. -/
theorem resolve_plus_sixty_five : resolve "#+65" = .ok 'A' ∧ ∀ c, ¬ Proper "#+65" c :=
  ⟨rfl, fun _ h => plus_not_mem_of_proper h (by decide)⟩

end ShareWire.Reference
