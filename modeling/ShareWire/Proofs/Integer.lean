import ShareWire.Document.Encode
import ShareWire.Http.Extract
import ShareWire.Proofs.Document.Schema

/-!
# Integers as decimal texts

Which texts the readers of integers take, for elements of a document and for headers alike: a sign, which
may be missing, and decimal digits, with white space around. Main statement: the integer that is read is
the one that the digits denote, and a text of an integer beyond the bounds of the type is an error, so no
value is ever wrapped into the type.
-/

namespace ShareWire

open Text (FixedWidth IntegerFault LawfulFixedWidth Numeral isBlank readBounded trim)

namespace Text

/-! ## Decimal texts -/

/-- A sign in front of digits, with the factor that it stands for. There is a minus sign only among
signed integers. -/
inductive SignMark (signed : Prop) : List Char → Int → Prop where
  | none : SignMark signed [] 1
  | plus : SignMark signed ['+'] 1
  | minus : signed → SignMark signed ['-'] (-1)

/-- The decimal texts of integers: white space, a sign, digits and white space. -/
inductive DecimalText (signed : Prop) : String → Int → Prop where
  | intro {before mark digits after : List Char} {factor : Int} :
      (∀ c ∈ before, isBlank c = true) → SignMark signed mark factor → digits ≠ [] →
      (∀ c ∈ digits, c.isDigit = true) → (∀ c ∈ after, isBlank c = true) →
      DecimalText signed (String.ofList (before ++ (mark ++ digits) ++ after))
        (factor * Nat.ofDigitChars 10 digits 0)

variable {signed : Prop} {least : Int} {cs : List Char} {s : String} {v : Int}

theorem SignMark.isBlank_eq_false {mark : List Char} {factor : Int} (h : SignMark signed mark factor) :
    ∀ c ∈ mark, isBlank c = false := by
  cases h with
  | none => exact List.forall_mem_nil _
  | plus | minus => exact List.forall_mem_singleton.2 rfl

theorem decimal_digits_iff : Base.decimal.Digits cs ↔ cs ≠ [] ∧ ∀ c ∈ cs, c.isDigit = true := by
  constructor
  · intro h
    exact ⟨h.nonempty, fun c hc => isDigit_of_decimal_digit? (h.digits c hc)⟩
  · rintro ⟨hne, hdigits⟩
    refine ⟨hne, fun c hc => ?_⟩
    rw [decimal_digit?_of_isDigit (hdigits c hc)]
    rfl

/-- The numerals that the reader knows are marks and digits. -/
theorem numeral_iff : Numeral .decimal least cs v ↔ ∃ mark digits factor, cs = mark ++ digits ∧
    SignMark (least < 0) mark factor ∧ digits ≠ [] ∧ (∀ c ∈ digits, c.isDigit = true) ∧
    v = factor * Nat.ofDigitChars 10 digits 0 := by
  constructor
  · intro h
    cases h with
    | bare hdigits =>
      obtain ⟨hne, hall⟩ := decimal_digits_iff.1 hdigits
      exact ⟨[], cs, 1, rfl, .none, hne, hall, by rw [decimal_value hall, Int.one_mul]⟩
    | @plus digits hdigits =>
      obtain ⟨hne, hall⟩ := decimal_digits_iff.1 hdigits
      exact ⟨['+'], digits, 1, rfl, .plus, hne, hall, by rw [decimal_value hall, Int.one_mul]⟩
    | @minus digits hleast hdigits =>
      obtain ⟨hne, hall⟩ := decimal_digits_iff.1 hdigits
      exact ⟨['-'], digits, -1, rfl, .minus hleast, hne, hall,
        by rw [decimal_value hall, Int.neg_one_mul]⟩
  · rintro ⟨mark, digits, factor, rfl, hmark, hne, hall, rfl⟩
    have hdigits := decimal_digits_iff.2 ⟨hne, hall⟩
    rw [← decimal_value hall]
    cases hmark with
    | none => simpa using Numeral.bare hdigits
    | plus => simpa using Numeral.plus hdigits
    | minus hleast => simpa using Numeral.minus hleast hdigits

/-- A decimal text is a numeral with white space around it. -/
theorem decimalText_iff :
    DecimalText (least < 0) s v ↔ Numeral .decimal least (trim s.toList) v := by
  constructor
  · rintro ⟨hbefore, hmark, hne, hdigits, hafter⟩
    have hcore : ∀ c ∈ _ ++ _, isBlank c = false := List.forall_mem_append.2
      ⟨hmark.isBlank_eq_false, fun c hc => isBlank_eq_false_of_isDigit (hdigits c hc)⟩
    rw [String.toList_ofList, trim_append_blank _ hbefore hafter, trim_of_forall hcore]
    exact numeral_iff.2 ⟨_, _, _, rfl, hmark, hne, hdigits, rfl⟩
  · intro h
    obtain ⟨mark, digits, factor, htrim, hmark, hne, hdigits, rfl⟩ := numeral_iff.1 h
    obtain ⟨before, after, hs, hbefore, hafter⟩ := exists_eq_append_trim s.toList
    rw [htrim] at hs
    have htext : s = String.ofList (before ++ (mark ++ digits) ++ after) := by
      rw [← hs, String.ofList_toList]
    rw [htext]
    exact .intro hbefore hmark hne hdigits hafter

end Text

open Text (DecimalText decimalText_iff)

/-! ## Readers of integers -/

/-- A reader of the integers of a type gives the integer that a decimal text denotes, if it is within the
bounds of the type. An integer that is not, and a text that is no decimal text, is a fault. -/
structure ReadsExactly (type : IntegerType) {α ε : Type} [FixedWidth α] (read : String → Except ε α)
    (blame : String → IntegerFault → ε) : Prop where
  ok_iff (s : String) (v : Int) : (∃ n, read s = .ok n ∧ FixedWidth.toInt n = v) ↔
    DecimalText (type.least < 0) s v ∧ type.least ≤ v ∧ v ≤ type.greatest
  tooLarge (s : String) (v : Int) : DecimalText (type.least < 0) s v → type.greatest < v →
    read s = .error (blame s .tooLarge)
  tooSmall (s : String) (v : Int) : DecimalText (type.least < 0) s v → v < type.least →
    read s = .error (blame s .tooSmall)
  malformed (s : String) : (∀ v, ¬ DecimalText (type.least < 0) s v) →
    ∃ fault, read s = .error (blame s fault)

section Readers

variable {α : Type} [FixedWidth α] {type : IntegerType}

theorem readDecimal_eq (type : IntegerType) [type.Implements α] (s : String) : readDecimal α s =
    (readBounded .decimal type.least type.greatest (trim s.toList)).map FixedWidth.ofInt := by
  rw [readDecimal, Text.readInteger, IntegerType.Implements.least_eq (α := α),
    IntegerType.Implements.greatest_eq (α := α)]

theorem readDecimal_eq_ok_iff (type : IntegerType) [type.Implements α] {s : String} {n : α} :
    readDecimal α s = .ok n ↔ Text.Denotes type.least type.greatest s (FixedWidth.toInt n) :=
  readInteger_eq_ok_iff_readDecimal.symm.trans (readInteger_eq_ok_iff type)

theorem readDecimal_exact (type : IntegerType) [type.Implements α] :
    ReadsExactly type (readDecimal α) fun _ fault => fault := by
  have hok (s : String) (v : Int) : (∃ n : α, readDecimal α s = .ok n ∧ FixedWidth.toInt n = v) ↔
      DecimalText (type.least < 0) s v ∧ type.least ≤ v ∧ v ≤ type.greatest := by
    rw [decimalText_iff]
    constructor
    · rintro ⟨n, hn, rfl⟩
      exact (readDecimal_eq_ok_iff type).1 hn
    · intro h
      have hv : FixedWidth.toInt (FixedWidth.ofInt v : α) = v := by
        refine LawfulFixedWidth.toInt_ofInt v ?_ ?_
        · rw [IntegerType.Implements.least_eq (α := α)]
          exact h.2.1
        · rw [IntegerType.Implements.greatest_eq (α := α)]
          exact h.2.2
      exact ⟨FixedWidth.ofInt v, (readDecimal_eq_ok_iff type).2 (hv.symm ▸ h), hv⟩
  refine ⟨hok, fun s v h hlt => ?_, fun s v h hlt => ?_, fun s hnone => ?_⟩
  · rw [readDecimal_eq type, Text.readBounded_tooLarge (decimalText_iff.1 h) type.bounds.2 hlt]
    rfl
  · rw [readDecimal_eq type, Text.readBounded_tooSmall (decimalText_iff.1 h) type.bounds.1 hlt]
    rfl
  · cases hread : readDecimal α s with
    | error fault => exact ⟨fault, rfl⟩
    | ok n => exact absurd ((hok s _).1 ⟨n, hread, rfl⟩).1 (hnone _)

/-- Other words for the faults change nothing about the values. -/
theorem ReadsExactly.mapError {ε : Type} {read : String → Except IntegerFault α}
    (h : ReadsExactly type read fun _ fault => fault) (blame : String → IntegerFault → ε) :
    ReadsExactly type (fun s => (read s).mapError (blame s)) blame where
  ok_iff s v := by
    rw [← h.ok_iff s v]
    cases read s with
    | ok n => simp [Except.mapError]
    | error fault => simp [Except.mapError]
  tooLarge s v htext hlt := by rw [h.tooLarge s v htext hlt]; rfl
  tooSmall s v htext hlt := by rw [h.tooSmall s v htext hlt]; rfl
  malformed s hnone := by
    obtain ⟨fault, hfault⟩ := h.malformed s hnone
    exact ⟨fault, by rw [hfault]; rfl⟩

theorem readInteger_exact (type : IntegerType) [type.Implements α] :
    ReadsExactly type (readInteger α) fun s fault => .value (.integer type.label s fault) := by
  have hread : readInteger α = fun s => (readDecimal α s).mapError
      fun fault => .value (.integer type.label s fault) := by
    funext s
    rw [readInteger_eq_mapError, IntegerType.Implements.label_eq (α := α)]
  rw [hread]
  exact (readDecimal_exact type).mapError _

end Readers

/-- The value of an integer header is read like the text of an element. -/
theorem convert_eq_map {p : Property} (h : p.conversion = .integer) (s : String) :
    Http.convert p s = ((readDecimal Int64 s).mapError fun fault =>
      .invalidHeader p.headerName (.integer s fault)).map PropertyValue.integer := by
  unfold Http.convert
  rw [h]
  cases readDecimal Int64 s with
  | ok n => rfl
  | error fault => rfl

/-! ## Main statement -/

/-- Integers of 32 and 64 bits and unsigned ones of 64 bits are read from their decimal texts, and every
other text is an error that quotes it. Headers with integers are read by the same rule and blame
themselves. The text that is written for an integer of 32 bits is read back. -/
theorem integers_exact :
    ReadsExactly .int32 (readInteger Int32) (fun s fault => .value (.integer "i32" s fault)) ∧
    ReadsExactly .int64 (readInteger Int64) (fun s fault => .value (.integer "i64" s fault)) ∧
    ReadsExactly .uint64 (readInteger UInt64) (fun s fault => .value (.integer "u64" s fault)) ∧
    (∀ p : Property, p.conversion = .integer →
      ∃ read, (∀ s, Http.convert p s = (read s).map PropertyValue.integer) ∧
        ReadsExactly (α := Int64) .int64 read fun s fault =>
          .invalidHeader p.headerName (.integer s fault)) ∧
    ∀ (name : String) (n : Int32), readInteger Int32 (Element.ofInteger name n).text = .ok n := by
  refine ⟨readInteger_exact .int32, readInteger_exact .int64, readInteger_exact .uint64,
    fun p hp => ⟨_, convert_eq_map hp, (readDecimal_exact .int64).mapError _⟩, fun name n => ?_⟩
  show readInteger Int32 (Text.integerText n) = .ok n
  rw [readInteger, readDecimal, Text.trim_integerText, Text.readInteger_integerText]

/-- The least integer of 32 bits behind two zeros and between blanks, one beyond the greatest unsigned one,
and a header with a plus sign. -/
theorem integers_exact_extremes :
    readInteger Int32 "\n-002147483648 " = .ok (-2147483648) ∧
    readInteger UInt64 "18446744073709551616" =
      .error (.value (.integer "u64" "18446744073709551616" .tooLarge)) ∧
    Http.convert .contentLength "+9223372036854775807" = .ok (.integer 9223372036854775807) := by
  obtain ⟨hint32, -, huint64, hheader, -⟩ := integers_exact
  refine ⟨?_, ?_, ?_⟩
  · have htext : DecimalText (IntegerType.int32.least < 0) "\n-002147483648 " (-2147483648) :=
      @DecimalText.intro _ ['\n'] ['-'] "002147483648".toList [' '] _
        (List.forall_mem_singleton.2 rfl) (.minus (by decide)) (by decide)
        (List.all_eq_true.1 (by decide)) (List.forall_mem_singleton.2 rfl)
    obtain ⟨n, hread, hn⟩ := (hint32.ok_iff _ _).2 ⟨htext, by decide, by decide⟩
    rw [hread]
    exact congrArg Except.ok (Int32.toInt_inj.1 hn)
  · have htext : DecimalText (IntegerType.uint64.least < 0) "18446744073709551616"
        18446744073709551616 :=
      @DecimalText.intro _ [] [] "18446744073709551616".toList [] _ (List.forall_mem_nil _) .none
        (by decide) (List.all_eq_true.1 (by decide)) (List.forall_mem_nil _)
    exact huint64.tooLarge _ _ htext (by decide)
  · obtain ⟨read, hconvert, hexact⟩ := hheader .contentLength rfl
    have htext : DecimalText (IntegerType.int64.least < 0) "+9223372036854775807"
        9223372036854775807 :=
      @DecimalText.intro _ [] ['+'] "9223372036854775807".toList [] _ (List.forall_mem_nil _) .plus
        (by decide) (List.all_eq_true.1 (by decide)) (List.forall_mem_nil _)
    obtain ⟨n, hread, hn⟩ := (hexact.ok_iff _ _).2 ⟨htext, by decide, by decide⟩
    rw [hconvert, hread]
    exact congrArg (Except.ok ∘ PropertyValue.integer) (Int64.toInt_inj.1 hn)

end ShareWire
