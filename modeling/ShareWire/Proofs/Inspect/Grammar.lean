import ShareWire.Inspect.Directive
import ShareWire.Proofs.Fallible
import ShareWire.Proofs.Text.Numeral
import ShareWire.Proofs.Text.Slice

/-!
# The grammar of directives

Which directives can be followed, which ones are cut inside a character, and what is wrong with the others. The
pieces of a directive are told by where they stand in the text without the white space around it, but cut from
the text with it. Main statements: the checks of levels and of the values of fields decide their part of the
grammar.
-/

namespace ShareWire.Inspect

open Regex (CompileFault compileFault?)
open Text (FixedWidth LawfulFixedWidth Numeral Slices byteLength equalsIgnoringCase readBounded_eq_ok_iff
  trim)

/-! ## Grammar -/

/-- Names of levels: words in any case, and numbers. -/
inductive LevelName (cs : List Char) : Prop where
  | word {word : String} : word ∈ levelWords → equalsIgnoringCase cs word.toList = true → LevelName cs
  | number {n : Int} : Numeral .decimal 0 cs n → n ≤ 5 → LevelName cs

inductive Target : List Char → Prop where
  | mk {c : Char} {cs : List Char} : startsTarget c = true → '=' ∉ c :: cs → '[' ∉ c :: cs →
      Target (c :: cs)

def signs : List (List Char) :=
  [[], ['+'], ['-']]

inductive Exponent : List Char → Prop where
  | none : Exponent []
  | some {mark : Char} {sign digits : List Char} : mark ∈ ['e', 'E'] → sign ∈ signs → digits ≠ [] →
      (∀ c ∈ digits, c.isDigit = true) → Exponent (mark :: (sign ++ digits))

inductive Magnitude : List Char → Prop where
  | whole {digits exponent : List Char} : digits ≠ [] → (∀ c ∈ digits, c.isDigit = true) →
      Exponent exponent → Magnitude (digits ++ exponent)
  | point {digits behind exponent : List Char} : digits ≠ [] ∨ behind ≠ [] →
      (∀ c ∈ digits, c.isDigit = true) → (∀ c ∈ behind, c.isDigit = true) → Exponent exponent →
      Magnitude (digits ++ '.' :: (behind ++ exponent))

/-- Numbers, which may be infinite or no numbers at all. -/
inductive Number : List Char → Prop where
  | word {sign cs : List Char} {word : String} : sign ∈ signs → word ∈ numberWords →
      equalsIgnoringCase cs word.toList = true → Number (sign ++ cs)
  | decimal {sign cs : List Char} : sign ∈ signs → Magnitude cs → Number (sign ++ cs)

/-- A field has a value: what stands behind its first equals sign, up to the next one. -/
inductive HasValue : List Char → List Char → Prop where
  | last {name value : List Char} : '=' ∉ name → '=' ∉ value → HasValue (name ++ '=' :: value) value
  | inside {name value rest : List Char} : '=' ∉ name → '=' ∉ value →
      HasValue (name ++ '=' :: (value ++ '=' :: rest)) value

/-- The value of a field cannot be looked for, being neither a number nor a pattern. -/
def FieldFault (field : List Char) (fault : CompileFault) : Prop :=
  ∃ value, HasValue field value ∧ ¬ Number value ∧
    compileFault? (String.ofList value) = some fault

section

variable (text : List Char)

/-- What is cut from the text for a piece that stands behind other characters. -/
def CutAs (before piece slice : List Char) : Prop :=
  Slices text slice (byteLength before) (byteLength (before ++ piece))

/-- A piece is not cut inside characters. -/
def Whole (before piece : List Char) : Prop :=
  ∃ slice, CutAs text before piece slice

/-- The name of a span stands in a bracket, behind a target or without one. -/
structure NamesSpan (target name : List Char) : Prop where
  isTarget : target = [] ∨ Target target
  whole_target : Whole text [] target
  noBracket : ']' ∉ name
  noBrace : '\x7b' ∉ name
  whole_name : Whole text (target ++ ['[']) name

inductive Span : List Char → Prop where
  | name {target name : List Char} : NamesSpan text target name →
      Span (target ++ '[' :: (name ++ [']']))
  | field {target name field slice : List Char} : NamesSpan text target name →
      '\x7d' ∉ field → field ≠ [] → CutAs text (target ++ '[' :: (name ++ ['\x7b'])) field slice →
      (∀ fault, ¬ FieldFault slice fault) →
      Span (target ++ '[' :: (name ++ '\x7b' :: (field ++ ['\x7d', ']'])))

/-- What can have a level behind it. -/
inductive Subject : List Char → Prop where
  | target {target : List Char} : Target target → Whole text [] target → Subject target
  | span {span : List Char} : Span text span → Subject span

/-- Behind a subject and an equals sign, the text ends in a level. -/
def EndsInLevel (subject level : List Char) : Prop :=
  Slices text level (byteLength (subject ++ ['='])) (byteLength text)

/-- The directives that can be followed. -/
inductive Followed : Prop where
  | target : Target (trim text) → Followed
  | span : Span text (trim text) → Followed
  | level {subject rest level : List Char} : trim text = subject ++ '=' :: rest →
      Subject text subject → EndsInLevel text subject level → level = [] ∨ LevelName level → Followed

/-- The directives that are cut inside a character. -/
inductive Cut : Prop where
  | target {target rest : List Char} {c : Char} : trim text = target ++ c :: rest → c ∈ ['=', '['] →
      Target target → ¬ Whole text [] target → Cut
  | name {target name rest : List Char} {c : Char} : trim text = target ++ '[' :: (name ++ c :: rest) →
      c ∈ [']', '\x7b'] → target = [] ∨ Target target → Whole text [] target → ']' ∉ name →
      '\x7b' ∉ name → ¬ Whole text (target ++ ['[']) name → Cut
  | field {target name field rest : List Char} :
      trim text = target ++ '[' :: (name ++ '\x7b' :: (field ++ '\x7d' :: rest)) →
      NamesSpan text target name → '\x7d' ∉ field →
      ¬ Whole text (target ++ '[' :: (name ++ ['\x7b'])) field → Cut
  | level {subject rest : List Char} : trim text = subject ++ '=' :: rest → Subject text subject →
      (∀ level, ¬ EndsInLevel text subject level) → Cut

/-- The directives with a level that is none, and those with a field whose value cannot be looked for. -/
inductive Misnamed : DirectiveFault → Prop where
  | level {subject rest level : List Char} : trim text = subject ++ '=' :: rest → Subject text subject →
      EndsInLevel text subject level → level ≠ [] → ¬ LevelName level → Misnamed .level
  | field {target name field rest slice : List Char} {fault : CompileFault} :
      trim text = target ++ '[' :: (name ++ '\x7b' :: (field ++ '\x7d' :: rest)) →
      NamesSpan text target name → '\x7d' ∉ field →
      CutAs text (target ++ '[' :: (name ++ ['\x7b'])) field slice → FieldFault slice fault →
      Misnamed (.field fault)

/-- What is wrong with a directive: a name in it, or else its form. -/
inductive Faulty : DirectiveFault → Prop where
  | name {fault : DirectiveFault} : Misnamed text fault → Faulty fault
  | form : ¬ Followed text → ¬ Cut text → (∀ fault, ¬ Misnamed text fault) → Faulty .form

end

/-! ## Levels -/

/-- The numbers that name levels are read as integers. -/
theorem exists_readInteger_le_iff {cs : List Char} :
    (∃ n, Text.readInteger UInt64 .decimal cs = .ok n ∧ n ≤ greatestLevel) ↔
      ∃ n : Int, Numeral .decimal 0 cs n ∧ n ≤ 5 := by
  have hread {v : Int} : Text.readBounded .decimal (FixedWidth.least UInt64)
      (FixedWidth.greatest UInt64) cs = .ok v ↔
        Numeral .decimal 0 cs v ∧ 0 ≤ v ∧ v ≤ FixedWidth.greatest UInt64 :=
    readBounded_eq_ok_iff (by decide) (by decide)
  have hle {v : Int} (hleast : 0 ≤ v) (hgreatest : v ≤ FixedWidth.greatest UInt64) :
      (FixedWidth.ofInt v : UInt64) ≤ greatestLevel ↔ v ≤ 5 := by
    have hto : ((FixedWidth.ofInt v : UInt64).toNat : Int) = v :=
      LawfulFixedWidth.toInt_ofInt (α := UInt64) v hleast hgreatest
    rw [UInt64.le_iff_toNat_le, ← Int.ofNat_le, hto]
    rfl
  constructor
  · rintro ⟨n, hn, hn5⟩
    obtain ⟨v, hv, rfl⟩ := exists_of_map_ok hn
    obtain ⟨hnumeral, hleast, hgreatest⟩ := hread.1 hv
    exact ⟨v, hnumeral, (hle hleast hgreatest).1 hn5⟩
  · rintro ⟨v, hnumeral, hv5⟩
    have hleast : 0 ≤ v := by
      cases hnumeral with
      | bare | plus => exact Int.natCast_nonneg _
      | minus h => exact absurd h (by decide)
    have hgreatest : v ≤ FixedWidth.greatest UInt64 := Int.le_trans hv5 (by decide)
    refine ⟨FixedWidth.ofInt v, ?_, (hle hleast hgreatest).2 hv5⟩
    rw [Text.readInteger, hread.2 ⟨hnumeral, hleast, hgreatest⟩]
    rfl

theorem namesLevel_iff {cs : List Char} : namesLevel cs = true ↔ LevelName cs := by
  have hnumber : namesLevel cs = true ↔
      (∃ word ∈ levelWords, equalsIgnoringCase cs word.toList = true) ∨
      ∃ n, Text.readInteger UInt64 .decimal cs = .ok n ∧ n ≤ greatestLevel := by
    rw [namesLevel, Bool.or_eq_true, List.any_eq_true]
    cases Text.readInteger UInt64 .decimal cs <;> simp
  rw [hnumber, exists_readInteger_le_iff]
  constructor
  · rintro (⟨word, hword, hcs⟩ | ⟨n, hn, hle⟩)
    · exact .word hword hcs
    · exact .number hn hle
  · rintro (⟨hword, hcs⟩ | ⟨hn, hle⟩)
    · exact .inl ⟨_, hword, hcs⟩
    · exact .inr ⟨_, hn, hle⟩

theorem checkLevel_ok {cs : List Char} (h : cs = [] ∨ LevelName cs) : checkLevel cs = .ok () := by
  rw [checkLevel, if_pos]
  rwa [Bool.or_eq_true, List.isEmpty_iff, namesLevel_iff]

theorem checkLevel_error {cs : List Char} (hne : cs ≠ []) (h : ¬ LevelName cs) :
    checkLevel cs = .error (.fault .level) := by
  rw [checkLevel, if_neg]
  rw [Bool.or_eq_true, List.isEmpty_iff, namesLevel_iff]
  exact not_or.2 ⟨hne, h⟩

/-! ## Numbers -/

theorem exists_sign_append (cs : List Char) : ∃ sign ∈ signs, cs = sign ++ passSign cs := by
  unfold passSign
  split
  · exact ⟨['+'], by simp [signs], rfl⟩
  · exact ⟨['-'], by simp [signs], rfl⟩
  · exact ⟨[], by simp [signs], rfl⟩

theorem passSign_append {sign cs : List Char} (hsign : sign ∈ signs)
    (hcs : ∀ c ∈ cs.head?, c ≠ '+' ∧ c ≠ '-') : passSign (sign ++ cs) = cs := by
  simp only [signs, List.mem_cons, List.not_mem_nil, or_false] at hsign
  rcases hsign with rfl | rfl | rfl
  · cases cs with
    | nil => rfl
    | cons c cs =>
      obtain ⟨hplus, hminus⟩ := hcs c rfl
      rw [List.nil_append, passSign]
      · exact fun _ h => hplus (List.cons.inj h).1
      · exact fun _ h => hminus (List.cons.inj h).1
  · rfl
  · rfl

theorem exponent_iff {cs : List Char} : isExponent cs = true ↔ Exponent cs := by
  constructor
  · intro h
    cases cs with
    | nil => exact .none
    | cons mark cs =>
      simp only [isExponent, Bool.and_eq_true, Bool.or_eq_true, decide_eq_true_iff, List.all_eq_true,
        Bool.not_eq_true', List.isEmpty_eq_false_iff] at h
      obtain ⟨⟨hmark, hdigits⟩, hne⟩ := h
      obtain ⟨sign, hsign, hcs⟩ := exists_sign_append cs
      rw [hcs]
      exact .some (by simpa using hmark) hsign hne hdigits
  · intro h
    cases h with
    | none => rfl
    | @some mark sign digits hmark hsign hne hdigits =>
      have hhead : ∀ c ∈ digits.head?, c ≠ '+' ∧ c ≠ '-' := by
        intro c hc
        have hdigit := hdigits c (List.mem_of_mem_head? hc)
        exact ⟨by rintro rfl; simp at hdigit, by rintro rfl; simp at hdigit⟩
      simp only [isExponent, passSign_append hsign hhead, Bool.and_eq_true, Bool.or_eq_true,
        decide_eq_true_iff, List.all_eq_true, Bool.not_eq_true', List.isEmpty_eq_false_iff]
      exact ⟨⟨by simpa using hmark, hdigits⟩, hne⟩

theorem Exponent.not_isDigit {cs : List Char} (h : Exponent cs) : ∀ c ∈ cs.head?, c.isDigit = false := by
  cases h with
  | none => simp
  | some hmark =>
    intro c hc
    obtain rfl := Option.some.inj hc
    rcases List.mem_pair.1 hmark with rfl | rfl <;> rfl

theorem span_digits {digits rest : List Char} (hdigits : ∀ c ∈ digits, c.isDigit = true)
    (hrest : ∀ c ∈ rest.head?, c.isDigit = false) :
    (digits ++ rest).takeWhile Char.isDigit = digits ∧ (digits ++ rest).dropWhile Char.isDigit = rest := by
  rw [List.takeWhile_append_of_pos hdigits, List.dropWhile_append_of_pos hdigits]
  cases rest with
  | nil => simp
  | cons c rest =>
    have hc : ¬ c.isDigit = true := by simp [hrest c rfl]
    rw [List.takeWhile_cons_of_neg hc, List.dropWhile_cons_of_neg hc, List.append_nil]
    exact ⟨rfl, rfl⟩

theorem isMagnitude_iff {cs : List Char} : isMagnitude cs = true ↔ Magnitude cs := by
  constructor
  · intro h
    have hdigits : ∀ c ∈ cs.takeWhile Char.isDigit, c.isDigit = true := fun c => List.mem_takeWhile_imp
    rw [isMagnitude] at h
    rw [← List.takeWhile_append_dropWhile (p := Char.isDigit) (l := cs)]
    generalize cs.takeWhile Char.isDigit = digits at h hdigits ⊢
    split at h
    · next rest hrest =>
      have hbehind : ∀ c ∈ rest.takeWhile Char.isDigit, c.isDigit = true := fun c => List.mem_takeWhile_imp
      simp only [Bool.and_eq_true, Bool.not_eq_true', Bool.and_eq_false_iff, List.isEmpty_eq_false_iff,
        exponent_iff] at h
      rw [hrest, ← List.takeWhile_append_dropWhile (p := Char.isDigit) (l := rest)]
      exact .point h.1 hdigits hbehind h.2
    · simp only [Bool.and_eq_true, Bool.not_eq_true', List.isEmpty_eq_false_iff, exponent_iff] at h
      exact .whole h.1 hdigits h.2
  · intro h
    cases h with
    | @whole digits exponent hne hdigits hexponent =>
      obtain ⟨htake, hdrop⟩ := span_digits hdigits hexponent.not_isDigit
      have hread : (!digits.isEmpty && isExponent exponent) = true := by
        simp [hne, exponent_iff.2 hexponent]
      rw [isMagnitude, htake, hdrop]
      cases hexponent with
      | none => exact hread
      | some hmark => rcases List.mem_pair.1 hmark with rfl | rfl <;> exact hread
    | @point digits behind exponent hne hdigits hbehind hexponent =>
      have hpoint : ∀ c ∈ ('.' :: (behind ++ exponent)).head?, c.isDigit = false :=
        fun c hc => Option.some.inj hc ▸ rfl
      obtain ⟨htake, hdrop⟩ := span_digits hdigits hpoint
      obtain ⟨htake', hdrop'⟩ := span_digits hbehind hexponent.not_isDigit
      rw [isMagnitude, htake, hdrop]
      simp only [htake', hdrop', Bool.and_eq_true, Bool.not_eq_true', Bool.and_eq_false_iff,
        List.isEmpty_eq_false_iff, exponent_iff]
      exact ⟨hne, hexponent⟩

theorem ne_sign_of_isDigit {c : Char} (h : c.isDigit = true) : c ≠ '+' ∧ c ≠ '-' :=
  ⟨by rintro rfl; exact absurd h (by decide), by rintro rfl; exact absurd h (by decide)⟩

theorem Magnitude.head_ne {cs : List Char} (h : Magnitude cs) : ∀ c ∈ cs.head?, c ≠ '+' ∧ c ≠ '-' := by
  intro c hc
  cases h with
  | @whole digits _ hne hdigits =>
    obtain ⟨d, digits, rfl⟩ := List.exists_cons_of_ne_nil hne
    obtain rfl := Option.some.inj hc
    exact ne_sign_of_isDigit (hdigits d List.mem_cons_self)
  | @point digits _ _ _ hdigits =>
    cases digits with
    | nil =>
      obtain rfl := Option.some.inj hc
      decide
    | cons d digits =>
      obtain rfl := Option.some.inj hc
      exact ne_sign_of_isDigit (hdigits d List.mem_cons_self)

theorem head_ne_of_numberWord {cs : List Char} {word : String} (hword : word ∈ numberWords)
    (h : equalsIgnoringCase cs word.toList = true) : ∀ c ∈ cs.head?, c ≠ '+' ∧ c ≠ '-' := by
  have hall : ∀ word ∈ numberWords, word.toList.head?.map Text.lowerAscii ≠ some '+' ∧
      word.toList.head?.map Text.lowerAscii ≠ some '-' := by
    decide
  intro c hc
  have hlower : word.toList.head?.map Text.lowerAscii = some (Text.lowerAscii c) := by
    rw [← List.head?_map, ← beq_iff_eq.1 h, List.head?_map, hc]
    rfl
  obtain ⟨hplus, hminus⟩ := hall word hword
  constructor
  · rintro rfl
    exact hplus hlower
  · rintro rfl
    exact hminus hlower

theorem isNumber_iff {cs : List Char} : isNumber cs = true ↔ Number cs := by
  rw [isNumber, Bool.or_eq_true, List.any_eq_true, isMagnitude_iff]
  constructor
  · obtain ⟨sign, hsign, hcs⟩ := exists_sign_append cs
    conv => rhs; rw [hcs]
    rintro (⟨word, hword, h⟩ | h)
    · exact .word hsign hword h
    · exact .decimal hsign h
  · rintro (⟨hsign, hword, h⟩ | ⟨hsign, h⟩)
    · rw [passSign_append hsign (head_ne_of_numberWord hword h)]
      exact .inl ⟨_, hword, h⟩
    · rw [passSign_append hsign h.head_ne]
      exact .inr h

/-! ## Fields -/

/-- A text is split at the first of its characters that has a property. -/
theorem exists_first_or_forall (p : Char → Prop) [DecidablePred p] (cs : List Char) :
    (∀ c ∈ cs, ¬ p c) ∨ ∃ before c behind, cs = before ++ c :: behind ∧ (∀ d ∈ before, ¬ p d) ∧ p c := by
  induction cs with
  | nil => exact .inl (List.forall_mem_nil _)
  | cons c cs ih =>
    by_cases hc : p c
    · exact .inr ⟨[], c, cs, rfl, List.forall_mem_nil _, hc⟩
    · rcases ih with h | ⟨before, d, behind, rfl, hbefore, hd⟩
      · exact .inl (List.forall_mem_cons.2 ⟨hc, h⟩)
      · exact .inr ⟨c :: before, d, behind, rfl, List.forall_mem_cons.2 ⟨hc, hbefore⟩, hd⟩

theorem span_ne_of_not_mem {name : List Char} (h : '=' ∉ name) (rest : List Char) :
    (name ++ rest).takeWhile (· ≠ '=') = name ++ rest.takeWhile (· ≠ '=') ∧
    (name ++ rest).dropWhile (· ≠ '=') = rest.dropWhile (· ≠ '=') := by
  have hname : ∀ c ∈ name, decide (c ≠ '=') = true :=
    fun c hc => decide_eq_true fun heq => h (heq ▸ hc)
  exact ⟨List.takeWhile_append_of_pos hname, List.dropWhile_append_of_pos hname⟩

theorem HasValue.fieldValue? {field value : List Char} (h : HasValue field value) :
    fieldValue? field = some value := by
  cases h with
  | last hname hvalue =>
    have htake := (span_ne_of_not_mem hvalue []).1
    rw [List.append_nil] at htake
    rw [Inspect.fieldValue?, (span_ne_of_not_mem hname _).2]
    simpa using htake
  | inside hname hvalue =>
    rw [Inspect.fieldValue?, (span_ne_of_not_mem hname _).2]
    simpa using (span_ne_of_not_mem hvalue ('=' :: _)).1

theorem fieldValue?_eq_some_iff {field value : List Char} :
    fieldValue? field = some value ↔ HasValue field value := by
  refine ⟨fun h => ?_, HasValue.fieldValue?⟩
  rcases exists_first_or_forall (· = '=') field with hnone | ⟨name, c, rest, rfl, hname, rfl⟩
  · have hdrop := (span_ne_of_not_mem (fun hmem => hnone _ hmem rfl) []).2
    rw [List.append_nil] at hdrop
    rw [fieldValue?, hdrop] at h
    cases h
  have hname : '=' ∉ name := fun hmem => hname _ hmem rfl
  rcases exists_first_or_forall (· = '=') rest with hnone | ⟨first, c, behind, rfl, hfirst, rfl⟩
  · have hvalue : HasValue (name ++ '=' :: rest) rest := .last hname fun hmem => hnone _ hmem rfl
    exact Option.some.inj (hvalue.fieldValue?.symm.trans h) ▸ hvalue
  · have hvalue : HasValue (name ++ '=' :: (first ++ '=' :: behind)) first :=
      .inside hname fun hmem => hfirst _ hmem rfl
    exact Option.some.inj (hvalue.fieldValue?.symm.trans h) ▸ hvalue

theorem checkField_error {field : List Char} {fault : CompileFault} (h : FieldFault field fault) :
    checkField field = .error (.fault (.field fault)) := by
  obtain ⟨value, hvalue, hnumber, hfault⟩ := h
  simp [checkField, hvalue.fieldValue?, isNumber_iff, hnumber, hfault]

theorem checkField_ok_or (field : List Char) :
    checkField field = .ok () ∨ ∃ fault, FieldFault field fault := by
  unfold checkField
  split
  · exact .inl rfl
  · next value hvalue =>
    split
    · exact .inl rfl
    · next hnumber =>
      split
      · exact .inl rfl
      · next fault hfault =>
        exact .inr ⟨fault, value, fieldValue?_eq_some_iff.1 hvalue, mt isNumber_iff.2 hnumber, hfault⟩

theorem checkField_ok {field : List Char} (h : ∀ fault, ¬ FieldFault field fault) :
    checkField field = .ok () :=
  (checkField_ok_or field).resolve_right fun ⟨fault, hfault⟩ => h fault hfault

end ShareWire.Inspect
