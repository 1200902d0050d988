import ShareWire.Proofs.Inspect.Grammar

/-!
# Reading directives

How the parts of a directive are read, one behind the other, and where they are cut. Main statement: the reader
of directives decides the grammar.
-/

namespace ShareWire.Inspect

open Regex (CompileFault)
open Text (Slices byteLength byteLength_append byteLength_cons byteLength_eq_zero_iff
  exists_slices_of_le slice? slice?_eq_some_iff trim)

/-! ## Pieces -/

section

variable {text before piece slice : List Char} {start stop : Nat}

theorem piece_eq_ok_iff : Inspect.piece text start stop = .ok slice ↔ Slices text slice start stop := by
  rw [← slice?_eq_some_iff, Inspect.piece]
  cases slice? text start stop with
  | none => simp
  | some cs => simp

theorem piece_eq_cut (h : ∀ slice, ¬ Slices text slice start stop) :
    Inspect.piece text start stop = .error .cut := by
  have hnone : slice? text start stop = none :=
    Option.eq_none_iff_forall_ne_some.2 fun slice hslice => h slice (slice?_eq_some_iff.1 hslice)
  rw [Inspect.piece, hnone]

/-- A slice is empty exactly if the piece is that it is cut for. -/
theorem CutAs.eq_nil_iff (h : CutAs text before piece slice) : slice = [] ↔ piece = [] := by
  have hlength := h.byteLength_eq
  rw [byteLength_append] at hlength
  rw [← byteLength_eq_zero_iff, ← byteLength_eq_zero_iff]
  omega

/-! ## Parts -/

variable {part next : DirectivePart} {c : Char} {cs : List Char}

theorem byteLength_concat (h : c.utf8Size = 1) : byteLength (before ++ [c]) = byteLength before + 1 := by
  rw [byteLength_append, byteLength_cons, h]
  rfl

theorem read_cons_ok (h : part.step text (byteLength before) c = .ok next) (cs : List Char) :
    part.read text (byteLength before) (c :: cs) = next.read text (byteLength (before ++ [c])) cs := by
  have hplace : byteLength (before ++ [c]) = byteLength before + c.utf8Size := by
    rw [byteLength_append, byteLength_cons]
    rfl
  rw [DirectivePart.read, h, hplace]
  rfl

theorem read_cons_error {obstacle : Obstacle} (h : part.step text (byteLength before) c = .error obstacle)
    (cs : List Char) : part.read text (byteLength before) (c :: cs) = .error obstacle := by
  rw [DirectivePart.read, h]
  rfl

/-- Characters that leave a part as it is are passed over. -/
theorem read_append (hstay : ∀ c ∈ cs, ∀ place, part.step text place c = .ok part) (rest : List Char) :
    part.read text (byteLength before) (cs ++ rest) = part.read text (byteLength (before ++ cs)) rest := by
  induction cs generalizing before with
  | nil => rw [List.append_nil, List.nil_append]
  | cons c cs ih =>
    obtain ⟨hc, hcs⟩ := List.forall_mem_cons.1 hstay
    rw [List.cons_append, read_cons_ok (hc _), ih hcs, List.append_assoc, List.singleton_append]

theorem read_level (start : Nat) (cs : List Char) :
    (DirectivePart.level start).read text (byteLength before) cs =
      Inspect.piece text start (byteLength text) >>= checkLevel := by
  have hread : (DirectivePart.level start).read text (byteLength before) (cs ++ []) =
      (DirectivePart.level start).read text (byteLength (before ++ cs)) [] :=
    read_append (fun _ _ _ => rfl) []
  rw [List.append_nil] at hread
  rw [hread]
  rfl

/-! ## Where parts are cut -/

theorem step_target (hc : c ∈ ['=', '[']) (start place : Nat) :
    (DirectivePart.target start).step text place c = (Inspect.piece text start place).map fun _ =>
      if c = '=' then .level (place + 1) else .span (place + 1) := by
  rcases List.mem_pair.1 hc with rfl | rfl
  · rfl
  · rfl

theorem step_span (hc : c ∈ [']', '\x7b']) (start place : Nat) :
    (DirectivePart.span start).step text place c = (Inspect.piece text start place).map fun _ =>
      if c = ']' then .behindSpan else .field (place + 1) := by
  rcases List.mem_pair.1 hc with rfl | rfl
  · rfl
  · rfl

theorem step_field (start place : Nat) :
    (DirectivePart.field start).step text place '\x7d' = do
      let slice ← Inspect.piece text start place
      if slice.isEmpty then throw (.fault .form)
      checkField slice
      return .fields :=
  rfl

/-! ## Targets -/

theorem Target.chars {target : List Char} (h : Target target) : ∀ c ∈ target, c ≠ '=' ∧ c ≠ '[' := by
  cases h with
  | mk _ hequals hbracket =>
    exact fun c hc => ⟨fun heq => hequals (heq ▸ hc), fun heq => hbracket (heq ▸ hc)⟩

theorem read_target {target : List Char} (h : Target target) (rest : List Char) :
    DirectivePart.nothing.read text 0 (target ++ rest) =
      (DirectivePart.target 0).read text (byteLength target) rest := by
  have hstay : ∀ c ∈ target, ∀ place, (DirectivePart.target 0).step text place c = .ok (.target 0) := by
    intro c hc place
    obtain ⟨hequals, hbracket⟩ := h.chars c hc
    simp only [DirectivePart.step, if_neg hequals, if_neg hbracket]
    rfl
  obtain ⟨c, cs, hcons⟩ : ∃ c cs, target = c :: cs := by cases h; exact ⟨_, _, rfl⟩
  subst hcons
  have hfirst : DirectivePart.nothing.step text (byteLength []) c = .ok (.target 0) := by
    cases h with
    | mk hstart _ hbracket =>
      have hc : c ≠ '[' := fun heq => hbracket (heq ▸ List.mem_cons_self)
      simp only [DirectivePart.step, if_neg hc, hstart, if_true]
      rfl
  have hcs : (DirectivePart.target 0).read text (byteLength [c]) (cs ++ rest) =
      (DirectivePart.target 0).read text (byteLength (c :: cs)) rest :=
    read_append (fun d hd => hstay d (List.mem_cons_of_mem c hd)) rest
  exact (read_cons_ok hfirst (cs ++ rest)).trans hcs

section

variable {target : List Char} (h : Target target) (hc : c ∈ ['=', '['])
include h hc

theorem read_target_whole (hwhole : Whole text [] target) (rest : List Char) :
    DirectivePart.nothing.read text 0 (target ++ c :: rest) =
      (if c = '=' then DirectivePart.level (byteLength (target ++ [c]))
        else .span (byteLength (target ++ [c]))).read text (byteLength (target ++ [c])) rest := by
  obtain ⟨slice, hslice⟩ := hwhole
  have hpiece : Inspect.piece text 0 (byteLength target) = .ok slice := piece_eq_ok_iff.2 hslice
  have hsize : c.utf8Size = 1 := by rcases List.mem_pair.1 hc with rfl | rfl <;> rfl
  rw [read_target h]
  refine read_cons_ok ?_ rest
  rw [step_target hc, hpiece, byteLength_concat hsize]
  rfl

theorem read_target_cut (hcut : ¬ Whole text [] target) (rest : List Char) :
    DirectivePart.nothing.read text 0 (target ++ c :: rest) = .error .cut := by
  have hpiece : Inspect.piece text 0 (byteLength target) = .error .cut :=
    piece_eq_cut fun slice hslice => hcut ⟨slice, hslice⟩
  rw [read_target h]
  refine read_cons_error ?_ rest
  rw [step_target hc, hpiece]
  rfl

end

/-! ## Spans -/

section

variable {target name : List Char} (h : target = [] ∨ Target target) (hwhole : Whole text [] target)
  (hbracket : ']' ∉ name) (hbrace : '\x7b' ∉ name)
include h hwhole

theorem read_bracket (rest : List Char) :
    DirectivePart.nothing.read text 0 (target ++ '[' :: rest) =
      (DirectivePart.span (byteLength (target ++ ['[']))).read text (byteLength (target ++ ['['])) rest := by
  rcases h with rfl | h
  · have hstep : DirectivePart.nothing.step text (byteLength []) '[' = .ok (.span 1) := rfl
    exact read_cons_ok hstep rest
  · exact read_target_whole h (by simp) hwhole rest

include hbracket hbrace

/-- Behind the name of a span. -/
theorem read_name (rest : List Char) :
    DirectivePart.nothing.read text 0 (target ++ '[' :: (name ++ rest)) =
      (DirectivePart.span (byteLength (target ++ ['[']))).read text
        (byteLength (target ++ ['['] ++ name)) rest := by
  rw [read_bracket h hwhole]
  refine read_append (fun c hc place => ?_) rest
  have hne : c ≠ ']' ∧ c ≠ '\x7b' := ⟨fun heq => hbracket (heq ▸ hc), fun heq => hbrace (heq ▸ hc)⟩
  simp only [DirectivePart.step, if_neg hne.1, if_neg hne.2]
  rfl

theorem read_name_cut (hcut : ¬ Whole text (target ++ ['[']) name) (hc : c ∈ [']', '\x7b'])
    (rest : List Char) :
    DirectivePart.nothing.read text 0 (target ++ '[' :: (name ++ c :: rest)) = .error .cut := by
  rw [read_name h hwhole hbracket hbrace]
  refine read_cons_error ?_ rest
  rw [step_span hc, piece_eq_cut fun slice hslice => hcut ⟨slice, hslice⟩]
  rfl

end

theorem NamesSpan.read {target name : List Char} (h : NamesSpan text target name)
    (hc : c ∈ [']', '\x7b']) (rest : List Char) :
    DirectivePart.nothing.read text 0 (target ++ '[' :: (name ++ c :: rest)) =
      (if c = ']' then DirectivePart.behindSpan
        else .field (byteLength (target ++ '[' :: (name ++ [c])))).read text
          (byteLength (target ++ '[' :: (name ++ [c]))) rest := by
  obtain ⟨slice, hslice⟩ := h.whole_name
  have hsize : c.utf8Size = 1 := by rcases List.mem_pair.1 hc with rfl | rfl <;> rfl
  have hbefore : target ++ '[' :: (name ++ [c]) = target ++ ['['] ++ name ++ [c] := by simp
  rw [read_name h.isTarget h.whole_target h.noBracket h.noBrace, hbefore]
  refine read_cons_ok ?_ rest
  rw [step_span hc, piece_eq_ok_iff.2 hslice, byteLength_concat hsize]
  rfl

/-! ## Fields of spans -/

section

variable {target name field : List Char} (h : NamesSpan text target name) (hfield : '\x7d' ∉ field)
include h hfield

theorem read_field (rest : List Char) :
    DirectivePart.nothing.read text 0 (target ++ '[' :: (name ++ '\x7b' :: (field ++ rest))) =
      (DirectivePart.field (byteLength (target ++ '[' :: (name ++ ['\x7b'])))).read text
        (byteLength (target ++ '[' :: (name ++ ['\x7b']) ++ field)) rest := by
  refine (h.read (by simp) (field ++ rest)).trans (read_append (fun c hc place => ?_) rest)
  have hne : c ≠ '\x7d' := fun heq => hfield (heq ▸ hc)
  simp only [DirectivePart.step, if_pos hne]
  rfl

/-- At the brace that closes a field, the field is checked. -/
theorem read_field_close (rest : List Char) :
    DirectivePart.nothing.read text 0
      (target ++ '[' :: (name ++ '\x7b' :: (field ++ '\x7d' :: rest))) = (do
        let slice ← Inspect.piece text (byteLength (target ++ '[' :: (name ++ ['\x7b'])))
          (byteLength (target ++ '[' :: (name ++ ['\x7b']) ++ field))
        if slice.isEmpty then throw (.fault .form)
        checkField slice
        DirectivePart.fields.read text
          (byteLength (target ++ '[' :: (name ++ ['\x7b']) ++ field) + '\x7d'.utf8Size) rest) := by
  rw [read_field h hfield, DirectivePart.read, step_field]
  generalize Inspect.piece text _ _ = result
  cases result with
  | error => rfl
  | ok slice =>
    show (_ >>= _) >>= _ = _
    cases slice with
    | nil => rfl
    | cons c cs =>
      cases hcheck : checkField (c :: cs) with
      | error => simp [bind, Except.bind, hcheck]
      | ok => simp [bind, Except.bind, hcheck]; rfl

end

theorem Span.read {span : List Char} (h : Span text span) (rest : List Char) :
    DirectivePart.nothing.read text 0 (span ++ rest) =
      DirectivePart.behindSpan.read text (byteLength span) rest := by
  cases h with
  | @name target name h =>
    have happend : target ++ '[' :: (name ++ [']']) ++ rest = target ++ '[' :: (name ++ ']' :: rest) := by
      simp
    rw [happend, h.read (by simp)]
    rfl
  | @field target name field slice h hfield hne hslice hfault =>
    have happend : target ++ '[' :: (name ++ '\x7b' :: (field ++ ['\x7d', ']'])) ++ rest =
        target ++ '[' :: (name ++ '\x7b' :: (field ++ '\x7d' :: ']' :: rest)) := by
      simp
    have hempty : slice.isEmpty = false := List.isEmpty_eq_false_iff.2 (mt hslice.eq_nil_iff.1 hne)
    have hplace : byteLength (target ++ '[' :: (name ++ '\x7b' :: (field ++ ['\x7d', ']']))) =
        byteLength (target ++ '[' :: (name ++ ['\x7b']) ++ field) + '\x7d'.utf8Size + ']'.utf8Size := by
      simp only [byteLength_append, byteLength_cons]
      omega
    rw [happend, read_field_close h hfield, piece_eq_ok_iff.2 hslice, hplace]
    simp only [bind, Except.bind, hempty, checkField_ok hfault]
    rfl

theorem Subject.checkDirective_eq {subject rest : List Char} (h : Subject text subject)
    (htrim : trim text = subject ++ '=' :: rest) :
    checkDirective text =
      Inspect.piece text (byteLength (subject ++ ['='])) (byteLength text) >>= checkLevel := by
  rw [checkDirective, htrim]
  cases h with
  | target h hwhole =>
    exact (read_target_whole h (by simp) hwhole rest).trans (read_level _ rest)
  | span h =>
    rw [h.read, byteLength_concat rfl]
    exact (read_cons_ok rfl rest).trans (read_level _ rest)

/-! ## Verdicts -/

theorem Followed.checkDirective_eq (h : Followed text) : checkDirective text = .ok () := by
  cases h with
  | target h =>
    have hread : DirectivePart.nothing.read text 0 (trim text ++ []) =
        (DirectivePart.target 0).read text (byteLength (trim text)) [] := read_target h []
    rwa [List.append_nil] at hread
  | span h =>
    have hread := h.read []
    rwa [List.append_nil] at hread
  | level htrim h hlevel hname =>
    rw [h.checkDirective_eq htrim, piece_eq_ok_iff.2 hlevel]
    exact checkLevel_ok hname

theorem Cut.checkDirective_eq (h : Cut text) : checkDirective text = .error .cut := by
  cases h with
  | target htrim hc h hcut =>
    rw [checkDirective, htrim]
    exact read_target_cut h hc hcut _
  | name htrim hc h hwhole hbracket hbrace hcut =>
    rw [checkDirective, htrim]
    exact read_name_cut h hwhole hbracket hbrace hcut hc _
  | field htrim h hfield hcut =>
    rw [checkDirective, htrim, read_field_close h hfield,
      piece_eq_cut fun slice hslice => hcut ⟨slice, hslice⟩]
    rfl
  | level htrim h hcut =>
    rw [h.checkDirective_eq htrim, piece_eq_cut hcut]
    rfl

theorem FieldFault.ne_nil {field : List Char} {fault : CompileFault} (h : FieldFault field fault) :
    field ≠ [] := by
  obtain ⟨value, hvalue, -⟩ := h
  cases hvalue <;> simp

theorem Misnamed.checkDirective_eq {fault : DirectiveFault} (h : Misnamed text fault) :
    checkDirective text = .error (.fault fault) := by
  cases h with
  | level htrim h hlevel hne hname =>
    rw [h.checkDirective_eq htrim, piece_eq_ok_iff.2 hlevel]
    exact checkLevel_error hne hname
  | @field _ _ _ _ slice _ htrim h hfield hslice hfault =>
    have hempty : slice.isEmpty = false := List.isEmpty_eq_false_iff.2 hfault.ne_nil
    rw [checkDirective, htrim, read_field_close h hfield, piece_eq_ok_iff.2 hslice]
    simp only [bind, Except.bind, hempty, checkField_error hfault]
    rfl

/-- What the grammar says about a directive, unless its form is wrong. -/
inductive Verdict (text : List Char) : Except Obstacle PUnit → Prop where
  | followed : Followed text → Verdict text (.ok ())
  | cut : Cut text → Verdict text (.error .cut)
  | misnamed {fault : DirectiveFault} : Misnamed text fault → Verdict text (.error (.fault fault))

theorem Verdict.checkDirective_eq {result : Except Obstacle PUnit} (h : Verdict text result) :
    checkDirective text = result := by
  cases h with
  | followed h => exact h.checkDirective_eq
  | cut h => exact h.checkDirective_eq
  | misnamed h => exact h.checkDirective_eq

/-- The grammar has a verdict on a directive, or the directive is found to have the wrong form. -/
def Decided (text : List Char) : Prop :=
  (∃ result, Verdict text result) ∨ checkDirective text = .error (.fault .form)

theorem decided_level {subject rest : List Char} (h : Subject text subject)
    (htrim : trim text = subject ++ '=' :: rest) : Decided text := by
  by_cases hcut : ∃ level, EndsInLevel text subject level
  case neg => exact .inl ⟨_, .cut (.level htrim h (not_exists.1 hcut))⟩
  obtain ⟨level, hlevel⟩ := hcut
  by_cases hname : level = [] ∨ LevelName level
  · exact .inl ⟨_, .followed (.level htrim h hlevel hname)⟩
  · obtain ⟨hne, hname⟩ := not_or.1 hname
    exact .inl ⟨_, .misnamed (.level htrim h hlevel hne hname)⟩

theorem decided_span {span : List Char} (h : Span text span) (rest : List Char)
    (htrim : trim text = span ++ rest) : Decided text := by
  cases rest with
  | nil =>
    rw [List.append_nil] at htrim
    exact .inl ⟨_, .followed (.span (htrim ▸ h))⟩
  | cons c rest =>
    by_cases hc : c = '='
    · subst hc
      exact decided_level (.span h) htrim
    · refine .inr ?_
      rw [checkDirective, htrim, h.read]
      refine read_cons_error ?_ rest
      rw [DirectivePart.step, if_neg hc]

theorem decided_field {target name rest : List Char} (h : NamesSpan text target name)
    (htrim : trim text = target ++ '[' :: (name ++ '\x7b' :: rest)) : Decided text := by
  rcases exists_first_or_forall (· = '\x7d') rest with hnone | ⟨field, c, behind, rfl, hfield, rfl⟩
  · refine .inr ?_
    have hfield : '\x7d' ∉ rest := fun hmem => hnone _ hmem rfl
    have hread := read_field h hfield []
    rw [List.append_nil] at hread
    rw [checkDirective, htrim, hread]
    rfl
  have hfield : '\x7d' ∉ field := fun hmem => hfield _ hmem rfl
  by_cases hcut : Whole text (target ++ '[' :: (name ++ ['\x7b'])) field
  case neg => exact .inl ⟨_, .cut (.field htrim h hfield hcut)⟩
  obtain ⟨slice, hslice⟩ := hcut
  by_cases hfault : ∃ fault, FieldFault slice fault
  · obtain ⟨fault, hfault⟩ := hfault
    exact .inl ⟨_, .misnamed (.field htrim h hfield hslice hfault)⟩
  have hread := read_field_close h hfield behind
  rw [piece_eq_ok_iff.2 hslice, ← htrim] at hread
  by_cases hempty : field = []
  · rw [hslice.eq_nil_iff.2 hempty] at hread
    exact .inr hread
  have hempty' : slice.isEmpty = false := List.isEmpty_eq_false_iff.2 (mt hslice.eq_nil_iff.1 hempty)
  simp only [bind, Except.bind, hempty', checkField_ok (not_exists.1 hfault)] at hread
  cases behind with
  | nil => exact .inr hread
  | cons c behind =>
    by_cases hc : c = ']'
    · subst hc
      refine decided_span (.field h hfield hempty hslice (not_exists.1 hfault)) behind ?_
      rw [htrim]
      simp
    · refine .inr (hread.trans ?_)
      simp [DirectivePart.read, DirectivePart.step, hc]
      rfl

theorem decided_bracket {target rest : List Char} (h : target = [] ∨ Target target)
    (hwhole : Whole text [] target) (htrim : trim text = target ++ '[' :: rest) : Decided text := by
  rcases exists_first_or_forall (· ∈ [']', '\x7b']) rest with hnone | ⟨name, c, behind, rfl, hname, hc⟩
  · refine .inr ?_
    have hread := read_name h hwhole (fun hmem => hnone _ hmem (by simp))
      (fun hmem => hnone _ hmem (by simp)) []
    rw [List.append_nil] at hread
    rw [checkDirective, htrim, hread]
    rfl
  have hbracket : ']' ∉ name := fun hmem => hname _ hmem (by simp)
  have hbrace : '\x7b' ∉ name := fun hmem => hname _ hmem (by simp)
  by_cases hcut : Whole text (target ++ ['[']) name
  case neg => exact .inl ⟨_, .cut (.name htrim hc h hwhole hbracket hbrace hcut)⟩
  have hnames : NamesSpan text target name := ⟨h, hwhole, hbracket, hbrace, hcut⟩
  rcases List.mem_pair.1 hc with rfl | rfl
  · refine decided_span (.name hnames) behind ?_
    rw [htrim]
    simp
  · exact decided_field hnames htrim

theorem decided_target {c : Char} {cs : List Char} (htrim : trim text = c :: cs)
    (hstart : startsTarget c = true) (hbracket : c ≠ '[') : Decided text := by
  have hequals : c ≠ '=' := by
    rintro rfl
    exact absurd hstart (by decide +kernel)
  have isTarget {rest : List Char} (h : ∀ d ∈ rest, d ∉ ['=', '[']) : Target (c :: rest) := by
    refine .mk hstart ?_ ?_
    · exact fun hmem => (List.mem_cons.1 hmem).elim (fun heq => hequals heq.symm) fun hmem =>
        h _ hmem (by simp)
    · exact fun hmem => (List.mem_cons.1 hmem).elim (fun heq => hbracket heq.symm) fun hmem =>
        h _ hmem (by simp)
  rcases exists_first_or_forall (· ∈ ['=', '[']) cs with hnone | ⟨name, d, behind, rfl, hname, hd⟩
  · exact .inl ⟨_, .followed (.target (htrim ▸ isTarget hnone))⟩
  have htarget := isTarget hname
  by_cases hcut : Whole text [] (c :: name)
  case neg => exact .inl ⟨_, .cut (.target htrim hd htarget hcut)⟩
  rcases List.mem_pair.1 hd with rfl | rfl
  · exact decided_level (.target htarget hcut) htrim
  · exact decided_bracket (.inr htarget) hcut htrim

theorem decided (text : List Char) : Decided text := by
  cases htrim : trim text with
  | nil =>
    refine .inr ?_
    rw [checkDirective, htrim]
    rfl
  | cons c cs =>
    by_cases hbracket : c = '['
    · subst hbracket
      have hwhole : Whole text [] [] := ⟨[], [], text, rfl, rfl, rfl⟩
      exact decided_bracket (.inl rfl) hwhole htrim
    by_cases hstart : startsTarget c = true
    · exact decided_target htrim hstart hbracket
    · refine .inr ?_
      rw [checkDirective, htrim, DirectivePart.read, DirectivePart.step, if_neg hbracket, if_neg hstart]
      rfl

end

/-! ## Main statements -/

variable {text : List Char}

theorem verdict_or_form (text : List Char) :
    Verdict text (checkDirective text) ∨ checkDirective text = .error (.fault .form) := by
  refine (decided text).imp_left ?_
  rintro ⟨result, h⟩
  rwa [h.checkDirective_eq]

theorem checkDirective_eq_ok_iff : checkDirective text = .ok () ↔ Followed text := by
  refine ⟨fun h => ?_, Followed.checkDirective_eq⟩
  rcases verdict_or_form text with hverdict | hform
  · rw [h] at hverdict
    cases hverdict with
    | followed h => exact h
  · rw [hform] at h
    cases h

theorem checkDirective_eq_cut_iff : checkDirective text = .error .cut ↔ Cut text := by
  refine ⟨fun h => ?_, Cut.checkDirective_eq⟩
  rcases verdict_or_form text with hverdict | hform
  · rw [h] at hverdict
    cases hverdict with
    | cut h => exact h
  · rw [hform] at h
    cases h

theorem checkDirective_eq_fault_iff {fault : DirectiveFault} :
    checkDirective text = .error (.fault fault) ↔ Faulty text fault := by
  constructor
  · intro h
    by_cases hmisnamed : ∃ fault, Misnamed text fault
    · obtain ⟨other, hother⟩ := hmisnamed
      obtain rfl : fault = other := by simpa [h] using hother.checkDirective_eq
      exact .name hother
    · rcases verdict_or_form text with hverdict | hform
      · rw [h] at hverdict
        cases hverdict with
        | misnamed h => exact .name h
      · obtain rfl : fault = .form := by simpa [h] using hform
        refine .form ?_ ?_ (not_exists.1 hmisnamed)
        · exact fun hfollowed => nomatch h.symm.trans hfollowed.checkDirective_eq
        · exact fun hcut => nomatch h.symm.trans hcut.checkDirective_eq
  · intro h
    cases h with
    | name h => exact h.checkDirective_eq
    | form hfollowed hcut hnames =>
      refine (verdict_or_form text).resolve_left fun hverdict => ?_
      generalize checkDirective text = result at hverdict
      cases hverdict with
      | followed h => exact hfollowed h
      | cut h => exact hcut h
      | misnamed h => exact hnames _ h

/-! ## Where cuts come from -/

/-- Some piece of the directive, or all that stands behind a part of it, is not there to be cut. -/
theorem Cut.exists_missing (h : Cut text) : ∃ before piece behind, trim text = before ++ piece ++ behind ∧
    ((∀ slice, ¬ Slices text slice (byteLength before) (byteLength (before ++ piece))) ∨
      ∀ slice, ¬ Slices text slice (byteLength before) (byteLength text)) := by
  have missing {before piece : List Char} (hcut : ¬ Whole text before piece) (slice : List Char) :
      ¬ Slices text slice (byteLength before) (byteLength (before ++ piece)) :=
    fun hslice => hcut ⟨slice, hslice⟩
  cases h with
  | target htrim _ _ hcut => exact ⟨[], _, _, htrim, .inl (missing hcut)⟩
  | @name _ _ rest c htrim _ _ _ _ _ hcut =>
    exact ⟨_, _, c :: rest, by rw [htrim]; simp, .inl (missing hcut)⟩
  | @field _ _ _ rest htrim _ _ hcut =>
    exact ⟨_, _, '\x7d' :: rest, by rw [htrim]; simp, .inl (missing hcut)⟩
  | @level subject rest htrim _ hcut =>
    exact ⟨subject ++ ['='], [], rest, by rw [htrim]; simp, .inr hcut⟩

/-- Only white space in front of a directive and a character of more than one byte make a cut. -/
theorem Cut.exists_blank_and_wide (h : Cut text) :
    (∃ c cs, text = c :: cs ∧ Text.isBlank c = true) ∧ ∃ c ∈ text, c.utf8Size ≠ 1 := by
  obtain ⟨before, piece, behind, htrim, hmissing⟩ := h.exists_missing
  obtain ⟨blanks, after, htext, hblanks, -⟩ := Text.exists_eq_append_trim text
  constructor
  · cases blanks with
    | cons c blanks => exact ⟨c, _, htext, hblanks c List.mem_cons_self⟩
    | nil =>
      rw [htrim] at htext
      rcases hmissing with hmissing | hmissing
      · exact absurd ⟨before, behind ++ after, by rw [htext]; simp, rfl, rfl⟩ (hmissing piece)
      · exact absurd ⟨before, [], by rw [htext]; simp, rfl, by rw [htext]; simp⟩
          (hmissing (piece ++ behind ++ after))
  · refine Classical.byContradiction fun hnone => ?_
    have hwidth : ∀ c ∈ text, c.utf8Size = 1 := by simpa using hnone
    have hle : byteLength (before ++ piece) ≤ byteLength text := by
      rw [htext, htrim]
      simp only [byteLength_append]
      omega
    have hbefore : byteLength before ≤ byteLength (before ++ piece) := by
      rw [byteLength_append]
      omega
    rcases hmissing with hmissing | hmissing
    · obtain ⟨slice, hslice⟩ := exists_slices_of_le hwidth hbefore hle
      exact hmissing slice hslice
    · obtain ⟨slice, hslice⟩ := exists_slices_of_le hwidth (Nat.le_trans hbefore hle) (Nat.le_refl _)
      exact hmissing slice hslice

end ShareWire.Inspect
