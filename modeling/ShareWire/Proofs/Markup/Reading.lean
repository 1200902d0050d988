import ShareWire.Proofs.Markup.Construct

/-!
# Reading construct by construct

A construct at the front of an input becomes the first event of its reading, and the reading goes on
behind it. For start and end tags the open elements change as well, so that end tags match start tags.
-/

namespace ShareWire.Markup.Reading

theorem within_nil (opened : List Bytes) : within opened [] = ⟨[], none⟩ := by
  rw [within]

theorem within_cons (opened : List Bytes) (b : UInt8) (rest : Bytes) :
    within opened (b :: rest) =
      match readEvent b rest with
      | .error fault => ⟨[], some fault⟩
      | .ok (event, after) =>
        match event, opened with
        | .start name, opened => (within (name :: opened) after).cons (.start name)
        | .close name, [] => ⟨[], some (.unmatchedClose name)⟩
        | .close name, expected :: outer =>
          if name = expected then (within outer after).cons (.close name)
          else ⟨[], some (.mismatchedClose expected name)⟩
        | event, opened => (within opened after).cons event := by
  rw [within]
  split
  · next h => rw [h]
  · next h => rw [h]
  · next h => rw [h]; cases opened <;> rfl
  · next event after hstart hclose h =>
    rw [h]
    cases event with
    | start name => exact absurd rfl (hstart name)
    | close name => exact absurd rfl (hclose name)
    | _ => rfl

/-! ## Open elements -/

/-- The open elements behind an event, innermost first, if the event can stand inside `opened`. -/
def nest (opened : List Bytes) (event : Event) : Option (List Bytes) :=
  match event, opened with
  | .start name, opened => some (name :: opened)
  | .close _, [] => none
  | .close name, expected :: outer => if name = expected then some outer else none
  | _, opened => some opened

variable {b : UInt8} {lexeme name rest after : Bytes} {event : Event} {opened names : List Bytes}

theorem within_of_nest (hread : readEvent b rest = .ok (event, after))
    (hnest : nest opened event = some names) :
    within opened (b :: rest) = (within names after).cons event := by
  rw [within_cons, hread]
  cases event with
  | start name => obtain rfl := Option.some.inj hnest; rfl
  | close name =>
    cases opened with
    | nil => cases hnest
    | cons expected outer =>
      obtain ⟨hname, rfl⟩ : name = expected ∧ outer = names := by simpa [nest] using hnest
      exact if_pos hname
  | _ => obtain rfl := Option.some.inj hnest; rfl

/-- An end tag of another element than the innermost ends the reading. -/
theorem within_of_nest_none (hread : readEvent b rest = .ok (event, after))
    (hnest : nest opened event = none) : ∃ fault, within opened (b :: rest) = ⟨[], some fault⟩ := by
  rw [within_cons, hread]
  cases event with
  | close name =>
    cases opened with
    | nil => exact ⟨_, rfl⟩
    | cons expected outer =>
      have hname : name ≠ expected := by simpa [nest] using hnest
      exact ⟨_, if_neg hname⟩
  | _ => cases hnest

/-- The end tags among the events of a reading match the start tags. -/
theorem nested_within (opened : List Bytes) (input : Bytes) :
    ∃ names, (within opened input).events.foldlM nest opened = some names := by
  match input with
  | [] => exact ⟨opened, by rw [within_nil]; rfl⟩
  | b :: rest =>
    cases hread : readEvent b rest with
    | error fault => exact ⟨opened, by rw [within_cons, hread]; rfl⟩
    | ok result =>
      obtain ⟨event, after⟩ := result
      cases hnest : nest opened event with
      | none =>
        obtain ⟨fault, hfault⟩ := within_of_nest_none hread hnest
        exact ⟨opened, by rw [hfault]; rfl⟩
      | some names =>
        obtain ⟨last, hlast⟩ := nested_within names after
        refine ⟨last, ?_⟩
        rw [within_of_nest hread hnest, Reading.cons, List.foldlM_cons, hnest]
        exact hlast
termination_by input.length
decreasing_by
  have := readEvent_length hread
  simp only [List.length_cons]
  omega

/-! ## Constructs -/

theorem within_spells (h : Spells lexeme event) (hnest : nest opened event = some names) (rest : Bytes) :
    within opened (lexeme ++ rest) = (within names rest).cons event := by
  obtain ⟨b, tail, rfl, hread⟩ := h
  exact within_of_nest (hread rest) hnest

theorem within_start (h : Spells lexeme (.start name)) (opened : List Bytes) (rest : Bytes) :
    within opened (lexeme ++ rest) = (within (name :: opened) rest).cons (.start name) :=
  within_spells h rfl rest

theorem within_close (h : Spells lexeme (.close name)) (outer : List Bytes) (rest : Bytes) :
    within (name :: outer) (lexeme ++ rest) = (within outer rest).cons (.close name) := by
  have hnest : nest (name :: outer) (.close name) = some outer := if_pos rfl
  exact within_spells h hnest rest

/-- Constructs other than start and end tags leave the open elements alone. -/
theorem within_of_spells (h : Spells lexeme event) (hstart : ∀ name, event ≠ .start name)
    (hclose : ∀ name, event ≠ .close name) (opened : List Bytes) (rest : Bytes) :
    within opened (lexeme ++ rest) = (within opened rest).cons event := by
  refine within_spells h ?_ rest
  cases event with
  | start name => exact absurd rfl (hstart name)
  | close name => exact absurd rfl (hclose name)
  | _ => rfl

/-- Every input begins with a run of characters, perhaps an empty one. -/
theorem exists_run (input : Bytes) : ∃ run more, input = run ++ more ∧
    (∀ b ∈ run, endsText b = false) ∧ ∀ b ∈ more.head?, endsText b = true := by
  induction input with
  | nil => exact ⟨[], [], rfl, by simp, by simp⟩
  | cons b input ih =>
    cases hb : endsText b with
    | true => exact ⟨[], b :: input, rfl, by simp, by simpa using hb⟩
    | false =>
      obtain ⟨run, more, rfl, hrun, hmore⟩ := ih
      exact ⟨b :: run, more, rfl, by simpa [hb] using hrun, hmore⟩

/-- A run of characters goes up to the next markup or reference. -/
theorem within_text {run more : Bytes} (hne : run ≠ []) (hrun : ∀ b ∈ run, endsText b = false)
    (hmore : ∀ b ∈ more.head?, endsText b = true) (opened : List Bytes) :
    within opened (run ++ more) = (within opened more).cons (.text run) := by
  obtain ⟨b, run, rfl⟩ := List.exists_cons_of_ne_nil hne
  have hread := readEvent_text (hrun b (by simp)) (run ++ more)
  have htail : ∀ c ∈ run, (!endsText c) = true := fun c hc => by simp [hrun c (by simp [hc])]
  have hstop : more.takeWhile (fun c => !endsText c) = [] ∧
      more.dropWhile (fun c => !endsText c) = more := by
    cases more with
    | nil => exact ⟨rfl, rfl⟩
    | cons c more => simp [hmore c rfl]
  rw [List.takeWhile_append_of_pos htail, List.dropWhile_append_of_pos htail, hstop.1, hstop.2,
    List.append_nil] at hread
  rw [List.cons_append, within_cons, hread]

end ShareWire.Markup.Reading

namespace ShareWire.Markup

theorem dropByteOrderMark_of_head {input : Bytes} (h : input.head? ≠ some 0xEF) :
    dropByteOrderMark input = input := by
  have hp : ¬ [0xEF, 0xBB, 0xBF].isPrefixOf input = true := by
    cases input with
    | nil => decide
    | cons b input =>
      have hb : 0xEF ≠ b := fun he => h (by rw [he]; rfl)
      simp [List.isPrefixOf, hb]
  rw [dropByteOrderMark, if_neg hp]

end ShareWire.Markup
