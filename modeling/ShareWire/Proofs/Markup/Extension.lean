import ShareWire.Proofs.Fallible
import ShareWire.Proofs.Markup.Doctype

/-!
# More input behind a construct

A construct that was read is read in the same way whatever is put in place of the input behind it: all
readers know the end of a construct when they see it, and look no further. Only a run of characters goes
on into the input that follows.
-/

namespace ShareWire.Markup

/-! ## Splitting -/

theorem splitTag_extend {quote : Option Quote} {input body after : Bytes}
    (h : splitTag quote input = .ok (body, after)) (more : Bytes) :
    splitTag quote (body ++ angleClose :: more) = .ok (body, more) := by
  induction input generalizing quote body with
  | nil => cases quote <;> cases h
  | cons b rest ih =>
    have step (q : Option Quote)
        (h : (splitTag q rest).map (fun x => (b :: x.1, x.2)) = .ok (body, after)) :
        ∃ inner, body = b :: inner ∧ splitTag q (inner ++ angleClose :: more) = .ok (inner, more) := by
      cases hq : splitTag q rest with
      | error e => rw [hq] at h; cases h
      | ok p => rw [hq] at h; cases h; exact ⟨p.1, rfl, ih hq⟩
    cases quote with
    | none =>
      rw [splitTag] at h
      split at h
      · cases h
        rw [List.nil_append, splitTag, if_pos rfl]
      · next hb =>
        obtain ⟨inner, rfl, hinner⟩ := step _ h
        rw [List.cons_append, splitTag, if_neg hb, hinner]
        rfl
    | some q =>
      rw [splitTag] at h
      obtain ⟨inner, rfl, hinner⟩ := step _ h
      rw [List.cons_append, splitTag, hinner]
      rfl

/-- The part before the first mark does not have the mark. -/
theorem not_infix_of_breakOn {marker input before after : Bytes} (hne : marker ≠ [])
    (h : breakOn marker input = some (before, after)) : ¬ marker <:+: before := by
  induction input generalizing before with
  | nil => simp [breakOn, hne] at h
  | cons b rest ih =>
    rw [breakOn] at h
    split at h
    · cases h
      simpa using hne
    · next hp =>
      obtain ⟨⟨inner, x⟩, hx, he⟩ := Option.map_eq_some_iff.1 h
      cases he
      rw [List.infix_cons_iff]
      rintro (hhead | hinfix)
      · rw [breakOn_eq_some hx, List.isPrefixOf_iff_prefix, List.append_assoc] at hp
        exact hp (hhead.trans (List.prefix_append (b :: inner) _))
      · exact ih hx hinfix

theorem breakOn_extend (mark : Bytes) {z : UInt8} (hz : z ∉ mark) {input before after : Bytes}
    (h : breakOn (mark ++ [z]) input = some (before, after)) (more : Bytes) :
    breakOn (mark ++ [z]) (before ++ ((mark ++ [z]) ++ more)) = some (before, more) :=
  breakOn_append mark hz (not_infix_of_breakOn (by simp) h) more

/-- A word in which `z` can only come last does not look behind a `z`. -/
theorem isPrefixOf_extend {word : Bytes} {z : UInt8} (hz : z ∉ word.dropLast)
    (body after more : Bytes) : word.isPrefixOf (body ++ z :: after) = word.isPrefixOf (body ++ z :: more) := by
  have hcut (tail : Bytes) : word <+: body ++ z :: tail ↔ word <+: body ++ [z] := by
    have hfront : body ++ [z] <+: body ++ z :: tail := ⟨tail, by simp⟩
    refine ⟨fun h => ?_, fun h => h.trans hfront⟩
    by_cases hle : word.length ≤ (body ++ [z]).length
    · exact List.prefix_of_prefix_length_le h hfront hle
    · obtain ⟨x, rfl⟩ := List.prefix_of_prefix_length_le hfront h (by omega)
      have hx : x ≠ [] := by
        rintro rfl
        simp at hle
      exact absurd (by rw [List.dropLast_append_of_ne_nil hx]; simp) hz
  rw [Bool.eq_iff_iff, List.isPrefixOf_iff_prefix, List.isPrefixOf_iff_prefix, hcut after, hcut more]

theorem ofSubsetTag_extend (body after more : Bytes) :
    DoctypeState.ofSubsetTag (body ++ angleClose :: after) =
      DoctypeState.ofSubsetTag (body ++ angleClose :: more) := by
  have hword (word : Bytes) (hz : angleClose ∉ word.dropLast) :=
    isPrefixOf_extend hz body after more
  unfold DoctypeState.ofSubsetTag
  rw [hword [0x3F] (by decide), hword [0x21, 0x2D, 0x2D] (by decide),
    hword [0x21, 0x45, 0x4E, 0x54, 0x49, 0x54, 0x59] (by decide),
    hword [0x21, 0x41, 0x54, 0x54, 0x4C, 0x49, 0x53, 0x54] (by decide),
    hword [0x21, 0x4E, 0x4F, 0x54, 0x41, 0x54, 0x49, 0x4F, 0x4E] (by decide)]

/-- The state of the scan behind the byte `b`, and how many bytes behind it to skip. At the end of the
declaration there is none. -/
def DoctypeState.next (state : DoctypeState) (b : UInt8) (rest : Bytes) : Option (DoctypeState × Nat) :=
  match state with
  | .outer none =>
    if b = angleClose then none
    else if b = 0x5B then some (.subset, 0)
    else some (.outer (Quote.ofByte? b), 0)
  | .outer (some q) => some (.outer (if b = q.byte then none else some q), 0)
  | .subset =>
    if b = 0x5D then some (.tail, 0)
    else if b = angleOpen then
      match DoctypeState.ofSubsetTag rest with
      | .comment => some (.comment, 3)
      | .instruction => some (.instruction, 1)
      | state => some (state, 0)
    else some (.subset, 0)
  | .comment =>
    if [0x2D, 0x2D, 0x3E].isPrefixOf (b :: rest) then some (.subset, 2) else some (.comment, 0)
  | .instruction =>
    if [0x3F, 0x3E].isPrefixOf (b :: rest) then some (.subset, 1) else some (.instruction, 0)
  | .quoting none =>
    if b = angleClose then some (.subset, 0) else some (.quoting (Quote.ofByte? b), 0)
  | .quoting (some q) => some (.quoting (if b = q.byte then none else some q), 0)
  | .skipping => if b = angleClose then some (.subset, 0) else some (.skipping, 0)
  | .tail => if b = angleClose then none else some (.tail, 0)

theorem splitDoctype_cons (state : DoctypeState) (b : UInt8) (rest : Bytes) :
    splitDoctype state 0 (b :: rest) =
      match state.next b rest with
      | none => some ([], rest)
      | some (onward, skip) => prefixed [b] (splitDoctype onward skip rest) := by
  rw [splitDoctype.eq_def]
  unfold DoctypeState.next
  simp only
  split
  all_goals (repeat' split)
  all_goals first | rfl | simp_all [prefixed]

theorem DoctypeState.next_eq_none {state : DoctypeState} {b : UInt8} {rest : Bytes}
    (h : state.next b rest = none) (more : Bytes) : state.next b more = none := by
  unfold DoctypeState.next at h ⊢
  split at h
  all_goals (repeat' split at h)
  all_goals first | contradiction | simp_all

theorem DoctypeState.next_extend (state : DoctypeState) (b : UInt8) (body after more : Bytes) :
    state.next b (body ++ angleClose :: after) = state.next b (body ++ angleClose :: more) := by
  have hword (word : Bytes) (hz : angleClose ∉ word.dropLast) :
      word.isPrefixOf (b :: (body ++ angleClose :: after)) =
        word.isPrefixOf (b :: (body ++ angleClose :: more)) :=
    isPrefixOf_extend hz (b :: body) after more
  unfold DoctypeState.next
  rw [ofSubsetTag_extend body after more, hword [0x2D, 0x2D, 0x3E] (by decide),
    hword [0x3F, 0x3E] (by decide)]

theorem splitDoctype_extend {state : DoctypeState} {skip : Nat} {input body after : Bytes}
    (h : splitDoctype state skip input = some (body, after)) (more : Bytes) :
    splitDoctype state skip (body ++ angleClose :: more) = some (body, more) := by
  induction input generalizing state skip body with
  | nil => simp [splitDoctype] at h
  | cons b rest ih =>
    have onward (s : DoctypeState) (k : Nat)
        (h : prefixed [b] (splitDoctype s k rest) = some (body, after)) :
        ∃ inner, body = b :: inner ∧ rest = inner ++ angleClose :: after ∧
          splitDoctype s k (inner ++ angleClose :: more) = some (inner, more) := by
      obtain ⟨⟨inner, x⟩, hx, he⟩ := Option.map_eq_some_iff.1 h
      cases he
      exact ⟨inner, rfl, splitDoctype_eq_some hx, ih hx⟩
    cases skip with
    | succ skip =>
      obtain ⟨inner, rfl, -, hinner⟩ := onward state skip (by rwa [splitDoctype.eq_def] at h)
      rw [List.cons_append, splitDoctype.eq_def]
      simp [hinner]
    | zero =>
      have hwhole := splitDoctype_eq_some h
      rw [splitDoctype_cons] at h
      cases hnext : state.next b rest with
      | none =>
        rw [hnext] at h
        cases h
        obtain rfl : b = angleClose := (List.cons.inj hwhole).1
        rw [List.nil_append, splitDoctype_cons, DoctypeState.next_eq_none hnext]
      | some p =>
        rw [hnext] at h
        obtain ⟨inner, rfl, rfl, hinner⟩ := onward _ _ h
        rw [List.cons_append, splitDoctype_cons, ← DoctypeState.next_extend, hnext]
        simp only [hinner]
        rfl

/-! ## Readers -/

/-- A reader whose result tells how much of the input it has used, and that uses the same bytes in the
same way in front of every other input. -/
def Settles (read : Bytes → Except MarkupError (Event × Bytes)) : Prop :=
  ∀ {input after : Bytes} {event : Event}, read input = .ok (event, after) →
    ∃ used, used ≠ [] ∧ input = used ++ after ∧ ∀ more, read (used ++ more) = .ok (event, more)

/-- What stands behind an end mark makes no difference to a reader that only looks for the mark. -/
theorem settles_marked (word mark : Bytes) {z : UInt8} (hz : z ∉ mark) (event : Bytes → Event)
    (missing : Bytes → MarkupError) {read : Bytes → Except MarkupError (Event × Bytes)}
    (hread : ∀ input, read input =
      if word.isPrefixOf input then
        match breakOn (mark ++ [z]) (input.drop word.length) with
        | none => .error (missing input)
        | some (body, after) => .ok (event body, after)
      else .error (missing input)) : Settles read := by
  intro input after e h
  rw [hread] at h
  split at h
  · next hword =>
    obtain ⟨inner, rfl⟩ := List.isPrefixOf_iff_prefix.1 hword
    rw [List.drop_left] at h
    split at h
    · contradiction
    · next body x hbreak =>
      cases h
      refine ⟨word ++ (body ++ (mark ++ [z])), by simp, by simp [breakOn_eq_some hbreak], fun more => ?_⟩
      have hmore := breakOn_extend mark hz hbreak more
      have hword : word.isPrefixOf (word ++ (body ++ (mark ++ [z])) ++ more) = true :=
        List.isPrefixOf_iff_prefix.2 ⟨_, (List.append_assoc ..).symm⟩
      rw [hread, if_pos hword, List.append_assoc, List.drop_left, List.append_assoc, hmore]
  · contradiction

theorem settles_readComment : Settles readComment :=
  settles_marked [0x2D, 0x2D] [0x2D, 0x2D] (by decide) (fun _ => .comment)
    (fun _ => .commentNotClosed) fun _ => rfl

theorem settles_readCdata : Settles readCdata :=
  settles_marked cdataWord [0x5D, 0x5D] (by decide) .cdata
    (fun _ => .cdataNotClosed) fun _ => rfl

theorem settles_readInstruction : Settles readInstruction := by
  intro input after e h
  unfold readInstruction at h
  split at h
  · contradiction
  · next hopen =>
    split at h
    · contradiction
    · next body x hbreak =>
      cases h
      have hwhole : input = body ++ [0x3F] ++ angleClose :: after := by
        simp [breakOn_eq_some hbreak, angleClose]
      refine ⟨body ++ [0x3F] ++ [angleClose], by simp, by simp [hwhole], fun more => ?_⟩
      have hmore : breakOn [0x3F, 0x3E] (body ++ [0x3F] ++ angleClose :: more) = some (body, more) := by
        simpa [angleClose] using breakOn_extend [0x3F] (by decide) hbreak more
      have hword : angleClose ∉ ([angleClose] : Bytes).dropLast := by decide
      rw [hwhole, isPrefixOf_extend hword _ after more] at hopen
      rw [List.append_assoc, List.singleton_append, readInstruction, if_neg hopen, hmore]

theorem settles_readDoctype : Settles readDoctype := by
  intro input after e h
  unfold readDoctype at h
  split at h
  · next hword =>
    split at h
    · contradiction
    · next body x hsplit =>
      split at h
      · contradiction
      · next hname =>
        cases h
        have hlength := congrArg List.length hword
        simp only [List.length_map, List.length_take] at hlength
        have hwhole := splitDoctype_eq_some hsplit
        refine ⟨input.take doctypeWord.length ++ (body ++ [angleClose]), by simp, ?_, fun more => ?_⟩
        · rw [List.append_assoc, List.append_assoc, List.singleton_append, ← hwhole,
            List.take_append_drop]
        · have htake : (input.take doctypeWord.length).length = doctypeWord.length := by
            rw [List.length_take, hlength]
          rw [List.append_assoc, List.append_assoc, List.singleton_append, readDoctype,
            List.take_left' htake, List.drop_left' htake, if_pos hword,
            splitDoctype_extend hsplit more]
          exact if_neg hname
  · contradiction

/-- The first byte of what a reader has used is the byte that chose the reader. -/
theorem Settles.of_first {read choice : Bytes → Except MarkupError (Event × Bytes)}
    (hchoice : Settles choice) {b : UInt8} {rest after : Bytes} {event : Event}
    (h : choice (b :: rest) = .ok (event, after)) (hread : ∀ tail, read (b :: tail) = choice (b :: tail)) :
    ∃ used, used ≠ [] ∧ b :: rest = used ++ after ∧ ∀ more, read (used ++ more) = .ok (event, more) := by
  obtain ⟨used, hused, hwhole, hmore⟩ := hchoice h
  obtain ⟨c, tail, rfl⟩ := List.exists_cons_of_ne_nil hused
  obtain rfl : b = c := (List.cons.inj hwhole).1
  exact ⟨b :: tail, hused, hwhole, fun more => (hread _).trans (hmore more)⟩

theorem settles_readDeclaration : Settles readDeclaration := by
  intro input after e h
  cases input with
  | nil => cases h
  | cons b rest =>
    rw [readDeclaration] at h
    split at h
    · next hb => exact settles_readComment.of_first h fun tail => by rw [readDeclaration, if_pos hb]
    · next hcomment =>
      split at h
      · next hb =>
        exact settles_readCdata.of_first h fun tail => by
          rw [readDeclaration, if_neg hcomment, if_pos hb]
      · next hcdata =>
        split at h
        · next hb =>
          exact settles_readDoctype.of_first h fun tail => by
            rw [readDeclaration, if_neg hcomment, if_neg hcdata, if_pos hb]
        · contradiction

theorem settles_splitTag (event : Bytes → Event) :
    Settles fun input => (splitTag none input).map fun (body, after) => (event body, after) := by
  intro input after e h
  obtain ⟨⟨body, x⟩, hsplit, he⟩ := exists_of_map_ok h
  cases he
  refine ⟨body ++ [angleClose], by simp, by simp [splitTag_eq_ok hsplit], fun more => ?_⟩
  have hmore := splitTag_extend hsplit more
  simp only [List.append_assoc, List.singleton_append, hmore]
  rfl

theorem settles_readMarkup : Settles readMarkup := by
  intro input after e h
  cases input with
  | nil => cases h
  | cons b rest =>
    have behind {read : Bytes → Except MarkupError (Event × Bytes)} (hread : Settles read)
        (h : read rest = .ok (e, after)) (hchoice : ∀ tail, readMarkup (b :: tail) = read tail) :
        ∃ used, used ≠ [] ∧ b :: rest = used ++ after ∧
          ∀ more, readMarkup (used ++ more) = .ok (e, more) := by
      obtain ⟨used, -, rfl, hmore⟩ := hread h
      exact ⟨b :: used, by simp, rfl, fun more => (hchoice _).trans (hmore more)⟩
    rw [readMarkup] at h
    split at h
    · next hb =>
      exact behind (settles_splitTag fun body => .close (closeName body)) h fun tail => by
        rw [readMarkup, if_pos hb]
    · next hslash =>
      split at h
      · next hb =>
        exact behind settles_readDeclaration h fun tail => by
          rw [readMarkup, if_neg hslash, if_pos hb]
      · next hexclamation =>
        split at h
        · next hb =>
          exact behind settles_readInstruction h fun tail => by
            rw [readMarkup, if_neg hslash, if_neg hexclamation, if_pos hb]
        · next hquestion =>
          exact Settles.of_first (settles_splitTag tagEvent) h fun tail => by
            rw [readMarkup, if_neg hslash, if_neg hexclamation, if_neg hquestion]

/-- A reference ends with its first semicolon. -/
theorem readReference_eq_ok {input after : Bytes} {event : Event}
    (h : readReference input = .ok (event, after)) : ∃ body, event = .reference body ∧
      input = body ++ semicolon :: after ∧ ∀ b ∈ body, endsText b = false ∧ b ≠ semicolon := by
  unfold readReference at h
  simp only at h
  split at h
  · contradiction
  · next b x hdrop =>
    split at h
    · next hb =>
      cases h
      have hwhole := List.takeWhile_append_dropWhile
        (p := fun b => !(endsText b || decide (b = semicolon))) (l := input)
      rw [hdrop, hb] at hwhole
      have hall := List.all_takeWhile (p := fun b => !(endsText b || decide (b = semicolon))) (l := input)
      exact ⟨_, rfl, hwhole.symm, fun b hb => by simpa using List.all_eq_true.1 hall b hb⟩
    · contradiction

/-- A construct that is no run of characters is read as its event whatever stands behind it. -/
theorem spells_of_readEvent {b : UInt8} {rest after : Bytes} {event : Event} (hb : endsText b = true)
    (h : readEvent b rest = .ok (event, after)) :
    ∃ tail, rest = tail ++ after ∧ Spells (b :: tail) event := by
  have hb : b = angleOpen ∨ b = ampersand := by simpa [endsText] using hb
  rcases hb with rfl | rfl
  · rw [readEvent, if_pos rfl] at h
    obtain ⟨used, -, rfl, hmore⟩ := settles_readMarkup h
    refine ⟨used, rfl, angleOpen, used, rfl, fun more => ?_⟩
    rw [readEvent, if_pos rfl, hmore]
  · rw [readEvent, if_neg (by decide), if_pos rfl] at h
    obtain ⟨body, rfl, rfl, hbody⟩ := readReference_eq_ok h
    exact ⟨body ++ [semicolon], by simp, spells_reference hbody⟩

end ShareWire.Markup
