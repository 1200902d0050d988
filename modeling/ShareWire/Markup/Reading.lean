import ShareWire.Markup.Lexeme

/-!
# Reading a document as events

`Reading.ofBytes` cuts a whole input into events and checks that end tags match start tags. Main
statements: every lexeme reader leaves a suffix of its input, and a strictly shorter one.
-/

namespace ShareWire.Markup

theorem breakOn_eq_some {marker input before after : Bytes}
    (h : breakOn marker input = some (before, after)) : input = before ++ marker ++ after := by
  induction input generalizing before after with
  | nil =>
    simp only [breakOn] at h
    split at h
    · cases h; simp_all
    · contradiction
  | cons b rest ih =>
    simp only [breakOn] at h
    split at h
    · next hp =>
      cases h
      obtain ⟨t, ht⟩ := List.isPrefixOf_iff_prefix.1 hp
      rw [← ht]; simp
    · obtain ⟨⟨x, y⟩, hx, he⟩ := Option.map_eq_some_iff.1 h
      cases he
      simp [ih hx]

theorem splitTag_eq_ok {quote : Option Quote} {input body after : Bytes}
    (h : splitTag quote input = .ok (body, after)) : input = body ++ angleClose :: after := by
  induction input generalizing quote body after with
  | nil => cases quote <;> simp [splitTag] at h
  | cons b rest ih =>
    have step (q : Option Quote)
        (h : (splitTag q rest).map (fun x => (b :: x.1, x.2)) = .ok (body, after)) :
        b :: rest = body ++ angleClose :: after := by
      cases hq : splitTag q rest with
      | error e => simp [hq, Except.map] at h
      | ok p =>
        obtain ⟨x, y⟩ := p
        simp only [hq, Except.map, Except.ok.injEq, Prod.mk.injEq] at h
        obtain ⟨rfl, rfl⟩ := h
        simp [ih hq]
    cases quote with
    | none =>
      simp only [splitTag] at h
      split at h
      · next hb => cases h; simp [hb]
      · exact step _ h
    | some q =>
      simp only [splitTag] at h
      exact step _ h

theorem splitDoctype_eq_some {state : DoctypeState} {skip : Nat} {input body after : Bytes}
    (h : splitDoctype state skip input = some (body, after)) :
    input = body ++ angleClose :: after := by
  induction input generalizing state skip body after with
  | nil => simp [splitDoctype] at h
  | cons b rest ih =>
    have onward (s : DoctypeState) (k : Nat)
        (h : (splitDoctype s k rest).map (fun x => (b :: x.1, x.2)) = some (body, after)) :
        b :: rest = body ++ angleClose :: after := by
      obtain ⟨⟨x, y⟩, hx, he⟩ := Option.map_eq_some_iff.1 h
      cases he
      simp [ih hx]
    have stop (hb : b = angleClose) (h : some (([] : Bytes), rest) = some (body, after)) :
        b :: rest = body ++ angleClose :: after := by
      cases h; simp [hb]
    unfold splitDoctype at h
    split at h
    · exact onward _ _ h
    · split at h
      all_goals (repeat' split at h)
      all_goals first
        | exact onward _ _ h
        | (rename_i hb; exact stop hb h)

/-- What a tag reader leaves is shorter than what it was given. -/
theorem splitTag_length {quote : Option Quote} {input body after : Bytes}
    (h : splitTag quote input = .ok (body, after)) : after.length < input.length := by
  rw [splitTag_eq_ok h]; simp; omega

theorem readDoctype_length {rest after : Bytes} {e : Event}
    (h : readDoctype rest = .ok (e, after)) : after.length ≤ rest.length := by
  unfold readDoctype at h
  split at h
  · split at h
    · contradiction
    · next body x hs =>
      split at h
      · contradiction
      · cases h
        have := congrArg List.length (splitDoctype_eq_some hs)
        simp at this; omega
  · contradiction

theorem readComment_length {rest after : Bytes} {e : Event}
    (h : readComment rest = .ok (e, after)) : after.length ≤ rest.length := by
  unfold readComment at h
  split at h
  · split at h
    · contradiction
    · next body x hs =>
      cases h
      have := congrArg List.length (breakOn_eq_some hs)
      simp at this; omega
  · contradiction

theorem readCdata_length {rest after : Bytes} {e : Event}
    (h : readCdata rest = .ok (e, after)) : after.length ≤ rest.length := by
  unfold readCdata at h
  split at h
  · split at h
    · contradiction
    · next body x hs =>
      cases h
      have := congrArg List.length (breakOn_eq_some hs)
      simp at this; omega
  · contradiction

theorem readInstruction_length {rest after : Bytes} {e : Event}
    (h : readInstruction rest = .ok (e, after)) : after.length ≤ rest.length := by
  unfold readInstruction at h
  split at h
  · contradiction
  · split at h
    · contradiction
    · next body x hs =>
      cases h
      have := congrArg List.length (breakOn_eq_some hs)
      simp at this; omega

theorem readDeclaration_length {rest after : Bytes} {e : Event}
    (h : readDeclaration rest = .ok (e, after)) : after.length ≤ rest.length := by
  unfold readDeclaration at h
  split at h
  · contradiction
  · split at h
    · exact readComment_length h
    · split at h
      · exact readCdata_length h
      · split at h
        · exact readDoctype_length h
        · contradiction

theorem readMarkup_length {rest after : Bytes} {e : Event}
    (h : readMarkup rest = .ok (e, after)) : after.length ≤ rest.length := by
  have tag (f : Bytes → Event) (q : Option Quote) (input : Bytes)
      (h : (splitTag q input).map (fun x => (f x.1, x.2)) = .ok (e, after)) :
      after.length ≤ input.length := by
    cases hs : splitTag q input with
    | error e => simp [hs, Except.map] at h
    | ok p =>
      obtain ⟨x, y⟩ := p
      simp only [hs, Except.map, Except.ok.injEq, Prod.mk.injEq] at h
      obtain ⟨_, rfl⟩ := h
      exact Nat.le_of_lt (splitTag_length hs)
  unfold readMarkup at h
  split at h
  · contradiction
  · next b inner =>
    split at h
    · exact Nat.le_succ_of_le (tag (fun x => .close (closeName x)) none inner h)
    · split at h
      · exact Nat.le_succ_of_le (readDeclaration_length h)
      · split at h
        · exact Nat.le_succ_of_le (readInstruction_length h)
        · exact tag tagEvent none _ h

theorem readReference_length {rest after : Bytes} {e : Event}
    (h : readReference rest = .ok (e, after)) : after.length ≤ rest.length := by
  unfold readReference at h
  simp only at h
  split at h
  · contradiction
  · next b x hd =>
    split at h
    · cases h
      have hs := List.dropWhile_suffix (fun b => !(endsText b || b = semicolon)) (l := rest)
      rw [hd] at hs
      exact Nat.le_of_succ_le hs.length_le
    · contradiction

/-- One construct takes up at least one byte. -/
theorem readEvent_length {b : UInt8} {rest after : Bytes} {e : Event}
    (h : readEvent b rest = .ok (e, after)) : after.length ≤ rest.length := by
  unfold readEvent at h
  split at h
  · exact readMarkup_length h
  · split at h
    · exact readReference_length h
    · cases h
      exact (List.dropWhile_suffix _).length_le

/-- An input as events, and the markup error that ended the reading early, if there was one. -/
structure Reading where
  events : List Event
  /-- The error behind the last event, or `none` if the input was read to its end. -/
  fault : Option MarkupError
deriving DecidableEq, Repr

def Reading.cons (e : Event) (r : Reading) : Reading :=
  { r with events := e :: r.events }

/-- Reads the rest of an input inside the elements whose names are `opened`, innermost first. -/
def Reading.within (opened : List Bytes) : Bytes → Reading
  | [] => ⟨[], none⟩
  | b :: rest =>
    match _h : readEvent b rest with
    | .error fault => ⟨[], some fault⟩
    | .ok (.start name, after) => (within (name :: opened) after).cons (.start name)
    | .ok (.close name, after) =>
      match opened with
      | [] => ⟨[], some (.unmatchedClose name)⟩
      | expected :: outer =>
        if name = expected then (within outer after).cons (.close name)
        else ⟨[], some (.mismatchedClose expected name)⟩
    | .ok (event, after) => (within opened after).cons event
termination_by input => input.length
decreasing_by
  all_goals
    have := readEvent_length _h
    simp only [List.length_cons]
    omega

def dropByteOrderMark (input : Bytes) : Bytes :=
  if [0xEF, 0xBB, 0xBF].isPrefixOf input then input.drop 3 else input

def Reading.ofBytes (input : Bytes) : Reading :=
  within [] (dropByteOrderMark input)

end ShareWire.Markup
