import ShareWire.Proofs.Markup.Truncation

/-!
# Sizes of constructs

The bytes that an event keeps are fewer than those of the construct that it was read from. Main
statements: the events of an input that is read to its end are no larger than the input, and behind such
an input constructs are told apart by their events only.
-/

namespace ShareWire.Markup

open Reading (nest within within_of_nest within_spells within_text)

/-! ## Events -/

/-- The bytes that an event has at least: those that it keeps, and the marks around them. Of an end tag
one byte is counted. -/
def Event.size : Event → Nat
  | .start name => name.length + 2
  | .empty name => name.length + 3
  | .close _ => 1
  | .text content | .cdata content => content.length
  | .reference body => body.length + 2
  | .declaration | .comment | .instruction | .doctype => 0

def totalSize : List Event → Nat
  | [] => 0
  | event :: events => event.size + totalSize events

variable {b : UInt8} {body rest after : Bytes} {event : Event}

/-! ## Constructs -/

theorem size_tagEvent (body : Bytes) : (tagEvent body).size ≤ body.length + 2 := by
  have hname (bytes : Bytes) : (tagName bytes).length ≤ bytes.length :=
    (List.takeWhile_sublist _).length_le
  unfold tagEvent
  split
  · next last hlast =>
    have hdropped : body.dropLast.length + 1 = body.length := by
      rw [List.length_dropLast, Nat.sub_add_cancel]
      exact List.length_pos_of_mem (List.mem_of_getLast? hlast)
    split
    · show (tagName body.dropLast).length + 3 ≤ body.length + 2
      have := hname body.dropLast
      omega
    · exact Nat.add_le_add_right (hname body) 2
  · exact Nat.le_add_left 2 body.length

theorem size_of_readComment (h : readComment rest = .ok (event, after)) :
    event.size + after.length ≤ rest.length := by
  have hlength := readComment_length h
  unfold readComment at h
  repeat' split at h
  all_goals first | contradiction | cases h
  rwa [Event.size, Nat.zero_add]

theorem size_of_readDoctype (h : readDoctype rest = .ok (event, after)) :
    event.size + after.length ≤ rest.length := by
  have hlength := readDoctype_length h
  unfold readDoctype at h
  repeat' split at h
  all_goals first | contradiction | cases h
  rwa [Event.size, Nat.zero_add]

theorem size_of_readInstruction (h : readInstruction rest = .ok (event, after)) :
    event.size + after.length ≤ rest.length := by
  have hlength := readInstruction_length h
  unfold readInstruction at h
  repeat' split at h
  all_goals first | contradiction | cases h
  all_goals rwa [Event.size, Nat.zero_add]

theorem size_of_readCdata (h : readCdata rest = .ok (event, after)) :
    event.size + after.length ≤ rest.length := by
  unfold readCdata at h
  split at h
  · split at h
    · contradiction
    · next content x hbreak =>
      cases h
      have hlength := congrArg List.length (breakOn_eq_some hbreak)
      simp only [List.length_drop, List.length_append] at hlength
      rw [Event.size]
      omega
  · contradiction

theorem size_of_readDeclaration (h : readDeclaration rest = .ok (event, after)) :
    event.size + after.length ≤ rest.length := by
  unfold readDeclaration at h
  split at h
  · contradiction
  · split at h
    · exact size_of_readComment h
    · split at h
      · exact size_of_readCdata h
      · split at h
        · exact size_of_readDoctype h
        · contradiction

/-- The `<` in front is one of the bytes of a construct. -/
theorem size_of_readMarkup (h : readMarkup rest = .ok (event, after)) :
    event.size + after.length ≤ rest.length + 1 := by
  unfold readMarkup at h
  split at h
  · contradiction
  · next b inner =>
    rw [List.length_cons]
    split at h
    · obtain ⟨⟨name, x⟩, hsplit, he⟩ := exists_of_map_ok h
      cases he
      have hlength := splitTag_length hsplit
      show 1 + after.length ≤ inner.length + 1 + 1
      omega
    · split at h
      · have := size_of_readDeclaration h
        omega
      · split at h
        · have := size_of_readInstruction h
          omega
        · obtain ⟨⟨body, x⟩, hsplit, he⟩ := exists_of_map_ok h
          cases he
          have hlength := congrArg List.length (splitTag_eq_ok hsplit)
          simp only [List.length_cons, List.length_append] at hlength
          have htag := size_tagEvent body
          omega

/-- No construct is smaller than its event. -/
theorem size_of_readEvent (h : readEvent b rest = .ok (event, after)) :
    event.size + after.length ≤ rest.length + 1 := by
  unfold readEvent at h
  split at h
  · exact size_of_readMarkup h
  · split at h
    · obtain ⟨body, rfl, rfl, -⟩ := readReference_eq_ok h
      rw [Event.size, List.length_append, List.length_cons]
      omega
    · cases h
      have hrun := congrArg List.length
        (List.takeWhile_append_dropWhile (p := fun c => !endsText c) (l := rest))
      rw [List.length_append] at hrun
      rw [Event.size, List.length_cons]
      omega

theorem Spells.size_le {lexeme : Bytes} (h : Spells lexeme event) : event.size ≤ lexeme.length := by
  obtain ⟨b, tail, rfl, hread⟩ := h
  have hsize := size_of_readEvent (hread [])
  rwa [List.append_nil] at hsize

/-! ## Whole inputs -/

variable {opened : List Bytes} {input front lexeme other : Bytes} {events : List Event}

/-- The events of an input that is read to its end are no larger than the input. -/
theorem Reads.totalSize_le (h : Reads opened input events) : totalSize events ≤ input.length := by
  induction h with
  | nil => exact Nat.le_refl 0
  | construct _ hspells _ _ ih =>
    have hsize := hspells.size_le
    rw [totalSize, List.length_append]
    omega
  | characters _ _ _ _ ih =>
    rw [totalSize, Event.size, List.length_append]
    omega

/-- Behind an input that is read to its end the reading goes on, provided that no characters come next
that could join those at its end. -/
theorem Reads.exists_within_append (h : Reads opened front events) :
    ∃ names, ∀ more : Bytes, (∀ b ∈ more.head?, endsText b = true) →
      within opened (front ++ more) =
        ⟨events ++ (within names more).events, (within names more).fault⟩ := by
  induction h with
  | @nil opened => exact ⟨opened, fun more _ => rfl⟩
  | construct _ hspells hnest _ ih =>
    obtain ⟨names, hmore⟩ := ih
    refine ⟨names, fun more hhead => ?_⟩
    rw [List.append_assoc, within_spells hspells hnest, hmore more hhead]
    rfl
  | @characters opened run rest events hne hrun hrest _ ih =>
    obtain ⟨names, hmore⟩ := ih
    refine ⟨names, fun more hhead => ?_⟩
    have hnext : ∀ b ∈ (rest ++ more).head?, endsText b = true := by
      cases rest with
      | nil => exact hhead
      | cons b rest => exact hrest
    rw [List.append_assoc, within_text hne hrun hnext, hmore more hhead]
    rfl

/-- A construct never begins with a character, which would go on into the input behind it. -/
theorem Spells.endsText_head (h : Spells lexeme event) (rest : Bytes) :
    ∀ b ∈ (lexeme ++ rest).head?, endsText b = true := by
  obtain ⟨b, tail, rfl, hread⟩ := h
  intro c hc
  obtain rfl : b = c := Option.some.inj hc
  by_contra htext
  rw [Bool.not_eq_true] at htext
  -- Otherwise a letter behind the construct would be a part of it.
  have hx : endsText 0x61 = false := rfl
  have hall := (hread [0x61]).symm.trans (readEvent_text htext (tail ++ [0x61]))
  have hrest : [0x61] = (tail ++ [0x61]).dropWhile fun c => !endsText c :=
    congrArg Prod.snd (Except.ok.inj hall)
  have hhead := List.head?_dropWhile_not (fun c => !endsText c) (tail ++ [0x61])
  rw [← hrest] at hhead
  simp [hx] at hhead

/-- Constructs with the same event can stand for each other. -/
theorem within_congr_spells (h : Spells lexeme event) (h' : Spells other event) (names : List Bytes)
    (rest : Bytes) : within names (lexeme ++ rest) = within names (other ++ rest) := by
  obtain ⟨b, tail, rfl, hread⟩ := h
  obtain ⟨b', tail', rfl, hread'⟩ := h'
  rw [List.cons_append, List.cons_append, Reading.within_cons, Reading.within_cons, hread, hread']

theorem dropByteOrderMark_length_le (input : Bytes) :
    (dropByteOrderMark input).length ≤ input.length := by
  unfold dropByteOrderMark
  split
  · rw [List.length_drop]
    omega
  · exact Nat.le_refl _

/-- Markup and references are no part of a byte order mark. -/
theorem dropByteOrderMark_append_of_head (front : Bytes) {more : Bytes}
    (hmore : ∀ b ∈ more.head?, endsText b = true) :
    dropByteOrderMark (front ++ more) = dropByteOrderMark front ++ more := by
  by_cases hmark : [0xEF, 0xBB, 0xBF] <+: front
  · obtain ⟨rest, rfl⟩ := hmark
    rfl
  · have hlong : ¬ [0xEF, 0xBB, 0xBF] <+: front ++ more := by
      intro hlong
      obtain ⟨x, hx⟩ := (List.prefix_or_prefix_of_prefix hlong
        (List.prefix_append front more)).resolve_left hmark
      rw [← hx, List.prefix_append_right_inj] at hlong
      cases x with
      | nil => exact hmark ⟨[], by rw [← hx, List.append_nil, List.append_nil]⟩
      | cons c x =>
        have htext : ∀ b ∈ ([0xEF, 0xBB, 0xBF] : Bytes), endsText b = false :=
          forall_mem_of_all (by decide)
        have hc : c ∈ ([0xEF, 0xBB, 0xBF] : Bytes) := by
          rw [← hx]
          exact List.mem_append_right front List.mem_cons_self
        have hhead := hmore c (mem_head?_of_isPrefix hlong rfl)
        rw [htext c hc] at hhead
        cases hhead
    rw [← List.isPrefixOf_iff_prefix] at hmark hlong
    rw [dropByteOrderMark, dropByteOrderMark, if_neg hmark, if_neg hlong]

end ShareWire.Markup
