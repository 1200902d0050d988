import ShareWire.Proofs.Document.Language
import ShareWire.Proofs.Http.Response
import ShareWire.Proofs.Markup.Truncation

/-!
# Documents cut short

A document of which the end was lost is never taken for another document: it is an error, or only white
space, comments and instructions behind its root element were lost. So no record is read from a part of a
body that differs from the record in the whole.
-/

namespace ShareWire

open Text (encode)
open Markup (Cut Event Reading Reads blankBytes dropByteOrderMark endsText reads_iff)

/-! ## Progress -/

namespace Progress

theorem eq_of_foldlM_after {events : List Event} {root last : Element}
    (h : events.foldlM step (.after root) = .ok (.after last)) : root = last := by
  induction events with
  | nil => exact Progress.after.inj (Except.ok.inj h)
  | cons event events ih =>
    rw [List.foldlM_cons] at h
    obtain ⟨next, hstep, h⟩ := exists_of_bind_ok h
    obtain ⟨-, rfl⟩ := trailing_of_step hstep
    exact ih h

theorem run_within_nil (opened : List OpenElement) :
    ∃ error, (within opened).run ⟨[], none⟩ = .error error := by
  cases opened with
  | nil => exact ⟨_, rfl⟩
  | cons o outer => exact ⟨_, rfl⟩

/-- Characters at the end of an input do not end an element. -/
theorem run_within_text (opened : List OpenElement) (part : Bytes) :
    ∃ error, (within opened).run ⟨[.text part], none⟩ = .error error := by
  have hrun : (within opened).run ⟨[.text part], none⟩ =
      (step (.within opened) (.text part)).bind fun next => next.run ⟨[], none⟩ :=
    run_cons _ _ ⟨[], none⟩
  cases hstep : step (.within opened) (.text part) with
  | error error => exact ⟨error, by rw [hrun, hstep]; rfl⟩
  | ok next =>
    have hnext : ∃ opened', next = .within opened' := by
      cases opened with
      | nil =>
        rcases leading_of_step hstep with ⟨-, rfl⟩ | ⟨name, ⟨hother, -⟩ | ⟨hother, -⟩⟩
        · exact ⟨[], rfl⟩
        · cases hother
        · cases hother
      | cons o outer =>
        rcases inner_of_step hstep with
          ⟨-, text, rfl⟩ | ⟨name, ⟨hother, -⟩ | ⟨hother, -⟩⟩ | ⟨bytes, hother, -⟩
        · exact ⟨{ o with text } :: outer, rfl⟩
        · cases hother
        · cases hother
        · cases hother
    obtain ⟨opened', rfl⟩ := hnext
    rw [hrun, hstep]
    exact run_within_nil opened'

/-- Events that are cut short do not complete another root element than all of them. -/
theorem run_cut {events : List Event} {reading : Reading} {progress : Progress} {root : Element}
    (hcut : Cut events reading) (h : events.foldlM step progress = .ok (.after root)) :
    (∃ error, progress.run reading = .error error) ∨ progress.run reading = .ok root := by
  induction hcut generalizing progress with
  | stop =>
    match progress with
    | .within opened => exact .inl (run_within_nil opened)
    | .after other =>
      obtain rfl := eq_of_foldlM_after h
      exact .inr rfl
  | fault fault => exact .inl ⟨.markup fault, rfl⟩
  | @characters whole part events hpart =>
    match progress with
    | .within opened => exact .inl (run_within_text opened part)
    | .after other =>
      obtain rfl := eq_of_foldlM_after h
      rw [List.foldlM_cons] at h
      obtain ⟨next, hstep, -⟩ := exists_of_bind_ok h
      have hblank : blankBytes whole = true := (trailing_of_step hstep).1
      have hpartBlank : (Event.text part).Trailing :=
        List.all_eq_true.2 fun b hb => List.all_eq_true.1 hblank b (hpart.subset hb)
      refine .inr ?_
      rw [run, List.foldlM_cons, step_trailing other hpartBlank]
      rfl
  | @cons event events reading _ ih =>
    rw [List.foldlM_cons] at h
    obtain ⟨next, hstep, h⟩ := exists_of_bind_ok h
    rw [run_cons, hstep]
    exact ih h

end Progress

/-! ## The byte order mark -/

/-- A part of an input has the same mark, or does not go beyond a part of the mark. -/
theorem dropByteOrderMark_prefix {part input : Bytes} (h : part <+: input) :
    dropByteOrderMark part <+: dropByteOrderMark input ∨
      part <+: [0xEF, 0xBB, 0xBF] ∧ dropByteOrderMark part = part := by
  by_cases hpart : [0xEF, 0xBB, 0xBF].isPrefixOf part = true
  · obtain ⟨rest, rfl⟩ := List.isPrefixOf_iff_prefix.1 hpart
    obtain ⟨more, rfl⟩ := h
    exact .inl ⟨more, by simp [dropByteOrderMark]⟩
  · have hown : dropByteOrderMark part = part := by rw [dropByteOrderMark, if_neg hpart]
    by_cases hinput : [0xEF, 0xBB, 0xBF].isPrefixOf input = true
    · refine .inr ⟨?_, hown⟩
      refine (List.prefix_or_prefix_of_prefix h (List.isPrefixOf_iff_prefix.1 hinput)).resolve_right ?_
      exact fun hmark => hpart (List.isPrefixOf_iff_prefix.2 hmark)
    · have hwhole : dropByteOrderMark input = input := by rw [dropByteOrderMark, if_neg hinput]
      rw [hown, hwhole]
      exact .inl h

theorem exists_prefix_of_dropByteOrderMark {front input : Bytes} (h : front <+: dropByteOrderMark input) :
    ∃ part, part <+: input ∧ dropByteOrderMark part = front := by
  by_cases hmark : [0xEF, 0xBB, 0xBF].isPrefixOf input = true
  · obtain ⟨rest, rfl⟩ := List.isPrefixOf_iff_prefix.1 hmark
    have hrest : front <+: rest := by simpa [dropByteOrderMark] using h
    exact ⟨[0xEF, 0xBB, 0xBF] ++ front, (List.prefix_append_right_inj _).2 hrest,
      by simp [dropByteOrderMark]⟩
  · rw [dropByteOrderMark, if_neg hmark] at h
    refine ⟨front, h, ?_⟩
    rw [dropByteOrderMark, if_neg]
    exact fun hfront => hmark (List.isPrefixOf_iff_prefix.2
      ((List.isPrefixOf_iff_prefix.1 hfront).trans h))

/-! ## Documents -/

namespace Element

variable {body : Bytes} {root : Element}

theorem parse_cut {part : Bytes} (h : parse body = .ok root) (hpart : part <+: body) :
    (∃ error, parse part = .error error) ∨ parse part = .ok root := by
  rcases dropByteOrderMark_prefix hpart with hrest | ⟨hmark, hown⟩
  · rw [parse_eq_run, Progress.run_ok_iff] at h
    obtain ⟨hfault, hrun⟩ := h
    have hreads : Reads [] (dropByteOrderMark body) (Reading.ofBytes body).events := by
      rw [reads_iff, ← hfault]
      rfl
    exact Progress.run_cut (hreads.cut hrest) hrun
  · -- A part of the mark is text in front of the root element.
    cases hparse : parse part with
    | error error => exact .inl ⟨error, rfl⟩
    | ok other =>
      have htext : ∀ b ∈ ([0xEF, 0xBB, 0xBF] : Bytes), endsText b = false :=
        Markup.forall_mem_of_all (by decide)
      rw [parse_eq_resume, hown] at hparse
      cases (Progress.after_of_resume_run (fun b hb => htext b (hmark.subset hb)) hparse).1

/-- An input that ends with the end of its root element of the given name. -/
def EndsWithRoot (name : String) (input : Bytes) : Prop :=
  ∃ prolog events, Reading.ofBytes input = ⟨prolog ++ events, none⟩ ∧
    (∀ event ∈ prolog, event.Leading) ∧ IsElement name events

/-- A document no part of which is a document ends with its root element. -/
theorem endsWithRoot_of_minimal (h : parse body = .ok root)
    (hminimal : ∀ part, part <+: body → part ≠ body → ∃ error, parse part = .error error) :
    EndsWithRoot root.name body := by
  obtain ⟨hfault, hrun⟩ := Progress.run_ok_iff.1 ((parse_eq_run body).symm.trans h)
  obtain ⟨-, name, hdocument⟩ := (exists_parse_ok_iff body).1 ⟨root, h⟩
  have hreads : Reads [] (dropByteOrderMark body) (Reading.ofBytes body).events := by
    rw [reads_iff, ← hfault]
    rfl
  generalize (Reading.ofBytes body).events = events at hrun hdocument hreads
  have hname : root.name = name := by
    obtain ⟨other, hname, hother⟩ := hdocument.foldlM_step
    obtain rfl := Progress.after.inj (Except.ok.inj (hrun.symm.trans hother))
    exact hname
  cases hdocument with
  | @intro prolog element epilog hprolog helement _ =>
    -- Without its epilog the document would be a document still, so there is none.
    rw [← List.append_assoc] at hreads
    obtain ⟨front, hfront, hreadsFront⟩ := hreads.exists_cut
    obtain ⟨part, hpart, rfl⟩ := exists_prefix_of_dropByteOrderMark hfront
    have hreading : Reading.ofBytes part = ⟨prolog ++ element, none⟩ := reads_iff.1 hreadsFront
    have hparse : ∃ other, parse part = .ok other := by
      refine (exists_parse_ok_iff part).2 ⟨by rw [hreading], name, ?_⟩
      have hpartDocument : IsDocument name (prolog ++ (element ++ [])) :=
        .intro hprolog helement (List.forall_mem_nil _)
      rw [List.append_nil] at hpartDocument
      rw [hreading]
      exact hpartDocument
    by_cases hwhole : part = body
    · exact ⟨prolog, element, hwhole ▸ hreading, hprolog, hname ▸ helement⟩
    · obtain ⟨other, hother⟩ := hparse
      obtain ⟨error, herror⟩ := hminimal part hpart hwhole
      rw [hother] at herror
      cases herror

/-- Every document begins with one that ends with the root element, and no part of which is a
document. -/
theorem exists_endsWithRoot {body : Bytes} (h : parse body = .ok root) :
    ∃ front, front <+: body ∧ EndsWithRoot root.name front ∧
      ∀ part, part <+: front → part ≠ front → ∃ error, parse part = .error error := by
  by_cases hminimal : ∀ part, part <+: body → part ≠ body → ∃ error, parse part = .error error
  · exact ⟨body, List.prefix_rfl, endsWithRoot_of_minimal h hminimal, hminimal⟩
  · push Not at hminimal
    obtain ⟨part, hpart, hne, hok⟩ := hminimal
    have hparse : parse part = .ok root :=
      (parse_cut h hpart).resolve_left fun ⟨error, herror⟩ => hok error herror
    have hlength : part.length < body.length :=
      Nat.lt_of_le_of_ne hpart.length_le fun hlength => hne (hpart.eq_of_length hlength)
    obtain ⟨front, hfront, hends, hcut⟩ := exists_endsWithRoot hparse
    exact ⟨front, hfront.trans hpart, hends, hcut⟩
termination_by body.length

end Element

/-! ## Main statement -/

/-- What is read from a part of a body, cut at any byte, is an error or what is read from the whole: a
tree, a record of any type, or the outcome of a response. A cut in front of the end of the root element
is always an error. -/
theorem parse_truncated {body : Bytes} {root : Element} (h : Element.parse body = .ok root) :
    (∀ part, part <+: body →
      (∃ error, Element.parse part = .error error) ∨ Element.parse part = .ok root) ∧
    (∀ (α : Type) [FromElement α] (part : Bytes), part <+: body →
      (∃ error, fromXml α part = .error error) ∨ fromXml α part = fromXml α body) ∧
    (∀ (α : Type) [FromElement α] (part : Bytes) (response : Http.Response), part <+: body →
      response.body = some part → (∃ error, response.read α = .error error) ∨
        response.read α = Http.Response.read α { response with body := some body }) ∧
    ∃ front, front <+: body ∧ Element.EndsWithRoot root.name front ∧
      ∀ part, part <+: front → part ≠ front → (∃ error, Element.parse part = .error error) ∧
        ∀ (α : Type) [FromElement α] (response : Http.Response), response.body = some part →
          ∃ error, response.read α = .error error := by
  refine ⟨fun part hpart => Element.parse_cut h hpart, fun α _ part hpart => ?_,
    fun α _ part response hpart hbody => ?_, ?_⟩
  · rcases Element.parse_cut h hpart with ⟨error, herror⟩ | hsame
    · exact .inl ⟨error, fromXml_of_parse_error herror⟩
    · exact .inr (fromXml_congr (hsame.trans h.symm))
  · rcases Element.parse_cut h hpart with ⟨error, herror⟩ | hsame
    · exact .inl ⟨_, Http.Response.read_error hbody (fromXml_of_parse_error herror)⟩
    · exact .inr (Http.Response.read_congr hbody (fromXml_congr (hsame.trans h.symm)))
  · obtain ⟨front, hfront, hends, hcut⟩ := Element.exists_endsWithRoot h
    refine ⟨front, hfront, hends, fun part hpart hne => ?_⟩
    obtain ⟨error, herror⟩ := hcut part hpart hne
    exact ⟨⟨error, herror⟩, fun α _ response hbody =>
      ⟨_, Http.Response.read_error hbody (fromXml_of_parse_error herror)⟩⟩

/-- Any part of a listing, the empty one included, is an error or the listing with both directories. -/
theorem parse_truncated_listing :
    let body := ["<E><Entries><Directory><Name>a</Name></Directory>",
      "<Directory><Name>&gt;</Name></Directory></Entries></E><!--c--> "].flatMap encode
    (Element.parse body).map Element.name = .ok "E" ∧ ∀ part, part <+: body →
      (∃ error, fromXml Entries part = .error error) ∨
        fromXml Entries part = .ok ⟨[], [⟨"a"⟩, ⟨">"⟩], none⟩ := by
  intro body
  have hname : (Element.parse body).map Element.name = .ok "E" := by decide +kernel
  have hlisting : fromXml Entries body = .ok ⟨[], [⟨"a"⟩, ⟨">"⟩], none⟩ := by decide +kernel
  obtain ⟨root, hroot, -⟩ := exists_of_map_ok hname
  refine ⟨hname, fun part hpart => ?_⟩
  rw [← hlisting]
  exact (parse_truncated hroot).2.1 Entries part hpart

end ShareWire
