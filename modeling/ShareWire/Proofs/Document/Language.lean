import ShareWire.Proofs.Document.Settled

/-!
# The language of documents

Which inputs have a tree: those that are read to their end and whose events are a document. It follows
that an input holds one document at most. Anything but white space, comments and instructions behind the
root element is an error that names the root.
-/

namespace ShareWire

open Text (encode)
open Markup (Event Reading endsText blankBytes dropByteOrderMark)

theorem Progress.run_ok_iff {progress : Progress} {reading : Reading} {root : Element} :
    progress.run reading = .ok root ↔
      reading.fault = none ∧ reading.events.foldlM Progress.step progress = .ok (.after root) := by
  rw [run]
  constructor
  · intro h
    obtain ⟨last, hrun, h⟩ := exists_of_bind_ok h
    split at h
    · contradiction
    · next hfault =>
      refine ⟨hfault, hrun.trans (congrArg Except.ok ?_)⟩
      cases last with
      | within opened => cases opened <;> cases h
      | after other => exact congrArg Progress.after (Except.ok.inj h)
  · rintro ⟨hfault, hrun⟩
    refine bind_ok hrun ?_
    rw [hfault]
    rfl

namespace Element

theorem parse_eq_run (input : Bytes) :
    parse input = (Progress.within []).run (Reading.ofBytes input) := by
  rfl

theorem parse_eq_resume (input : Bytes) :
    parse input = (Progress.within []).resume (dropByteOrderMark input) := by
  rfl

theorem exists_parse_ok_iff (input : Bytes) :
    (∃ root, parse input = .ok root) ↔ (Reading.ofBytes input).fault = none ∧
      ∃ name, IsDocument name (Reading.ofBytes input).events := by
  rw [← exists_foldlM_step_iff, ← exists_and_left]
  exact exists_congr fun root => Progress.run_ok_iff

end Element

/-! ## Behind the root element -/

namespace Progress

theorem step_after_of_not_trailing {event : Event} (root : Element) (h : ¬ event.Trailing) :
    step (.after root) event = .error (.trailingContent root.name event.kind) := by
  cases event with
  | text content => exact if_neg h
  | comment | instruction => exact absurd trivial h
  | start | empty | close | cdata | reference | declaration | doctype => rfl

/-- What would complete a document in front of a root is an error behind one. -/
theorem foldlM_after_of_within {events : List Event} {later : Element}
    (h : events.foldlM step (.within []) = .ok (.after later)) (root : Element) :
    ∃ kind, events.foldlM step (.after root) = .error (.trailingContent root.name kind) := by
  induction events with
  | nil => cases h
  | cons event events ih =>
    rw [List.foldlM_cons] at h ⊢
    by_cases hevent : event.Trailing
    · obtain ⟨next, hstep, h⟩ := exists_of_bind_ok h
      obtain rfl : next = .within [] := by
        rcases leading_of_step hstep with ⟨-, hnext⟩ | ⟨name, ⟨rfl, -⟩ | ⟨rfl, -⟩⟩
        · exact hnext
        · cases hevent
        · cases hevent
      rw [step_trailing root hevent]
      exact ih h
    · rw [step_after_of_not_trailing root hevent]
      exact ⟨event.kind, rfl⟩

theorem dropByteOrderMark_of_blank {blank more : Bytes} (hblank : blankBytes blank = true)
    (hmore : ∀ b ∈ more.head?, endsText b = true) :
    dropByteOrderMark (blank ++ more) = blank ++ more := by
  refine Markup.dropByteOrderMark_of_head fun hhead => ?_
  cases blank with
  | nil => exact absurd (hmore 0xEF hhead) (by decide)
  | cons b blank =>
    obtain rfl : b = 0xEF := Option.some.inj hhead
    exact absurd (List.all_eq_true.1 hblank 0xEF (by simp)) (by decide)

/-- White space behind the root element does not help: a second document is an error. -/
theorem resume_after_document {run input : Bytes} {later : Element}
    (hrun : ∀ b ∈ run, endsText b = false) (hblank : blankBytes run = true)
    (h : Element.parse input = .ok later) (root : Element) :
    ∃ kind, (after root).resume (run ++ input) = .error (.trailingContent root.name kind) := by
  obtain ⟨first, more, hinput, hfirst, hmore⟩ := Reading.exists_run input
  have hjoined : ∀ b ∈ run ++ first, endsText b = false := fun b hb =>
    (List.mem_append.1 hb).elim (hrun b) (hfirst b)
  have hblanks : blankBytes (run ++ first) = blankBytes first := by
    rw [blankBytes, List.all_append, ← blankBytes, hblank, Bool.true_and]
    rfl
  rw [hinput, ← List.append_assoc, resume_run hjoined hmore]
  by_cases htext : blankBytes first = true
  · -- A byte order mark would be no white space, so the second document has none.
    have hmark : dropByteOrderMark input = input := by
      rw [hinput]
      exact dropByteOrderMark_of_blank htext hmore
    have hleading : (Event.text first).Leading := htext
    have htrailing : (Event.text (run ++ first)).Trailing := hblanks.trans htext
    rw [Element.parse_eq_resume, hmark, hinput, resume_run hfirst hmore, step_leading hleading] at h
    obtain ⟨-, hevents⟩ := run_ok_iff.1 h
    obtain ⟨kind, hkind⟩ := foldlM_after_of_within hevents root
    refine ⟨kind, ?_⟩
    rw [step_trailing root htrailing]
    exact congrArg (· >>= _) hkind
  · have htrailing : ¬ (Event.text (run ++ first)).Trailing := by
      rw [Event.Trailing, hblanks]
      exact htext
    refine ⟨.text, ?_⟩
    rw [step_after_of_not_trailing root htrailing]
    rfl

end Progress

/-- The first event behind a document that may not stand there is an error, whatever follows it. -/
theorem parse_trailing {input : Bytes} {name : String} {document rest : List Event} {event : Event}
    (hdocument : IsDocument name document)
    (hevents : (Reading.ofBytes input).events = document ++ event :: rest)
    (htrailing : ¬ event.Trailing) :
    Element.parse input = .error (.trailingContent name event.kind) := by
  obtain ⟨root, rfl, hrun⟩ := hdocument.foldlM_step
  have hfail : (document ++ event :: rest).foldlM Progress.step (.within []) =
      .error (.trailingContent root.name event.kind) := by
    rw [List.foldlM_append, hrun]
    exact (List.foldlM_cons ..).trans
      (congrArg (· >>= _) (Progress.step_after_of_not_trailing root htrailing))
  rw [Element.parse_eq_run, Progress.run, hevents, hfail]
  rfl

/-! ## Two documents -/

/-- A document does not end inside the byte order mark that another input begins with. -/
theorem dropByteOrderMark_append_of_parse {input : Bytes} {root : Element}
    (h : Element.parse input = .ok root) (more : Bytes) :
    dropByteOrderMark (input ++ more) = dropByteOrderMark input ++ more := by
  by_cases hmark : [0xEF, 0xBB, 0xBF].isPrefixOf input = true
  · obtain ⟨rest, rfl⟩ := List.isPrefixOf_iff_prefix.1 hmark
    simp [dropByteOrderMark]
  · rw [dropByteOrderMark, dropByteOrderMark, if_neg hmark, if_neg]
    intro hlong
    -- Otherwise the input is a part of the mark, and all of it is text in front of a root.
    have hpart : input <+: [0xEF, 0xBB, 0xBF] := by
      refine (List.prefix_or_prefix_of_prefix (List.prefix_append input more)
        (List.isPrefixOf_iff_prefix.1 hlong)).resolve_right fun hwhole => ?_
      exact hmark (List.isPrefixOf_iff_prefix.2 hwhole)
    have htext : ∀ b ∈ ([0xEF, 0xBB, 0xBF] : Bytes), endsText b = false :=
      Markup.forall_mem_of_all (by decide)
    rw [Element.parse_eq_resume, dropByteOrderMark, if_neg hmark] at h
    cases (Progress.after_of_resume_run (fun b hb => htext b (hpart.subset hb)) h).1

theorem parse_append {first second : Bytes} {root later : Element}
    (hfirst : Element.parse first = .ok root) (hsecond : Element.parse second = .ok later) :
    ∃ kind, Element.parse (first ++ second) = .error (.trailingContent root.name kind) := by
  have hresume := (Element.parse_eq_resume first).symm.trans hfirst
  obtain ⟨front, run, next, hfront, hrun, hnext⟩ := Progress.exists_settled hresume
  rw [hfront, hnext] at hresume
  obtain ⟨rfl, hblank⟩ := Progress.after_of_resume_run hrun hresume
  rw [Element.parse_eq_resume, dropByteOrderMark_append_of_parse hfirst, hfront, List.append_assoc,
    hnext]
  exact Progress.resume_after_document hrun hblank hsecond root

/-! ## Main statement -/

/-- An input has a tree exactly if it is read to its end and its events are a document. A document with
another one behind it has none, and neither has one with anything else behind its root element than
white space, comments and instructions. -/
theorem parse_language (input : Bytes) :
    ((∃ root, Element.parse input = .ok root) ↔ (Reading.ofBytes input).fault = none ∧
      ∃ name, IsDocument name (Reading.ofBytes input).events) ∧
    (∀ root second later, Element.parse input = .ok root → Element.parse second = .ok later →
      ∃ kind, Element.parse (input ++ second) = .error (.trailingContent root.name kind)) ∧
    ∀ name document event rest, IsDocument name document →
      (Reading.ofBytes input).events = document ++ event :: rest → ¬ event.Trailing →
      Element.parse input = .error (.trailingContent name event.kind) :=
  ⟨Element.exists_parse_ok_iff input, fun _ _ _ => parse_append, fun _ _ _ _ => parse_trailing⟩

/-- A second element and a character data section behind the root element. -/
theorem parse_language_trailing :
    (∃ kind, Element.parse (encode "<a>1</a> " ++ encode " <b/>") =
      .error (.trailingContent "a" kind)) ∧
    Element.parse (encode "<!--c--><a/><![CDATA[]]>") = .error (.trailingContent "a" .cdata) := by
  constructor
  · have hnames : (Element.parse (encode "<a>1</a> ")).map Element.name = .ok "a" ∧
        (Element.parse (encode " <b/>")).map Element.name = .ok "b" := by decide +kernel
    obtain ⟨root, hroot, hname⟩ := exists_of_map_ok hnames.1
    obtain ⟨later, hlater, -⟩ := exists_of_map_ok hnames.2
    exact hname ▸ (parse_language (encode "<a>1</a> ")).2.1 root (encode " <b/>") later hroot hlater
  · have hdocument : IsDocument "a" ([.comment] ++ ([.empty (encode "a")] ++ [])) :=
      .intro (List.forall_mem_singleton.2 trivial) (.empty "a") (List.forall_mem_nil _)
    exact (parse_language (encode "<!--c--><a/><![CDATA[]]>")).2.2 "a" _ (.cdata []) [] hdocument
      (by decide +kernel) id

end ShareWire
