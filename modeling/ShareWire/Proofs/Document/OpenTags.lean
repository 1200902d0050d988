import Mathlib.Data.List.Induction
import ShareWire.Proofs.Document.Language
import ShareWire.Proofs.Document.Schema

/-!
# Open tags

Which start tags of a row of events are still open, said without the stack of the reader and without the
stack of elements from which the tree is built. Main statement: while a document is read, both stacks hold
just these tags, so every end tag closes an element of its own name, and an element is the root exactly if
nothing is open behind it. Elements with children keep no text that is indentation.
-/

namespace ShareWire

open Text (encode)
open Markup (Event Reading isBlankByte)

/-! ## Start tags without end tags -/

namespace Markup

/-- Events in which the start tags and the end tags belong together in pairs of one name each. -/
inductive Balanced : List Event → Prop where
  | nil : Balanced []
  | aside {event : Event} {rest : List Event} : (∀ name, event ≠ .start name) →
      (∀ name, event ≠ .close name) → Balanced rest → Balanced (event :: rest)
  | pair {name : Bytes} {content rest : List Event} : Balanced content → Balanced rest →
      Balanced (.start name :: (content ++ .close name :: rest))

/-- The names of the start tags that have no end tag among the events, in the order of the tags. -/
inductive Unclosed : List Event → List Bytes → Prop where
  | none {events : List Event} : Balanced events → Unclosed events []
  | start {events rest : List Event} {names : List Bytes} (name : Bytes) : Unclosed events names →
      Balanced rest → Unclosed (events ++ .start name :: rest) (names ++ [name])

variable {events rest : List Event} {names : List Bytes}

theorem Balanced.append (h : Balanced events) (hrest : Balanced rest) : Balanced (events ++ rest) := by
  induction h with
  | nil => exact hrest
  | aside hstart hclose _ ih => exact .aside hstart hclose ih
  | pair hcontent _ _ ih => simpa using Balanced.pair hcontent ih

theorem Unclosed.append (h : Unclosed events names) (hrest : Balanced rest) :
    Unclosed (events ++ rest) names := by
  cases h with
  | none hevents => exact .none (hevents.append hrest)
  | start name hevents hmore => simpa using Unclosed.start name hevents (hmore.append hrest)

/-- An end tag closes the last tag that is open. -/
theorem Unclosed.close {name : Bytes} (h : Unclosed events (names ++ [name])) :
    Unclosed (events ++ [.close name]) names := by
  generalize hall : names ++ [name] = all at h
  cases h with
  | none => exact absurd hall (List.append_ne_nil_of_right_ne_nil _ (List.cons_ne_nil _ _))
  | start last hevents hcontent =>
    obtain ⟨rfl, hlast⟩ := List.append_inj' hall rfl
    obtain rfl := List.singleton_injective hlast
    simpa using hevents.append (Balanced.pair hcontent .nil)

/-! ## The stack of the reader -/

theorem nest_aside {event : Event} (hstart : ∀ name, event ≠ .start name)
    (hclose : ∀ name, event ≠ .close name) (opened : List Bytes) :
    Reading.nest opened event = some opened := by
  cases event with
  | start name => exact absurd rfl (hstart name)
  | close name => exact absurd rfl (hclose name)
  | _ => rfl

theorem Balanced.foldlM_nest (h : Balanced events) (opened : List Bytes) :
    events.foldlM Reading.nest opened = some opened := by
  induction h generalizing opened with
  | nil => rfl
  | aside hstart hclose _ ih =>
    rw [List.foldlM_cons, nest_aside hstart hclose]
    exact ih opened
  | @pair name content rest _ _ hcontent hrest =>
    have hclosed : Reading.nest (name :: opened) (.close name) = some opened := if_pos rfl
    rw [List.foldlM_cons, Reading.nest]
    simp only [Option.bind_eq_bind, Option.bind_some, List.foldlM_append, List.foldlM_cons, hcontent,
      hclosed, hrest]

theorem Unclosed.foldlM_nest (h : Unclosed events names) :
    events.foldlM Reading.nest [] = some names.reverse := by
  induction h with
  | none hevents => exact hevents.foldlM_nest []
  | @start events rest names name _ hrest ih =>
    rw [List.foldlM_append, ih]
    simp only [Option.bind_eq_bind, Option.bind_some, List.foldlM_cons, Reading.nest, hrest.foldlM_nest,
      List.reverse_append, List.reverse_singleton, List.singleton_append]

theorem unclosed_of_foldlM_nest {opened : List Bytes}
    (h : events.foldlM Reading.nest [] = some opened) : Unclosed events opened.reverse := by
  induction events using List.reverseRecOn generalizing opened with
  | nil =>
    cases h
    exact .none .nil
  | append_singleton events event ih =>
    rw [List.foldlM_append] at h
    obtain ⟨before, hbefore, h⟩ := Option.bind_eq_some_iff.1 h
    have hunclosed := ih hbefore
    have hnest : Reading.nest before event = some opened := by simpa using h
    cases event with
    | start name =>
      cases hnest
      rw [List.reverse_cons]
      exact .start name hunclosed .nil
    | close name =>
      cases before with
      | nil => cases hnest
      | cons expected outer =>
        obtain ⟨rfl, rfl⟩ : name = expected ∧ outer = opened := by simpa [Reading.nest] using hnest
        rw [List.reverse_cons] at hunclosed
        exact hunclosed.close
    | _ =>
      cases hnest
      exact hunclosed.append (.aside (by simp) (by simp) .nil)

/-- The reader keeps the tags that are open, innermost first. -/
theorem unclosed_iff {opened : List Bytes} (h : events.foldlM Reading.nest [] = some opened) :
    Unclosed events names ↔ names = opened.reverse := by
  constructor
  · intro hnames
    rw [← Option.some.inj (hnames.foldlM_nest.symm.trans h), List.reverse_reverse]
  · rintro rfl
    exact unclosed_of_foldlM_nest h

end Markup

open Markup (Unclosed)

/-! ## The stack of elements -/

/-- A point in the reading of an input: the events so far were taken, and the root element is not closed
yet. The open elements come innermost first. -/
structure Midway (input : Bytes) (before after : List Event) (opened : List OpenElement) : Prop where
  events : (Reading.ofBytes input).events = before ++ after
  run : before.foldlM Progress.step (.within []) = .ok (.within opened)

/-- An event that ends an element: an end tag, or an empty element. -/
def Markup.Event.EndsElement : Event → Prop
  | .close _ | .empty _ => True
  | _ => False

theorem Markup.Event.Leading.not_endsElement {event : Event} (h : event.Leading) :
    ¬ event.EndsElement := by
  cases event with
  | text | comment | instruction | declaration | doctype => exact id
  | start | empty | close | cdata | reference => cases h

theorem Markup.Event.Inner.not_endsElement {event : Event} (h : event.Inner) :
    ¬ event.EndsElement := by
  cases h <;> exact id

namespace Progress

variable {progress next : Progress} {event : Event} {before : List Event}

theorem openNames_of_foldlM {names : List Bytes} (hrun : before.foldlM step progress = .ok next)
    (hnest : before.foldlM Reading.nest progress.openNames = some names) : next.openNames = names := by
  induction before generalizing progress with
  | nil =>
    cases hrun
    exact Option.some.inj hnest
  | cons event before ih =>
    rw [List.foldlM_cons] at hrun hnest
    obtain ⟨middle, hstep, hrun⟩ := exists_of_bind_ok hrun
    obtain ⟨opened, hopened, hnest⟩ := Option.bind_eq_some_iff.1 hnest
    rw [← openNames_of_step hstep hopened] at hnest
    exact ih hrun hnest

variable {input : Bytes} {after : List Event}

theorem foldlM_nest_of_run (hevents : (Reading.ofBytes input).events = before ++ after)
    (hrun : before.foldlM step (.within []) = .ok progress) :
    before.foldlM Reading.nest [] = some progress.openNames := by
  obtain ⟨last, hlast⟩ := Reading.nested_within [] (Markup.dropByteOrderMark input)
  rw [← Reading.ofBytes, hevents, List.foldlM_append] at hlast
  obtain ⟨names, hnames, -⟩ := Option.bind_eq_some_iff.1 hlast
  rw [hnames, openNames_of_foldlM hrun hnames]

/-- The event that comes next can stand inside the open elements. -/
theorem exists_nest_of_run (hevents : (Reading.ofBytes input).events = before ++ event :: after)
    (hrun : before.foldlM step (.within []) = .ok progress) :
    ∃ names, Reading.nest progress.openNames event = some names := by
  obtain ⟨last, hlast⟩ := Reading.nested_within [] (Markup.dropByteOrderMark input)
  rw [← Reading.ofBytes, hevents, List.foldlM_append, foldlM_nest_of_run hevents hrun] at hlast
  simp only [Option.bind_eq_bind, Option.bind_some, List.foldlM_cons] at hlast
  obtain ⟨names, hnames, -⟩ := Option.bind_eq_some_iff.1 hlast
  exact ⟨names, hnames⟩

theorem attach_eq_after_iff (outer : List OpenElement) (e : Element) :
    (∃ root, attach outer e = .after root) ↔ (attach outer e).openNames = [] := by
  cases outer with
  | nil => exact iff_of_true ⟨e, rfl⟩ rfl
  | cons o outer => exact iff_of_false (fun ⟨_, hroot⟩ => nomatch hroot) (List.cons_ne_nil _ _)

/-- The element that ends is the root if no element is open any more. -/
theorem step_eq_after_iff {opened : List OpenElement} (h : step (.within opened) event = .ok next) :
    (∃ root, next = .after root) ↔ event.EndsElement ∧ next.openNames = [] := by
  have hends (outer : List OpenElement) {e : Element} (hevent : event.EndsElement) :
      (∃ root, attach outer e = .after root) ↔
        event.EndsElement ∧ (attach outer e).openNames = [] := by
    rw [attach_eq_after_iff]
    exact (and_iff_right hevent).symm
  have hgoesOn {inside : List OpenElement} (hevent : ¬ event.EndsElement) :
      (∃ root, Progress.within inside = .after root) ↔
        event.EndsElement ∧ (Progress.within inside).openNames = [] :=
    iff_of_false (fun ⟨_, hroot⟩ => nomatch hroot) fun hboth => hevent hboth.1
  cases opened with
  | nil =>
    rcases leading_of_step h with ⟨hleading, rfl⟩ | ⟨name, ⟨rfl, rfl⟩ | ⟨rfl, rfl⟩⟩
    · exact hgoesOn hleading.not_endsElement
    · exact hgoesOn id
    · exact hends [] trivial
  | cons o outer =>
    rcases inner_of_step h with
      ⟨hinner, text, rfl⟩ | ⟨name, ⟨rfl, rfl⟩ | ⟨rfl, rfl⟩⟩ | ⟨bytes, rfl, rfl⟩
    · exact hgoesOn hinner.not_endsElement
    · exact hgoesOn id
    · exact hends (o :: outer) trivial
    · exact hends outer trivial

theorem exists_of_decoded_bind {α : Type} {wrap : Text.Utf8Error → ValueError} {bytes : Bytes}
    {f : String → Except DocumentError α} (h : decoded wrap bytes >>= f = .error .closeWithoutOpen) :
    ∃ s, f s = .error .closeWithoutOpen := by
  rcases bind_error_iff.1 h with hdecoded | ⟨s, -, hs⟩
  · rw [decoded] at hdecoded
    split at hdecoded <;> cases hdecoded
  · exact ⟨s, hs⟩

/-- Only an end tag outside of all elements lacks its start tag. -/
theorem eq_close_of_step_error (h : progress.step event = .error .closeWithoutOpen) :
    progress = .within [] ∧ ∃ name, event = .close name := by
  cases progress with
  | after root =>
    cases event with
    | text =>
      rw [step, stepAfter] at h
      split at h <;> cases h
    | _ => cases h
  | within opened =>
    cases event with
    | close name =>
      cases opened with
      | nil => exact ⟨rfl, name, rfl⟩
      | cons o outer => cases h
    | start | empty =>
      obtain ⟨s, hs⟩ := exists_of_decoded_bind h
      cases hs
    | text =>
      cases opened with
      | nil =>
        rw [step, stepWithin] at h
        split at h <;> cases h
      | cons o outer =>
        obtain ⟨s, hs⟩ := exists_of_decoded_bind h
        cases hs
    | cdata =>
      cases opened with
      | nil => cases h
      | cons o outer =>
        obtain ⟨s, hs⟩ := exists_of_decoded_bind h
        cases hs
    | reference =>
      cases opened with
      | nil => cases h
      | cons o outer =>
        obtain ⟨body, hbody⟩ := exists_of_decoded_bind h
        split at hbody <;> cases hbody
    | declaration | comment | instruction | doctype => cases h

end Progress

namespace Midway

variable {input : Bytes} {before after : List Event} {opened : List OpenElement} {event : Event}

theorem unclosed_iff (h : Midway input before after opened) (names : List Bytes) :
    Unclosed before names ↔ names = (opened.map fun o => encode o.name).reverse :=
  Markup.unclosed_iff (Progress.foldlM_nest_of_run h.events h.run)

theorem exists_of_close {name : Bytes} (h : Midway input before (.close name :: after) opened) :
    ∃ o outer, opened = o :: outer ∧ encode o.name = name := by
  obtain ⟨names, hnames⟩ := Progress.exists_nest_of_run h.events h.run
  cases opened with
  | nil => cases hnames
  | cons o outer =>
    obtain ⟨rfl, -⟩ : name = encode o.name ∧ _ = names := by
      simpa [Reading.nest, Progress.openNames] using hnames
    exact ⟨o, outer, rfl, rfl⟩

theorem eq_after_iff {next : Progress} (h : Midway input before (event :: after) opened)
    (hstep : Progress.step (.within opened) event = .ok next) :
    (∃ root, next = .after root) ↔ event.EndsElement ∧ Unclosed (before ++ [event]) [] := by
  obtain ⟨names, hnames⟩ := Progress.exists_nest_of_run h.events h.run
  have hnext : (before ++ [event]).foldlM Reading.nest [] = some next.openNames := by
    rw [List.foldlM_append, Progress.foldlM_nest_of_run h.events h.run,
      Progress.openNames_of_step hstep hnames]
    simpa using hnames
  rw [Progress.step_eq_after_iff hstep, Markup.unclosed_iff hnext, eq_comm (a := ([] : List Bytes)),
    List.reverse_eq_nil_iff]

end Midway

theorem Element.parse_ne_closeWithoutOpen (input : Bytes) :
    parse input ≠ .error .closeWithoutOpen := by
  intro h
  rw [parse_eq_run, Progress.run] at h
  rcases bind_error_iff.1 h with hrun | ⟨progress, -, hend⟩
  · obtain ⟨before, event, after, reached, hevents, hbefore, hstep⟩ := exists_of_foldlM_error hrun
    obtain ⟨names, hnames⟩ := Progress.exists_nest_of_run hevents hbefore
    obtain ⟨rfl, name, rfl⟩ := Progress.eq_close_of_step_error hstep
    cases hnames
  · split at hend
    · cases hend
    · cases progress with
      | after root => cases hend
      | within opened => cases opened <;> cases hend

/-! ## Texts of elements with children -/

namespace Element

/-- An element whose text, if there are children beside it, is more than white space or nothing. -/
def Unindented (e : Element) : Prop :=
  e.children ≠ [] → e.text = "" ∨ ∃ b ∈ encode e.text, isBlankByte b = false

def AllUnindented (root : Element) : Prop :=
  ∀ e : Element, e.Within root → e.Unindented

theorem allUnindented_of_children {root : Element} (hroot : root.Unindented)
    (hchildren : ∀ c ∈ root.children, c.AllUnindented) : root.AllUnindented := by
  intro e he
  cases he with
  | self => exact hroot
  | child hc hpart => exact hchildren _ hc e hpart

theorem allUnindented_leaf (name text : String) : AllUnindented { name, text } :=
  allUnindented_of_children (fun h => absurd rfl h) (List.forall_mem_nil _)

end Element

/-- White space as the tree builder knows it is white space of bytes. -/
theorem isIndentChar_of_blank {c : Char} {b : UInt8} (hb : b ∈ String.utf8EncodeChar c)
    (hblank : isBlankByte b = true) : isIndentChar c = true := by
  simp only [isBlankByte, Bool.or_eq_true, decide_eq_true_eq] at hblank
  have hc : b.toNat = c.toNat := by
    refine Text.toNat_eq_of_mem_utf8EncodeChar ?_ hb
    rcases hblank with (((rfl | rfl) | rfl) | rfl) | rfl <;> decide
  have hchar : c = Char.ofNat b.toNat := by rw [hc, Char.ofNat_toNat]
  rcases hblank with (((rfl | rfl) | rfl) | rfl) | rfl <;> rw [hchar] <;> decide

theorem exists_mem_encode_of_not_isIndentation {s : String} (h : isIndentation s = false) :
    ∃ b ∈ encode s, isBlankByte b = false := by
  obtain ⟨c, hc, hindent⟩ : ∃ c ∈ s.toList, isIndentChar c = false := by simpa [isIndentation] using h
  obtain ⟨b, hb⟩ := List.exists_mem_of_ne_nil _ (String.utf8EncodeChar_ne_nil (c := c))
  refine ⟨b, List.mem_flatMap.2 ⟨c, hc, hb⟩, Bool.eq_false_iff.2 fun hblank => ?_⟩
  rw [isIndentChar_of_blank hb hblank] at hindent
  cases hindent

theorem OpenElement.allUnindented_toElement {o : OpenElement} (h : ∀ c ∈ o.newest, c.AllUnindented) :
    o.toElement.AllUnindented := by
  refine Element.allUnindented_of_children (fun hchildren => ?_) fun c hc => h c (List.mem_reverse.1 hc)
  have hnewest : o.newest.isEmpty = false := by simpa [toElement] using hchildren
  cases hindent : isIndentation o.text with
  | true => exact .inl (by simp [toElement, hnewest, hindent])
  | false =>
    have htext : o.toElement.text = o.text := by simp [toElement, hindent]
    rw [htext]
    exact .inr (exists_mem_encode_of_not_isIndentation hindent)

namespace Progress

def AllUnindented : Progress → Prop
  | .within opened => ∀ o ∈ opened, ∀ c ∈ o.newest, c.AllUnindented
  | .after root => root.AllUnindented

variable {progress next : Progress} {event : Event} {events : List Event}

theorem allUnindented_attach {opened : List OpenElement} {e : Element}
    (h : AllUnindented (.within opened)) (he : e.AllUnindented) : (attach opened e).AllUnindented := by
  cases opened with
  | nil => exact he
  | cons o outer =>
    obtain ⟨ho, houter⟩ := List.forall_mem_cons.1 h
    exact List.forall_mem_cons.2 ⟨List.forall_mem_cons.2 ⟨he, ho⟩, houter⟩

theorem allUnindented_start {opened : List OpenElement} (h : AllUnindented (.within opened))
    (name : String) : AllUnindented (.within ({ name } :: opened)) :=
  List.forall_mem_cons.2 ⟨List.forall_mem_nil _, h⟩

theorem allUnindented_step (hstep : progress.step event = .ok next) (h : progress.AllUnindented) :
    next.AllUnindented := by
  match progress with
  | .after root =>
    obtain ⟨-, rfl⟩ := trailing_of_step hstep
    exact h
  | .within [] =>
    rcases leading_of_step hstep with ⟨-, rfl⟩ | ⟨name, ⟨-, rfl⟩ | ⟨-, rfl⟩⟩
    · exact h
    · exact allUnindented_start h name
    · exact Element.allUnindented_leaf name ""
  | .within (o :: outer) =>
    obtain ⟨ho, houter⟩ := List.forall_mem_cons.1 h
    rcases inner_of_step hstep with
      ⟨-, text, rfl⟩ | ⟨name, ⟨-, rfl⟩ | ⟨-, rfl⟩⟩ | ⟨bytes, -, rfl⟩
    · exact List.forall_mem_cons.2 ⟨ho, houter⟩
    · exact allUnindented_start h name
    · exact allUnindented_attach h (Element.allUnindented_leaf name "")
    · exact allUnindented_attach houter (OpenElement.allUnindented_toElement ho)

theorem allUnindented_foldlM (hrun : events.foldlM step progress = .ok next)
    (h : progress.AllUnindented) : next.AllUnindented := by
  induction events generalizing progress with
  | nil =>
    cases hrun
    exact h
  | cons event events ih =>
    rw [List.foldlM_cons] at hrun
    obtain ⟨middle, hstep, hrun⟩ := exists_of_bind_ok hrun
    exact ih hrun (allUnindented_step hstep h)

end Progress

theorem Element.allUnindented_of_parse {input : Bytes} {root : Element} (h : parse input = .ok root) :
    root.AllUnindented := by
  rw [parse_eq_run, Progress.run_ok_iff] at h
  exact Progress.allUnindented_foldlM h.2 (List.forall_mem_nil _)

/-! ## Main statement -/

/-- As long as the root element is not closed, the names of the open elements, outermost first, are those
of the start tags that have no end tag yet. So an end tag closes an element of its own name and never
lacks its start tag, and an event gives the root exactly if it ends an element and leaves no tag open. In
the tree, an element with children has no text or some that is not white space. -/
theorem parse_mirrors_tags (input : Bytes) :
    (∀ before after opened, Midway input before after opened → ∀ names,
      Unclosed before names ↔ names = (opened.map fun o => encode o.name).reverse) ∧
    (∀ before name after opened, Midway input before (.close name :: after) opened →
      ∃ o outer, opened = o :: outer ∧ encode o.name = name ∧
        Progress.step (.within opened) (.close name) = .ok (Progress.attach outer o.toElement)) ∧
    Element.parse input ≠ .error .closeWithoutOpen ∧
    (∀ before event after opened next, Midway input before (event :: after) opened →
      Progress.step (.within opened) event = .ok next →
      ((∃ root, next = .after root) ↔ event.EndsElement ∧ Unclosed (before ++ [event]) [])) ∧
    ∀ root e : Element, Element.parse input = .ok root → e.Within root → e.children ≠ [] →
      e.text = "" ∨ ∃ b ∈ encode e.text, isBlankByte b = false := by
  refine ⟨fun _ _ _ h => h.unclosed_iff, fun before name after opened h => ?_,
    Element.parse_ne_closeWithoutOpen input, fun _ _ _ _ _ h => h.eq_after_iff,
    fun root e h => Element.allUnindented_of_parse h e⟩
  obtain ⟨o, outer, rfl, hname⟩ := h.exists_of_close
  exact ⟨o, outer, rfl, hname, rfl⟩

/-- In front of the end tag of an element inside another one, and at the end tag of the root element. -/
theorem parse_mirrors_tags_nested :
    let input := encode "<a><b/><c>x</c> </a>"
    let inside : List Event :=
      [.start (encode "a"), .empty (encode "b"), .start (encode "c"), .text (encode "x")]
    let behind : List Event := inside ++ [.close (encode "c"), .text (encode " ")]
    let opened : List OpenElement :=
      [{ name := "c", text := "x" }, { name := "a", newest := [{ name := "b" }] }]
    Unclosed inside [encode "a", encode "c"] ∧
    (∃ o outer, opened = o :: outer ∧ encode o.name = encode "c") ∧
    Unclosed (behind ++ [.close (encode "a")]) [] ∧
    ∃ root, Element.parse input = .ok root ∧ ∀ e : Element, e.Within root → e.children ≠ [] →
      e.text = "" ∨ ∃ b ∈ encode e.text, isBlankByte b = false := by
  intro input inside behind opened
  obtain ⟨hnames, hclose, -, hroot, htexts⟩ := parse_mirrors_tags input
  have hinside : Midway input inside [.close (encode "c"), .text (encode " "), .close (encode "a")]
      opened :=
    ⟨by decide +kernel, rfl⟩
  have hbehind : Midway input behind [.close (encode "a")]
      [{ name := "a", text := " ", newest := [{ name := "c", text := "x" }, { name := "b" }] }] :=
    ⟨by decide +kernel, rfl⟩
  have hparse : (Element.parse input).map Element.name = .ok "a" := by decide +kernel
  obtain ⟨root, hparse, -⟩ := exists_of_map_ok hparse
  obtain ⟨o, outer, hopened, hname, -⟩ := hclose _ _ _ _ hinside
  exact ⟨(hnames _ _ _ hinside _).2 rfl, ⟨o, outer, hopened, hname⟩,
    ((hroot _ _ _ _ _ hbehind rfl).1 ⟨_, rfl⟩).2, root, hparse, fun e => htexts root e hparse⟩

end ShareWire
