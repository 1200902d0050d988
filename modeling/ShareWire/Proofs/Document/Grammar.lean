import ShareWire.Proofs.Document.Progress
import ShareWire.Proofs.Fallible

/-!
# The events of a document

A document as a sequence of events: what may stand in front of the root element, the root with nested
content, and what may stand behind it. The machine that builds the tree takes a sequence from start to
end if it is of this form, and if its end tags match, only then.
-/

namespace ShareWire

open Text (encode decode)
open Markup (Event Reading blankBytes)

/-! ## Grammar -/

namespace Markup.Event

def Leading : Event → Prop
  | .text content => blankBytes content = true
  | .comment | .instruction | .declaration | .doctype => True
  | _ => False

def Trailing : Event → Prop
  | .text content => blankBytes content = true
  | .comment | .instruction => True
  | _ => False

theorem Trailing.leading {event : Event} (h : event.Trailing) : event.Leading := by
  cases event with
  | text content => exact h
  | comment | instruction => trivial
  | start | empty | close | cdata | reference | declaration | doctype => cases h

/-- An event, tags apart, that may stand inside the root element. -/
inductive Inner : Event → Prop where
  | text (s : String) : Inner (.text (encode s))
  | cdata (s : String) : Inner (.cdata (encode s))
  | reference {body : String} {c : Char} : Reference.resolve body = .ok c →
      Inner (.reference (encode body))
  | comment : Inner .comment
  | instruction : Inner .instruction
  | declaration : Inner .declaration
  | doctype : Inner .doctype

end Markup.Event

mutual

/-- The events of one element with the given name. -/
inductive IsElement : String → List Event → Prop where
  | empty (name : String) : IsElement name [.empty (encode name)]
  | tagged {name : String} {content : List Event} : IsContent content →
      IsElement name (.start (encode name) :: (content ++ [.close (encode name)]))

/-- The events between the tags of an element. -/
inductive IsContent : List Event → Prop where
  | nil : IsContent []
  | inner {event : Event} {rest : List Event} : event.Inner → IsContent rest →
      IsContent (event :: rest)
  | element {name : String} {events rest : List Event} : IsElement name events → IsContent rest →
      IsContent (events ++ rest)

end

/-- The events of a document with a root element of the given name. -/
inductive IsDocument (name : String) : List Event → Prop where
  | intro {prolog root epilog : List Event} : (∀ event ∈ prolog, event.Leading) →
      IsElement name root → (∀ event ∈ epilog, event.Trailing) →
      IsDocument name (prolog ++ (root ++ epilog))

/-- The events from inside open elements, innermost first, to the end of the document. -/
inductive Closes : List String → List Event → Prop where
  | root {epilog : List Event} : (∀ event ∈ epilog, event.Trailing) → Closes [] epilog
  | element {name : String} {outer : List String} {content rest : List Event} : IsContent content →
      Closes outer rest → Closes (name :: outer) (content ++ .close (encode name) :: rest)

variable {name : String} {outer : List String} {event : Event} {events rest : List Event}

theorem Closes.inner_cons (h : Closes (name :: outer) rest) (hevent : event.Inner) :
    Closes (name :: outer) (event :: rest) := by
  cases h with
  | element hcontent hrest => exact .element (.inner hevent hcontent) hrest

theorem Closes.element_append {own : String} (h : Closes (name :: outer) rest)
    (hevents : IsElement own events) : Closes (name :: outer) (events ++ rest) := by
  cases h with
  | element hcontent hrest =>
    rw [← List.append_assoc]
    exact .element (.element hevents hcontent) hrest

/-- A start tag with all that closes its element is one element in the content around it. -/
theorem Closes.start_cons {own : String} (h : Closes (own :: name :: outer) rest) :
    Closes (name :: outer) (.start (encode own) :: rest) := by
  cases h with
  | element hcontent hrest => simpa using hrest.element_append (.tagged hcontent)

theorem Closes.isDocument (h : Closes [name] rest) :
    IsDocument name (.start (encode name) :: rest) := by
  cases h with
  | element hcontent hrest =>
    cases hrest with
    | root hepilog =>
      simpa using IsDocument.intro (List.forall_mem_nil _) (.tagged hcontent) hepilog

theorem IsDocument.leading_cons (h : IsDocument name rest) (hevent : event.Leading) :
    IsDocument name (event :: rest) := by
  cases h with
  | @intro prolog root epilog hprolog hroot hepilog =>
    exact .intro (List.forall_mem_cons.2 ⟨hevent, hprolog⟩) hroot hepilog

/-! ## From the grammar to the tree -/

namespace Progress

theorem step_leading (h : event.Leading) : step (.within []) event = .ok (.within []) := by
  cases event with
  | text content => exact if_pos h
  | comment | instruction | declaration | doctype => rfl
  | start | empty | close | cdata | reference => cases h

theorem step_trailing (root : Element) (h : event.Trailing) :
    step (.after root) event = .ok (.after root) := by
  cases event with
  | text content => exact if_pos h
  | comment | instruction => rfl
  | start | empty | close | cdata | reference | declaration | doctype => cases h

theorem step_inner (h : event.Inner) (o : OpenElement) (outer : List OpenElement) :
    ∃ o' : OpenElement, o'.name = o.name ∧
      step (.within (o :: outer)) event = .ok (.within (o' :: outer)) := by
  cases h with
  | text s => exact ⟨{ o with text := o.text ++ s }, rfl, step_text_open o outer s⟩
  | cdata s =>
    refine ⟨{ o with text := o.text ++ s }, rfl, ?_⟩
    rw [step, stepWithin, decoded_encode]
    rfl
  | @reference body c hc =>
    refine ⟨{ o with text := o.text ++ String.singleton c }, rfl, ?_⟩
    rw [step, stepWithin, decoded_encode]
    simp only [bind, Except.bind, hc]
    rfl
  | comment | instruction | declaration | doctype => exact ⟨o, rfl, rfl⟩

theorem foldlM_leading (h : ∀ event ∈ events, event.Leading) :
    events.foldlM step (.within []) = .ok (.within []) :=
  foldlM_fixed fun event hevent => step_leading (h event hevent)

theorem foldlM_trailing (root : Element) (h : ∀ event ∈ events, event.Trailing) :
    events.foldlM step (.after root) = .ok (.after root) :=
  foldlM_fixed fun event hevent => step_trailing root (h event hevent)

end Progress

open Progress

mutual

theorem IsElement.foldlM_step : ∀ {name : String} {events : List Event}, IsElement name events →
    ∀ opened : List OpenElement, ∃ e : Element, e.name = name ∧
      events.foldlM step (.within opened) = .ok (attach opened e)
  | _, _, .empty name => fun opened => by
    refine ⟨{ name }, rfl, ?_⟩
    rw [List.foldlM_cons, step, stepWithin, decoded_encode]
    rfl
  | _, _, @IsElement.tagged name content hcontent => fun opened => by
    obtain ⟨o, ho, hrun⟩ := hcontent.foldlM_step { name } opened
    refine ⟨o.toElement, ho, ?_⟩
    rw [List.foldlM_cons, step, stepWithin, decoded_encode]
    exact (List.foldlM_append ..).trans (bind_ok hrun rfl)

theorem IsContent.foldlM_step : ∀ {events : List Event}, IsContent events →
    ∀ (o : OpenElement) (outer : List OpenElement), ∃ o' : OpenElement, o'.name = o.name ∧
      events.foldlM step (.within (o :: outer)) = .ok (.within (o' :: outer))
  | _, .nil => fun o outer => ⟨o, rfl, rfl⟩
  | _, .inner hevent hrest => fun o outer => by
    obtain ⟨o', ho', hstep⟩ := step_inner hevent o outer
    obtain ⟨last, hlast, hrun⟩ := hrest.foldlM_step o' outer
    exact ⟨last, hlast.trans ho', (List.foldlM_cons ..).trans (bind_ok hstep hrun)⟩
  | _, .element helement hrest => fun o outer => by
    obtain ⟨e, -, hstep⟩ := helement.foldlM_step (o :: outer)
    obtain ⟨last, hlast, hrun⟩ := hrest.foldlM_step { o with newest := e :: o.newest } outer
    exact ⟨last, hlast, (List.foldlM_append ..).trans (bind_ok hstep hrun)⟩

end

theorem IsDocument.foldlM_step (h : IsDocument name events) :
    ∃ root : Element, root.name = name ∧ events.foldlM step (.within []) = .ok (.after root) := by
  cases h with
  | intro hprolog hroot hepilog =>
    obtain ⟨root, hname, hrun⟩ := hroot.foldlM_step []
    refine ⟨root, hname, (List.foldlM_append ..).trans (bind_ok (foldlM_leading hprolog) ?_)⟩
    exact (List.foldlM_append ..).trans (bind_ok hrun (foldlM_trailing root hepilog))

/-! ## From the tree to the grammar -/

namespace Progress

/-- What the rest of the events has to be for a document to be read from start to end. -/
def Awaits : Progress → List Event → Prop
  | .after _, rest => ∀ event ∈ rest, event.Trailing
  | .within [], rest => ∃ name, IsDocument name rest
  | .within opened, rest => Closes (opened.map OpenElement.name) rest

/-- A step that begins with the decoding of bytes succeeds on encoded texts only. -/
theorem exists_of_decoded {α : Type} {wrap : Text.Utf8Error → ValueError} {bytes : Bytes}
    {f : String → Except DocumentError α} {a : α} (h : decoded wrap bytes >>= f = .ok a) :
    ∃ s, bytes = encode s ∧ f s = .ok a := by
  obtain ⟨s, hs, ha⟩ := exists_of_bind_ok h
  unfold decoded at hs
  split at hs
  · next hdecode =>
    cases hs
    exact ⟨s, Text.decode_eq_ok_iff.1 hdecode, ha⟩
  · contradiction

/-- Behind the root element an event is passed over. -/
theorem trailing_of_step {root : Element} {next : Progress} (h : step (.after root) event = .ok next) :
    event.Trailing ∧ next = .after root := by
  cases event with
  | text content =>
    rw [step, stepAfter] at h
    split at h
    · next hblank =>
      cases h
      exact ⟨hblank, rfl⟩
    · contradiction
  | comment | instruction =>
    cases h
    exact ⟨trivial, rfl⟩
  | start | empty | close | cdata | reference | declaration | doctype => cases h

/-- In front of the root element an event is passed over, or it begins the root or is the root. -/
theorem leading_of_step {next : Progress} (h : step (.within []) event = .ok next) :
    event.Leading ∧ next = .within [] ∨
      ∃ name, event = .start (encode name) ∧ next = .within [{ name }] ∨
        event = .empty (encode name) ∧ next = .after { name } := by
  cases event with
  | text content =>
    rw [step, stepWithin] at h
    split at h
    · next hblank =>
      cases h
      exact .inl ⟨hblank, rfl⟩
    · contradiction
  | comment | instruction | declaration | doctype =>
    cases h
    exact .inl ⟨trivial, rfl⟩
  | start bytes =>
    obtain ⟨name, rfl, hnext⟩ := exists_of_decoded h
    cases hnext
    exact .inr ⟨name, .inl ⟨rfl, rfl⟩⟩
  | empty bytes =>
    obtain ⟨name, rfl, hnext⟩ := exists_of_decoded h
    cases hnext
    exact .inr ⟨name, .inr ⟨rfl, rfl⟩⟩
  | close | cdata | reference => cases h

/-- Inside an element an event adds to it or is passed over, begins a child or is one, or ends the
element. -/
theorem inner_of_step {o : OpenElement} {opened : List OpenElement} {next : Progress}
    (h : step (.within (o :: opened)) event = .ok next) :
    (event.Inner ∧ ∃ text, next = .within ({ o with text } :: opened)) ∨
      (∃ name, event = .start (encode name) ∧ next = .within ({ name } :: o :: opened) ∨
        event = .empty (encode name) ∧ next = attach (o :: opened) { name }) ∨
      ∃ bytes, event = .close bytes ∧ next = attach opened o.toElement := by
  cases event with
  | text bytes =>
    obtain ⟨s, rfl, hnext⟩ := exists_of_decoded h
    cases hnext
    exact .inl ⟨.text s, o.text ++ s, rfl⟩
  | cdata bytes =>
    obtain ⟨s, rfl, hnext⟩ := exists_of_decoded h
    cases hnext
    exact .inl ⟨.cdata s, o.text ++ s, rfl⟩
  | reference bytes =>
    obtain ⟨body, rfl, hnext⟩ := exists_of_decoded h
    split at hnext
    · next c hc =>
      cases hnext
      exact .inl ⟨.reference hc, o.text ++ String.singleton c, rfl⟩
    · contradiction
  | comment | instruction | declaration | doctype =>
    cases h
    exact .inl ⟨by constructor, o.text, rfl⟩
  | start bytes =>
    obtain ⟨name, rfl, hnext⟩ := exists_of_decoded h
    cases hnext
    exact .inr (.inl ⟨name, .inl ⟨rfl, rfl⟩⟩)
  | empty bytes =>
    obtain ⟨name, rfl, hnext⟩ := exists_of_decoded h
    cases hnext
    exact .inr (.inl ⟨name, .inr ⟨rfl, rfl⟩⟩)
  | close bytes =>
    cases h
    exact .inr (.inr ⟨bytes, rfl, rfl⟩)

theorem nest_leading (h : event.Leading) (opened : List Bytes) :
    Reading.nest opened event = some opened := by
  cases event with
  | text | comment | instruction | declaration | doctype => rfl
  | start | empty | close | cdata | reference => cases h

theorem nest_inner (h : event.Inner) (opened : List Bytes) :
    Reading.nest opened event = some opened := by
  cases h <;> rfl

/-- The machine and the reader agree about the open elements. -/
theorem openNames_of_step {progress next : Progress} {names : List Bytes}
    (hstep : progress.step event = .ok next) (hnest : Reading.nest progress.openNames event = some names) :
    next.openNames = names := by
  match progress with
  | .after root =>
    obtain ⟨htrailing, rfl⟩ := trailing_of_step hstep
    rw [nest_leading htrailing.leading] at hnest
    exact Option.some.inj hnest
  | .within [] =>
    rcases leading_of_step hstep with ⟨hleading, rfl⟩ | ⟨name, ⟨rfl, rfl⟩ | ⟨rfl, rfl⟩⟩
    · rw [nest_leading hleading] at hnest
      exact Option.some.inj hnest
    · exact Option.some.inj hnest
    · exact Option.some.inj hnest
  | .within (o :: opened) =>
    rcases inner_of_step hstep with
      ⟨hinner, text, rfl⟩ | ⟨name, ⟨rfl, rfl⟩ | ⟨rfl, rfl⟩⟩ | ⟨bytes, rfl, rfl⟩
    · rw [nest_inner hinner] at hnest
      exact Option.some.inj hnest
    · exact Option.some.inj hnest
    · exact Option.some.inj hnest
    · obtain ⟨-, rfl⟩ : bytes = encode o.name ∧ opened.map (fun o => encode o.name) = names := by
        simpa [Reading.nest, openNames] using hnest
      rw [openNames_attach, openNames]

theorem awaits_attach {opened : List OpenElement} {e : Element} (h : (attach opened e).Awaits rest) :
    Closes (opened.map OpenElement.name) rest := by
  cases opened with
  | nil => exact .root h
  | cons o opened => exact h

/-- One step back: an event in front of what the next progress awaits. -/
theorem awaits_of_step {progress next : Progress} {names : List Bytes}
    (hstep : progress.step event = .ok next) (hnest : Reading.nest progress.openNames event = some names)
    (h : next.Awaits rest) : progress.Awaits (event :: rest) := by
  match progress with
  | .after root =>
    obtain ⟨htrailing, rfl⟩ := trailing_of_step hstep
    exact List.forall_mem_cons.2 ⟨htrailing, h⟩
  | .within [] =>
    rcases leading_of_step hstep with ⟨hleading, rfl⟩ | ⟨name, ⟨rfl, rfl⟩ | ⟨rfl, rfl⟩⟩
    · obtain ⟨name, hdocument⟩ := h
      exact ⟨name, hdocument.leading_cons hleading⟩
    · exact ⟨name, Closes.isDocument h⟩
    · exact ⟨name, .intro (List.forall_mem_nil _) (.empty name) h⟩
  | .within (o :: opened) =>
    rcases inner_of_step hstep with
      ⟨hinner, text, rfl⟩ | ⟨name, ⟨rfl, rfl⟩ | ⟨rfl, rfl⟩⟩ | ⟨bytes, rfl, rfl⟩
    · have hcloses : Closes (o.name :: opened.map OpenElement.name) rest := h
      exact hcloses.inner_cons hinner
    · exact Closes.start_cons h
    · exact Closes.element_append (awaits_attach h) (.empty name)
    · obtain ⟨rfl, -⟩ : bytes = encode o.name ∧ opened.map (fun o => encode o.name) = names := by
        simpa [Reading.nest, openNames] using hnest
      exact .element .nil (awaits_attach h)

/-- A run that ends behind the root element took what it awaited. -/
theorem awaits_of_foldlM {progress : Progress} {root : Element} {names : List Bytes}
    (hrun : events.foldlM step progress = .ok (.after root))
    (hnest : events.foldlM Reading.nest progress.openNames = some names) : progress.Awaits events := by
  induction events generalizing progress with
  | nil =>
    cases hrun
    exact List.forall_mem_nil _
  | cons event events ih =>
    rw [List.foldlM_cons] at hrun hnest
    obtain ⟨next, hstep, hrun⟩ := exists_of_bind_ok hrun
    obtain ⟨opened, hopened, hnest⟩ := Option.bind_eq_some_iff.1 hnest
    rw [← openNames_of_step hstep hopened] at hnest
    exact awaits_of_step hstep hopened (ih hrun hnest)

end Progress

/-- The events of an input are taken from start to end exactly if they are those of a document. -/
theorem exists_foldlM_step_iff (input : Bytes) :
    (∃ root, (Reading.ofBytes input).events.foldlM step (.within []) = .ok (.after root)) ↔
      ∃ name, IsDocument name (Reading.ofBytes input).events := by
  constructor
  · rintro ⟨root, hrun⟩
    obtain ⟨names, hnames⟩ := Reading.nested_within [] (Markup.dropByteOrderMark input)
    exact awaits_of_foldlM hrun hnames
  · rintro ⟨name, hdocument⟩
    obtain ⟨root, -, hrun⟩ := hdocument.foldlM_step
    exact ⟨root, hrun⟩

end ShareWire
