import ShareWire.Proofs.Document.Language
import ShareWire.Proofs.Document.Reference
import ShareWire.Proofs.Markup.Size

/-!
# Weights of trees

How large the tree of a document can be. What the open elements of a reader weigh grows with each event
by the size of the event at most. Main statement: no tree is larger than the input that it was read from,
references stand for single characters, and nothing that is declared or said in passing has any influence.
-/

namespace ShareWire

open Text (encode)
open Markup (Event Reading Reads Spells ampersand angleOpen dropByteOrderMark endsText semicolon
  totalSize)

/-! ## Weights -/

mutual

/-- The bytes of all names and texts of a tree, and three more for each of its elements. -/
def Element.weight : Element → Nat
  | ⟨name, text, children⟩ =>
    (encode name).length + (encode text).length + 3 + weightAll children

def Element.weightAll : List Element → Nat
  | [] => 0
  | e :: rest => e.weight + weightAll rest

end

theorem Element.weightAll_append (xs ys : List Element) :
    weightAll (xs ++ ys) = weightAll xs + weightAll ys := by
  induction xs with
  | nil => exact (Nat.zero_add _).symm
  | cons e xs ih =>
    rw [List.cons_append, weightAll, weightAll, ih]
    omega

theorem Element.weightAll_reverse (es : List Element) : weightAll es.reverse = weightAll es := by
  induction es with
  | nil => rfl
  | cons e es ih =>
    rw [List.reverse_cons, weightAll_append, ih]
    show weightAll es + (e.weight + 0) = e.weight + weightAll es
    omega

/-- What an open element weighs without its end tag. -/
def OpenElement.weight (o : OpenElement) : Nat :=
  (encode o.name).length + (encode o.text).length + 2 + Element.weightAll o.newest

def OpenElement.weightAll : List OpenElement → Nat
  | [] => 0
  | o :: outer => o.weight + weightAll outer

/-- Indentation that is dropped makes an element lighter. -/
theorem OpenElement.weight_toElement_le (o : OpenElement) : o.toElement.weight ≤ o.weight + 1 := by
  have htext : (encode o.toElement.text).length ≤ (encode o.text).length := by
    unfold toElement
    split
    · exact Nat.zero_le _
    · exact Nat.le_refl _
  show (encode o.name).length + (encode o.toElement.text).length + 3 +
    Element.weightAll o.newest.reverse ≤ o.weight + 1
  rw [Element.weightAll_reverse, weight]
  omega

namespace Progress

/-- What has been read so far. -/
def weight : Progress → Nat
  | .within opened => OpenElement.weightAll opened
  | .after root => root.weight

theorem weight_attach (opened : List OpenElement) (e : Element) :
    (attach opened e).weight = (within opened).weight + e.weight := by
  cases opened with
  | nil => exact (Nat.zero_add _).symm
  | cons o outer =>
    simp only [attach, weight, OpenElement.weightAll, OpenElement.weight, Element.weightAll]
    omega

theorem weight_append (o : OpenElement) (outer : List OpenElement) (text : String) :
    (append o outer text).weight = (within (o :: outer)).weight + (encode text).length := by
  simp only [append, weight, OpenElement.weightAll, OpenElement.weight, Text.encode_append,
    List.length_append]
  omega

/-- A character takes no more bytes than a reference that stands for it. -/
theorem length_encode_singleton_le {body : String} {c : Char}
    (h : Reference.resolve body = .ok c) :
    (encode (String.singleton c)).length ≤ (encode body).length + 2 := by
  have hbody := (Reference.stands_of_resolve h).two_le_length
  have hc : (encode (String.singleton c)).length = c.utf8Size := by
    simp [encode]
  have hsize := c.utf8Size_le_four
  omega

/-! ## Steps -/

variable {progress next last : Progress} {event : Event} {events : List Event}

/-- An empty element and the start tag of an element weigh as much as they are long. -/
theorem weight_bare (name : String) : Element.weight { name } = (encode name).length + 3 ∧
    OpenElement.weight { name } = (encode name).length + 2 :=
  ⟨rfl, rfl⟩

theorem weight_step_inside_le {o : OpenElement} {outer : List OpenElement}
    (h : step (.within (o :: outer)) event = .ok next) :
    next.weight ≤ (within (o :: outer)).weight + event.size := by
  cases event with
  | start bytes =>
    obtain ⟨name, rfl, hnext⟩ := exists_of_decoded h
    cases hnext
    have hbare := (weight_bare name).2
    simp only [weight, OpenElement.weightAll, Event.size, hbare]
    omega
  | empty bytes =>
    obtain ⟨name, rfl, hnext⟩ := exists_of_decoded h
    cases hnext
    rw [weight_attach, (weight_bare name).1]
    exact Nat.le_refl _
  | close bytes =>
    cases h
    -- The end tag pays for the third byte of its element.
    have hclosed := o.weight_toElement_le
    rw [weight_attach]
    simp only [weight, OpenElement.weightAll, Event.size]
    omega
  | text bytes | cdata bytes =>
    obtain ⟨s, rfl, hnext⟩ := exists_of_decoded h
    cases hnext
    rw [weight_append]
    exact Nat.le_refl _
  | reference bytes =>
    obtain ⟨body, rfl, hnext⟩ := exists_of_decoded h
    split at hnext
    · next c hc =>
      cases hnext
      rw [weight_append]
      exact Nat.add_le_add_left (length_encode_singleton_le hc) _
    · contradiction
  | comment | instruction | declaration | doctype =>
    cases h
    exact Nat.le_refl _

/-- One event adds its size at most. -/
theorem weight_step_le (h : progress.step event = .ok next) :
    next.weight ≤ progress.weight + event.size := by
  match progress with
  | .within (o :: outer) => exact weight_step_inside_le h
  | .within [] =>
    rcases leading_of_step h with ⟨-, rfl⟩ | ⟨name, ⟨rfl, rfl⟩ | ⟨rfl, rfl⟩⟩
    · exact Nat.le_add_right _ _
    · show OpenElement.weight { name } + 0 ≤ 0 + ((encode name).length + 2)
      rw [(weight_bare name).2]
      omega
    · show Element.weight { name } ≤ 0 + ((encode name).length + 3)
      rw [(weight_bare name).1]
      omega
  | .after root =>
    obtain ⟨-, rfl⟩ := trailing_of_step h
    exact Nat.le_add_right _ _

/-- All events together add no more than their sizes. -/
theorem weight_foldlM_le (h : events.foldlM step progress = .ok last) :
    last.weight ≤ progress.weight + totalSize events := by
  induction events generalizing progress with
  | nil =>
    obtain rfl : progress = last := Except.ok.inj h
    exact Nat.le_add_right _ _
  | cons event events ih =>
    rw [List.foldlM_cons] at h
    obtain ⟨next, hstep, hrest⟩ := exists_of_bind_ok h
    have hnext := weight_step_le hstep
    have hlast := ih hrest
    rw [totalSize]
    omega

end Progress

/-! ## Whole inputs -/

theorem reads_ofBytes {input : Bytes} (h : (Reading.ofBytes input).fault = none) :
    Reads [] (dropByteOrderMark input) (Reading.ofBytes input).events := by
  rw [Markup.reads_iff, ← h]
  rfl

namespace Element

theorem weight_le_of_parse {input : Bytes} {root : Element} (h : parse input = .ok root) :
    root.weight ≤ input.length := by
  rw [parse_eq_run] at h
  obtain ⟨hfault, hevents⟩ := Progress.run_ok_iff.1 h
  calc root.weight
      ≤ 0 + totalSize (Reading.ofBytes input).events := Progress.weight_foldlM_le hevents
    _ = totalSize (Reading.ofBytes input).events := Nat.zero_add _
    _ ≤ (dropByteOrderMark input).length := (reads_ofBytes hfault).totalSize_le
    _ ≤ input.length := Markup.dropByteOrderMark_length_le input

end Element

/-! ## References and constructs without content -/

variable {front lexeme other body rest : Bytes} {event : Event}

/-- Behind an input that is read to its end the reading goes on with the construct that comes next. -/
theorem exists_ofBytes_append (hfront : (Reading.ofBytes front).fault = none) :
    ∃ names, ∀ more : Bytes, (∀ b ∈ more.head?, endsText b = true) →
      Reading.ofBytes (front ++ more) =
        ⟨(Reading.ofBytes front).events ++ (Reading.within names more).events,
          (Reading.within names more).fault⟩ := by
  obtain ⟨names, hnames⟩ := (reads_ofBytes hfront).exists_within_append
  refine ⟨names, fun more hmore => ?_⟩
  rw [← hnames more hmore, ← Markup.dropByteOrderMark_append_of_head front hmore]
  rfl

/-- A reference makes progress only if it stands for a character. -/
theorem Progress.stands_of_step_reference {progress next : Progress}
    (h : progress.step (.reference body) = .ok next) :
    ∃ s c, body = encode s ∧ Reference.Stands s c := by
  match progress with
  | .within [] => cases h
  | .after root => cases h
  | .within (o :: outer) =>
    obtain ⟨s, hbody, hnext⟩ := exists_of_decoded h
    split at hnext
    · next c hc => exact ⟨s, c, hbody, Reference.stands_of_resolve hc⟩
    · contradiction

theorem Element.stands_of_parse {root : Element} (hfront : (Reading.ofBytes front).fault = none)
    (hbody : ∀ b ∈ body, endsText b = false ∧ b ≠ semicolon)
    (h : parse (front ++ ([ampersand] ++ body ++ [semicolon] ++ rest)) = .ok root) :
    ∃ s c, body = encode s ∧ Reference.Stands s c := by
  have hspells := Markup.spells_reference hbody
  obtain ⟨names, hnames⟩ := exists_ofBytes_append hfront
  rw [parse_eq_run, hnames _ (hspells.endsText_head rest),
    Reading.within_of_spells hspells (by simp) (by simp)] at h
  obtain ⟨-, hevents⟩ := Progress.run_ok_iff.1 h
  obtain ⟨progress, -, hbehind⟩ := exists_of_bind_ok ((List.foldlM_append ..).symm.trans hevents)
  obtain ⟨next, hstep, -⟩ := exists_of_bind_ok ((List.foldlM_cons ..).symm.trans hbehind)
  exact Progress.stands_of_step_reference hstep

/-- The tree depends on the events of an input, not on how they are spelled. -/
theorem Element.parse_congr_spells (hfront : (Reading.ofBytes front).fault = none)
    (h : Spells lexeme event) (h' : Spells other event) (rest : Bytes) :
    parse (front ++ (lexeme ++ rest)) = parse (front ++ (other ++ rest)) := by
  obtain ⟨names, hnames⟩ := exists_ofBytes_append hfront
  rw [parse_eq_run, parse_eq_run, hnames _ (h.endsText_head rest), hnames _ (h'.endsText_head rest),
    Markup.within_congr_spells h h' names rest]

/-! ## Main statement -/

/-- A tree weighs no more than the input that it was read from. Behind any input that is read to its
end, a reference that stands for no character makes the whole an error, whatever a document type
declaration says about it. And there a construct can be replaced by any other one with the same event: a
declaration by one of other entities, a start tag by one with other attributes, a comment by another
one. -/
theorem parse_without_amplification :
    (∀ (input : Bytes) (root : Element), Element.parse input = .ok root →
      root.weight ≤ input.length) ∧
    (∀ front body rest : Bytes, (Reading.ofBytes front).fault = none →
      (∀ b ∈ body, endsText b = false ∧ b ≠ semicolon) →
      (∀ s c, Reference.Stands s c → body ≠ encode s) →
      ∃ error, Element.parse (front ++ ([ampersand] ++ body ++ [semicolon] ++ rest)) = .error error) ∧
    ∀ (front lexeme other rest : Bytes) (event : Event), (Reading.ofBytes front).fault = none →
      Spells lexeme event → Spells other event →
      Element.parse (front ++ (lexeme ++ rest)) = Element.parse (front ++ (other ++ rest)) := by
  refine ⟨fun _ _ => Element.weight_le_of_parse, ?_, ?_⟩
  · intro front body rest hfront hbody hstands
    cases hparse : Element.parse (front ++ ([ampersand] ++ body ++ [semicolon] ++ rest)) with
    | error error => exact ⟨error, rfl⟩
    | ok root =>
      obtain ⟨s, c, hs, hc⟩ := Element.stands_of_parse hfront hbody hparse
      exact absurd hs (hstands s c hc)
  · intro front lexeme other rest event hfront h h'
    exact Element.parse_congr_spells hfront h h' rest

/-- An entity that is declared and used is an error. One that is declared under a predefined name makes no
difference. -/
theorem parse_without_amplification_entities :
    (∃ error, Element.parse (encode "<!DOCTYPE a [<!ENTITY b '<c/><c/>'>]><a>" ++
      ([ampersand] ++ encode "b" ++ [semicolon] ++ encode "</a>")) = .error error) ∧
    Element.parse ([] ++ (encode "<!DOCTYPE a [<!ENTITY lt 'long'>]>" ++ encode "<a>&lt;</a>")) =
      Element.parse ([] ++ (encode "<!DOCTYPE a>" ++ encode "<a>&lt;</a>")) ∧
    ∃ root, Element.parse (encode "<a>&#x1F600;<b/>&lt;</a>") = .ok root ∧ root.weight ≤ 24 := by
  obtain ⟨hweight, hreference, hcongr⟩ := parse_without_amplification
  have hspells (tail : Bytes) (h : Markup.readEvent angleOpen tail = .ok (.doctype, [])) :
      Spells (angleOpen :: tail) .doctype := by
    obtain ⟨used, htail, hspells⟩ := Markup.spells_of_readEvent (by decide) h
    rwa [htail, List.append_nil]
  refine ⟨hreference _ _ _ (by decide +kernel) (by decide +kernel) fun s c hs heq => ?_,
    hcongr _ _ _ _ .doctype (by decide +kernel) (hspells _ (by decide +kernel))
      (hspells _ (by decide +kernel)), ?_⟩
  · have hlength := congrArg List.length heq
    have htwo := hs.two_le_length
    have hone : (encode "b").length = 1 := by decide
    omega
  · have hname : (Element.parse (encode "<a>&#x1F600;<b/>&lt;</a>")).map Element.name = .ok "a" := by
      decide +kernel
    obtain ⟨root, hroot, -⟩ := exists_of_map_ok hname
    exact ⟨root, hroot, hweight _ root hroot⟩

end ShareWire
