import ShareWire.Proofs.Document.Schema
import ShareWire.Proofs.Text.Blank

/-!
# Vocabularies of readers

What a reader looks at in an element, and when two elements are alike to it. A reader that covers no
more than its vocabulary has the same outcome on elements that are alike: the same record, or the same
error up to the name of the element that lacks a child.
-/

namespace ShareWire

open Text (FixedWidth)
open Time (Instant)

/-! ## Two elements -/

/-- Errors that are the same, except that an element that lacks a child is called `new`, not `old`. -/
inductive DocumentError.Renamed (old new : String) : DocumentError → DocumentError → Prop where
  | same (error : DocumentError) : Renamed old new error error
  | missing (child : String) : Renamed old new (.missingElement old child) (.missingElement new child)

theorem DocumentError.Renamed.eq {name : String} {error error' : DocumentError}
    (h : Renamed name name error error') : error = error' := by
  cases h with
  | same => rfl
  | missing => rfl

namespace Element

variable (R : Element → Element → Prop)

structure Paired (c c' : Element) : Prop where
  name_eq : c.name = c'.name
  related : R c c'

/-- The first children of a name are related, or there are none. -/
def FirstPaired (name : String) (e e' : Element) : Prop :=
  Option.Rel (Paired R) (e.child? name) (e'.child? name)

/-- The children of a name are related, each to the one at its place. -/
def AllPaired (name : String) (e e' : Element) : Prop :=
  List.Forall₂ (Paired R) (e.childrenNamed name) (e'.childrenNamed name)

variable {R}

@[elab_as_elim]
theorem FirstPaired.elim {name : String} {e e' : Element}
    {motive : Option Element → Option Element → Prop} (h : FirstPaired R name e e')
    (none : motive none none) (some : ∀ c c', Paired R c c' → motive (some c) (some c')) :
    motive (e.child? name) (e'.child? name) := by
  unfold FirstPaired at h
  generalize e.child? name = o, e'.child? name = o' at h ⊢
  cases h with
  | none => exact none
  | some hc => exact some _ _ hc

end Element

/-! ## What is looked at -/

inductive ValueType where
  | bool
  | integer (type : IntegerType)
  | timestamp
deriving DecidableEq, Repr

namespace ValueType

/-- A text that stands for a value of the type. Every text stands for a truth value. -/
def Valid : ValueType → String → Prop
  | bool, _ => True
  | integer type, s => ∃ n, Text.Denotes type.least type.greatest s n
  | timestamp, s => ∃ t, Instant.ofText s = .ok t

/-- The texts are the same, or stand for the same value and differ in the white space around it. -/
def Alike (type : ValueType) (s s' : String) : Prop :=
  s = s' ∨ Text.trim s.toList = Text.trim s'.toList ∧ type.Valid s

end ValueType

/-- What a reader looks at in an element: nothing, its text, or its children of certain names. -/
inductive Vocabulary where
  /-- Nothing, or nothing more. -/
  | nothing
  /-- The text as it is. -/
  | text
  /-- The value that the text stands for. -/
  | value (type : ValueType)
  /-- The name and the text of every child, with no regard to the order of different names. -/
  | entries
  /-- The first child of the name. -/
  | first (name : String) (content rest : Vocabulary)
  /-- All children of the name, in their order. -/
  | every (name : String) (content rest : Vocabulary)

namespace Vocabulary

/-- Two elements that differ in nothing that is looked at. -/
def Alike : Vocabulary → Element → Element → Prop
  | nothing, _, _ => True
  | text, e, e' => e.text = e'.text
  | value type, e, e' => type.Alike e.text e'.text
  | entries, e, e' => ∀ name,
    (e.childrenNamed name).map Element.text = (e'.childrenNamed name).map Element.text
  | first name content rest, e, e' =>
    Element.FirstPaired content.Alike name e e' ∧ rest.Alike e e'
  | every name content rest, e, e' =>
    Element.AllPaired content.Alike name e e' ∧ rest.Alike e e'

/-- The values that are looked at are all of their types. -/
def Valid : Vocabulary → Element → Prop
  | nothing, _ | text, _ | entries, _ => True
  | value type, e => type.Valid e.text
  | first name content rest, e => (∀ c, e.child? name = some c → content.Valid c) ∧ rest.Valid e
  | every name content rest, e =>
    (∀ c ∈ e.children, c.name = name → content.Valid c) ∧ rest.Valid e

/-- The vocabulary of the readers that a schema fits: both have the same names in the same order. -/
inductive Suits : Vocabulary → Schema → Prop where
  | nothing : Suits nothing .any
  | text : Suits text .any
  | bool : Suits (value .bool) .any
  | integer {type : IntegerType} : Suits (value (.integer type)) (.integer type)
  | timestamp : Suits (value .timestamp) .timestamp
  | entries : Suits entries .any
  | required {name : String} {content rest : Vocabulary} {asked more : Schema} :
      Suits content asked → Suits rest more →
      Suits (first name content rest) (.required name asked more)
  | optional {name : String} {content rest : Vocabulary} {asked more : Schema} :
      Suits content asked → Suits rest more →
      Suits (first name content rest) (.optional name asked more)
  | every {name : String} {content rest : Vocabulary} {asked more : Schema} :
      Suits content asked → Suits rest more →
      Suits (every name content rest) (.every name asked more)

theorem Suits.valid {v : Vocabulary} {schema : Schema} (h : v.Suits schema) {e : Element}
    (hvalid : schema.Valid e) : v.Valid e := by
  induction h generalizing e with
  | nothing | text | bool | entries => trivial
  | integer | timestamp => exact hvalid
  | required _ _ hcontent hrest =>
    obtain ⟨⟨c, hc, hasked⟩, hmore⟩ := hvalid
    refine ⟨fun d hd => ?_, hrest hmore⟩
    obtain rfl := Option.some.inj (hc.symm.trans hd)
    exact hcontent hasked
  | optional _ _ hcontent hrest => exact ⟨fun c hc => hcontent (hvalid.1 c hc), hrest hvalid.2⟩
  | every _ _ hcontent hrest =>
    exact ⟨fun c hc hname => hcontent (hvalid.1 c hc hname), hrest hvalid.2⟩

/-- A reader that looks at nothing else. Elements that are alike have results that are related, or the
same error up to their own names. -/
def Covers {α : Type} (v : Vocabulary) (R : α → α → Prop) (read : Element → Except DocumentError α) :
    Prop :=
  ∀ ⦃e e' : Element⦄, v.Alike e e' →
    OutcomeRel R (DocumentError.Renamed e.name e'.name) (read e) (read e')

end Vocabulary

/-! ## Readers of texts -/

theorem readBool_congr {s s' : String} (h : ValueType.bool.Alike s s') : readBool s = readBool s' := by
  rcases h with rfl | ⟨htrim, -⟩
  · rfl
  · rw [readBool, readBool, htrim]

theorem readInteger_congr {α : Type} [FixedWidth α] {type : IntegerType} [type.Implements α]
    {s s' : String} (h : (ValueType.integer type).Alike s s') :
    readInteger α s = readInteger α s' := by
  rcases h with rfl | ⟨htrim, n, hn⟩
  · rfl
  · have hread := (Text.readBounded_eq_ok_iff type.bounds.1 type.bounds.2).2 hn
    rw [readInteger_eq type, readInteger_eq type, ← htrim, hread]

theorem readTimestamp_congr {s s' : String} (h : ValueType.timestamp.Alike s s') :
    readTimestamp s = readTimestamp s' := by
  rcases h with rfl | ⟨htrim, t, ht⟩
  · rfl
  · have ht' : Instant.ofText s' = .ok t := by
      rw [← ht, Instant.ofText, Instant.ofText, htrim]
    rw [readTimestamp, readTimestamp, ht, ht']

theorem OutcomeRel.of_eq {α : Type} {old new : String} {x y : Except DocumentError α} (h : x = y) :
    OutcomeRel Eq (DocumentError.Renamed old new) x y := by
  subst h
  cases x with
  | error error => exact .error (.same error)
  | ok a => exact .ok rfl

/-! ## Readers of fields -/

namespace Vocabulary

variable {α : Type} {content : Vocabulary} {e e' : Element} {name old new : String} {type : ValueType}
  {R : α → α → Prop}

/-- Between readers of elements of one name there is no difference in the errors. -/
theorem Covers.paired {read : Element → Except DocumentError α} (hread : content.Covers R read)
    {c c' : Element} (h : Element.Paired content.Alike c c') :
    OutcomeRel R (DocumentError.Renamed old new) (read c) (read c') := by
  refine (hread h.related).imp (fun _ _ ha => ha) fun error error' herror => ?_
  rw [h.name_eq] at herror
  rw [herror.eq]
  exact .same error'

theorem require (h : Element.FirstPaired content.Alike name e e') :
    OutcomeRel (Element.Paired content.Alike) (DocumentError.Renamed e.name e'.name) (e.require name)
      (e'.require name) := by
  rw [Element.require, Element.require]
  exact h.elim (.error (.missing name)) fun _ _ hc => .ok hc

theorem requiredText (h : Element.FirstPaired text.Alike name e e') :
    OutcomeRel Eq (DocumentError.Renamed e.name e'.name) (e.requiredText name)
      (e'.requiredText name) :=
  (require h).map fun _ _ hc => hc.related

theorem requiredValue (h : Element.FirstPaired (value type).Alike name e e') :
    OutcomeRel type.Alike (DocumentError.Renamed e.name e'.name) (e.requiredText name)
      (e'.requiredText name) :=
  (require h).map fun _ _ hc => hc.related

theorem childText? (h : Element.FirstPaired text.Alike name e e') :
    e.childText? name = e'.childText? name := by
  rw [Element.childText?, Element.childText?]
  exact h.elim rfl fun _ _ hc => congrArg some hc.related

theorem filledText? (h : Element.FirstPaired text.Alike name e e') :
    e.filledText? name = e'.filledText? name := by
  rw [Element.filledText?, Element.filledText?, childText? h]

theorem childValue? {f : String → α}
    (h : Element.FirstPaired (value type).Alike name e e')
    (hf : ∀ {s s'}, type.Alike s s' → f s = f s') :
    (e.childText? name).map f = (e'.childText? name).map f := by
  rw [Element.childText?, Element.childText?]
  exact h.elim rfl fun _ _ hc => congrArg some (hf hc.related)

theorem optionalValue {read : String → Except DocumentError α}
    (h : Element.FirstPaired (value type).Alike name e e')
    (hread : ∀ {s s'}, type.Alike s s' → read s = read s') :
    OutcomeRel Eq (DocumentError.Renamed old new) (e.optionalText name read)
      (e'.optionalText name read) := by
  rw [Element.optionalText, Element.optionalText, Element.childText?, Element.childText?]
  exact h.elim (.ok rfl) fun _ _ hc => .of_eq (congrArg (Except.map some) (hread hc.related))

theorem optionalRecord [FromElement α] (hread : content.Covers Eq (ofElement (α := α)))
    (h : Element.FirstPaired content.Alike name e e') :
    OutcomeRel Eq (DocumentError.Renamed old new) (e.optional α name) (e'.optional α name) := by
  rw [Element.optional, Element.optional]
  exact h.elim (.ok rfl) fun _ _ hc => (hread.paired hc).map fun _ _ ha => congrArg some ha

theorem children {read : Element → Except DocumentError α} (hread : content.Covers R read)
    (h : Element.AllPaired content.Alike name e e') :
    OutcomeRel (List.Forall₂ R) (DocumentError.Renamed old new) ((e.childrenNamed name).mapM read)
      ((e'.childrenNamed name).mapM read) :=
  .mapM h fun _ _ hc => hread.paired hc

theorem children_eq {read : Element → Except DocumentError α} (hread : content.Covers Eq read)
    (h : Element.AllPaired content.Alike name e e') :
    OutcomeRel Eq (DocumentError.Renamed old new) ((e.childrenNamed name).mapM read)
      ((e'.childrenNamed name).mapM read) := by
  rw [← List.forall₂_eq_eq_eq]
  exact children hread h

end Vocabulary

end ShareWire
