import Mathlib.Logic.Relation
import ShareWire.Proofs.Document.Vocabulary

/-!
# Edits outside a vocabulary

Changes of an element, and of the elements inside it, that a reader with a given vocabulary does not
notice: before and after each of them, the element is alike to the reader.
-/

namespace ShareWire

namespace Vocabulary

/-! ## Places -/

/-- What is looked at in the children of a name; nothing if they are not looked at. -/
def contents : Vocabulary → String → List Vocabulary
  | nothing, _ | text, _ | value _, _ => []
  | entries, _ => [text]
  | first own content rest, name | every own content rest, name =>
    (if own = name then [content] else []) ++ rest.contents name

/-- Of the children of the name, not only the first one is looked at. -/
def Repeats : Vocabulary → String → Prop
  | nothing, _ | text, _ | value _, _ => False
  | entries, _ => True
  | first _ _ rest, name => rest.Repeats name
  | every own _ rest, name => own = name ∨ rest.Repeats name

def ReadsText : Vocabulary → Prop
  | nothing | entries => False
  | text | value _ => True
  | first _ _ rest | every _ _ rest => rest.ReadsText

theorem contents_ne_nil_of_repeats {v : Vocabulary} {name : String} (h : v.Repeats name) :
    v.contents name ≠ [] := by
  induction v with
  | nothing | text | value => exact h.elim
  | entries => exact List.cons_ne_nil _ _
  | first own content rest _ ih => exact List.append_ne_nil_of_right_ne_nil _ (ih h)
  | every own content rest _ ih =>
    rcases h with hown | h
    · rw [contents, if_pos hown]
      exact List.cons_ne_nil _ _
    · exact List.append_ne_nil_of_right_ne_nil _ (ih h)

/-! ## Edits -/

/-- A change of an element at one place. Put in reverse, it takes out what it put in. -/
inductive Edit : Vocabulary → Element → Element → Prop where
  /-- A child that is not looked at is put in. -/
  | unread {v : Vocabulary} {name text : String} {before after : List Element} {c : Element} :
      v.contents c.name = [] →
      Edit v ⟨name, text, before ++ after⟩ ⟨name, text, before ++ c :: after⟩
  /-- A child is put in behind the only one of its name that is looked at. -/
  | further {v : Vocabulary} {name text : String} {before after : List Element} {c : Element} :
      ¬ v.Repeats c.name → (∃ earlier ∈ before, earlier.name = c.name) →
      Edit v ⟨name, text, before ++ after⟩ ⟨name, text, before ++ c :: after⟩
  /-- The children come in another order, in which those of one name keep theirs. -/
  | reorder {v : Vocabulary} {name text : String} {children children' : List Element} :
      (∀ own : String, children.filter (·.name = own) = children'.filter (·.name = own)) →
      Edit v ⟨name, text, children⟩ ⟨name, text, children'⟩
  /-- The text of an element that is read for its children is replaced. -/
  | retext {v : Vocabulary} {name text other : String} {children : List Element} : ¬ v.ReadsText →
      Edit v ⟨name, text, children⟩ ⟨name, other, children⟩
  /-- White space is put around a text that stands for a value. -/
  | pad {type : ValueType} {name text before after : String} {children : List Element} :
      type.Valid text → (∀ c ∈ before.toList, Text.isBlank c = true) →
      (∀ c ∈ after.toList, Text.isBlank c = true) →
      Edit (value type) ⟨name, text, children⟩ ⟨name, before ++ text ++ after, children⟩
  /-- A child that is looked at is changed. -/
  | child {v : Vocabulary} {name text : String} {before after : List Element} {c c' : Element} :
      v.contents c.name ≠ [] → (∀ content ∈ v.contents c.name, Edit content c c') →
      Edit v ⟨name, text, before ++ c :: after⟩ ⟨name, text, before ++ c' :: after⟩

theorem Edit.name_eq {v : Vocabulary} {e e' : Element} (h : v.Edit e e') : e.name = e'.name := by
  cases h with
  | unread | further | reorder | retext | pad | child => rfl

end Vocabulary

/-! ## Lookups -/

namespace Element

variable {tag text name : String} {before after : List Element} {c : Element}
  {R : Element → Element → Prop} {e e' : Element}

theorem child?_eq_head? (e : Element) (name : String) :
    e.child? name = (e.childrenNamed name).head? :=
  (List.head?_filter ..).symm

theorem childrenNamed_insert (h : c.name ≠ name) :
    childrenNamed ⟨tag, text, before ++ c :: after⟩ name =
      childrenNamed ⟨tag, text, before ++ after⟩ name := by
  simp [childrenNamed, h]

/-- Behind the first child of the name, other children of the name are not found. -/
theorem child?_insert_behind (h : ∃ earlier ∈ before, earlier.name = name) :
    child? ⟨tag, text, before ++ c :: after⟩ name = child? ⟨tag, text, before ++ after⟩ name := by
  have hfound : (before.find? fun earlier => earlier.name = name).isSome :=
    List.find?_isSome.2 (by simpa using h)
  obtain ⟨first, hfirst⟩ := Option.isSome_iff_exists.1 hfound
  simp only [child?, List.find?_append, hfirst, Option.some_or]

theorem firstPaired_of_children
    (h : List.Forall₂ (Paired fun c c' => c.name = name → R c c') e.children e'.children) :
    FirstPaired R name e e' := by
  rw [FirstPaired, child?, child?]
  generalize e.children = children, e'.children = children' at h ⊢
  induction h with
  | nil => exact .none
  | @cons c c' rest rest' hc _ ih =>
    by_cases hname : c.name = name
    · have hname' : c'.name = name := hc.name_eq ▸ hname
      simpa [hname, hname'] using ⟨hc.name_eq, hc.related hname⟩
    · have hname' : c'.name ≠ name := hc.name_eq ▸ hname
      simpa [hname, hname'] using ih

theorem allPaired_of_children
    (h : List.Forall₂ (Paired fun c c' => c.name = name → R c c') e.children e'.children) :
    AllPaired R name e e' := by
  rw [AllPaired, childrenNamed, childrenNamed]
  generalize e.children = children, e'.children = children' at h ⊢
  induction h with
  | nil => exact .nil
  | @cons c c' rest rest' hc _ ih =>
    by_cases hname : c.name = name
    · have hname' : c'.name = name := hc.name_eq ▸ hname
      simpa [hname, hname', ih] using ⟨hc.name_eq, hc.related hname⟩
    · have hname' : c'.name ≠ name := hc.name_eq ▸ hname
      simpa [hname, hname'] using ih

end Element

namespace Vocabulary

/-! ## Alike elements -/

theorem alike_refl (v : Vocabulary) (e : Element) : v.Alike e e := by
  induction v generalizing e with
  | nothing => trivial
  | text => rfl
  | value type => exact .inl rfl
  | entries => exact fun _ => rfl
  | first own content rest hcontent hrest =>
    refine ⟨Element.firstPaired_of_children (List.forall₂_same.2 fun c _ => ?_), hrest e⟩
    exact ⟨rfl, fun _ => hcontent c⟩
  | every own content rest hcontent hrest =>
    refine ⟨Element.allPaired_of_children (List.forall₂_same.2 fun c _ => ?_), hrest e⟩
    exact ⟨rfl, fun _ => hcontent c⟩

/-- Elements are alike if the lookups of the names that are looked at give the same. -/
theorem alike_of_lookups {v : Vocabulary} {e e' : Element}
    (htext : v.ReadsText → e.text = e'.text)
    (hfirst : ∀ name, v.contents name ≠ [] → e.child? name = e'.child? name)
    (hevery : ∀ name, v.Repeats name → e.childrenNamed name = e'.childrenNamed name) :
    v.Alike e e' := by
  induction v with
  | nothing => trivial
  | text => exact htext trivial
  | value type => exact .inl (htext trivial)
  | entries => exact fun name => congrArg _ (hevery name trivial)
  | first own content rest _ ih =>
    refine ⟨?_, ih htext (fun name h => hfirst name ?_) hevery⟩
    · rw [Element.FirstPaired, ← hfirst own (by simp [contents])]
      exact ((first own content nothing).alike_refl e).1
    · exact List.append_ne_nil_of_right_ne_nil _ h
  | every own content rest _ ih =>
    refine ⟨?_, ih htext (fun name h => hfirst name ?_) fun name h => hevery name (.inr h)⟩
    · rw [Element.AllPaired, ← hevery own (.inl rfl)]
      exact ((every own content nothing).alike_refl e).1
    · exact List.append_ne_nil_of_right_ne_nil _ h

/-- Elements are alike if their children are, one by one. -/
theorem alike_of_children {v : Vocabulary} {e e' : Element} (htext : v.ReadsText → e.text = e'.text)
    (h : List.Forall₂ (Element.Paired fun c c' => ∀ content ∈ v.contents c.name, content.Alike c c')
      e.children e'.children) : v.Alike e e' := by
  induction v with
  | nothing => trivial
  | text => exact htext trivial
  | value type => exact .inl (htext trivial)
  | entries =>
    intro name
    have hall : Element.AllPaired text.Alike name e e' :=
      Element.allPaired_of_children (h.imp fun c c' hc => ⟨hc.name_eq, fun _ =>
        hc.related text List.mem_cons_self⟩)
    rw [← List.forall₂_eq_eq_eq, List.forall₂_map_left_iff, List.forall₂_map_right_iff]
    exact hall.imp fun c c' hc => hc.related
  | first own content rest _ ih =>
    refine ⟨Element.firstPaired_of_children (h.imp fun c c' hc => ⟨hc.name_eq, fun hown => ?_⟩),
      ih htext (h.imp fun c c' hc => ⟨hc.name_eq, fun other hother => ?_⟩)⟩
    · exact hc.related content (by simp [contents, hown])
    · exact hc.related other (List.mem_append_right _ hother)
  | every own content rest _ ih =>
    refine ⟨Element.allPaired_of_children (h.imp fun c c' hc => ⟨hc.name_eq, fun hown => ?_⟩),
      ih htext (h.imp fun c c' hc => ⟨hc.name_eq, fun other hother => ?_⟩)⟩
    · exact hc.related content (by simp [contents, hown])
    · exact hc.related other (List.mem_append_right _ hother)

/-- A reader does not notice an edit outside its vocabulary. -/
theorem Edit.alike {v : Vocabulary} {e e' : Element} (h : v.Edit e e') : v.Alike e e' := by
  induction h with
  | @unread v _ _ _ _ c hc =>
    have hne (name : String) (hname : v.contents name ≠ []) : c.name ≠ name :=
      fun h => hname (h ▸ hc)
    refine alike_of_lookups (fun _ => rfl) (fun name hname => ?_) (fun name hname => ?_)
    · rw [Element.child?_eq_head?, Element.child?_eq_head?,
        Element.childrenNamed_insert (hne name hname)]
    · exact (Element.childrenNamed_insert (hne name (contents_ne_nil_of_repeats hname))).symm
  | @further v _ _ _ _ c hc hearlier =>
    refine alike_of_lookups (fun _ => rfl) (fun name _ => ?_) (fun name hname => ?_)
    · by_cases hown : c.name = name
      · exact (Element.child?_insert_behind (hown ▸ hearlier)).symm
      · rw [Element.child?_eq_head?, Element.child?_eq_head?, Element.childrenNamed_insert hown]
    · exact (Element.childrenNamed_insert fun hown => hc (hown ▸ hname)).symm
  | reorder horder =>
    refine alike_of_lookups (fun _ => rfl) (fun name _ => ?_) (fun name _ => horder name)
    rw [Element.child?_eq_head?, Element.child?_eq_head?]
    exact congrArg List.head? (horder name)
  | retext htext => exact alike_of_lookups (fun h => absurd h htext) (fun _ _ => rfl) (fun _ _ => rfl)
  | pad htext hbefore hafter =>
    refine .inr ⟨?_, htext⟩
    rw [String.toList_append, String.toList_append, Text.trim_append_blank _ hbefore hafter]
  | @child v _ _ _ _ c c' hread hedit ih =>
    obtain ⟨content, hcontent⟩ := List.exists_mem_of_ne_nil _ hread
    have hname : c.name = c'.name := (hedit content hcontent).name_eq
    have hsame (l : List Element) : List.Forall₂ (Element.Paired fun c c' =>
        ∀ content ∈ v.contents c.name, content.Alike c c') l l :=
      List.forall₂_same.2 fun c _ => ⟨rfl, fun content _ => content.alike_refl c⟩
    exact alike_of_children (fun _ => rfl) (List.rel_append (hsame _) (.cons ⟨hname, ih⟩ (hsame _)))

end Vocabulary

end ShareWire
