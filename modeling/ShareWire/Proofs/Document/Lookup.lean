import ShareWire.Document.Decode
import ShareWire.Proofs.Document.Canonical
import ShareWire.Proofs.Fallible
import ShareWire.Proofs.Text.Integer

/-!
# Looking up fields

What the readers of fields give on a tree in which the children are known: one law for each kind of
field, single, optional and repeated.
-/

namespace ShareWire

theorem readBool_toString (b : Bool) : readBool (toString b) = b := by
  cases b <;> decide

theorem readInteger_toString (n : Int32) : readInteger Int32 (toString n.toInt) = .ok n := by
  have htext : toString n.toInt = Text.integerText n := rfl
  have hread : readDecimal Int32 (Text.integerText n) = .ok n := by
    rw [readDecimal, Text.trim_integerText, Text.readInteger_integerText]
  rw [htext, readInteger, hread]

namespace Element

variable {α β : Type}

@[simp] theorem child?_nil (tag text name : String) : child? ⟨tag, text, []⟩ name = none := by
  rfl

@[simp] theorem child?_cons (tag text name : String) (c : Element) (rest : List Element) :
    child? ⟨tag, text, c :: rest⟩ name =
      if c.name = name then some c else child? ⟨tag, text, rest⟩ name := by
  unfold child?
  by_cases h : c.name = name <;> simp [h]

@[simp] theorem child?_append (tag text name : String) (xs ys : List Element) :
    child? ⟨tag, text, xs ++ ys⟩ name =
      (child? ⟨tag, text, xs⟩ name).or (child? ⟨tag, text, ys⟩ name) :=
  List.find?_append

/-- A field that may be absent is found under its own name only. -/
@[simp] theorem child?_optional (tag text name own : String) (o : Option α) (content : α → String)
    (children : α → List Element) :
    child? ⟨tag, text, o.toList.map fun a => ⟨own, content a, children a⟩⟩ name =
      if own = name then o.map fun a => ⟨own, content a, children a⟩ else none := by
  cases o with
  | none => simp
  | some a => simp

theorem require_of_child? {e c : Element} {name : String} (h : e.child? name = some c) :
    e.require name = .ok c := by
  rw [require, h]

theorem requiredText_of_childText? {e : Element} {name text : String}
    (h : e.childText? name = some text) : e.requiredText name = .ok text := by
  obtain ⟨c, hc, rfl⟩ := Option.map_eq_some_iff.1 h
  rw [requiredText, require_of_child? hc]
  rfl

theorem childText?_of_child? {e : Element} {name : String} {o : Option α} {f : α → Element}
    (h : e.child? name = o.map f) : e.childText? name = o.map fun a => (f a).text := by
  rw [childText?, h, Option.map_map]
  rfl

theorem optionalText_of_child? {e : Element} {name : String} {o : Option α} {f : α → Element}
    {read : String → Except DocumentError β} {value : α → β} (h : e.child? name = o.map f)
    (hread : ∀ a ∈ o, read (f a).text = .ok (value a)) :
    e.optionalText name read = .ok (o.map value) := by
  rw [optionalText, childText?_of_child? h]
  cases o with
  | none => rfl
  | some a =>
    rw [Option.map_some]
    simp only [hread a rfl]
    rfl

theorem optional_of_child? [FromElement β] {e : Element} {name : String} {o : Option α}
    {f : α → Element} {value : α → β} (h : e.child? name = o.map f)
    (hread : ∀ a ∈ o, ofElement (f a) = .ok (value a)) : e.optional β name = .ok (o.map value) := by
  rw [optional, h]
  cases o with
  | none => rfl
  | some a =>
    rw [Option.map_some]
    simp only [hread a rfl]
    rfl

theorem mapM_map {read : Element → Except DocumentError β} {xs : List α} {f : α → Element}
    {value : α → β} (h : ∀ a ∈ xs, read (f a) = .ok (value a)) :
    (xs.map f).mapM read = .ok (xs.map value) := by
  induction xs with
  | nil => rfl
  | cons a xs ih =>
    rw [List.map_cons, List.mapM_cons, h a (by simp), ih fun b hb => h b (by simp [hb])]
    rfl

theorem childrenNamed_of_forall {e : Element} {name : String} (h : ∀ c ∈ e.children, c.name = name) :
    e.childrenNamed name = e.children := by
  rw [childrenNamed, List.filter_eq_self]
  intro c hc
  exact decide_eq_true (h c hc)

end Element

/-! ## Whole documents -/

theorem fromXml_toXml {α : Type} [ToElements α] [FromElement α] {root : String}
    (hroot : Markup.LegalName root) {value result : α} {fields : List Element}
    (heq : toElements value = fields) (h : ∀ e ∈ fields, e.Canonical)
    (hread : ofElement ⟨root, "", fields⟩ = .ok result) :
    fromXml α (Text.encode (toXml root value)) = .ok result :=
  bind_ok (parse_toXml hroot heq h) hread

end ShareWire
