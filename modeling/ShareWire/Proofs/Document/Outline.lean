import ShareWire.Document.Element

/-!
# Outlines

The names and the nesting of a tree, without its texts.
-/

namespace ShareWire.Element

mutual

def outline : Element → Element
  | ⟨name, _, children⟩ => { name, children := outlineAll children }

def outlineAll : List Element → List Element
  | [] => []
  | e :: rest => e.outline :: outlineAll rest

end

theorem outline_congr {xs ys : List Element} (h : outlineAll xs = outlineAll ys)
    (name text text' : String) : outline ⟨name, text, xs⟩ = outline ⟨name, text', ys⟩ := by
  rw [outline, outline, h]

theorem outlineAll_append (xs ys : List Element) :
    outlineAll (xs ++ ys) = outlineAll xs ++ outlineAll ys := by
  induction xs with
  | nil => rfl
  | cons e rest ih => rw [List.cons_append, outlineAll, ih, outlineAll, List.cons_append]

/-- If a part of the values fixes the outlines of their elements, then the list of these parts fixes
the outlines of a list of elements. -/
theorem outlineAll_map {α σ : Type} {part : α → σ} {f : α → Element}
    (hf : ∀ a b, part a = part b → (f a).outline = (f b).outline) {xs ys : List α}
    (h : xs.map part = ys.map part) : outlineAll (xs.map f) = outlineAll (ys.map f) := by
  induction xs generalizing ys with
  | nil =>
    obtain rfl : ys = [] := List.map_eq_nil_iff.1 h.symm
    rfl
  | cons x xs ih =>
    cases ys with
    | nil => simp at h
    | cons y ys =>
      obtain ⟨hhead, htail⟩ := List.cons.inj h
      rw [List.map_cons, List.map_cons, outlineAll, outlineAll, hf x y hhead, ih htail]

theorem outlineAll_map_of_length {α : Type} {f : α → Element}
    (hf : ∀ a b, (f a).outline = (f b).outline) {xs ys : List α} (h : xs.length = ys.length) :
    outlineAll (xs.map f) = outlineAll (ys.map f) := by
  have hparts : xs.map (fun _ => ()) = ys.map fun _ => () := by
    rw [List.map_const', List.map_const', h]
  exact outlineAll_map (fun a b _ => hf a b) hparts

theorem outlineAll_optional {α σ : Type} {part : α → σ} {f : α → Element}
    (hf : ∀ a b, part a = part b → (f a).outline = (f b).outline) {o p : Option α}
    (h : o.map part = p.map part) : outlineAll (o.toList.map f) = outlineAll (p.toList.map f) := by
  have hparts : o.toList.map part = p.toList.map part := by
    rw [← Option.toList_map, ← Option.toList_map, h]
  exact outlineAll_map hf hparts

theorem outlineAll_leaf {α : Type} (name : String) (text : α → String) {o p : Option α}
    (h : o.isSome = p.isSome) :
    outlineAll (o.toList.map fun a => ⟨name, text a, []⟩) =
      outlineAll (p.toList.map fun a => ⟨name, text a, []⟩) := by
  have hlength : o.toList.length = p.toList.length := by
    rw [Option.length_toList, Option.length_toList, h]
  exact outlineAll_map_of_length (fun _ _ => by simp only [outline]) hlength

end ShareWire.Element
