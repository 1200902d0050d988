import ShareWire.Document.Encode
import ShareWire.Proofs.Document.Rendering

/-!
# Canonical documents

The documents that the writer makes are renderings of their trees, whatever the texts hold: no text
can open or close a tag. Main statement: a tree whose text is all in its leaves comes back unchanged.
-/

namespace ShareWire

open Text (encode)
open Markup

/-- Trees that a document can hold unchanged: all names are legal, and only leaves have text. -/
inductive Element.Canonical : Element → Prop where
  | intro {name text : String} {children : List Element} : LegalName name →
      (children ≠ [] → text = "") → (∀ c ∈ children, Canonical c) → Canonical ⟨name, text, children⟩

theorem Element.Canonical.leaf {name : String} (hname : LegalName name) (text : String) :
    Canonical (leaf name text) :=
  .intro hname (fun h => absurd rfl h) (by simp)

/-! ## Indentation -/

theorem Element.settledAll_eq_self {es : List Element} (h : ∀ e ∈ es, e.settled = e) :
    settledAll es = es := by
  induction es with
  | nil => rfl
  | cons e rest ih =>
    rw [settledAll, h e (by simp), ih fun c hc => h c (by simp [hc])]

theorem Element.Canonical.settled_eq_self {e : Element} (h : e.Canonical) : e.settled = e := by
  induction h with
  | @intro name text children _ htext _ ih =>
    rw [settled, settledAll_eq_self ih]
    by_cases hchildren : children = []
    · simp [hchildren]
    · rw [htext hchildren, ite_self]

/-! ## Writing -/

/-- What is written for a character stands for that character, also where markup uses it. -/
theorem piece_escapeChar (c : Char) :
    Piece (.singleton c) (encode (.ofList (escapeChar c))) := by
  unfold escapeChar
  split
  · next h => subst h; exact @Piece.entity "lt" '<' (by decide)
  split
  · next h => subst h; exact @Piece.entity "gt" '>' (by decide)
  split
  · next h => subst h; exact @Piece.entity "amp" '&' (by decide)
  split
  · next h => subst h; exact @Piece.entity "apos" '\x27' (by decide)
  split
  · next h => subst h; exact @Piece.entity "quot" '\x22' (by decide)
  · next hlt _ hamp _ _ =>
    have hc : ∀ d ∈ (String.singleton c).toList, d ≠ '<' ∧ d ≠ '&' := by
      intro d hd
      obtain rfl : d = c := by simpa using hd
      exact ⟨hlt, hamp⟩
    exact .literal hc

/-- An escaped text in front of content is content with that text. -/
theorem Content.escapeText (s : String) {children : List Element} {rest : Bytes}
    (h : Content "" children rest) : Content s children (encode (escapeText s) ++ rest) := by
  -- Every character is a piece of its own, whether it is escaped or not.
  have hchars : ∀ cs : List Char,
      Content (.ofList cs) children (encode (.ofList (cs.flatMap escapeChar)) ++ rest) := by
    intro cs
    induction cs with
    | nil => exact h
    | cons c cs ih =>
      rw [List.flatMap_cons, Text.encode_ofList_append, List.append_assoc, String.ofList_cons]
      exact .piece (piece_escapeChar c) ih
  have hs := hchars s.toList
  rw [String.ofList_toList] at hs
  exact hs

theorem Content.renderAll {es : List Element} (h : ∀ e ∈ es, Written e (encode e.render)) :
    Content "" es (encode (Element.renderAll es)) := by
  induction es with
  | nil => exact .nil
  | cons e rest ih =>
    rw [Element.renderAll, Text.encode_append]
    exact .child (h e (by simp)) (ih fun c hc => h c (by simp [hc]))

theorem Element.Canonical.written {e : Element} (h : e.Canonical) : Written e (encode e.render) := by
  induction h with
  | @intro name text children hname _ _ ih =>
    have hcontent := (Content.renderAll ih).escapeText text
    have hopen : encode "<" = [angleOpen] := rfl
    have hclose : encode ">" = [angleClose] := rfl
    have hend : encode "</" = [angleOpen, slash] := rfl
    have hrender : encode (render ⟨name, text, children⟩) =
        [angleOpen] ++ encode name ++ [] ++ [angleClose] ++
          (encode (escapeText text) ++ encode (renderAll children)) ++
          ([angleOpen, slash] ++ encode name ++ [] ++ [angleClose]) := by
      simp only [render, Text.encode_append, hopen, hclose, hend, List.append_assoc, List.append_nil]
    rw [hrender]
    exact .tagged hname .nil (by simp) hcontent (by simp)

theorem prolog_xmlDeclaration : Prolog (encode xmlDeclaration) := by
  have hbytes : encode xmlDeclaration = [angleOpen, questionMark] ++
      encode "xml version=\"1.0\" encoding=\"utf-8\"" ++ instructionEnd ++ [] := by
    decide +kernel
  rw [hbytes]
  exact .declaration (by decide +kernel) (by decide +kernel) .nil

/-- A canonical tree is read from its document unchanged. -/
theorem Element.Canonical.parse_document {root : Element} (h : root.Canonical) :
    Element.parse (encode root.document) = .ok root := by
  have hread := h.written.parse prolog_xmlDeclaration .nil
  rw [List.append_nil, ← Text.encode_append, h.settled_eq_self] at hread
  exact hread

theorem parse_toXml {α : Type} [ToElements α] {root : String} (hroot : LegalName root) {value : α}
    {fields : List Element} (heq : toElements value = fields) (h : ∀ e ∈ fields, e.Canonical) :
    Element.parse (encode (toXml root value)) = .ok ⟨root, "", fields⟩ := by
  have hcanonical : Element.Canonical ⟨root, "", fields⟩ := .intro hroot (fun _ => rfl) h
  have hread := hcanonical.parse_document
  rw [← heq] at hread ⊢
  exact hread

end ShareWire
