import ShareWire.Policy.Encode
import ShareWire.Proofs.Document.Field
import ShareWire.Proofs.Document.Outline

/-!
# Trees of stored access policies

The tree that access policies denote, written out, as for the settings of a service.
-/

namespace ShareWire

open Element (outlineAll outlineAll_append outlineAll_map outlineAll_leaf outline_congr)

/-! ## Single policies -/

namespace AccessPolicy

def fields (p : AccessPolicy) : List Element :=
  (p.start.toList.map fun t => ⟨"Start", t.isoSeconds, []⟩) ++
    (p.expiry.toList.map fun t => ⟨"Expiry", t.isoSeconds, []⟩) ++
    (p.permission.toList.map fun s => ⟨"Permission", s, []⟩)

def presence (p : AccessPolicy) : Bool × Bool × Bool :=
  (p.start.isSome, p.expiry.isSome, p.permission.isSome)

theorem toElements_eq (p : AccessPolicy) : toElements p = p.fields := by
  simp only [fields, ← Option.toList_map]
  rfl

theorem canonical_of_mem_fields (p : AccessPolicy) : ∀ e ∈ p.fields, e.Canonical := by
  intro e he
  simp only [fields, List.mem_append, List.mem_map] at he
  rcases he with (⟨t, _, rfl⟩ | ⟨t, _, rfl⟩) | ⟨s, _, rfl⟩ <;> exact .leaf (by decide) _

theorem outline_fields {p q : AccessPolicy} (h : p.presence = q.presence) :
    outlineAll p.fields = outlineAll q.fields := by
  simp only [presence, Prod.mk.injEq] at h
  obtain ⟨hstart, hexpiry, hpermission⟩ := h
  simp only [fields, outlineAll_append]
  rw [outlineAll_leaf _ _ hstart, outlineAll_leaf _ _ hexpiry, outlineAll_leaf _ _ hpermission]

end AccessPolicy

/-! ## Policies under identifiers -/

namespace SignedIdentifiers

def entryTree (entry : String × AccessPolicy) : Element :=
  ⟨"SignedIdentifier", "", [⟨"Id", entry.1, []⟩, ⟨"AccessPolicy", "", entry.2.fields⟩]⟩

/-- The children that policies under identifiers denote, in ascending order of the identifiers. -/
def fields (s : SignedIdentifiers) : List Element :=
  s.entries.map entryTree

def presence (s : SignedIdentifiers) : List (Bool × Bool × Bool) :=
  s.entries.map fun entry => entry.2.presence

theorem entryElement_eq (entry : String × AccessPolicy) : entryElement entry = entryTree entry := by
  rw [entryElement, entryTree, Element.record_eq AccessPolicy.toElements_eq]
  rfl

theorem toElements_eq (s : SignedIdentifiers) : toElements s = s.fields :=
  List.map_congr_left fun entry _ => entryElement_eq entry

theorem canonical_of_mem_fields (s : SignedIdentifiers) : ∀ e ∈ s.fields, e.Canonical := by
  intro e he
  obtain ⟨entry, _, rfl⟩ := List.mem_map.1 he
  refine .intro (by decide) (fun _ => rfl) fun c hc => ?_
  simp only [List.mem_cons, List.not_mem_nil, or_false] at hc
  rcases hc with rfl | rfl
  · exact .leaf (by decide) entry.1
  · exact .intro (by decide) (fun _ => rfl) entry.2.canonical_of_mem_fields

theorem outline_fields {s t : SignedIdentifiers} (h : s.presence = t.presence) :
    outlineAll s.fields = outlineAll t.fields := by
  refine outlineAll_map (fun a b hab => outline_congr ?_ _ _ _) h
  simp only [outlineAll, Element.outline, AccessPolicy.outline_fields hab]

end SignedIdentifiers

end ShareWire
