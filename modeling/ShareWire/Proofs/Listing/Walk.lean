import Mathlib.Data.List.Forall2
import Mathlib.Data.List.Perm.Basic
import ShareWire.Listing.Walk

/-!
# Listings up to the order of metadata

Two listings are the same if they are equal but for the order of metadata. Main statements: the listings that
are the same as a given one are those that walks through it can give.
-/

namespace ShareWire

/-! ## Metadata -/

namespace Metadata

instance (m n : Metadata) : Decidable (m.Same n) :=
  inferInstanceAs (Decidable (m.entries.Perm n.entries))

namespace Same

theorem refl (m : Metadata) : m.Same m :=
  List.Perm.refl m.entries

theorem symm {m n : Metadata} (h : m.Same n) : n.Same m :=
  List.Perm.symm h

theorem symm_option {o o' : Option Metadata} (h : Option.Rel Metadata.Same o o') :
    Option.Rel Metadata.Same o' o := by
  cases h with
  | some h => exact .some h.symm
  | none => exact .none

end Same

end Metadata

/-! ## Items in lists -/

theorem forall₂_mapIdx {α : Type} {Same : α → α → Prop} {f : Nat → α → α}
    (h : ∀ place a, Same (f place a) a) (l : List α) : List.Forall₂ Same (l.mapIdx f) l := by
  induction l generalizing f with
  | nil => exact .nil
  | cons a l ih =>
    rw [List.mapIdx_cons]
    exact .cons (h 0 a) (ih fun place b => h (place + 1) b)

theorem mapIdx_eq_of_forall₂ {α : Type} {Same : α → α → Prop} {f : Nat → α → α} {l m : List α}
    (hlm : List.Forall₂ Same m l) (h : ∀ place a b, m[place]? = some b → Same b a → f place a = b) :
    l.mapIdx f = m := by
  induction hlm generalizing f with
  | nil => rfl
  | cons hfirst _ ih =>
    rw [List.mapIdx_cons, h 0 _ _ rfl hfirst, ih fun place a b hb => h (place + 1) a b hb]

/-! ## Walks -/

namespace WalkOrder

/-- The order that meets the entries as the target at the place has them, where that is the same metadata. -/
def toward (target : Nat → Option Metadata) : WalkOrder where
  walk place m := ((target place).filter fun n => n.Same m).getD m
  same place m := by
    cases hfilter : (target place).filter fun n => n.Same m with
    | none => exact .refl m
    | some n => simpa using (Option.filter_eq_some_iff.1 hfilter).2

variable {target : Nat → Option Metadata} {place : Nat}

theorem walk_toward {m n : Metadata} (htarget : target place = some n) (h : n.Same m) :
    (toward target).walk place m = n := by
  show ((target place).filter fun n => n.Same m).getD m = n
  rw [htarget, Option.filter_some, if_pos (decide_eq_true h), Option.getD_some]

theorem map_walk_toward {o o' : Option Metadata} (htarget : target place = o')
    (h : Option.Rel Metadata.Same o' o) : o.map ((toward target).walk place) = o' := by
  cases h with
  | none => rfl
  | some h => rw [Option.map_some, walk_toward htarget h]

end WalkOrder

/-- Equal shares, the order of their metadata aside. -/
structure Share.Same (s t : Share) : Prop where
  name : s.name = t.name
  metadata : Option.Rel Metadata.Same s.metadata t.metadata
  properties : s.properties = t.properties

structure ShareList.Same (l m : ShareList) : Prop where
  shares : List.Forall₂ Share.Same l.shares m.shares
  nextMarker : l.nextMarker = m.nextMarker

theorem ShareList.exists_walked_iff {l other : ShareList} :
    (∃ order, l.walked order = other) ↔ other.Same l := by
  constructor
  · rintro ⟨order, rfl⟩
    refine ⟨forall₂_mapIdx (fun place share => ⟨rfl, ?_, rfl⟩) l.shares, rfl⟩
    show Option.Rel Metadata.Same (share.metadata.map (order.walk place)) share.metadata
    cases share.metadata with
    | none => exact .none
    | some m => exact .some (order.same place m)
  · intro h
    let target (place : Nat) := other.shares[place]?.bind Share.metadata
    refine ⟨.toward target, congrArg₂ mk ?_ h.nextMarker.symm⟩
    refine mapIdx_eq_of_forall₂ h.shares fun place share walked hplace hsame => ?_
    have htarget : target place = walked.metadata := by simp only [target, hplace, Option.bind_some]
    rw [WalkOrder.map_walk_toward htarget hsame.metadata, ← hsame.name, ← hsame.properties]

structure File.Same (f g : File) : Prop where
  name : f.name = g.name
  content : f.content = g.content
  properties : f.properties = g.properties
  metadata : f.metadata.Same g.metadata

structure Entries.Same (d e : Entries) : Prop where
  files : List.Forall₂ File.Same d.files e.files
  directories : d.directories = e.directories
  nextMarker : d.nextMarker = e.nextMarker

theorem Entries.exists_walked_iff {e other : Entries} :
    (∃ order, e.walked order = other) ↔ other.Same e := by
  constructor
  · rintro ⟨order, rfl⟩
    exact ⟨forall₂_mapIdx (fun place file => ⟨rfl, rfl, rfl, order.same place file.metadata⟩) e.files,
      rfl, rfl⟩
  · intro h
    let target (place : Nat) := other.files[place]?.map File.metadata
    have hfiles : (e.walked (.toward target)).files = other.files := by
      refine mapIdx_eq_of_forall₂ h.files fun place file walked hplace hsame => ?_
      have htarget : target place = some walked.metadata := by
        simp only [target, hplace, Option.map_some]
      rw [WalkOrder.walk_toward htarget hsame.metadata, ← hsame.name, ← hsame.content,
        ← hsame.properties]
    refine ⟨.toward target, ?_⟩
    show mk (e.walked (.toward target)).files e.directories e.nextMarker = other
    rw [hfiles, ← h.directories, ← h.nextMarker]

end ShareWire
