import ShareWire.Proofs.Listing.Walk
import ShareWire.Proofs.Policy.RoundTrip

/-!
# Records up to what is shown of them

Records are shown with the instants that clocks show, without the contents of files, and with their metadata
in any order. Main statements: which instants and contents are there does not matter to the order of metadata,
so that records which are shown alike are the same up to this order.
-/

namespace ShareWire

open Time (Instant)

/-! ## Instants -/

/-- Types whose values have instants inside. -/
class Dated (α : Type) where
  /-- Puts other instants in the places of those that are there. -/
  mapInstants : (Instant → Instant) → α → α
  AllInstants : (Instant → Prop) → α → Prop
  mapInstants_eq_self_iff {f : Instant → Instant} {a : α} :
    mapInstants f a = a ↔ AllInstants (fun t => f t = t) a

export Dated (mapInstants AllInstants mapInstants_eq_self_iff)

abbrev Dated.undated (α : Type) : Dated α where
  mapInstants _ a := a
  AllInstants _ _ := True
  mapInstants_eq_self_iff := iff_of_true rfl trivial

instance : Dated Instant where
  mapInstants f := f
  AllInstants P := P
  mapInstants_eq_self_iff := .rfl

instance {α : Type} [Dated α] : Dated (Option α) where
  mapInstants f o := o.map (mapInstants f)
  AllInstants P o := ∀ a ∈ o, AllInstants P a
  mapInstants_eq_self_iff {f o} := by
    cases o with
    | none => simp
    | some a => simp [mapInstants_eq_self_iff]

instance {α : Type} [Dated α] : Dated (List α) where
  mapInstants f l := l.map (mapInstants f)
  AllInstants P l := ∀ a ∈ l, AllInstants P a
  mapInstants_eq_self_iff {f l} := by
    simp only [← mapInstants_eq_self_iff]
    conv_lhs => rw [← l.map_id]
    rw [List.map_map, List.map_inj_left]
    rfl

instance : Dated AccessPolicy where
  mapInstants := AccessPolicy.mapInstants
  AllInstants := AccessPolicy.AllInstants
  mapInstants_eq_self_iff {f p} := by
    conv_lhs => rw [← p.mapInstants_id, AccessPolicy.mapInstants_mapInstants]
    exact AccessPolicy.mapInstants_eq_iff

instance : Dated SignedIdentifiers where
  mapInstants := SignedIdentifiers.mapInstants
  AllInstants := SignedIdentifiers.AllInstants
  mapInstants_eq_self_iff {f s} := by
    conv_lhs => rw [← s.mapInstants_id, SignedIdentifiers.mapInstants_mapInstants]
    exact SignedIdentifiers.mapInstants_eq_iff

instance : Dated ShareProperties where
  mapInstants f p := { p with lastModified := mapInstants f p.lastModified }
  AllInstants P p := AllInstants P p.lastModified
  mapInstants_eq_self_iff {f p} := by
    cases p
    simp [mapInstants_eq_self_iff]

instance : Dated Share where
  mapInstants f s := { s with properties := mapInstants f s.properties }
  AllInstants P s := AllInstants P s.properties
  mapInstants_eq_self_iff {f s} := by
    cases s
    simp [mapInstants_eq_self_iff]

instance : Dated ShareList where
  mapInstants f l := { l with shares := mapInstants f l.shares }
  AllInstants P l := AllInstants P l.shares
  mapInstants_eq_self_iff {f l} := by
    cases l
    simp [mapInstants_eq_self_iff]

instance : Dated FileProperties where
  mapInstants f p := { p with lastModified := mapInstants f p.lastModified }
  AllInstants P p := AllInstants P p.lastModified
  mapInstants_eq_self_iff {f p} := by
    cases p
    simp [mapInstants_eq_self_iff]

instance : Dated File where
  mapInstants g f := { f with properties := mapInstants g f.properties }
  AllInstants P f := AllInstants P f.properties
  mapInstants_eq_self_iff {g f} := by
    cases f
    simp [mapInstants_eq_self_iff]

instance : Dated Entries where
  mapInstants f e := { e with files := mapInstants f e.files }
  AllInstants P e := AllInstants P e.files
  mapInstants_eq_self_iff {f e} := by
    cases e
    simp [mapInstants_eq_self_iff]

/-! ## Contents of files -/

def File.withoutContent (f : File) : File :=
  { f with content := none }

def Entries.withoutContents (e : Entries) : Entries :=
  { e with files := e.files.map File.withoutContent }

theorem Entries.allInstants_withoutContents {P : Instant → Prop} {e : Entries} :
    AllInstants P e.withoutContents ↔ AllInstants P e :=
  List.forall_mem_map

/-! ## Orders of metadata -/

/-- A change of values has nothing to do with an equality: equal values stay equal, and if two changed values
are equal, then the second is the changed form of a value that equals the first one. -/
structure Independent {α : Type} (Same : α → α → Prop) (f : α → α) : Prop where
  symm {a b : α} : Same a b → Same b a
  map {a b : α} : Same a b → Same (f a) (f b)
  lift {a b : α} : Same (f a) (f b) → ∃ c, Same c a ∧ f c = f b

namespace Independent

variable {α : Type} {Same : α → α → Prop} {f : α → α}

theorem exists_same_iff (h : Independent Same f) {a b : α} :
    (∃ c, Same c a ∧ f c = f b) ↔ Same (f a) (f b) := by
  refine ⟨?_, h.lift⟩
  rintro ⟨c, hsame, hshown⟩
  rw [← hshown]
  exact h.symm (h.map hsame)

theorem of_eq (f : α → α) : Independent (fun a b => a = b) f where
  symm := Eq.symm
  map := congrArg f
  lift h := ⟨_, rfl, h⟩

theorem list (h : Independent Same f) : Independent (List.Forall₂ Same) (List.map f) where
  symm hsame := (hsame.imp fun _ _ => h.symm).flip
  map hsame := by
    rw [List.forall₂_map_left_iff, List.forall₂_map_right_iff]
    exact hsame.imp fun _ _ => h.map
  lift := by
    intro l m hsame
    rw [List.forall₂_map_left_iff, List.forall₂_map_right_iff] at hsame
    induction hsame with
    | nil => exact ⟨[], .nil, rfl⟩
    | cons hfirst _ ih =>
      obtain ⟨c, hc, hshown⟩ := h.lift hfirst
      obtain ⟨l', hl', hrest⟩ := ih
      exact ⟨c :: l', .cons hc hl', by rw [List.map_cons, List.map_cons, hshown, hrest]⟩

end Independent

namespace Share

theorem Same.symm {s t : Share} (h : s.Same t) : t.Same s where
  name := h.name.symm
  metadata := Metadata.Same.symm_option h.metadata
  properties := h.properties.symm

theorem independent (f : Instant → Instant) : Independent Same (mapInstants f) where
  symm := Same.symm
  map h := ⟨h.name, h.metadata, congrArg (mapInstants f) h.properties⟩
  lift {s t} h := by
    refine ⟨{ s with metadata := t.metadata }, ⟨rfl, Metadata.Same.symm_option h.metadata, rfl⟩, ?_⟩
    have hname : s.name = t.name := h.name
    have hproperties : mapInstants f s.properties = mapInstants f t.properties := h.properties
    simp only [mapInstants, hname] at hproperties ⊢
    rw [hproperties]

end Share

theorem ShareList.independent (f : Instant → Instant) : Independent Same (mapInstants f) where
  symm h := ⟨(Share.independent f).list.symm h.shares, h.nextMarker.symm⟩
  map h := ⟨(Share.independent f).list.map h.shares, h.nextMarker⟩
  lift {l m} h := by
    obtain ⟨shares, hsame, hshown⟩ := (Share.independent f).list.lift h.shares
    have hmarker : l.nextMarker = m.nextMarker := h.nextMarker
    refine ⟨{ l with shares }, ⟨hsame, rfl⟩, ?_⟩
    show ShareList.mk (shares.map (mapInstants f)) l.nextMarker = mapInstants f m
    rw [hshown, hmarker]
    rfl

namespace File

theorem independent (f : Instant → Instant) :
    Independent Same fun file => mapInstants f file.withoutContent where
  symm h := ⟨h.name.symm, h.content.symm, h.properties.symm, h.metadata.symm⟩
  map h := ⟨h.name, rfl, congrArg (mapInstants f) h.properties, h.metadata⟩
  lift {a b} h := by
    refine ⟨{ a with metadata := b.metadata }, ⟨rfl, rfl, rfl, h.metadata.symm⟩, ?_⟩
    have hname : a.name = b.name := h.name
    have hproperties : mapInstants f a.properties = mapInstants f b.properties := h.properties
    show File.mk a.name none (mapInstants f a.properties) b.metadata = mapInstants f b.withoutContent
    rw [hname, hproperties]
    rfl

end File

namespace Entries

theorem mapInstants_withoutContents (f : Instant → Instant) (e : Entries) :
    mapInstants f e.withoutContents =
      { e with files := e.files.map fun file => mapInstants f file.withoutContent } :=
  congrArg (fun files => { e with files }) List.map_map

theorem independent (f : Instant → Instant) :
    Independent Same fun e => mapInstants f e.withoutContents where
  symm h := ⟨(File.independent f).list.symm h.files, h.directories.symm, h.nextMarker.symm⟩
  map {d e} h := by
    simp only [mapInstants_withoutContents]
    exact ⟨(File.independent f).list.map h.files, h.directories, h.nextMarker⟩
  lift {d e} h := by
    simp only [mapInstants_withoutContents] at h ⊢
    obtain ⟨files, hsame, hshown⟩ := (File.independent f).list.lift h.files
    have hdirectories : d.directories = e.directories := h.directories
    have hmarker : d.nextMarker = e.nextMarker := h.nextMarker
    exact ⟨{ d with files }, ⟨hsame, rfl, rfl⟩, by rw [hshown, hdirectories, hmarker]⟩

end Entries

end ShareWire
