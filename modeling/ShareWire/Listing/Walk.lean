import ShareWire.Listing.Basic

/-!
# Walks through listings

Nothing in a document decides in which order the metadata of an item is walked. The orders differ between the
items of a listing, and between runs on the same document.
-/

namespace ShareWire

/-- The orders in which the metadata of items are walked, by the places of the items in their list. -/
structure WalkOrder where
  walk : Nat → Metadata → Metadata
  /-- A walk meets all entries, and each of them once. -/
  same (place : Nat) (m : Metadata) : (walk place m).Same m

def WalkOrder.kept : WalkOrder where
  walk _ m := m
  same _ m := .refl m.entries

def ShareList.walked (order : WalkOrder) (l : ShareList) : ShareList :=
  { l with shares := l.shares.mapIdx fun place share =>
      { share with metadata := share.metadata.map (order.walk place) } }

def Entries.walked (order : WalkOrder) (e : Entries) : Entries :=
  { e with files := e.files.mapIdx fun place file =>
      { file with metadata := order.walk place file.metadata } }

end ShareWire
