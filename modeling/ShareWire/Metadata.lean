import ShareWire.Keyed

/-!
# Metadata

Texts that users attach to a resource, each under a name of its own. The entries have no order of their own:
two metadata are the same however they are walked.
-/

namespace ShareWire

/-- Entries under distinct names, in the order in which they are walked. -/
structure Metadata where
  entries : List (String × String)
  nodup : (entries.map Prod.fst).Nodup
deriving DecidableEq, Repr

namespace Metadata

def empty : Metadata :=
  ⟨[], List.nodup_nil⟩

instance : EmptyCollection Metadata := ⟨empty⟩

instance : Inhabited Metadata := ⟨empty⟩

def insert (m : Metadata) (name text : String) : Metadata :=
  ⟨upsert name text m.entries, nodup_upsert m.nodup⟩

def erase (m : Metadata) (name : String) : Metadata where
  entries := m.entries.filter fun entry => entry.1 ≠ name
  nodup := m.nodup.sublist (List.filter_sublist.map _)

/-- Whether the entries are the same ones, in whatever order. -/
def Same (m n : Metadata) : Prop :=
  m.entries.Perm n.entries

def get? (m : Metadata) (name : String) : Option String :=
  m.entries.lookup name

/-- The entries of a list, of which the last one of a name stays. -/
def ofList (entries : List (String × String)) : Metadata :=
  entries.foldl (fun m entry => m.insert entry.1 entry.2) ∅

end Metadata

end ShareWire
