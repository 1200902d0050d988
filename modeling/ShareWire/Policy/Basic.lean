import ShareWire.Keyed
import ShareWire.Time.Instant

/-!
# Stored access policies

A share keeps access policies under identifiers. They are listed in ascending order of the
identifiers, which is the order of their bytes.
-/

namespace ShareWire

open Time (Instant)

/-- From when to when, and for what, a signed address gives access. -/
structure AccessPolicy where
  start : Option Instant
  expiry : Option Instant
  permission : Option String
deriving DecidableEq, Repr

/-- Access policies under distinct identifiers, in ascending order. -/
structure SignedIdentifiers where
  entries : List (String × AccessPolicy)
  /-- Identifiers ascend. -/
  ascending : (entries.map Prod.fst).Pairwise (· < ·)
deriving DecidableEq, Repr

namespace SignedIdentifiers

def empty : SignedIdentifiers :=
  ⟨[], List.Pairwise.nil⟩

instance : EmptyCollection SignedIdentifiers := ⟨empty⟩

def insert (s : SignedIdentifiers) (id : String) (policy : AccessPolicy) : SignedIdentifiers :=
  ⟨insertAscending id policy s.entries, ascending_insertAscending s.ascending⟩

/-- The policies of a list, of which the last one of an identifier stays. -/
def ofList (entries : List (String × AccessPolicy)) : SignedIdentifiers :=
  entries.foldl (fun s entry => s.insert entry.1 entry.2) ∅

end SignedIdentifiers

end ShareWire
