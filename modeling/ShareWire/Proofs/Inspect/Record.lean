import ShareWire.Inspect.Kind
import ShareWire.Proofs.Listing.Walk

/-!
# The record of a kind

Each kind of document is read as records of one type, whose metadata are walked in some order when they are
shown. Two of the kinds are read from their bodies, the others by way of a response that carries the body; the
way makes no difference.
-/

namespace ShareWire.Inspect

open Http (Response)

namespace Kind

/-- What documents of a kind are read as. -/
def Record : Kind → Type
  | .serviceProperties => ServiceProperties
  | .signedIdentifiers => SignedIdentifiers
  | .shares => ShareList
  | .entries => Entries
  | .ranges => Ranges
  | .shareStats => ShareStats

instance : (kind : Kind) → FromElement kind.Record
  | .serviceProperties => inferInstanceAs (FromElement ServiceProperties)
  | .signedIdentifiers => inferInstanceAs (FromElement SignedIdentifiers)
  | .shares => inferInstanceAs (FromElement ShareList)
  | .entries => inferInstanceAs (FromElement Entries)
  | .ranges => inferInstanceAs (FromElement Ranges)
  | .shareStats => inferInstanceAs (FromElement ShareStats)

instance : (kind : Kind) → HasJson kind.Record
  | .serviceProperties => inferInstanceAs (HasJson ServiceProperties)
  | .signedIdentifiers => inferInstanceAs (HasJson SignedIdentifiers)
  | .shares => inferInstanceAs (HasJson ShareList)
  | .entries => inferInstanceAs (HasJson Entries)
  | .ranges => inferInstanceAs (HasJson Ranges)
  | .shareStats => inferInstanceAs (HasJson ShareStats)

/-- The record with its metadata walked in an order. -/
def walked : (kind : Kind) → WalkOrder → kind.Record → kind.Record
  | .shares, order, (record : ShareList) => record.walked order
  | .entries, order, (record : Entries) => record.walked order
  | .serviceProperties, _, record | .signedIdentifiers, _, record | .ranges, _, record
  | .shareStats, _, record => record

/-- Equality of records, which does not see the order of metadata. -/
def Same : (kind : Kind) → kind.Record → kind.Record → Prop
  | .shares => ShareList.Same
  | .entries => Entries.Same
  | .serviceProperties | .signedIdentifiers | .ranges | .shareStats => fun record other => record = other

theorem exists_walked_iff : {kind : Kind} → {record other : kind.Record} →
    ((∃ order, kind.walked order record = other) ↔ kind.Same other record)
  | .shares, (_ : ShareList), (_ : ShareList) => ShareList.exists_walked_iff
  | .entries, (_ : Entries), (_ : Entries) => Entries.exists_walked_iff
  | .serviceProperties, _, _ | .signedIdentifiers, _, _ | .ranges, _, _ | .shareStats, _, _ =>
    ⟨fun ⟨_, h⟩ => h.symm, fun h => ⟨.kept, h.symm⟩⟩

end Kind

section

variable {α : Type} [FromElement α] [HasJson α] {body : Bytes}

theorem documentJson_ok {record : α} (h : fromXml α body = .ok record) :
    documentJson α body = .ok (json record) := by
  rw [documentJson, h]

theorem documentJson_error {fault : DocumentError} (h : fromXml α body = .error fault) :
    documentJson α body = .error (.exchange (.document fault)) := by
  rw [documentJson, h]

variable {response : Response} (hbody : response.body = some body) (walk : α → α)
include hbody

/-- A response that has a body is read like the body, whatever else it says. -/
theorem outcomeJson_read_ok {record : α} (h : fromXml α body = .ok record) :
    outcomeJson walk (response.read α) = .ok (json (walk record)) := by
  rw [Response.read, hbody]
  simp only [h]
  rfl

theorem outcomeJson_read_error {fault : DocumentError} (h : fromXml α body = .error fault) :
    outcomeJson walk (response.read α) = .error (.exchange (.document fault)) := by
  rw [Response.read, hbody]
  simp only [h]
  rfl

end

namespace Kind

variable {kind : Kind} {body : Bytes}

theorem readJson_ok {record : kind.Record} (h : fromXml kind.Record body = .ok record)
    (order : WalkOrder) : kind.readJson body order = .ok (json (kind.walked order record)) := by
  cases kind with
  | serviceProperties | signedIdentifiers => exact documentJson_ok h
  | shares | entries | ranges | shareStats => exact outcomeJson_read_ok rfl _ h

theorem readJson_error {fault : DocumentError} (h : fromXml kind.Record body = .error fault)
    (order : WalkOrder) : kind.readJson body order = .error (.exchange (.document fault)) := by
  cases kind with
  | serviceProperties | signedIdentifiers => exact documentJson_error h
  | shares | entries | ranges | shareStats => exact outcomeJson_read_error rfl _ h

theorem readJson_ne_noBody (kind : Kind) (body : Bytes) (order : WalkOrder) :
    kind.readJson body order ≠ .error .noBody := by
  cases h : fromXml kind.Record body with
  | ok record => rw [readJson_ok h]; exact nofun
  | error fault => rw [readJson_error h]; exact nofun

end Kind

end ShareWire.Inspect
