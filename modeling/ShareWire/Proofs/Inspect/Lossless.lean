import ShareWire.Proofs.Inspect.Record
import ShareWire.Proofs.Json.Reader
import ShareWire.Proofs.Json.Record

/-!
# What printed records say

Main statement: the text of a record is JSON, and the record is read back from it, field by field, with the
instants that clocks show. Nothing else is lost but the contents of files. A leap second inside a minute is
another instant on clocks, so that not all records come back as they are.
-/

namespace ShareWire.Inspect

open Time (Instant)

namespace Kind

instance : (kind : Kind) → FromJson kind.Record
  | .serviceProperties => inferInstanceAs (FromJson ServiceProperties)
  | .signedIdentifiers => inferInstanceAs (FromJson SignedIdentifiers)
  | .shares => inferInstanceAs (FromJson ShareList)
  | .entries => inferInstanceAs (FromJson Entries)
  | .ranges => inferInstanceAs (FromJson Ranges)
  | .shareStats => inferInstanceAs (FromJson ShareStats)

instance : (kind : Kind) → Dated kind.Record
  | .signedIdentifiers => inferInstanceAs (Dated SignedIdentifiers)
  | .shares => inferInstanceAs (Dated ShareList)
  | .entries => inferInstanceAs (Dated Entries)
  | .serviceProperties | .ranges | .shareStats => .undated _

/-- Only the records of one kind have files with contents. -/
def withoutContents : (kind : Kind) → kind.Record → kind.Record
  | .entries, (record : Entries) => record.withoutContents
  | .serviceProperties, record | .signedIdentifiers, record | .shares, record | .ranges, record
  | .shareStats, record => record

/-- What is shown of a record: what clocks show at its instants, and all else but the contents of files. -/
def shown (kind : Kind) (record : kind.Record) : kind.Record :=
  mapInstants Instant.onClock (kind.withoutContents record)

theorem ofJson?_json : (kind : Kind) → (record : kind.Record) →
    ofJson? (json record) = some (kind.shown record)
  | .serviceProperties, (record : ServiceProperties) => LawfulJson.ofJson?_json record
  | .signedIdentifiers, (record : SignedIdentifiers) => ofJson?_json_dated record
  | .shares, (record : ShareList) => ofJson?_json_dated record
  | .entries, (record : Entries) => record.ofJson?_json
  | .ranges, (record : Ranges) => LawfulJson.ofJson?_json record
  | .shareStats, (record : ShareStats) => LawfulJson.ofJson?_json record

theorem json_shown : (kind : Kind) → (record : kind.Record) → json (kind.shown record) = json record
  | .signedIdentifiers, (record : SignedIdentifiers) => json_mapInstants record
  | .shares, (record : ShareList) => json_mapInstants record
  | .entries, (record : Entries) => record.json_shown
  | .serviceProperties, _ | .ranges, _ | .shareStats, _ => rfl

theorem independent : (kind : Kind) → Independent kind.Same kind.shown
  | .shares => ShareList.independent Instant.onClock
  | .entries => Entries.independent Instant.onClock
  | .serviceProperties | .signedIdentifiers | .ranges | .shareStats => .of_eq _

theorem allInstants_withoutContents {P : Instant → Prop} : {kind : Kind} → {record : kind.Record} →
    (AllInstants P (kind.withoutContents record) ↔ AllInstants P record)
  | .entries, (_ : Entries) => Entries.allInstants_withoutContents
  | .serviceProperties, _ | .signedIdentifiers, _ | .shares, _ | .ranges, _ | .shareStats, _ => .rfl

theorem json_eq_iff {kind : Kind} {record other : kind.Record} :
    json other = json record ↔ kind.shown other = kind.shown record := by
  constructor
  · intro h
    have hread := kind.ofJson?_json other
    rw [h, kind.ofJson?_json] at hread
    exact (Option.some.inj hread).symm
  · intro h
    rw [← kind.json_shown other, h, kind.json_shown]

/-- Exactly leap seconds inside a minute are lost, besides the contents of files. -/
theorem shown_eq_iff {kind : Kind} {record : kind.Record} :
    kind.shown record = kind.withoutContents record ↔ AllInstants Instant.LeapEndsMinute record := by
  have hclock : (fun t : Instant => t.onClock = t) = Instant.LeapEndsMinute :=
    funext fun _ => propext Instant.onClock_eq_self_iff
  rw [shown, mapInstants_eq_self_iff, hclock, allInstants_withoutContents]

theorem read?_pretty (kind : Kind) (record : kind.Record) :
    (Json.read? (json record).pretty).bind ofJson? = some (kind.shown record) := by
  rw [(Json.denotes_pretty (json record)).read?, Option.bind_some, kind.ofJson?_json]

end Kind

/-- The text of a record denotes its JSON form and no other value. A reader of JSON and of the fields of
the record gets back what is shown of the record: this is the record without the contents of its files
exactly if no instant of it lies in a leap second inside a minute. What is shown of a record, up to the order
of metadata, decides whether a text is one of its texts. -/
theorem pretty_json (kind : Kind) (record : kind.Record) :
    let text := (json record).pretty
    (∀ j, Json.Denotes text j ↔ j = json record) ∧
    (Json.read? text).bind ofJson? = some (kind.shown record) ∧
    (kind.shown record = kind.withoutContents record ↔ AllInstants Instant.LeapEndsMinute record) ∧
    ∀ other : kind.Record, (∃ walked, kind.Same walked other ∧ (json walked).pretty = text) ↔
      kind.Same (kind.shown other) (kind.shown record) := by
  intro text
  have hdenotes : Json.Denotes text (json record) := Json.denotes_pretty (json record)
  have htext (walked : kind.Record) : (json walked).pretty = text ↔ kind.shown walked = kind.shown record := by
    rw [← Kind.json_eq_iff]
    constructor
    · intro h
      exact (h ▸ Json.denotes_pretty (json walked)).unique hdenotes
    · exact congrArg Json.pretty
  refine ⟨fun j => ⟨fun h => h.unique hdenotes, fun h => h ▸ hdenotes⟩, kind.read?_pretty record,
    Kind.shown_eq_iff, fun other => ?_⟩
  simp only [htext]
  exact kind.independent.exists_same_iff

/-- A policy that begins in a leap second inside a minute is read back with the second that follows. -/
theorem pretty_json_inside_minute :
    let policies (start : Instant) : SignedIdentifiers :=
      ⟨[("a", ⟨some start, none, none⟩)], List.pairwise_singleton _ _⟩
    let record := policies ⟨86164, 1333333333, by decide, by decide, by decide⟩
    (Json.read? (json record).pretty).bind ofJson? =
      some (policies ⟨86165, 333333333, by decide, by decide, by decide⟩) ∧
    (Json.read? (json record).pretty).bind ofJson? ≠ some record := by
  intro policies record
  have hread : (Json.read? (json record).pretty).bind ofJson? =
      some (SignedIdentifiers.mapInstants Instant.onClock record) :=
    Kind.read?_pretty .signedIdentifiers record
  have hshown : SignedIdentifiers.mapInstants Instant.onClock record =
      policies ⟨86165, 333333333, by decide, by decide, by decide⟩ := by
    decide +kernel
  have hinside : policies ⟨86165, 333333333, by decide, by decide, by decide⟩ ≠ record := by
    decide +kernel
  rw [hshown] at hread
  exact ⟨hread, fun h => hinside (Option.some.inj (hread.symm.trans h))⟩

end ShareWire.Inspect
