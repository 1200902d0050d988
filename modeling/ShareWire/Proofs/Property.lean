import Mathlib.Logic.Function.Basic
import ShareWire.Http.Extract
import ShareWire.Property.Record

/-!
# Records of reported texts

For each kind of record, the record that texts of properties stand for. Putting the value of a text into
its place gives the record of the texts with this one among them: no record lets go of a value that it has
a place for, or puts it into another place.
-/

namespace ShareWire

open Http (convert)
open Time (Instant)

def integer? (text : String) : Option Int64 :=
  (readDecimal Int64 text).toOption

def instant? (text : String) : Option Instant :=
  (Instant.ofText text).toOption

theorem convert_cases {p : Property} {text : String} {value : PropertyValue}
    (h : convert p text = .ok value) :
    p.conversion = .text ∧ value = .text text ∨
      (p.conversion = .integer ∧ ∃ n, integer? text = some n ∧ value = .integer n) ∨
      p.conversion = .timestamp ∧ ∃ t, instant? text = some t ∧ value = .timestamp t := by
  unfold convert at h
  split at h
  · next hp =>
    cases h
    exact .inl ⟨hp, rfl⟩
  · next hp =>
    split at h
    · next n hn =>
      cases h
      exact .inr (.inl ⟨hp, n, by rw [integer?, hn]; rfl, rfl⟩)
    · contradiction
  · next hp =>
    split at h
    · next t ht =>
      cases h
      exact .inr (.inr ⟨hp, t, by rw [instant?, ht]; rfl, rfl⟩)
    · contradiction

/-- Records in which each place has the value of the text of its property. -/
class ReportedRecord (α : Type) [PropertyRecord α] where
  reported (text? : Property → Option String) : α
  reported_none : reported (fun _ => none) = PropertyRecord.blank
  assign_reported {text? : Property → Option String} {p : Property} {text : String}
    {value : PropertyValue} : convert p text = .ok value →
      PropertyRecord.assign (reported text?) p value = reported (Function.update text? p (some text))

def ContentSettings.reported (text? : Property → Option String) : ContentSettings where
  contentType := text? .contentType
  contentEncoding := text? .contentEncoding
  contentLanguage := text? .contentLanguage
  contentDisposition := text? .contentDisposition
  cacheControl := text? .cacheControl
  contentMd5 := text? .contentMd5

def LeaseProperties.reported (text? : Property → Option String) : LeaseProperties where
  status := text? .leaseStatus
  state := text? .leaseState
  duration := text? .leaseDuration

def CopyProperties.reported (text? : Property → Option String) : CopyProperties where
  id := text? .copyId
  source := text? .copySource
  status := text? .copyStatus
  progress := text? .copyProgress
  completionTime := text? .copyCompletionTime
  statusDescription := text? .copyStatusDescription

def BlobProperties.reported (text? : Property → Option String) : BlobProperties where
  blobType := text? .blobType
  lastModified := (text? .lastModified).bind instant?
  etag := text? .etag
  contentLength := (text? .contentLength).bind integer?
  contentSettings := .reported text?
  lease := .reported text?
  copy := .reported text?
  pageBlobSequenceNumber := (text? .pageBlobSequenceNumber).bind integer?
  appendBlobCommittedBlockCount := (text? .appendBlobCommittedBlockCount).bind integer?

def FileProperties.reported (text? : Property → Option String) : FileProperties where
  lastModified := (text? .lastModified).bind instant?
  etag := text? .etag
  contentLength := (text? .contentLength).bind integer?
  contentSettings := .reported text?
  copy := .reported text?

def ShareProperties.reported (text? : Property → Option String) : ShareProperties where
  lastModified := (text? .lastModified).bind instant?
  etag := text? .etag

def DirectoryProperties.reported (text? : Property → Option String) : DirectoryProperties where
  lastModified := (text? .lastModified).bind instant?
  etag := text? .etag

variable {text? : Property → Option String} {p : Property} {text : String} {value : PropertyValue}

-- The conversion of the property is split first: it fixes the form of the value, and with it the branch
-- that `assign` takes.

theorem BlobProperties.assign_reported (h : convert p text = .ok value) :
    (reported text?).assign p value = reported (Function.update text? p (some text)) := by
  rcases convert_cases h with ⟨hp, rfl⟩ | ⟨hp, n, hn, rfl⟩ | ⟨hp, t, ht, rfl⟩
  · cases p <;> cases hp <;> rfl
  · cases p <;> cases hp <;> (simp only [assign, ← hn]; rfl)
  · cases p <;> cases hp
    simp only [assign, ← ht]
    rfl

theorem FileProperties.assign_reported (h : convert p text = .ok value) :
    (reported text?).assign p value = reported (Function.update text? p (some text)) := by
  rcases convert_cases h with ⟨hp, rfl⟩ | ⟨hp, n, hn, rfl⟩ | ⟨hp, t, ht, rfl⟩
  · cases p <;> cases hp <;> rfl
  · cases p <;> cases hp <;> (simp only [assign, ← hn]; rfl)
  · cases p <;> cases hp
    simp only [assign, ← ht]
    rfl

theorem ShareProperties.assign_reported (h : convert p text = .ok value) :
    (reported text?).assign p value = reported (Function.update text? p (some text)) := by
  rcases convert_cases h with ⟨hp, rfl⟩ | ⟨hp, n, hn, rfl⟩ | ⟨hp, t, ht, rfl⟩
  · cases p <;> cases hp <;> rfl
  · cases p <;> cases hp <;> rfl
  · cases p <;> cases hp
    simp only [assign, ← ht]
    rfl

theorem DirectoryProperties.assign_reported (h : convert p text = .ok value) :
    (reported text?).assign p value = reported (Function.update text? p (some text)) := by
  rcases convert_cases h with ⟨hp, rfl⟩ | ⟨hp, n, hn, rfl⟩ | ⟨hp, t, ht, rfl⟩
  · cases p <;> cases hp <;> rfl
  · cases p <;> cases hp <;> rfl
  · cases p <;> cases hp
    simp only [assign, ← ht]
    rfl

instance : ReportedRecord BlobProperties where
  reported := BlobProperties.reported
  reported_none := rfl
  assign_reported := BlobProperties.assign_reported

instance : ReportedRecord FileProperties where
  reported := FileProperties.reported
  reported_none := rfl
  assign_reported := FileProperties.assign_reported

instance : ReportedRecord ShareProperties where
  reported := ShareProperties.reported
  reported_none := rfl
  assign_reported := ShareProperties.assign_reported

instance : ReportedRecord DirectoryProperties where
  reported := DirectoryProperties.reported
  reported_none := rfl
  assign_reported := DirectoryProperties.assign_reported

end ShareWire
