import ShareWire.Proofs.Fallible
import ShareWire.Proofs.Http.Walk
import ShareWire.Proofs.Metadata
import ShareWire.Proofs.Property
import ShareWire.Proofs.Text.Utf8

/-!
# What headers say

The records and the metadata that headers report, as a table from header names to values; and which
fields can be read, and which are at fault. The table of properties agrees with it, so each field that
is read takes its part of the table.
-/

namespace ShareWire.Http

open Text (encode)
open Time (Instant)

/-! ## Names that report something -/

def instantHeader : String := "last-modified"

def integerHeaders : List String :=
  ["content-length", "x-ms-blob-sequence-number", "x-ms-blob-committed-block-count"]

def textHeaders : List String :=
  ["etag", "x-ms-blob-type", "content-type", "cache-control", "content-encoding",
    "content-disposition", "content-language", "content-md5", "x-ms-lease-status",
    "x-ms-lease-state", "x-ms-lease-duration", "x-ms-copy-id", "x-ms-copy-source",
    "x-ms-copy-status", "x-ms-copy-progress", "x-ms-copy-completion-time",
    "x-ms-copy-status-description"]

def mappedHeaders : List String :=
  instantHeader :: (integerHeaders ++ textHeaders)

/-- Whether a header of a name reports metadata or a property. -/
def Reports (name : String) : Prop :=
  (∃ key, name = metadataMark ++ key) ∨ name ∈ mappedHeaders

/-- A field whose value can be read, if it has to be. -/
def Readable (field : HeaderName × HeaderValue) : Prop :=
  Reports field.1.text → ∃ s, field.2.bytes = encode s ∧
    (field.1.text ∈ integerHeaders → ∃ n, readDecimal Int64 s = .ok n) ∧
    (field.1.text = instantHeader → ∃ t, Instant.ofText s = .ok t)

/-- A field that has to be read and cannot be, and why. -/
inductive Offends : HeaderName × HeaderValue → HeaderFault → Prop where
  | notUtf8 {field : HeaderName × HeaderValue} {fault : Text.Utf8Error} : Reports field.1.text →
      field.2.text = .error fault → Offends field (.notUtf8 fault)
  | integer {field : HeaderName × HeaderValue} {s : String} {fault : Text.IntegerFault} :
      field.1.text ∈ integerHeaders → field.2.bytes = encode s → readDecimal Int64 s = .error fault →
      Offends field (.integer s fault)
  | timestamp {field : HeaderName × HeaderValue} {s : String} {fault : Time.PatternFault} :
      field.1.text = instantHeader → field.2.bytes = encode s → Instant.ofText s = .error fault →
      Offends field (.timestamp s fault)

/-! ## Tables -/

namespace Headers

/-- The text of the last value of a header. -/
def lastText? (h : Headers) (name : String) : Option String :=
  (h.fields.filter fun field => field.1.text = name).getLast?.bind fun field => field.2.text.toOption

def lastInteger? (h : Headers) (name : String) : Option Int64 :=
  (h.lastText? name).bind fun s => (readDecimal Int64 s).toOption

def lastInstant? (h : Headers) (name : String) : Option Instant :=
  (h.lastText? name).bind fun s => (Instant.ofText s).toOption

end Headers

end ShareWire.Http

namespace ShareWire

open Http (Headers)

def ContentSettings.ofHeaders (h : Headers) : ContentSettings where
  contentType := h.lastText? "content-type"
  contentEncoding := h.lastText? "content-encoding"
  contentLanguage := h.lastText? "content-language"
  contentDisposition := h.lastText? "content-disposition"
  cacheControl := h.lastText? "cache-control"
  contentMd5 := h.lastText? "content-md5"

def LeaseProperties.ofHeaders (h : Headers) : LeaseProperties where
  status := h.lastText? "x-ms-lease-status"
  state := h.lastText? "x-ms-lease-state"
  duration := h.lastText? "x-ms-lease-duration"

def CopyProperties.ofHeaders (h : Headers) : CopyProperties where
  id := h.lastText? "x-ms-copy-id"
  source := h.lastText? "x-ms-copy-source"
  status := h.lastText? "x-ms-copy-status"
  progress := h.lastText? "x-ms-copy-progress"
  completionTime := h.lastText? "x-ms-copy-completion-time"
  statusDescription := h.lastText? "x-ms-copy-status-description"

def BlobProperties.ofHeaders (h : Headers) : BlobProperties where
  blobType := h.lastText? "x-ms-blob-type"
  lastModified := h.lastInstant? "last-modified"
  etag := h.lastText? "etag"
  contentLength := h.lastInteger? "content-length"
  contentSettings := .ofHeaders h
  lease := .ofHeaders h
  copy := .ofHeaders h
  pageBlobSequenceNumber := h.lastInteger? "x-ms-blob-sequence-number"
  appendBlobCommittedBlockCount := h.lastInteger? "x-ms-blob-committed-block-count"

def FileProperties.ofHeaders (h : Headers) : FileProperties where
  lastModified := h.lastInstant? "last-modified"
  etag := h.lastText? "etag"
  contentLength := h.lastInteger? "content-length"
  contentSettings := .ofHeaders h
  copy := .ofHeaders h

def ShareProperties.ofHeaders (h : Headers) : ShareProperties where
  lastModified := h.lastInstant? "last-modified"
  etag := h.lastText? "etag"
  quota := none

def DirectoryProperties.ofHeaders (h : Headers) : DirectoryProperties where
  lastModified := h.lastInstant? "last-modified"
  etag := h.lastText? "etag"

end ShareWire

namespace ShareWire.Http

open Text (encode)
open Time (Instant)

/-! ## The tables of properties -/

theorem metadataName?_eq_some_iff {name key : String} :
    metadataName? name = some key ↔ name = metadataMark ++ key := by
  unfold metadataName?
  constructor
  · intro h
    split at h
    · next hmark =>
      obtain ⟨rest, hrest⟩ := List.isPrefixOf_iff_prefix.1 hmark
      rw [← hrest, List.drop_left] at h
      cases h
      rw [← String.toList_inj, String.toList_append, String.toList_ofList, hrest]
    · contradiction
  · rintro rfl
    rw [String.toList_append, List.drop_left, String.ofList_toList]
    exact if_pos (List.isPrefixOf_iff_prefix.2 (List.prefix_append _ _))

theorem headerName_injective {p q : Property} (h : p.headerName = q.headerName) : p = q := by
  have hall : ∀ p ∈ Property.all, ∀ q ∈ Property.all, p.headerName = q.headerName → p = q := by
    decide +kernel
  exact hall p (by cases p <;> decide) q (by cases q <;> decide) h

theorem ofHeaderName?_eq_some_iff {name : String} {p : Property} :
    Property.ofHeaderName? name = some p ↔ p.headerName = name := by
  constructor
  · intro h
    rw [Property.ofHeaderName?, List.find?_eq_some_iff_append] at h
    exact of_decide_eq_true h.1
  · rintro rfl
    cases p <;> decide

theorem mem_integerHeaders (p : Property) :
    p.headerName ∈ integerHeaders ↔ p.conversion = .integer := by
  cases p <;> decide

theorem headerName_eq_instantHeader (p : Property) :
    p.headerName = instantHeader ↔ p.conversion = .timestamp := by
  cases p <;> decide

theorem mem_mappedHeaders {name : String} : name ∈ mappedHeaders ↔ ∃ p : Property, p.headerName = name := by
  have hall : ∀ name ∈ mappedHeaders, name ∈ Property.all.map Property.headerName := by
    decide +kernel
  constructor
  · intro h
    obtain ⟨p, -, hp⟩ := List.mem_map.1 (hall name h)
    exact ⟨p, hp⟩
  · rintro ⟨p, rfl⟩
    cases p <;> decide

theorem metadataName?_headerName (p : Property) : metadataName? p.headerName = none := by
  cases p <;> decide

/-- No header reports both metadata and a property. -/
theorem ne_metadata_of_mapped {name : String} (h : name ∈ mappedHeaders) (key : String) :
    name ≠ metadataMark ++ key := by
  intro hname
  obtain ⟨p, hp⟩ := mem_mappedHeaders.1 h
  have hnone := metadataName?_headerName p
  rw [hp, metadataName?_eq_some_iff.2 hname] at hnone
  cases hnone

theorem reports_iff {name : String} :
    Reports name ↔ (metadataName? name).isSome = true ∨ name ∈ mappedHeaders := by
  rw [Reports, Option.isSome_iff_exists]
  exact or_congr_left (exists_congr fun key => metadataName?_eq_some_iff.symm)

instance (name : String) : Decidable (Reports name) :=
  decidable_of_iff _ reports_iff.symm

/-! ## One field -/

section

variable {α : Type} [PropertyRecord α] {found : α × Metadata} {field : HeaderName × HeaderValue}

theorem fieldText_eq_ok_iff {name : HeaderName} {value : HeaderValue} {s : String} :
    fieldText name value = .ok s ↔ value.bytes = encode s := by
  rw [← Text.decode_eq_ok_iff, fieldText, HeaderValue.text]
  split
  · next hs => simp [hs]
  · next hs => simp [hs]

theorem takeField_metadata {key : String} (hname : field.1.text = metadataMark ++ key) :
    takeField found field =
      fieldText field.1 field.2 >>= fun text => .ok (found.1, found.2.insert key text) := by
  rw [takeField, metadataName?_eq_some_iff.2 hname]
  rfl

theorem takeField_property {p : Property} (hname : p.headerName = field.1.text) :
    takeField found field = fieldText field.1 field.2 >>= fun text =>
      convert p text >>= fun value => .ok (PropertyRecord.assign found.1 p value, found.2) := by
  rw [takeField, ← hname, metadataName?_headerName, ofHeaderName?_eq_some_iff.2 rfl]
  rfl

/-- A header that reports nothing is passed over. -/
theorem takeField_other (h : ¬ Reports field.1.text) : takeField found field = .ok found := by
  rw [reports_iff, not_or, Bool.not_eq_true, Option.isSome_eq_false_iff, Option.isNone_iff_eq_none] at h
  have hproperty : Property.ofHeaderName? field.1.text = none := by
    refine Option.eq_none_iff_forall_ne_some.2 fun p hp => h.2 ?_
    exact mem_mappedHeaders.2 ⟨p, ofHeaderName?_eq_some_iff.1 hp⟩
  rw [takeField, h.1, hproperty]

theorem convert_of_readable {p : Property} {s : String} (hname : p.headerName = field.1.text)
    (hinteger : field.1.text ∈ integerHeaders → ∃ n, readDecimal Int64 s = .ok n)
    (hinstant : field.1.text = instantHeader → ∃ t, Instant.ofText s = .ok t) :
    ∃ value, convert p s = .ok value := by
  unfold convert
  split
  · exact ⟨_, rfl⟩
  · next hp =>
    obtain ⟨n, hn⟩ := hinteger (hname ▸ (mem_integerHeaders p).2 hp)
    exact ⟨_, by rw [hn]⟩
  · next hp =>
    obtain ⟨t, ht⟩ := hinstant (hname ▸ (headerName_eq_instantHeader p).2 hp)
    exact ⟨_, by rw [ht]⟩

/-- A field that offends is an error, whatever was found before and whatever the record has places
for. -/
theorem takeField_offends {fault : HeaderFault} (h : Offends field fault) :
    takeField found field = .error (.invalidHeader field.1.text fault) := by
  cases h with
  | @notUtf8 fault hreports hfault =>
    have htext : fieldText field.1 field.2 = .error (.invalidHeader field.1.text (.notUtf8 fault)) := by
      rw [fieldText, hfault]
    rcases hreports with ⟨key, hname⟩ | hmapped
    · rw [takeField_metadata hname, htext]
      rfl
    · obtain ⟨p, hname⟩ := mem_mappedHeaders.1 hmapped
      rw [takeField_property hname, htext]
      rfl
  | @integer s fault hname hbytes hfault =>
    obtain ⟨p, hp⟩ := mem_mappedHeaders.1 (List.mem_cons_of_mem _ (List.mem_append_left _ hname))
    have hconversion := (mem_integerHeaders p).1 (hp ▸ hname)
    rw [takeField_property hp, fieldText_eq_ok_iff.2 hbytes, ← hp]
    simp only [bind, Except.bind, convert, hconversion, hfault]
  | @timestamp s fault hname hbytes hfault =>
    obtain ⟨p, hp⟩ := mem_mappedHeaders.1 (List.mem_cons.2 (.inl hname))
    have hconversion := (headerName_eq_instantHeader p).1 (hp.trans hname)
    rw [takeField_property hp, fieldText_eq_ok_iff.2 hbytes, ← hp]
    simp only [bind, Except.bind, convert, hconversion, hfault]

/-- Every field can be read, or offends. -/
theorem readable_or_offends (field : HeaderName × HeaderValue) :
    Readable field ∨ ∃ fault, Offends field fault := by
  by_cases hreports : Reports field.1.text
  · cases htext : field.2.text with
    | error fault => exact .inr ⟨_, .notUtf8 hreports htext⟩
    | ok s =>
      have hbytes : field.2.bytes = encode s := Text.decode_eq_ok_iff.1 htext
      by_cases hinteger : field.1.text ∈ integerHeaders
      · have hinstant : field.1.text ≠ instantHeader := fun hname => by
          rw [hname] at hinteger
          exact absurd hinteger (by decide)
        cases hn : readDecimal Int64 s with
        | error fault => exact .inr ⟨_, .integer hinteger hbytes hn⟩
        | ok n => exact .inl fun _ => ⟨s, hbytes, fun _ => ⟨n, hn⟩, fun h => absurd h hinstant⟩
      · by_cases hinstant : field.1.text = instantHeader
        · cases ht : Instant.ofText s with
          | error fault => exact .inr ⟨_, .timestamp hinstant hbytes ht⟩
          | ok t => exact .inl fun _ => ⟨s, hbytes, fun h => absurd h hinteger, fun _ => ⟨t, ht⟩⟩
        · exact .inl fun _ => ⟨s, hbytes, fun h => absurd h hinteger, fun h => absurd h hinstant⟩
  · exact .inl fun h => absurd h hreports

end

end ShareWire.Http
