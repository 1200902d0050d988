import ShareWire.Listing.Decode
import ShareWire.Policy.Decode
import ShareWire.Proofs.Document.Schema
import ShareWire.Service.Decode

/-!
# Records and their schemas

The schema of each record that is read from documents. The readers of the records accept exactly the
elements that are valid, and say of every other element what is wrong with it first.
-/

namespace ShareWire

open Schema (Fits)

/-! ## Service properties -/

def RetentionPolicy.schema : Schema :=
  .required "Enabled" .any <|
  .optional "Days" (.integer .int32) .any

theorem RetentionPolicy.fits : schema.Fits (ofElement (α := RetentionPolicy)) :=
  .requiredText fun _ => .optionalText .integer fun _ => .any _

def Logging.schema : Schema :=
  .required "Version" .any <|
  .required "Delete" .any <|
  .required "Read" .any <|
  .required "Write" .any <|
  .required "RetentionPolicy" RetentionPolicy.schema .any

theorem Logging.fits : schema.Fits (ofElement (α := Logging)) :=
  .requiredText fun _ => .requiredText fun _ => .requiredText fun _ => .requiredText fun _ =>
    .require RetentionPolicy.fits fun _ => .any _

def Metrics.schema : Schema :=
  .required "Version" .any <|
  .required "Enabled" .any <|
  .optional "IncludeAPIs" .any <|
  .required "RetentionPolicy" RetentionPolicy.schema .any

theorem Metrics.fits : schema.Fits (ofElement (α := Metrics)) :=
  .requiredText fun _ => .requiredText fun _ => .optional_any <|
    .require RetentionPolicy.fits fun _ => .any _

def CorsRule.schema : Schema :=
  .required "AllowedOrigins" .any <|
  .required "AllowedMethods" .any <|
  .required "MaxAgeInSeconds" (.integer .int32) <|
  .optional "ExposedHeaders" .any <|
  .optional "AllowedHeaders" .any .any

theorem CorsRule.fits : schema.Fits (ofElement (α := CorsRule)) :=
  .requiredText fun _ => .requiredText fun _ => .requiredValue .integer fun _ =>
    .optional_any <| .optional_any <| .any _

def ServiceProperties.schema : Schema :=
  .optional "Logging" Logging.schema <|
  .optional "HourMetrics" Metrics.schema <|
  .optional "MinuteMetrics" Metrics.schema <|
  .optional "Cors" (.every "CorsRule" CorsRule.schema .any) <|
  .optional "DefaultServiceVersion" .any .any

theorem ServiceProperties.fits : schema.Fits (ofElement (α := ServiceProperties)) :=
  .optionalRecord Logging.fits fun _ => .optionalRecord Metrics.fits fun _ =>
    .optionalRecord Metrics.fits fun _ => .optionalRecord (.all CorsRule.fits) fun _ =>
      .optional_any <| .any _

/-! ## Access policies -/

def AccessPolicy.schema : Schema :=
  .optional "Start" .timestamp <|
  .optional "Expiry" .timestamp <|
  .optional "Permission" .any .any

theorem AccessPolicy.fits : schema.Fits (ofElement (α := AccessPolicy)) :=
  .optionalText .timestamp fun _ => .optionalText .timestamp fun _ => .optional_any <| .any _

def SignedIdentifiers.schema : Schema :=
  .every "SignedIdentifier"
    (.required "Id" .any <| .required "AccessPolicy" AccessPolicy.schema .any) .any

theorem SignedIdentifiers.fits : schema.Fits (ofElement (α := SignedIdentifiers)) :=
  .every (.requiredText fun _ => .require AccessPolicy.fits fun _ => .any _) fun _ => .any _

/-! ## Listings -/

def Share.schema : Schema :=
  .required "Name" .any <|
  .optional "Metadata" .any <|
  .required "Properties" (
    .required "Last-Modified" .timestamp <|
    .required "Etag" .any <|
    .required "Quota" (.integer .int64) .any) .any

theorem Share.fits : schema.Fits (ofElement (α := Share)) :=
  .requiredText fun _ => .optional_any <| .require
    (.requiredValue .timestamp fun _ => .requiredText fun _ => .requiredValue .integer fun _ =>
      .any _) fun _ => .any _

def ShareList.schema : Schema :=
  .required "Shares" (.every "Share" Share.schema .any) <|
  .optional "NextMarker" .any .any

theorem ShareList.fits : schema.Fits (ofElement (α := ShareList)) :=
  .require (.all Share.fits) fun _ => .optional_any <| .any _

/-- The size of a file is looked at before its name. -/
def File.schema : Schema :=
  .required "Properties" (.required "Content-Length" (.integer .int64) .any) <|
  .required "Name" .any .any

def File.readProperties (e : Element) : Except DocumentError FileProperties := do
  let length ← readInteger Int64 (← e.requiredText "Content-Length")
  return { contentLength := some length }

theorem File.ofElement_eq : ofElement (α := File) = fun e => do
    let properties ← File.readProperties (← e.require "Properties")
    let name ← e.requiredText "Name"
    return { name, content := none, properties, metadata := ∅ } := by
  funext e
  simp only [File.readProperties, bind_assoc, pure_bind]
  rfl

theorem File.fits : schema.Fits (ofElement (α := File)) := by
  rw [File.ofElement_eq]
  exact .require (.requiredValue .integer fun _ => .any _) fun _ => .requiredText fun _ => .any _

def Directory.schema : Schema :=
  .required "Name" .any .any

theorem Directory.fits : schema.Fits (ofElement (α := Directory)) :=
  .requiredText fun _ => .any _

/-- All files are looked at before the first directory. -/
def Entries.schema : Schema :=
  .required "Entries" (.every "File" File.schema <| .every "Directory" Directory.schema .any) <|
  .optional "NextMarker" .any .any

def Entries.readContents (e : Element) : Except DocumentError (List File × List Directory) := do
  let files ← e.all File "File"
  let directories ← e.all Directory "Directory"
  return (files, directories)

theorem Entries.ofElement_eq : ofElement (α := Entries) = fun e => do
    let contents ← Entries.readContents (← e.require "Entries")
    return { files := contents.1, directories := contents.2, nextMarker := readNextMarker e } := by
  funext e
  simp only [Entries.readContents, bind_assoc, pure_bind]
  rfl

theorem Entries.fits : schema.Fits (ofElement (α := Entries)) := by
  rw [Entries.ofElement_eq]
  exact .require (.every File.fits fun _ => .every Directory.fits fun _ => .any _) fun _ =>
    .optional_any <| .any _

def FileRange.schema : Schema :=
  .required "Start" (.integer .uint64) <|
  .required "End" (.integer .uint64) .any

theorem FileRange.fits : schema.Fits (ofElement (α := FileRange)) :=
  .requiredValue .integer fun _ => .requiredValue .integer fun _ => .any _

def Ranges.schema : Schema :=
  .every "Range" FileRange.schema .any

theorem Ranges.fits : schema.Fits (ofElement (α := Ranges)) :=
  .all FileRange.fits

def ShareStats.schema : Schema :=
  .required "ShareUsage" (.integer .int64) .any

theorem ShareStats.fits : schema.Fits (ofElement (α := ShareStats)) :=
  .requiredValue .integer fun _ => .any _

/-! ## All records -/

inductive RecordType where
  | retentionPolicy | logging | metrics | corsRule | serviceProperties
  | accessPolicy | signedIdentifiers
  | share | shareList | file | directory | entries | fileRange | ranges | shareStats
deriving DecidableEq, Repr

/-- A type of records, how they are read from elements, and what is asked of these. -/
structure Reader where
  Record : Type
  read : Element → Except DocumentError Record
  schema : Schema

namespace RecordType

def reader : RecordType → Reader
  | retentionPolicy => ⟨RetentionPolicy, ofElement, RetentionPolicy.schema⟩
  | logging => ⟨Logging, ofElement, Logging.schema⟩
  | metrics => ⟨Metrics, ofElement, Metrics.schema⟩
  | corsRule => ⟨CorsRule, ofElement, CorsRule.schema⟩
  | serviceProperties => ⟨ServiceProperties, ofElement, ServiceProperties.schema⟩
  | accessPolicy => ⟨AccessPolicy, ofElement, AccessPolicy.schema⟩
  | signedIdentifiers => ⟨SignedIdentifiers, ofElement, SignedIdentifiers.schema⟩
  | share => ⟨Share, ofElement, Share.schema⟩
  | shareList => ⟨ShareList, ofElement, ShareList.schema⟩
  | file => ⟨File, ofElement, File.schema⟩
  | directory => ⟨Directory, ofElement, Directory.schema⟩
  | entries => ⟨Entries, ofElement, Entries.schema⟩
  | fileRange => ⟨FileRange, ofElement, FileRange.schema⟩
  | ranges => ⟨Ranges, ofElement, Ranges.schema⟩
  | shareStats => ⟨ShareStats, ofElement, ShareStats.schema⟩

theorem fits (type : RecordType) : type.reader.schema.Fits type.reader.read := by
  cases type with
  | retentionPolicy => exact RetentionPolicy.fits
  | logging => exact Logging.fits
  | metrics => exact Metrics.fits
  | corsRule => exact CorsRule.fits
  | serviceProperties => exact ServiceProperties.fits
  | accessPolicy => exact AccessPolicy.fits
  | signedIdentifiers => exact SignedIdentifiers.fits
  | share => exact Share.fits
  | shareList => exact ShareList.fits
  | file => exact File.fits
  | directory => exact Directory.fits
  | entries => exact Entries.fits
  | fileRange => exact FileRange.fits
  | ranges => exact Ranges.fits
  | shareStats => exact ShareStats.fits

/-- A record is read from exactly the elements that are valid for it. Of every other element the first
defect is reported, and that defect is really there: at some place of the element a child is missing or
a text is of the wrong form. -/
theorem read_conforms (type : RecordType) (e : Element) :
    ((∃ record, type.reader.read e = .ok record) ↔ type.reader.schema.Valid e) ∧
    (∀ error, type.reader.read e = .error error ↔ type.reader.schema.Defect e error) ∧
    ∀ error, type.reader.read e = .error error →
      ∃ place : Element, place.Within e ∧ place.Flaw error :=
  ⟨type.fits.ok_iff e, type.fits.error_iff e,
    fun error herror => ((type.fits.error_iff e error).1 herror).exists_flaw⟩

end RecordType

end ShareWire
