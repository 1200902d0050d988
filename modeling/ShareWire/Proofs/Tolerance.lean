import ShareWire.Proofs.Document.Edit
import ShareWire.Proofs.Listing

/-!
# Elements that records do not know

The vocabulary of each record that is read from documents, which has the names of its schema. A service
may add elements to what it sends, leave out and move those that are not asked for, and lay out its values
with white space: the outcome of reading stays the same, whether it is a record or an error.
-/

namespace ShareWire

open Vocabulary (Covers)

/-! ## Service properties -/

def RetentionPolicy.vocabulary : Vocabulary :=
  .first "Enabled" (.value .bool) <|
  .first "Days" (.value (.integer .int32)) .nothing

theorem RetentionPolicy.suits : vocabulary.Suits schema :=
  .required .bool (.optional .integer .nothing)

theorem RetentionPolicy.covers : vocabulary.Covers Eq (ofElement (α := RetentionPolicy)) := by
  intro e e' ⟨henabled, hdays, _⟩
  refine (Vocabulary.requiredValue henabled).bind fun enabled enabled' henabled => ?_
  refine (Vocabulary.optionalValue hdays readInteger_congr).bind fun days days' hdays => ?_
  rw [readBool_congr henabled, hdays]
  exact .ok rfl

def Logging.vocabulary : Vocabulary :=
  .first "Version" .text <|
  .first "Delete" (.value .bool) <|
  .first "Read" (.value .bool) <|
  .first "Write" (.value .bool) <|
  .first "RetentionPolicy" RetentionPolicy.vocabulary .nothing

theorem Logging.suits : vocabulary.Suits schema :=
  .required .text <| .required .bool <| .required .bool <| .required .bool <|
    .required RetentionPolicy.suits .nothing

theorem Logging.covers : vocabulary.Covers Eq (ofElement (α := Logging)) := by
  intro e e' ⟨hversion, hdelete, hread, hwrite, hpolicy, _⟩
  refine (Vocabulary.requiredText hversion).bind fun version version' hversion => ?_
  refine (Vocabulary.requiredValue hdelete).bind fun delete delete' hdelete => ?_
  refine (Vocabulary.requiredValue hread).bind fun read read' hread => ?_
  refine (Vocabulary.requiredValue hwrite).bind fun write write' hwrite => ?_
  refine (Vocabulary.require hpolicy).bind fun c c' hc => ?_
  refine (RetentionPolicy.covers.paired hc).bind fun policy policy' hpolicy => ?_
  rw [hversion, readBool_congr hdelete, readBool_congr hread, readBool_congr hwrite, hpolicy]
  exact .ok rfl

def Metrics.vocabulary : Vocabulary :=
  .first "Version" .text <|
  .first "Enabled" (.value .bool) <|
  .first "IncludeAPIs" (.value .bool) <|
  .first "RetentionPolicy" RetentionPolicy.vocabulary .nothing

theorem Metrics.suits : vocabulary.Suits schema :=
  .required .text <| .required .bool <| .optional .bool <| .required RetentionPolicy.suits .nothing

theorem Metrics.covers : vocabulary.Covers Eq (ofElement (α := Metrics)) := by
  intro e e' ⟨hversion, henabled, happis, hpolicy, _⟩
  refine (Vocabulary.requiredText hversion).bind fun version version' hversion => ?_
  refine (Vocabulary.requiredValue henabled).bind fun enabled enabled' henabled => ?_
  refine (Vocabulary.require hpolicy).bind fun c c' hc => ?_
  refine (RetentionPolicy.covers.paired hc).bind fun policy policy' hpolicy => ?_
  rw [hversion, readBool_congr henabled, hpolicy, Vocabulary.childValue? happis readBool_congr]
  exact .ok rfl

def CorsRule.vocabulary : Vocabulary :=
  .first "AllowedOrigins" .text <|
  .first "AllowedMethods" .text <|
  .first "MaxAgeInSeconds" (.value (.integer .int32)) <|
  .first "ExposedHeaders" .text <|
  .first "AllowedHeaders" .text .nothing

theorem CorsRule.suits : vocabulary.Suits schema :=
  .required .text <| .required .text <| .required .integer <| .optional .text <|
    .optional .text .nothing

theorem CorsRule.covers : vocabulary.Covers Eq (ofElement (α := CorsRule)) := by
  intro e e' ⟨horigins, hmethods, hage, hexposed, hallowed, _⟩
  refine (Vocabulary.requiredText horigins).bind fun origins origins' horigins => ?_
  refine (Vocabulary.requiredText hmethods).bind fun methods methods' hmethods => ?_
  refine (Vocabulary.requiredValue hage).bind fun age age' hage => ?_
  refine (OutcomeRel.of_eq (readInteger_congr hage)).bind fun seconds seconds' hseconds => ?_
  rw [horigins, hmethods, hseconds, Vocabulary.filledText? hexposed, Vocabulary.filledText? hallowed]
  exact .ok rfl

def ServiceProperties.vocabulary : Vocabulary :=
  .first "Logging" Logging.vocabulary <|
  .first "HourMetrics" Metrics.vocabulary <|
  .first "MinuteMetrics" Metrics.vocabulary <|
  .first "Cors" (.every "CorsRule" CorsRule.vocabulary .nothing) <|
  .first "DefaultServiceVersion" .text .nothing

theorem ServiceProperties.suits : vocabulary.Suits schema :=
  .optional Logging.suits <| .optional Metrics.suits <| .optional Metrics.suits <|
    .optional (.every CorsRule.suits .nothing) <| .optional .text .nothing

theorem ServiceProperties.covers : vocabulary.Covers Eq (ofElement (α := ServiceProperties)) := by
  intro e e' ⟨hlogging, hhour, hminute, hcors, hversion, _⟩
  have hrules : Covers (.every "CorsRule" CorsRule.vocabulary .nothing) Eq
      (ofElement (α := List CorsRule)) := fun c c' hc => Vocabulary.children_eq CorsRule.covers hc.1
  refine (Vocabulary.optionalRecord Logging.covers hlogging).bind fun logging logging' hlogging => ?_
  refine (Vocabulary.optionalRecord Metrics.covers hhour).bind fun hour hour' hhour => ?_
  refine (Vocabulary.optionalRecord Metrics.covers hminute).bind fun minute minute' hminute => ?_
  refine (Vocabulary.optionalRecord hrules hcors).bind fun rules rules' hrules => ?_
  rw [hlogging, hhour, hminute, hrules, Vocabulary.filledText? hversion]
  exact .ok rfl

/-! ## Access policies -/

def AccessPolicy.vocabulary : Vocabulary :=
  .first "Start" (.value .timestamp) <|
  .first "Expiry" (.value .timestamp) <|
  .first "Permission" .text .nothing

theorem AccessPolicy.suits : vocabulary.Suits schema :=
  .optional .timestamp <| .optional .timestamp <| .optional .text .nothing

theorem AccessPolicy.covers : vocabulary.Covers Eq (ofElement (α := AccessPolicy)) := by
  intro e e' ⟨hstart, hexpiry, hpermission, _⟩
  refine (Vocabulary.optionalValue hstart readTimestamp_congr).bind fun start start' hstart => ?_
  refine (Vocabulary.optionalValue hexpiry readTimestamp_congr).bind fun expiry expiry' hexpiry => ?_
  rw [hstart, hexpiry, Vocabulary.childText? hpermission]
  exact .ok rfl

def SignedIdentifiers.entryVocabulary : Vocabulary :=
  .first "Id" .text <|
  .first "AccessPolicy" AccessPolicy.vocabulary .nothing

theorem SignedIdentifiers.entry_covers : entryVocabulary.Covers Eq readEntry := by
  intro e e' ⟨hid, hpolicy, _⟩
  refine (Vocabulary.requiredText hid).bind fun id id' hid => ?_
  refine (Vocabulary.require hpolicy).bind fun c c' hc => ?_
  refine (AccessPolicy.covers.paired hc).bind fun policy policy' hpolicy => ?_
  rw [hid, hpolicy]
  exact .ok rfl

def SignedIdentifiers.vocabulary : Vocabulary :=
  .every "SignedIdentifier" entryVocabulary .nothing

theorem SignedIdentifiers.suits : vocabulary.Suits schema :=
  .every (.required .text <| .required AccessPolicy.suits .nothing) .nothing

theorem SignedIdentifiers.covers : vocabulary.Covers Eq (ofElement (α := SignedIdentifiers)) := by
  intro e e' ⟨hentries, _⟩
  refine (Vocabulary.children_eq entry_covers hentries).bind fun entries entries' hentries => ?_
  rw [hentries]
  exact .ok rfl

/-! ## Listings -/

theorem Vocabulary.nextMarker {e e' : Element}
    (h : Element.FirstPaired text.Alike "NextMarker" e e') : readNextMarker e = readNextMarker e' :=
  Vocabulary.filledText? h

/-- Metadata with the same texts under each name is read, whatever the order of the names. -/
theorem Vocabulary.metadata {e e' : Element}
    (h : Element.FirstPaired entries.Alike "Metadata" e e') :
    ((e.child? "Metadata").map readMetadata).map Metadata.get? =
      ((e'.child? "Metadata").map readMetadata).map Metadata.get? := by
  refine h.elim rfl fun c c' hc => congrArg some (funext fun name => ?_)
  rw [Metadata.get?_readMetadata, Metadata.get?_readMetadata,
    ← List.getLast?_map, ← List.getLast?_map, hc.related name]

def ShareProperties.vocabulary : Vocabulary :=
  .first "Last-Modified" (.value .timestamp) <|
  .first "Etag" .text <|
  .first "Quota" (.value (.integer .int64)) .nothing

theorem ShareProperties.covers : vocabulary.Covers Eq (ofElement (α := ShareProperties)) := by
  intro e e' ⟨hmodified, hetag, hquota, _⟩
  refine (Vocabulary.requiredValue hmodified).bind fun modified modified' hmodified => ?_
  refine (OutcomeRel.of_eq (readTimestamp_congr hmodified)).bind fun t t' ht => ?_
  refine (Vocabulary.requiredText hetag).bind fun etag etag' hetag => ?_
  refine (Vocabulary.requiredValue hquota).bind fun quota quota' hquota => ?_
  refine (OutcomeRel.of_eq (readInteger_congr hquota)).bind fun n n' hn => ?_
  rw [ht, hetag, hn]
  exact .ok rfl

def Share.vocabulary : Vocabulary :=
  .first "Name" .text <|
  .first "Metadata" .entries <|
  .first "Properties" ShareProperties.vocabulary .nothing

theorem Share.suits : vocabulary.Suits schema :=
  .required .text <| .optional .entries <|
    .required (.required .timestamp <| .required .text <| .required .integer .nothing) .nothing

/-- A share as a value. Its metadata is a map, in which the names have no order. -/
def Share.value (s : Share) : String × Option (String → Option String) × ShareProperties :=
  (s.name, s.metadata.map Metadata.get?, s.properties)

theorem Share.covers :
    vocabulary.Covers (fun s s' => s.value = s'.value) (ofElement (α := Share)) := by
  intro e e' ⟨hname, hmetadata, hproperties, _⟩
  refine (Vocabulary.requiredText hname).bind fun name name' hname => ?_
  refine (Vocabulary.require hproperties).bind fun c c' hc => ?_
  refine (ShareProperties.covers.paired hc).bind fun properties properties' hproperties => ?_
  refine .ok ?_
  rw [Share.value, Share.value, Vocabulary.metadata hmetadata, hname, hproperties]

def ShareList.vocabulary : Vocabulary :=
  .first "Shares" (.every "Share" Share.vocabulary .nothing) <|
  .first "NextMarker" .text .nothing

def ShareList.value (l : ShareList) :
    List (String × Option (String → Option String) × ShareProperties) × Option String :=
  (l.shares.map Share.value, l.nextMarker)

theorem ShareList.suits : vocabulary.Suits schema :=
  .required (.every Share.suits .nothing) <| .optional .text .nothing

theorem ShareList.covers :
    vocabulary.Covers (fun l l' => l.value = l'.value) (ofElement (α := ShareList)) := by
  intro e e' ⟨hshares, hmarker, _⟩
  refine (Vocabulary.require hshares).bind fun c c' hc => ?_
  refine (Vocabulary.children Share.covers hc.related.1).bind fun shares shares' hshares => ?_
  have hvalues : shares.map Share.value = shares'.map Share.value := by
    rw [← List.forall₂_eq_eq_eq, List.forall₂_map_left_iff, List.forall₂_map_right_iff]
    exact hshares
  refine .ok ?_
  rw [ShareList.value, ShareList.value, hvalues, Vocabulary.nextMarker hmarker]

def FileProperties.vocabulary : Vocabulary :=
  .first "Content-Length" (.value (.integer .int64)) .nothing

theorem FileProperties.covers : vocabulary.Covers Eq File.readProperties := by
  intro e e' ⟨hlength, _⟩
  refine (Vocabulary.requiredValue hlength).bind fun text text' htext => ?_
  refine (OutcomeRel.of_eq (readInteger_congr htext)).bind fun n n' hn => ?_
  rw [hn]
  exact .ok rfl

def File.vocabulary : Vocabulary :=
  .first "Properties" FileProperties.vocabulary <|
  .first "Name" .text .nothing

theorem File.suits : vocabulary.Suits schema :=
  .required (.required .integer .nothing) <| .required .text .nothing

theorem File.covers : vocabulary.Covers Eq (ofElement (α := File)) := by
  rw [File.ofElement_eq]
  intro e e' ⟨hproperties, hname, _⟩
  refine (Vocabulary.require hproperties).bind fun c c' hc => ?_
  refine (FileProperties.covers.paired hc).bind fun properties properties' hproperties => ?_
  refine (Vocabulary.requiredText hname).bind fun name name' hname => ?_
  rw [hproperties, hname]
  exact .ok rfl

def Directory.vocabulary : Vocabulary :=
  .first "Name" .text .nothing

theorem Directory.suits : vocabulary.Suits schema :=
  .required .text .nothing

theorem Directory.covers : vocabulary.Covers Eq (ofElement (α := Directory)) := by
  intro e e' ⟨hname, _⟩
  refine (Vocabulary.requiredText hname).bind fun name name' hname => ?_
  rw [hname]
  exact .ok rfl

def Entries.contentsVocabulary : Vocabulary :=
  .every "File" File.vocabulary <|
  .every "Directory" Directory.vocabulary .nothing

theorem Entries.contents_covers : contentsVocabulary.Covers Eq readContents := by
  intro e e' ⟨hfiles, hdirectories, _⟩
  refine (Vocabulary.children_eq File.covers hfiles).bind fun files files' hfiles => ?_
  refine (Vocabulary.children_eq Directory.covers hdirectories).bind
    fun directories directories' hdirectories => ?_
  rw [hfiles, hdirectories]
  exact .ok rfl

def Entries.vocabulary : Vocabulary :=
  .first "Entries" contentsVocabulary <|
  .first "NextMarker" .text .nothing

theorem Entries.suits : vocabulary.Suits schema :=
  .required (.every File.suits <| .every Directory.suits .nothing) <| .optional .text .nothing

theorem Entries.covers : vocabulary.Covers Eq (ofElement (α := Entries)) := by
  rw [Entries.ofElement_eq]
  intro e e' ⟨hentries, hmarker, _⟩
  refine (Vocabulary.require hentries).bind fun c c' hc => ?_
  refine (contents_covers.paired hc).bind fun contents contents' hcontents => ?_
  rw [hcontents, Vocabulary.nextMarker hmarker]
  exact .ok rfl

def FileRange.vocabulary : Vocabulary :=
  .first "Start" (.value (.integer .uint64)) <|
  .first "End" (.value (.integer .uint64)) .nothing

theorem FileRange.suits : vocabulary.Suits schema :=
  .required .integer <| .required .integer .nothing

theorem FileRange.covers : vocabulary.Covers Eq (ofElement (α := FileRange)) := by
  intro e e' ⟨hstart, hlast, _⟩
  refine (Vocabulary.requiredValue hstart).bind fun text text' hstart => ?_
  refine (OutcomeRel.of_eq (readInteger_congr hstart)).bind fun start start' hstart => ?_
  refine (Vocabulary.requiredValue hlast).bind fun text text' hlast => ?_
  refine (OutcomeRel.of_eq (readInteger_congr hlast)).bind fun last last' hlast => ?_
  rw [hstart, hlast]
  exact .ok rfl

def Ranges.vocabulary : Vocabulary :=
  .every "Range" FileRange.vocabulary .nothing

theorem Ranges.suits : vocabulary.Suits schema :=
  .every FileRange.suits .nothing

theorem Ranges.covers : vocabulary.Covers Eq (ofElement (α := Ranges)) :=
  fun _ _ h => Vocabulary.children_eq FileRange.covers h.1

def ShareStats.vocabulary : Vocabulary :=
  .first "ShareUsage" (.value (.integer .int64)) .nothing

theorem ShareStats.suits : vocabulary.Suits schema :=
  .required .integer .nothing

theorem ShareStats.covers : vocabulary.Covers Eq (ofElement (α := ShareStats)) := by
  intro e e' ⟨husage, _⟩
  refine (Vocabulary.requiredValue husage).bind fun text text' htext => ?_
  refine (OutcomeRel.of_eq (readInteger_congr htext)).bind fun n n' hn => ?_
  rw [hn]
  exact .ok rfl

/-! ## All records -/

namespace RecordType

def vocabulary : RecordType → Vocabulary
  | retentionPolicy => RetentionPolicy.vocabulary
  | logging => Logging.vocabulary
  | metrics => Metrics.vocabulary
  | corsRule => CorsRule.vocabulary
  | serviceProperties => ServiceProperties.vocabulary
  | accessPolicy => AccessPolicy.vocabulary
  | signedIdentifiers => SignedIdentifiers.vocabulary
  | share => Share.vocabulary
  | shareList => ShareList.vocabulary
  | file => File.vocabulary
  | directory => Directory.vocabulary
  | entries => Entries.vocabulary
  | fileRange => FileRange.vocabulary
  | ranges => Ranges.vocabulary
  | shareStats => ShareStats.vocabulary

/-- The same record, up to the order of metadata. -/
def Same : (type : RecordType) → type.reader.Record → type.reader.Record → Prop
  | share, s, s' => Share.value s = Share.value s'
  | shareList, l, l' => ShareList.value l = ShareList.value l'
  | _, record, record' => record = record'

theorem same_equivalence (type : RecordType) : Equivalence type.Same := by
  cases type with
  | share => exact eq_equivalence.comap Share.value
  | shareList => exact eq_equivalence.comap ShareList.value
  | _ => exact eq_equivalence

theorem covers (type : RecordType) : type.vocabulary.Covers type.Same type.reader.read := by
  cases type with
  | retentionPolicy => exact RetentionPolicy.covers
  | logging => exact Logging.covers
  | metrics => exact Metrics.covers
  | corsRule => exact CorsRule.covers
  | serviceProperties => exact ServiceProperties.covers
  | accessPolicy => exact AccessPolicy.covers
  | signedIdentifiers => exact SignedIdentifiers.covers
  | share => exact Share.covers
  | shareList => exact ShareList.covers
  | file => exact File.covers
  | directory => exact Directory.covers
  | entries => exact Entries.covers
  | fileRange => exact FileRange.covers
  | ranges => exact Ranges.covers
  | shareStats => exact ShareStats.covers

theorem suits (type : RecordType) : type.vocabulary.Suits type.reader.schema := by
  cases type with
  | retentionPolicy => exact RetentionPolicy.suits
  | logging => exact Logging.suits
  | metrics => exact Metrics.suits
  | corsRule => exact CorsRule.suits
  | serviceProperties => exact ServiceProperties.suits
  | accessPolicy => exact AccessPolicy.suits
  | signedIdentifiers => exact SignedIdentifiers.suits
  | share => exact Share.suits
  | shareList => exact ShareList.suits
  | file => exact File.suits
  | directory => exact Directory.suits
  | entries => exact Entries.suits
  | fileRange => exact FileRange.suits
  | ranges => exact Ranges.suits
  | shareStats => exact ShareStats.suits

/-- The outcome of reading a record does not change by any number of edits outside its vocabulary,
forwards or in reverse: children that are not looked at, their places among the others and the texts
between them do not count, and neither does white space around values that are of their types, as all
values of a valid record are. The name of the element itself shows only in the error that one of its own
children is missing. -/
theorem read_edited (type : RecordType) {e e' : Element}
    (h : Relation.EqvGen type.vocabulary.Edit e e') :
    OutcomeRel type.Same Eq (type.reader.read e) (type.reader.read e') ∧
    (∀ record, type.reader.read e = .ok record → type.vocabulary.Valid e) ∧
    ∀ name, OutcomeRel type.Same (DocumentError.Renamed e.name name) (type.reader.read e)
      (type.reader.read { e with name }) := by
  have hequiv : Equivalence fun e e' =>
      OutcomeRel type.Same Eq (type.reader.read e) (type.reader.read e') :=
    (OutcomeRel.equivalence type.same_equivalence eq_equivalence).comap type.reader.read
  refine ⟨?_, fun record hrecord => ?_, fun name => ?_⟩
  · refine hequiv.eqvGen_iff.1 (h.mono fun e e' hedit => ?_)
    refine (type.covers hedit.alike).imp (fun _ _ hrecord => hrecord) fun error error' herror => ?_
    rw [hedit.name_eq] at herror
    exact herror.eq
  · exact type.suits.valid ((type.fits.ok_iff e).1 ⟨record, hrecord⟩)
  · have halike : type.vocabulary.Alike e { e with name } :=
      Vocabulary.alike_of_lookups (fun _ => rfl) (fun _ _ => rfl) (fun _ _ => rfl)
    exact type.covers halike

/-- An element that is not known is put in, and white space around the number. -/
theorem read_edited_usage :
    Relation.EqvGen shareStats.vocabulary.Edit
      ⟨"ShareStats", "", [⟨"ShareUsage", "12", []⟩]⟩
      ⟨"ShareStats", "", [⟨"Etag", "x", []⟩, ⟨"ShareUsage", " 12 ", []⟩]⟩ ∧
    OutcomeRel Eq Eq
      (ofElement (α := ShareStats) ⟨"ShareStats", "", [⟨"ShareUsage", "12", []⟩]⟩)
      (ofElement ⟨"ShareStats", "", [⟨"Etag", "x", []⟩, ⟨"ShareUsage", " 12 ", []⟩]⟩) := by
  have hetag : ShareStats.vocabulary.Edit ⟨"ShareStats", "", [⟨"ShareUsage", "12", []⟩]⟩
      ⟨"ShareStats", "", [⟨"Etag", "x", []⟩, ⟨"ShareUsage", "12", []⟩]⟩ := by
    refine @Vocabulary.Edit.unread _ _ _ [] _ _ ?_
    simp [ShareStats.vocabulary, Vocabulary.contents]
  have hnumber : (ValueType.integer .int64).Valid "12" :=
    ⟨12, (Text.readBounded_eq_ok_iff (by decide) (by decide)).1 rfl⟩
  have hpad : (Vocabulary.value (.integer .int64)).Edit ⟨"ShareUsage", "12", []⟩
      ⟨"ShareUsage", " 12 ", []⟩ :=
    @Vocabulary.Edit.pad _ _ _ " " " " _ hnumber (List.all_eq_true.1 rfl) (List.all_eq_true.1 rfl)
  have husage : ShareStats.vocabulary.Edit
      ⟨"ShareStats", "", [⟨"Etag", "x", []⟩, ⟨"ShareUsage", "12", []⟩]⟩
      ⟨"ShareStats", "", [⟨"Etag", "x", []⟩, ⟨"ShareUsage", " 12 ", []⟩]⟩ := by
    refine @Vocabulary.Edit.child _ _ _ [⟨"Etag", "x", []⟩] [] _ _ (List.cons_ne_nil _ _) ?_
    simpa [ShareStats.vocabulary, Vocabulary.contents] using hpad
  have hedits := (Relation.EqvGen.rel _ _ hetag).trans _ _ _ (Relation.EqvGen.rel _ _ husage)
  exact ⟨hedits, (read_edited shareStats hedits).1⟩

end RecordType

end ShareWire
