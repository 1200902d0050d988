import Mathlib.Data.List.Induction
import ShareWire.Proofs.Http.Report

/-!
# Extracting properties

What a walk over headers makes of a record and of metadata: after readable fields, the last value of each;
at the first field that offends, an error that names it.
-/

namespace ShareWire.Http

open Text (encode lowerAscii)
open PropertyRecord (blank)
open ReportedRecord (reported)

namespace Headers

/-- The text of the last value of the header of a property. -/
def propertyText? (h : Headers) (p : Property) : Option String :=
  h.lastText? p.headerName

theorem lastText?_append (h : Headers) (name : HeaderName) (value : HeaderValue) (key : String) :
    (h.append name value).lastText? key =
      if name.text = key then value.text.toOption else h.lastText? key := by
  rw [lastText?, append, List.filter_append]
  split
  · next hname => simp [hname]
  · next hname => simp [hname, lastText?]

theorem propertyText?_append_property {h : Headers} {name : HeaderName} {value : HeaderValue}
    {p : Property} {s : String} (hname : p.headerName = name.text) (hs : value.bytes = encode s) :
    (h.append name value).propertyText? = Function.update h.propertyText? p (some s) := by
  funext q
  have htext : value.text = .ok s := Text.decode_eq_ok_iff.2 hs
  rw [propertyText?, lastText?_append]
  by_cases hq : q = p
  · rw [hq, if_pos hname.symm, Function.update_self, htext]
    rfl
  · rw [if_neg fun hq' => hq (headerName_injective (hq'.symm.trans hname.symm)),
      Function.update_of_ne hq]
    rfl

theorem propertyText?_append_other {h : Headers} {name : HeaderName} {value : HeaderValue}
    (hname : name.text ∉ mappedHeaders) :
    (h.append name value).propertyText? = h.propertyText? := by
  funext p
  rw [propertyText?, lastText?_append, if_neg fun hp => hname (mem_mappedHeaders.2 ⟨p, hp.symm⟩)]
  rfl

end Headers

/-! ## Readable fields -/

section

variable {α : Type} [PropertyRecord α] [ReportedRecord α]

/-- What was found agrees with the headers so far: the record with the texts of its properties, the
metadata with the texts of metadata headers. -/
def Agrees (found : α × Metadata) (h : Headers) : Prop :=
  found.1 = reported h.propertyText? ∧ ∀ key, found.2.get? key = h.lastText? (metadataMark ++ key)

/-- A readable field keeps the agreement. -/
theorem Agrees.takeField {found : α × Metadata} {h : Headers} (hfound : Agrees found h)
    {name : HeaderName} {value : HeaderValue} (hread : Readable (name, value)) :
    ∃ next, takeField found (name, value) = .ok next ∧ Agrees next (h.append name value) := by
  obtain ⟨hrecord, hmetadata⟩ := hfound
  by_cases hreports : Reports name.text
  · obtain ⟨s, hs, hinteger, hinstant⟩ := hread hreports
    have htext : fieldText name value = .ok s := fieldText_eq_ok_iff.2 hs
    rcases hreports with ⟨key, hname⟩ | hmapped
    · refine ⟨(found.1, found.2.insert key s), ?_, ?_, fun other => ?_⟩
      · rw [takeField_metadata hname, htext]
        rfl
      · rw [Headers.propertyText?_append_other fun hmapped => ne_metadata_of_mapped hmapped key hname,
          hrecord]
      · rw [Metadata.get?_insert, Headers.lastText?_append, hname, hmetadata]
        have hvalue : value.text = .ok s := Text.decode_eq_ok_iff.2 hs
        by_cases hkey : other = key
        · rw [if_pos hkey, if_pos (by rw [hkey]), hvalue]
          rfl
        · rw [if_neg hkey, if_neg fun h => hkey ((String.append_right_inj _).1 h).symm]
    · obtain ⟨p, hname⟩ := mem_mappedHeaders.1 hmapped
      obtain ⟨v, hv⟩ := convert_of_readable hname hinteger hinstant
      refine ⟨(PropertyRecord.assign found.1 p v, found.2), ?_, ?_, fun other => ?_⟩
      · rw [takeField_property hname, htext]
        exact bind_ok rfl (bind_ok hv rfl)
      · rw [Headers.propertyText?_append_property hname hs, hrecord]
        exact ReportedRecord.assign_reported hv
      · rw [Headers.lastText?_append, hmetadata, if_neg (ne_metadata_of_mapped hmapped other)]
  · refine ⟨found, takeField_other hreports, ?_, fun other => ?_⟩
    · rw [Headers.propertyText?_append_other fun hmapped => hreports (.inr hmapped), hrecord]
    · rw [Headers.lastText?_append, hmetadata, if_neg fun hname => hreports (.inl ⟨other, hname⟩)]

/-- A run over readable fields ends in agreement with them. -/
theorem exists_agrees (fields : List (HeaderName × HeaderValue))
    (hread : ∀ field ∈ fields, Readable field) :
    ∃ found : α × Metadata, fields.foldlM takeField (blank, ∅) = .ok found ∧ Agrees found ⟨fields⟩ := by
  induction fields using List.reverseRecOn with
  | nil => exact ⟨(blank, ∅), rfl, ReportedRecord.reported_none.symm, fun _ => rfl⟩
  | append_singleton fields field ih =>
    obtain ⟨found, hrun, hfound⟩ := ih fun earlier hearlier =>
      hread earlier (List.mem_append_left _ hearlier)
    obtain ⟨next, hstep, hnext⟩ := hfound.takeField (hread field (List.mem_append_right _ (by simp)))
    refine ⟨next, ?_, hnext⟩
    rw [List.foldlM_append]
    exact bind_ok hrun (bind_ok hstep rfl)

/-! ## Faults -/

theorem exists_first_offence (fields : List (HeaderName × HeaderValue)) :
    (∀ field ∈ fields, Readable field) ∨ ∃ before field after fault,
      fields = before ++ field :: after ∧ (∀ earlier ∈ before, Readable earlier) ∧
        Offends field fault := by
  induction fields with
  | nil => exact .inl (List.forall_mem_nil _)
  | cons field rest ih =>
    rcases readable_or_offends field with hfield | ⟨fault, hfault⟩
    · rcases ih with hrest | ⟨before, bad, after, fault, rfl, hbefore, hfault⟩
      · exact .inl (List.forall_mem_cons.2 ⟨hfield, hrest⟩)
      · exact .inr ⟨field :: before, bad, after, fault, rfl,
          List.forall_mem_cons.2 ⟨hfield, hbefore⟩, hfault⟩
    · exact .inr ⟨[], field, rest, fault, rfl, List.forall_mem_nil _, hfault⟩

theorem extractProperties_offends {h : Headers} {before after : List (HeaderName × HeaderValue)}
    {field : HeaderName × HeaderValue} {fault : HeaderFault} (hwalk : h.walk = before ++ field :: after)
    (hbefore : ∀ earlier ∈ before, Readable earlier) (hfault : Offends field fault) :
    extractProperties α h = .error (.invalidHeader field.1.text fault) := by
  obtain ⟨found, hrun, -⟩ := exists_agrees (α := α) before hbefore
  have hstep : (field :: after).foldlM takeField found =
      .error (.invalidHeader field.1.text fault) := by
    rw [List.foldlM_cons, takeField_offends hfault]
    rfl
  rw [extractProperties, hwalk, List.foldlM_append, hrun]
  exact hstep

/-! ## Whole headers -/

theorem HeaderName.text_injective {a b : HeaderName} (h : a.text = b.text) : a = b := by
  cases a
  cases b
  cases h
  rfl

theorem Headers.lastText?_walk (h : Headers) (name : String) :
    Headers.lastText? ⟨h.walk⟩ name = h.lastText? name := by
  have hfilter : (h.walk.filter fun field => field.1.text = name) =
      h.fields.filter fun field => field.1.text = name := by
    by_cases hname : ∃ n : HeaderName, n.text = name
    · obtain ⟨n, rfl⟩ := hname
      have htext (field : HeaderName × HeaderValue) : field.1.text = n.text ↔ field.1 = n :=
        ⟨HeaderName.text_injective, congrArg HeaderName.text⟩
      simp only [htext]
      exact h.filter_walk n
    · have hnone (fields : List (HeaderName × HeaderValue)) :
          (fields.filter fun field => field.1.text = name) = [] :=
        List.filter_eq_nil_iff.2 fun field _ hfield => hname ⟨field.1, of_decide_eq_true hfield⟩
      rw [hnone, hnone]
  rw [Headers.lastText?, Headers.lastText?, hfilter]

end

theorem HeaderName.ofText?_congr {spelled respelled : String}
    (h : spelled.toList.map lowerAscii = respelled.toList.map lowerAscii) :
    HeaderName.ofText? spelled = HeaderName.ofText? respelled := by
  simp only [HeaderName.ofText?, h]

/-- Headers that report nothing have no effect. -/
theorem extractProperties_filter (α : Type) [PropertyRecord α] (h : Headers) :
    extractProperties α ⟨h.fields.filter fun field => Reports field.1.text⟩ = extractProperties α h := by
  have hwalk := h.walk_filter fun name => Reports name.text
  rw [extractProperties, extractProperties, hwalk]
  refine foldlM_filter _ (fun found field hfield => ?_) _ _
  exact takeField_other (of_decide_eq_false hfield)

/-! ## Main statement -/

/-- What extraction of records of a kind does, given the record that headers stand for. -/
structure Extracts (α : Type) [PropertyRecord α] (ofHeaders : Headers → α) : Prop where
  /-- It succeeds exactly if every header that reports something can be read. -/
  succeeds (h : Headers) :
    (∃ result, extractProperties α h = .ok result) ↔ ∀ field ∈ h.fields, Readable field
  /-- Then the record has the last value of each header of a property, and the metadata that of each
  header of metadata. -/
  ok (h : Headers) : (∀ field ∈ h.fields, Readable field) → ∃ metadata : Metadata,
    extractProperties α h = .ok (ofHeaders h, metadata) ∧
      ∀ key text, (key, text) ∈ metadata.entries ↔ h.lastText? (metadataMark ++ key) = some text
  /-- Otherwise the error names the first header of a walk that cannot be read. -/
  error (h : Headers) : (¬ ∀ field ∈ h.fields, Readable field) → ∃ before field after fault,
    h.walk = before ++ field :: after ∧ (∀ earlier ∈ before, Readable earlier) ∧
      Offends field fault ∧ extractProperties α h = .error (.invalidHeader field.1.text fault)
  /-- Other headers have no effect. -/
  other (h : Headers) : extractProperties α ⟨h.fields.filter fun field => Reports field.1.text⟩ =
    extractProperties α h
  /-- A header can be named in any letter case. -/
  spelling (h : Headers) (value : HeaderValue) {spelled respelled : String} {name other : HeaderName} :
    spelled.toList.map lowerAscii = respelled.toList.map lowerAscii →
      HeaderName.ofText? spelled = some name → HeaderName.ofText? respelled = some other →
      extractProperties α (h.append name value) = extractProperties α (h.append other value)

theorem extracts_of_reported {α : Type} [PropertyRecord α] [ReportedRecord α]
    {ofHeaders : Headers → α} (hreported : ∀ h, reported h.propertyText? = ofHeaders h) :
    Extracts α ofHeaders := by
  have hok (h : Headers) (hread : ∀ field ∈ h.fields, Readable field) : ∃ metadata : Metadata,
      extractProperties α h = .ok (ofHeaders h, metadata) ∧
        ∀ key text, (key, text) ∈ metadata.entries ↔
          h.lastText? (metadataMark ++ key) = some text := by
    obtain ⟨⟨record, metadata⟩, hrun, hrecord, hmetadata⟩ :=
      exists_agrees (α := α) h.walk fun field hfield => hread field (Headers.mem_walk.1 hfield)
    refine ⟨metadata, ?_, fun key text => ?_⟩
    · have htexts : Headers.propertyText? ⟨h.walk⟩ = h.propertyText? :=
        funext fun p => h.lastText?_walk p.headerName
      rw [extractProperties, hrun, ← hreported, ← htexts, ← hrecord]
    · rw [Metadata.mem_entries_iff, ← h.lastText?_walk, ← hmetadata]
  have herror (h : Headers) (hread : ¬ ∀ field ∈ h.fields, Readable field) :
      ∃ before field after fault, h.walk = before ++ field :: after ∧
        (∀ earlier ∈ before, Readable earlier) ∧ Offends field fault ∧
        extractProperties α h = .error (.invalidHeader field.1.text fault) := by
    rcases exists_first_offence h.walk with hall | ⟨before, field, after, fault, hwalk, hbefore, hfault⟩
    · exact absurd (fun field hfield => hall field (Headers.mem_walk.2 hfield)) hread
    · exact ⟨before, field, after, fault, hwalk, hbefore, hfault,
        extractProperties_offends hwalk hbefore hfault⟩
  refine ⟨fun h => ⟨fun ⟨result, hresult⟩ => ?_, fun hread => ?_⟩, hok, herror,
    extractProperties_filter α, fun h value spelled respelled name other hcase hname hother => ?_⟩
  · by_contra hread
    obtain ⟨_, _, _, _, _, _, _, hfail⟩ := herror h hread
    rw [hresult] at hfail
    cases hfail
  · obtain ⟨metadata, hresult, -⟩ := hok h hread
    exact ⟨_, hresult⟩
  · rw [HeaderName.ofText?_congr hcase, hother] at hname
    rw [Option.some.inj hname]

/-- Extraction of all four kinds of records. -/
theorem extractProperties_extracts :
    Extracts BlobProperties BlobProperties.ofHeaders ∧
    Extracts FileProperties FileProperties.ofHeaders ∧
    Extracts ShareProperties ShareProperties.ofHeaders ∧
    Extracts DirectoryProperties DirectoryProperties.ofHeaders :=
  ⟨extracts_of_reported fun _ => rfl, extracts_of_reported fun _ => rfl,
    extracts_of_reported fun _ => rfl, extracts_of_reported fun _ => rfl⟩

/-- A header that comes twice, among metadata and a header that reports nothing. -/
theorem extractProperties_extracts_repeated : ∃ metadata : Metadata,
    extractProperties BlobProperties
      ⟨[(.contentLength, ⟨encode "7", by decide +kernel⟩),
        (.date, ⟨encode "today", by decide +kernel⟩),
        (⟨"x-ms-meta-k", by decide, by decide, by decide⟩, ⟨encode "v", by decide +kernel⟩),
        (.contentLength, ⟨encode " 8 ", by decide +kernel⟩)]⟩ =
      .ok ({ contentLength := some 8 }, metadata) ∧ ("k", "v") ∈ metadata.entries := by
  have hinstant : HeaderName.contentLength.text ≠ instantHeader := by decide
  have hdate : ¬ Reports HeaderName.date.text := by decide
  have hlength (value : HeaderValue) (s : String) (n : Int64) (hs : value.bytes = encode s)
      (hn : readDecimal Int64 s = .ok n) : Readable (.contentLength, value) :=
    fun _ => ⟨s, hs, fun _ => ⟨n, hn⟩, fun hname => absurd hname hinstant⟩
  obtain ⟨metadata, hresult, hentries⟩ := extractProperties_extracts.1.ok
    ⟨[(.contentLength, ⟨encode "7", by decide +kernel⟩),
      (.date, ⟨encode "today", by decide +kernel⟩),
      (⟨"x-ms-meta-k", by decide, by decide, by decide⟩, ⟨encode "v", by decide +kernel⟩),
      (.contentLength, ⟨encode " 8 ", by decide +kernel⟩)]⟩
    (by
      simp only [List.forall_mem_cons]
      refine ⟨hlength _ "7" 7 rfl (by decide +kernel), fun h => absurd h hdate,
        fun _ => ⟨"v", rfl, fun h => absurd h (by decide), fun h => absurd h (by decide)⟩,
        hlength _ " 8 " 8 rfl (by decide +kernel), List.forall_mem_nil _⟩)
  exact ⟨metadata, hresult, (hentries "k" "v").2 (by decide +kernel)⟩

end ShareWire.Http
