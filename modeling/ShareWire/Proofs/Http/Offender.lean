import ShareWire.Http.Response
import ShareWire.Proofs.Http.LegalItems

/-!
# Offenders

An error about a header gives its name. Main statement: a name that a response is blamed under is that of
one of its fields, hence in lower case, and the field is at fault; a name that a request is blamed under is
that of a field to be added, at fault as well, with metadata spelled as in the request.
-/

namespace ShareWire.Http

open Time (Instant)

def LowerCased (s : String) : Prop :=
  ∀ c ∈ s.toList, ¬ ('A' ≤ c ∧ c ≤ 'Z')

instance (s : String) : Decidable (LowerCased s) :=
  List.decidableBAll (fun c => ¬ ('A' ≤ c ∧ c ≤ 'Z')) s.toList

theorem lowerCased_append {s t : String} : LowerCased (s ++ t) ↔ LowerCased s ∧ LowerCased t := by
  rw [LowerCased, String.toList_append, List.forall_mem_append]
  rfl

theorem HeaderName.lowerCased (name : HeaderName) : LowerCased name.text :=
  fun c hc => not_upper_of_isNameChar (List.all_eq_true.1 name.token c hc)

/-! ## Responses -/

/-- Among the fields there is one of this name, and it is at fault. -/
def Headers.Offends (headers : Headers) (name : String) (fault : HeaderFault) : Prop :=
  ∃ field ∈ headers.fields, field.1.text = name ∧ Http.Offends field fault

theorem Headers.Offends.lowerCased {headers : Headers} {name : String} {fault : HeaderFault}
    (h : headers.Offends name fault) : LowerCased name := by
  obtain ⟨field, -, rfl, -⟩ := h
  exact field.1.lowerCased

section

variable {α : Type} [PropertyRecord α] (found : α × Metadata) {field : HeaderName × HeaderValue}

theorem exists_takeField_of_readable (h : Readable field) : ∃ next, takeField found field = .ok next := by
  by_cases hreports : Reports field.1.text
  · obtain ⟨s, hs, hinteger, hinstant⟩ := h hreports
    have htext : fieldText field.1 field.2 = .ok s := fieldText_eq_ok_iff.2 hs
    rcases hreports with ⟨key, hname⟩ | hmapped
    · exact ⟨_, (takeField_metadata hname).trans (bind_ok htext rfl)⟩
    · obtain ⟨p, hname⟩ := mem_mappedHeaders.1 hmapped
      obtain ⟨v, hv⟩ := convert_of_readable hname hinteger hinstant
      exact ⟨_, (takeField_property hname).trans (bind_ok htext (bind_ok hv rfl))⟩
  · exact ⟨found, takeField_other hreports⟩

theorem offends_of_takeField {error : ExchangeError} (h : takeField found field = .error error) :
    ∃ fault, error = .invalidHeader field.1.text fault ∧ Offends field fault := by
  rcases readable_or_offends field with hread | ⟨fault, hfault⟩
  · obtain ⟨next, hnext⟩ := exists_takeField_of_readable found hread
    rw [hnext] at h
    contradiction
  · rw [takeField_offends hfault] at h
    exact ⟨fault, (Except.error.inj h).symm, hfault⟩

end

/-- Whatever the records are, extraction fails with an offender only. -/
theorem offends_of_extractProperties {α : Type} [PropertyRecord α] {headers : Headers}
    {error : ExchangeError} (h : extractProperties α headers = .error error) :
    ∃ name fault, error = .invalidHeader name fault ∧ headers.Offends name fault := by
  obtain ⟨before, field, after, found, hwalk, -, hfound⟩ := exists_of_foldlM_error h
  have hfield : field ∈ headers.walk := by
    rw [hwalk]
    exact List.mem_append_right before List.mem_cons_self
  obtain ⟨fault, rfl, hfault⟩ := offends_of_takeField found hfound
  exact ⟨_, fault, rfl, field, Headers.mem_walk.1 hfield, rfl, hfault⟩

theorem offends_of_file {response : Response} {name : String} {error : ExchangeError}
    (h : response.file name = .error error) :
    ∃ name fault, error = .invalidHeader name fault ∧ response.headers.Offends name fault := by
  rw [Response.file] at h
  rcases bind_error_iff.1 h with hextract | ⟨found, -, h⟩
  · exact offends_of_extractProperties hextract
  · cases h

/-! ## Requests -/

/-- The fields that cannot be added to a request, under the names that they are blamed under. The name of
metadata is the one in the request, whatever its letters are. -/
inductive Request.Refuses (request : Request) : Updater → String → HeaderFault → Prop
  | version {apiVersion userAgent : String} : ¬ LegalValue apiVersion →
      Refuses request (.standard apiVersion userAgent) "x-ms-version" .badValue
  | agent {apiVersion userAgent : String} : ¬ LegalValue userAgent →
      Refuses request (.standard apiVersion userAgent) "user-agent" .badValue
  | metadata {apiVersion userAgent : String} {entry : String × String} {fault : HeaderFault} :
      entry ∈ request.metadata.entries →
      Item.Refused ⟨"x-ms-meta-" ++ entry.1, entry.2⟩ fault →
      Refuses request (.standard apiVersion userAgent) ("x-ms-meta-" ++ entry.1) fault

/-- Under a name that is legal, only the text can be at fault. -/
theorem Item.Refused.text_of_legal {item : Item} {fault : HeaderFault} (h : item.Refused fault)
    (hname : LegalName item.spelled) : fault = .badValue ∧ ¬ LegalValue item.text := by
  cases h with
  | name hillegal => exact absurd hname hillegal
  | text _ htext => exact ⟨rfl, htext⟩

theorem Request.refuses_of_item {request : Request} {apiVersion userAgent : String} {item : Item}
    {fault : HeaderFault} (hitem : item ∈ request.items apiVersion userAgent)
    (h : item.Refused fault) :
    request.Refuses (.standard apiVersion userAgent) item.spelled fault := by
  simp only [items, List.mem_append, List.mem_cons, List.not_mem_nil, or_false] at hitem
  rcases hitem with (hlength | rfl | rfl) | hmetadata
  · exact absurd (legal_of_mem_lengthItems hlength) h.not_legal
  · obtain ⟨rfl, htext⟩ := h.text_of_legal legalName_version
    exact .version htext
  · obtain ⟨rfl, htext⟩ := h.text_of_legal legalName_userAgent
    exact .agent htext
  · obtain ⟨entry, hentry, rfl⟩ := List.mem_map.1 hmetadata
    exact .metadata hentry h

theorem Request.refuses_of_updater {request : Request} {updater : Updater} {error : ExchangeError}
    (h : (request.apply updater.run).1 = .error error) :
    ∃ name fault, error = .invalidHeader name fault ∧ request.Refuses updater name fault := by
  rw [Updater.apply_run] at h
  cases updater with
  | none => cases h
  | standard apiVersion userAgent =>
    rw [Updater.drafts_eq_map_items] at h
    have hends := Draft.ends (request.items apiVersion userAgent)
    rw [show Draft.outcome _ = _ from h] at hends
    generalize hitems : request.items apiVersion userAgent = items at hends
    cases hends with
    | stopped _ _ hrefused =>
      refine ⟨_, _, rfl, Request.refuses_of_item ?_ hrefused⟩
      rw [hitems]
      exact List.mem_append_right _ List.mem_cons_self

/-- The date of a request can always be added, and what a signer refuses is no header. -/
theorem signRequest_invalidHeader_iff {request : Request} {updater : Updater} {signer : Signer}
    {now : Instant} {name : String} {fault : HeaderFault} :
    (request.apply (signRequest updater signer now)).1 = .error (.invalidHeader name fault) ↔
      (request.apply updater.run).1 = .error (.invalidHeader name fault) := by
  cases hupdater : (request.apply updater.run).1 with
  | error error => rw [apply_signRequest_of_error hupdater, hupdater]
  | ok =>
    rw [apply_signRequest_of_ok hupdater, Request.signed]
    refine iff_of_false (fun h => ?_) (by simp)
    cases hsigner :
      (signer.run.run ((request.apply updater.run).2.extend (stamp now))).1 with
    | ok => rw [hsigner] at h; cases h
    | error reason => rw [hsigner] at h; cases h

/-- Capital letters in a name come from metadata. -/
theorem Request.Refuses.lowerCased_iff {request : Request} {updater : Updater} {name : String}
    {fault : HeaderFault} (h : request.Refuses updater name fault) :
    LowerCased name ↔ ∀ entry ∈ request.metadata.entries, name = "x-ms-meta-" ++ entry.1 →
      LowerCased entry.1 := by
  constructor
  · rintro hname entry - rfl
    exact (lowerCased_append.1 hname).2
  · intro hentries
    cases h with
    | version => decide
    | agent => decide
    | metadata hentry => exact lowerCased_append.2 ⟨by decide, hentries _ hentry rfl⟩

/-! ## Main statement -/

/-- A name that a response is blamed under is that of a field at fault, and it has no capital letters. A
name that a request is blamed under is the name of a field to be added, also at fault, in lower case unless
it is that of metadata with capital letters. Signing blames no other names. -/
theorem invalidHeader_offender (name : String) (fault : HeaderFault) :
    (∀ (α : Type) [PropertyRecord α] (headers : Headers),
      extractProperties α headers = .error (.invalidHeader name fault) →
        LowerCased name ∧ headers.Offends name fault) ∧
    (∀ (response : Response) (known : String),
      response.file known = .error (.invalidHeader name fault) →
        LowerCased name ∧ response.headers.Offends name fault) ∧
    (∀ (updater : Updater) (request : Request),
      (request.apply updater.run).1 = .error (.invalidHeader name fault) →
        request.Refuses updater name fault ∧
        (LowerCased name ↔ ∀ entry ∈ request.metadata.entries, name = "x-ms-meta-" ++ entry.1 →
          LowerCased entry.1)) ∧
    ∀ (updater : Updater) (signer : Signer) (now : Instant) (request : Request),
      (request.apply (signRequest updater signer now)).1 = .error (.invalidHeader name fault) ↔
        (request.apply updater.run).1 = .error (.invalidHeader name fault) := by
  refine ⟨fun α _ headers h => ?_, fun response known h => ?_, fun updater request h => ?_,
    fun updater signer now request => signRequest_invalidHeader_iff⟩
  · obtain ⟨_, _, herror, hoffends⟩ := offends_of_extractProperties h
    cases herror
    exact ⟨hoffends.lowerCased, hoffends⟩
  · obtain ⟨_, _, herror, hoffends⟩ := offends_of_file h
    cases herror
    exact ⟨hoffends.lowerCased, hoffends⟩
  · obtain ⟨_, _, herror, hrefuses⟩ := Request.refuses_of_updater h
    cases herror
    exact ⟨hrefuses, hrefuses.lowerCased_iff⟩

/-- A length that is no number, in a response, and an agent with the end of a line, in a request. -/
theorem invalidHeader_offender_length_agent :
    (LowerCased "content-length" ∧ Headers.Offends
      ⟨[(.contentLength, ⟨Text.encode "x", by decide +kernel⟩)]⟩ "content-length"
      (.integer "x" .invalidDigit)) ∧
    Request.Refuses ⟨"GET", "/", ∅, ∅, []⟩ (.standard "1" "a\n") "user-agent" .badValue :=
  ⟨(invalidHeader_offender "content-length" (.integer "x" .invalidDigit)).1 FileProperties
      ⟨[(.contentLength, ⟨Text.encode "x", by decide +kernel⟩)]⟩ (by decide +kernel),
    ((invalidHeader_offender "user-agent" .badValue).2.2.1 (.standard "1" "a\n")
      ⟨"GET", "/", ∅, ∅, []⟩ (by decide +kernel)).1⟩

/-- A control character in the metadata of a request: the name has the capital letter of its key. -/
theorem updater_blames_spelled_name :
    let request : Request := ⟨"GET", "/", ∅, .ofList [("Color", "a\x01b")], []⟩
    (request.apply (Updater.standard "2015-04-05" "azfile/0.1.0").run).1 =
      .error (.invalidHeader "x-ms-meta-Color" .badValue) ∧ ¬ LowerCased "x-ms-meta-Color" := by
  decide +kernel

end ShareWire.Http
