import Mathlib.Algebra.Group.Nat.Defs
import ShareWire.Proofs.Http.Extraction
import ShareWire.Proofs.Http.Run
import ShareWire.Proofs.Text.Integer

/-!
# Reading the fields of requests

A request says in its header fields what a response says of a resource: metadata, the length of the body
and its type. Main statement: from the fields of a signed request the reader of responses gets back what
was put into the request, with the names of metadata in lower case, and nothing else.
-/

namespace ShareWire.Http

open Text (encode lowerAscii)
open Time (Instant)
open ReportedRecord (reported)

def lowered (s : String) : String :=
  String.ofList (s.toList.map lowerAscii)

/-- A request without header fields for which all common fields can be built. -/
structure Request.Sendable (request : Request) (apiVersion userAgent : String) : Prop where
  fresh : request.headers = ∅
  version : (HeaderValue.ofText? apiVersion).isSome
  agent : (HeaderValue.ofText? userAgent).isSome
  names : ∀ entry ∈ request.metadata.entries, (HeaderName.ofText? (metadataMark ++ entry.1)).isSome
  values : ∀ entry ∈ request.metadata.entries, (HeaderValue.ofText? entry.2).isSome
  /-- Names of metadata differ in more than the case of their letters. -/
  distinct : (request.metadata.entries.map fun entry => lowered entry.1).Nodup
  /-- A body that is sent fits into memory, so its length is a signed integer of 64 bits. -/
  body : carriesBody request.method = true → request.body.length < 2 ^ 63

/-- A signer that accepts a request and changes its authorization at most. -/
def Signer.Authorizes (signer : Signer) (request : Request) : Prop :=
  (signer.run.run request).1 = .ok () ∧ (signer.run.run request).2.Agrees request

/-! ## Common fields that can be built -/

theorem HeaderName.text_of_ofText? {s : String} {name : HeaderName} (h : ofText? s = some name) :
    name.text = lowered s := by
  rw [lowered, ← toList_of_ofText? h, String.ofList_toList]

theorem lowered_append (s t : String) : lowered (s ++ t) = lowered s ++ lowered t := by
  rw [lowered, String.toList_append, List.map_append, String.ofList_append]
  rfl

theorem HeaderValue.bytes_of_ofText? {s : String} {value : HeaderValue} (h : ofText? s = some value) :
    value.bytes = encode s := by
  rw [ofText?, ofBytes?] at h
  split at h
  · cases h
    rfl
  · cases h

namespace Draft

theorem build_of_isSome (name : HeaderName) {text : String}
    (h : (HeaderValue.ofText? text).isSome) :
    ∃ value : HeaderValue, build (some name) text = .ok (name, value) ∧ value.bytes = encode text := by
  obtain ⟨value, hvalue⟩ := Option.isSome_iff_exists.1 h
  refine ⟨value, ?_, HeaderValue.bytes_of_ofText? hvalue⟩
  simp only [build, hvalue]

theorem cons_ok {draft : Draft} {field : HeaderName × HeaderValue} (h : draft.field = .ok field)
    (drafts : List Draft) :
    outcome (draft :: drafts) = outcome drafts ∧ fields (draft :: drafts) = field :: fields drafts := by
  rw [outcome, fields, h]
  exact ⟨rfl, rfl⟩

/-- A field of metadata, as it is built from an entry. -/
def Carries (entry : String × String) (field : HeaderName × HeaderValue) : Prop :=
  field.1.text = metadataMark ++ lowered entry.1 ∧ field.2.bytes = encode entry.2

theorem metadata_fields {entries : List (String × String)}
    (hnames : ∀ entry ∈ entries, (HeaderName.ofText? (metadataMark ++ entry.1)).isSome)
    (hvalues : ∀ entry ∈ entries, (HeaderValue.ofText? entry.2).isSome) :
    outcome (entries.map metadata) = .ok () ∧
    ((fields (entries.map metadata)).map fun field => field.1.text) =
      entries.map (fun entry => metadataMark ++ lowered entry.1) ∧
    ∀ entry ∈ entries, ∃ field ∈ fields (entries.map metadata), Carries entry field := by
  induction entries with
  | nil => exact ⟨rfl, rfl, List.forall_mem_nil _⟩
  | cons entry entries ih =>
    obtain ⟨hname, hnames⟩ := List.forall_mem_cons.1 hnames
    obtain ⟨hvalue, hvalues⟩ := List.forall_mem_cons.1 hvalues
    obtain ⟨name, hname⟩ := Option.isSome_iff_exists.1 hname
    obtain ⟨value, hbuild, hbytes⟩ := build_of_isSome name hvalue
    have hfield : (metadata entry).field = .ok (name, value) := by
      rw [field_metadata, hname, hbuild]
    have htext : name.text = metadataMark ++ lowered entry.1 := by
      rw [HeaderName.text_of_ofText? hname, lowered_append]
      rfl
    obtain ⟨hlater, hlaterNames, hlaterCarries⟩ := ih hnames hvalues
    obtain ⟨houtcome, hfields⟩ := cons_ok hfield (entries.map metadata)
    rw [List.map_cons, houtcome, hfields, List.map_cons, List.map_cons, hlaterNames, htext]
    refine ⟨hlater, rfl, List.forall_mem_cons.2 ⟨⟨_, List.mem_cons_self, htext, hbytes⟩, ?_⟩⟩
    intro other hother
    obtain ⟨field, hmem, hcarries⟩ := hlaterCarries other hother
    exact ⟨field, List.mem_cons_of_mem _ hmem, hcarries⟩

end Draft

/-! ## All fields before the signature -/

/-- The names of the fields that a request gets, in order. -/
def Request.fieldNames (request : Request) : List String :=
  (if carriesBody request.method then ["content-length"] else []) ++ ["x-ms-version", "user-agent"] ++
    (request.metadata.entries.map fun entry => metadataMark ++ lowered entry.1) ++
    ["x-ms-date", "content-type"]

/-- The fields that a request gets before it is signed. -/
structure Request.Prepares (request : Request) (fields : List (HeaderName × HeaderValue)) : Prop where
  names : fields.map (fun field => field.1.text) = request.fieldNames
  length : carriesBody request.method = true →
    (HeaderName.contentLength, HeaderValue.ofNat request.body.length) ∈ fields
  type : (HeaderName.contentType, octetStream) ∈ fields
  metadata : ∀ entry ∈ request.metadata.entries, ∃ field ∈ fields, Draft.Carries entry field

variable {request : Request} {apiVersion userAgent : String}

theorem Request.Sendable.prepares (h : request.Sendable apiVersion userAgent) (now : Instant) :
    let drafts := (Updater.standard apiVersion userAgent).drafts request
    Draft.outcome drafts = .ok () ∧ request.Prepares (Draft.fields drafts ++ stamp now) := by
  intro drafts
  obtain ⟨version, hversion, -⟩ := Draft.build_of_isSome .version h.version
  obtain ⟨agent, hagent, -⟩ := Draft.build_of_isSome .userAgent h.agent
  obtain ⟨hmetadata, hnames, hcarries⟩ := Draft.metadata_fields h.names h.values
  obtain ⟨hversionOutcome, hversionFields⟩ := Draft.cons_ok
    (show (Draft.version apiVersion).field = _ from hversion)
    (.userAgent userAgent :: request.metadata.entries.map .metadata)
  obtain ⟨hagentOutcome, hagentFields⟩ := Draft.cons_ok
    (show (Draft.userAgent userAgent).field = _ from hagent)
    (request.metadata.entries.map .metadata)
  obtain ⟨houtcome, hfields⟩ : Draft.outcome drafts = .ok () ∧ Draft.fields drafts =
      (if carriesBody request.method then
          [(HeaderName.contentLength, HeaderValue.ofNat request.body.length)] else []) ++
        (.version, version) :: (.userAgent, agent) ::
          Draft.fields (request.metadata.entries.map .metadata) := by
    rw [← hagentFields, ← hversionFields, ← hmetadata, ← hagentOutcome, ← hversionOutcome]
    simp only [drafts, Updater.drafts]
    split
    · exact Draft.cons_ok rfl _
    · exact ⟨rfl, rfl⟩
  rw [hfields]
  refine ⟨houtcome, ?_, fun hbody => ?_, ?_, fun entry hentry => ?_⟩
  · simp only [List.map_append, List.map_cons, hnames, fieldNames]
    split <;> simp [stamp, HeaderName.contentLength, HeaderName.version, HeaderName.userAgent,
      HeaderName.date, HeaderName.contentType]
  · simp [hbody]
  · simp [stamp]
  · obtain ⟨field, hfield, hentry⟩ := hcarries entry hentry
    exact ⟨field, by simp [hfield], hentry⟩

/-! ## Names that come once -/

theorem metadataMark_append_ne {name : String} (h : metadataName? name = none) (key : String) :
    metadataMark ++ key ≠ name := by
  intro hname
  rw [metadataName?_eq_some_iff.2 hname.symm] at h
  cases h

theorem nodup_fieldNames (h : request.Sendable apiVersion userAgent) : request.fieldNames.Nodup := by
  have hdistinct :
      (request.metadata.entries.map fun entry => metadataMark ++ lowered entry.1).Nodup := by
    have hinjective : Function.Injective (metadataMark ++ ·) :=
      fun s t => (String.append_right_inj _).1
    have hmap := h.distinct.map hinjective
    rwa [List.map_map] at hmap
  have hfirst : ∀ name ∈ ["content-length", "x-ms-version", "user-agent"],
      metadataName? name = none := by decide
  have hlast : ∀ name ∈ ["x-ms-date", "content-type"], metadataName? name = none ∧
      name ∉ ["content-length", "x-ms-version", "user-agent"] := by decide
  have hlength : ∀ name, name ∈ (if carriesBody request.method then ["content-length"] else []) ++
      ["x-ms-version", "user-agent"] → name ∈ ["content-length", "x-ms-version", "user-agent"] := by
    intro name hname
    split at hname
    · exact hname
    · exact List.mem_cons_of_mem _ hname
  rw [Request.fieldNames, List.nodup_append, List.nodup_append]
  refine ⟨⟨?_, hdistinct, ?_⟩, by decide, ?_⟩
  · split <;> decide
  · intro name hname own hown
    obtain ⟨entry, -, rfl⟩ := List.mem_map.1 hown
    exact (metadataMark_append_ne (hfirst name (hlength name hname)) _).symm
  · intro name hname last hmem
    obtain ⟨hnone, hother⟩ := hlast last hmem
    rcases List.mem_append.1 hname with hname | hname
    · rintro rfl
      exact hother (hlength name hname)
    · obtain ⟨entry, -, rfl⟩ := List.mem_map.1 hname
      exact metadataMark_append_ne hnone _

theorem HeaderValue.toOption_text_eq_some_iff {value : HeaderValue} {s : String} :
    value.text.toOption = some s ↔ value.bytes = encode s := by
  rw [← Text.decode_eq_ok_iff, text]
  cases Text.decode value.bytes with
  | error fault => simp [Except.toOption]
  | ok t => simp [Except.toOption]

namespace Headers

/-- A header that comes once has the text of its value. -/
theorem lastText?_eq_some_iff {fields : List (HeaderName × HeaderValue)} {name s : String}
    (h : (fields.map fun field => field.1.text).Nodup) :
    lastText? ⟨fields⟩ name = some s ↔
      ∃ field ∈ fields, field.1.text = name ∧ field.2.bytes = encode s := by
  induction fields with
  | nil => simp [lastText?]
  | cons field fields ih =>
    obtain ⟨hfirst, hrest⟩ := List.nodup_cons.1 h
    by_cases hname : field.1.text = name
    · have hother : ∀ other ∈ fields, other.1.text ≠ name := by
        rintro other hother rfl
        exact hfirst (List.mem_map.2 ⟨other, hother, hname.symm⟩)
      have hnone : (fields.filter fun other => other.1.text = name) = [] :=
        List.filter_eq_nil_iff.2 fun other hmem => by simpa using hother other hmem
      have htext : lastText? ⟨field :: fields⟩ name = field.2.text.toOption := by
        rw [lastText?, List.filter_cons_of_pos (by simpa using hname), hnone]
        rfl
      rw [htext, HeaderValue.toOption_text_eq_some_iff]
      constructor
      · intro hbytes
        exact ⟨field, List.mem_cons_self, hname, hbytes⟩
      · rintro ⟨other, hmem, hown, hbytes⟩
        rcases List.mem_cons.1 hmem with rfl | hmem
        · exact hbytes
        · exact absurd hown (hother other hmem)
    · have htail : lastText? ⟨field :: fields⟩ name = lastText? ⟨fields⟩ name := by
        rw [lastText?, List.filter_cons_of_neg (by simpa using hname)]
        rfl
      rw [htail, ih hrest]
      simp [hname]

theorem lastText?_of_mem {fields : List (HeaderName × HeaderValue)} {field : HeaderName × HeaderValue}
    {s : String} (h : (fields.map fun field => field.1.text).Nodup) (hfield : field ∈ fields)
    (hbytes : field.2.bytes = encode s) : lastText? ⟨fields⟩ field.1.text = some s :=
  (lastText?_eq_some_iff h).2 ⟨field, hfield, rfl, hbytes⟩

theorem mem_names_of_lastText? {h : Headers} {name s : String} (hs : h.lastText? name = some s) :
    name ∈ h.fields.map fun field => field.1.text := by
  obtain ⟨field, hlast, -⟩ := Option.bind_eq_some_iff.1 hs
  obtain ⟨hmem, hname⟩ := List.mem_filter.1 (List.mem_of_getLast? hlast)
  exact List.mem_map.2 ⟨field, hmem, of_decide_eq_true hname⟩

theorem mem_values {h : Headers} {name : HeaderName} {value : HeaderValue} :
    value ∈ h.values name ↔ (name, value) ∈ h.fields := by
  simp [values]

theorem lastText?_eq_getLast? (h : Headers) (name : HeaderName) :
    h.lastText? name.text = (h.values name).getLast?.bind fun value => value.text.toOption := by
  have htext (field : HeaderName × HeaderValue) : field.1.text = name.text ↔ field.1 = name :=
    ⟨HeaderName.text_injective, congrArg HeaderName.text⟩
  rw [lastText?, values, List.getLast?_map, Option.bind_map]
  simp only [htext]
  rfl

/-- Headers whose names have the same values, the authorization aside, report the same texts. -/
theorem lastText?_congr {h h' : Headers}
    (hvalues : ∀ name, name ≠ .authorization → h.values name = h'.values name) {name : String}
    (hname : name ≠ HeaderName.authorization.text) : h.lastText? name = h'.lastText? name := by
  by_cases hlegal : ∃ own : HeaderName, own.text = name
  · obtain ⟨own, rfl⟩ := hlegal
    have hown : own ≠ .authorization := by
      rintro rfl
      exact hname rfl
    rw [lastText?_eq_getLast?, lastText?_eq_getLast?, hvalues own hown]
  · have hnone (g : Headers) : g.lastText? name = none := by
      refine Option.eq_none_iff_forall_ne_some.2 fun s hs => ?_
      obtain ⟨field, -, hfield⟩ := List.mem_map.1 (mem_names_of_lastText? hs)
      exact hlegal ⟨field.1, hfield⟩
    rw [hnone, hnone]

end Headers

/-! ## What is read -/

theorem readDecimal_toString {n : Nat} (h : n < 2 ^ 63) :
    readDecimal Int64 (toString n) = .ok (Int64.ofNat n) := by
  have htext : toString n = Text.integerText (Int64.ofNat n) :=
    congrArg (fun i : Int => toString i) (Int64.toInt_ofNat_of_lt h).symm
  rw [htext, readDecimal, Text.trim_integerText, Text.readInteger_integerText]

def Request.propertyText? (request : Request) : Property → Option String
  | .contentLength =>
    if carriesBody request.method then some (toString request.body.length) else none
  | .contentType => some "application/octet-stream Charset=UTF-8"
  | _ => none

theorem Request.propertyText?_eq_none {request : Request} {p : Property}
    (hlength : ¬ (p = .contentLength ∧ carriesBody request.method = true)) (htype : p ≠ .contentType) :
    request.propertyText? p = none := by
  unfold propertyText?
  split
  · exact if_neg fun hbody => hlength ⟨rfl, hbody⟩
  · exact absurd rfl htype
  · rfl

theorem Request.mem_fieldNames {request : Request} {name : String} (h : name ∈ request.fieldNames) :
    (name = "content-length" ∧ carriesBody request.method = true) ∨
      name ∈ ["x-ms-version", "user-agent", "x-ms-date", "content-type"] ∨
      ∃ entry ∈ request.metadata.entries, name = metadataMark ++ lowered entry.1 := by
  simp only [fieldNames, List.mem_append] at h
  rcases h with ((h | h) | h) | h
  · split at h
    · next hbody => exact .inl ⟨List.mem_singleton.1 h, hbody⟩
    · cases h
  · exact .inr (.inl (List.mem_append_left ["x-ms-date", "content-type"] h))
  · obtain ⟨entry, hentry, hname⟩ := List.mem_map.1 h
    exact .inr (.inr ⟨entry, hentry, hname.symm⟩)
  · exact .inr (.inl (List.mem_append_right ["x-ms-version", "user-agent"] h))

theorem Request.headerName_mem_fieldNames {request : Request} {p : Property}
    (h : p.headerName ∈ request.fieldNames) :
    p = .contentLength ∧ carriesBody request.method = true ∨ p = .contentType := by
  rcases mem_fieldNames h with ⟨hname, hbody⟩ | hname | ⟨entry, -, hname⟩
  · exact .inl ⟨headerName_injective hname, hbody⟩
  · cases p <;> first | exact .inr rfl | exact absurd hname (by decide)
  · exact absurd hname (ne_metadata_of_mapped (mem_mappedHeaders.2 ⟨p, rfl⟩) _)

theorem Request.metadata_mem_fieldNames {request : Request} {key : String}
    (h : metadataMark ++ key ∈ request.fieldNames) :
    ∃ entry ∈ request.metadata.entries, lowered entry.1 = key := by
  rcases mem_fieldNames h with ⟨hname, -⟩ | hname | ⟨entry, hentry, hname⟩
  · exact absurd hname (metadataMark_append_ne (by decide) key)
  · simp only [List.mem_cons, List.not_mem_nil, or_false] at hname
    rcases hname with hname | hname | hname | hname <;>
      exact absurd hname (metadataMark_append_ne (by decide) key)
  · exact ⟨entry, hentry, ((String.append_right_inj _).1 hname).symm⟩

namespace Request.Prepares

variable {fields : List (HeaderName × HeaderValue)}

theorem propertyText?_eq (h : request.Prepares fields) (hnames : request.fieldNames.Nodup) :
    Headers.propertyText? ⟨fields⟩ = request.propertyText? := by
  rw [← h.names] at hnames
  funext p
  by_cases hlength : p = .contentLength ∧ carriesBody request.method = true
  · obtain ⟨rfl, hbody⟩ := hlength
    rw [Request.propertyText?, if_pos hbody]
    exact Headers.lastText?_of_mem hnames (h.length hbody) rfl
  by_cases htype : p = .contentType
  · rw [htype]
    exact Headers.lastText?_of_mem hnames h.type rfl
  · rw [Request.propertyText?_eq_none hlength htype]
    refine Option.eq_none_iff_forall_ne_some.2 fun s hs => ?_
    have hmem := Headers.mem_names_of_lastText? hs
    rw [h.names] at hmem
    exact (Request.headerName_mem_fieldNames hmem).elim hlength htype

theorem metadataText?_eq_some_iff (h : request.Prepares fields) (hnames : request.fieldNames.Nodup)
    {key text : String} : Headers.lastText? ⟨fields⟩ (metadataMark ++ key) = some text ↔
      (key, text) ∈ request.metadata.entries.map fun entry => (lowered entry.1, entry.2) := by
  rw [← h.names] at hnames
  have hcarried (entry : String × String) (hentry : entry ∈ request.metadata.entries) :
      Headers.lastText? ⟨fields⟩ (metadataMark ++ lowered entry.1) = some entry.2 := by
    obtain ⟨field, hfield, htext, hbytes⟩ := h.metadata entry hentry
    rw [← htext]
    exact Headers.lastText?_of_mem hnames hfield hbytes
  constructor
  · intro htext
    have hmem := Headers.mem_names_of_lastText? htext
    rw [h.names] at hmem
    obtain ⟨entry, hentry, rfl⟩ := metadata_mem_fieldNames hmem
    rw [hcarried entry hentry] at htext
    obtain rfl := Option.some.inj htext
    exact List.mem_map_of_mem hentry
  · intro hmem
    obtain ⟨entry, hentry, heq⟩ := List.mem_map.1 hmem
    cases heq
    exact hcarried entry hentry

theorem readable (h : request.Prepares fields) (hlegal : request.Sendable apiVersion userAgent) :
    ∀ field ∈ fields, Readable field := by
  have hnames := nodup_fieldNames hlegal
  rw [← h.names] at hnames
  intro field hfield hreports
  have hmem : field.1.text ∈ request.fieldNames := h.names ▸ List.mem_map_of_mem hfield
  have hunique (other : HeaderName × HeaderValue) (hother : other ∈ fields)
      (hname : other.1.text = field.1.text) : other = field :=
    List.inj_on_of_nodup_map hnames hother hfield hname
  rcases hreports with ⟨key, hkey⟩ | hmapped
  · obtain ⟨entry, hentry, rfl⟩ := Request.metadata_mem_fieldNames (hkey ▸ hmem)
    obtain ⟨other, hother, htext, hbytes⟩ := h.metadata entry hentry
    obtain rfl := hunique other hother (htext.trans hkey.symm)
    have hmapped : other.1.text ∉ mappedHeaders := fun hmapped => ne_metadata_of_mapped hmapped _ hkey
    refine ⟨entry.2, hbytes, fun hinteger => absurd ?_ hmapped, fun hinstant => absurd ?_ hmapped⟩
    · exact List.mem_cons_of_mem _ (List.mem_append_left _ hinteger)
    · rw [hinstant]
      exact List.mem_cons_self
  · obtain ⟨p, hp⟩ := mem_mappedHeaders.1 hmapped
    rw [← hp] at hmem
    rcases Request.headerName_mem_fieldNames hmem with ⟨rfl, hbody⟩ | rfl
    · obtain rfl := hunique _ (h.length hbody) hp
      have hinstant : HeaderName.contentLength.text ≠ instantHeader := by decide
      exact ⟨toString request.body.length, rfl,
        fun _ => ⟨_, readDecimal_toString (hlegal.body hbody)⟩, fun h => absurd h hinstant⟩
    · obtain rfl := hunique _ h.type hp
      exact ⟨"application/octet-stream Charset=UTF-8", rfl, fun h => absurd h (by decide),
        fun h => absurd h (by decide)⟩

end Request.Prepares

/-! ## Main statement -/

theorem carriesBody_iff {method : String} :
    carriesBody method = true ↔ method ∈ ["PUT", "POST", "MERGE", "DELETE"] := by
  simp [carriesBody, or_assoc]

theorem Request.reported_propertyText? (request : Request)
    (hbody : carriesBody request.method = true → request.body.length < 2 ^ 63) :
    (reported request.propertyText? : FileProperties) =
      { contentLength :=
          if carriesBody request.method then some (Int64.ofNat request.body.length) else none
        contentSettings := { contentType := some "application/octet-stream Charset=UTF-8" } } := by
  have hlength : (request.propertyText? .contentLength).bind integer? =
      if carriesBody request.method then some (Int64.ofNat request.body.length) else none := by
    rw [propertyText?]
    split
    · next h =>
      rw [Option.bind_some, integer?, readDecimal_toString (hbody h)]
      rfl
    · rfl
  rw [← hlength]
  rfl

/-- A sendable request that its signer accepts has the prepared fields, and an authorization perhaps. -/
theorem Request.Sendable.signed (h : request.Sendable apiVersion userAgent) {signer : Signer}
    {now : Instant} (hsigner : ∀ prepared,
      (Taken.mk request (.sign (.standard apiVersion userAgent) signer now)).handed? = some prepared →
        signer.Authorizes prepared) :
    let signed := request.apply (signRequest (.standard apiVersion userAgent) signer now)
    signed.1 = .ok () ∧ ∃ fields, request.Prepares fields ∧
      ∀ name, name ≠ .authorization → signed.2.headers.values name = (Headers.mk fields).values name := by
  intro signed
  obtain ⟨hbuilt, hprepares⟩ := h.prepares now
  have hupdater := Updater.apply_run (.standard apiVersion userAgent) request
  rw [hbuilt] at hupdater
  have hhanded : (Taken.mk request (.sign (.standard apiVersion userAgent) signer now)).handed? =
      some (request.extend (Draft.fields
        ((Updater.standard apiVersion userAgent).drafts request) ++ stamp now)) := by
    rw [Taken.handed?, Taken.signedAt?, ← extend_extend]
    simp only [Step.updater, hupdater, Option.map_some]
  obtain ⟨haccepts, hagrees⟩ := hsigner _ hhanded
  have hsigned : signed = _ := apply_signRequest_of_ok (congrArg Prod.fst hupdater) signer now
  rw [hupdater, extend_extend] at hsigned
  refine ⟨?_, _, hprepares, fun name hname => ?_⟩
  · rw [hsigned, Request.signed, haccepts]
    rfl
  · rw [hsigned, Request.signed, hagrees.values name hname, values_extend, h.fresh]
    rfl

/-- What a reader of files' properties makes of headers that have the prepared fields. -/
theorem Request.Prepares.extractProperties {fields : List (HeaderName × HeaderValue)}
    (h : request.Prepares fields) (hlegal : request.Sendable apiVersion userAgent) {headers : Headers}
    (hvalues : ∀ name, name ≠ .authorization →
      headers.values name = (Headers.mk fields).values name) :
    ∃ metadata : Metadata,
      extractProperties FileProperties headers = .ok (reported request.propertyText?, metadata) ∧
      metadata.entries.Perm
        (request.metadata.entries.map fun entry => (lowered entry.1, entry.2)) := by
  have hnames := nodup_fieldNames hlegal
  have hreadable : ∀ field ∈ headers.fields, Readable field := by
    intro field hfield
    by_cases hname : field.1 = .authorization
    · have hsilent : ¬ Reports HeaderName.authorization.text := by decide
      exact fun hreports => absurd (hname ▸ hreports) hsilent
    · have hvalue : field.2 ∈ (Headers.mk fields).values field.1 :=
        hvalues _ hname ▸ Headers.mem_values.2 hfield
      exact h.readable hlegal field (Headers.mem_values.1 hvalue)
  obtain ⟨metadata, hresult, hentries⟩ :=
    (extracts_of_reported (α := FileProperties) fun h => rfl).ok headers hreadable
  have htexts (name : String) (hname : name ≠ HeaderName.authorization.text) :
      headers.lastText? name = (Headers.mk fields).lastText? name :=
    Headers.lastText?_congr hvalues hname
  have hproperties : headers.propertyText? = request.propertyText? := by
    rw [← h.propertyText?_eq hnames]
    funext p
    exact htexts p.headerName (by cases p <;> decide)
  have hmetadata (entry : String × String) : entry ∈ metadata.entries ↔
      entry ∈ request.metadata.entries.map fun entry => (lowered entry.1, entry.2) := by
    have hname : metadataMark ++ entry.1 ≠ HeaderName.authorization.text :=
      metadataMark_append_ne (by decide) entry.1
    rw [hentries entry.1 entry.2, htexts _ hname, h.metadataText?_eq_some_iff hnames]
  refine ⟨metadata, ?_, ?_⟩
  · rw [hresult, hproperties]
  · refine (List.perm_ext_iff_of_nodup ?_ ?_).2 hmetadata
    · exact metadata.nodup.of_map Prod.fst
    · exact .of_map Prod.fst (by rw [List.map_map]; exact hlegal.distinct)

/-- What is written on the request side is read on the response side. Signing succeeds, and the reader of
a file's properties finds the metadata of the request under names in lower case, each text as it was, the
length of the body if the method carries one, the type, and nothing else. The order of the metadata does
not matter. -/
theorem extractProperties_signRequest {request : Request} {apiVersion userAgent : String}
    {signer : Signer} {now : Instant} (hrequest : request.Sendable apiVersion userAgent)
    (hsigner : ∀ prepared,
      (Taken.mk request (.sign (.standard apiVersion userAgent) signer now)).handed? = some prepared →
        signer.Authorizes prepared) :
    let signed := request.apply (signRequest (.standard apiVersion userAgent) signer now)
    signed.1 = .ok () ∧ ∃ (properties : FileProperties) (metadata : Metadata),
      extractProperties FileProperties signed.2.headers = .ok (properties, metadata) ∧
      metadata.entries.Perm
        (request.metadata.entries.map fun entry => (lowered entry.1, entry.2)) ∧
      properties.contentLength.map Int64.toInt =
        (if request.method ∈ ["PUT", "POST", "MERGE", "DELETE"] then
          some (request.body.length : Int) else none) ∧
      properties = {
        contentLength := properties.contentLength
        contentSettings := { contentType := some "application/octet-stream Charset=UTF-8" } } := by
  intro signed
  obtain ⟨hok, fields, hprepares, hvalues⟩ := hrequest.signed hsigner
  obtain ⟨metadata, hresult, hmetadata⟩ := hprepares.extractProperties hrequest hvalues
  rw [request.reported_propertyText? hrequest.body] at hresult
  refine ⟨hok, _, metadata, hresult, hmetadata, ?_, rfl⟩
  by_cases hbody : carriesBody request.method = true
  · simp only [if_pos hbody, if_pos (carriesBody_iff.1 hbody), Option.map_some]
    rw [Int64.toInt_ofNat_of_lt (hrequest.body hbody)]
  · simp only [if_neg hbody, if_neg (mt carriesBody_iff.2 hbody), Option.map_none]

/-- Metadata in mixed case, beyond ASCII, with spaces at the ends, and under the name of a property. The
signer leaves an authorization behind. -/
theorem extractProperties_signRequest_mixed :
    let now : Instant := ⟨1435740577, 0, by decide, by decide, by decide⟩
    let request : Request :=
      ⟨"MERGE", "/share", ∅, ⟨[("Owner", " é "), ("ETag", "")], by decide⟩, [65, 66]⟩
    let signer : Signer := .noting (fun _ => octetStream) (pure ())
    let signed := request.apply (signRequest (.standard "2015-04-05" "agent") signer now)
    request.Sendable "2015-04-05" "agent" ∧ signed.1 = .ok () ∧
    ∃ metadata : Metadata, extractProperties FileProperties signed.2.headers =
      .ok ({ contentLength := some 2
             contentSettings := { contentType := some "application/octet-stream Charset=UTF-8" } },
        metadata) ∧ metadata.entries.Perm [("owner", " é "), ("etag", "")] := by
  intro now request signer signed
  have hrequest : request.Sendable "2015-04-05" "agent" :=
    ⟨rfl, by decide +kernel, by decide +kernel, by decide +kernel, by decide +kernel, by decide +kernel,
      fun _ => by simp [request]⟩
  obtain ⟨hok, properties, metadata, hresult, hmetadata, hlength, hproperties⟩ :=
    @extractProperties_signRequest request _ _ signer now hrequest
      fun prepared _ => ⟨rfl, Signer.onlyAuthorizes_noting (pure ()) prepared⟩
  have hmethod : request.method ∈ ["PUT", "POST", "MERGE", "DELETE"] := by decide
  rw [if_pos hmethod] at hlength
  obtain ⟨length, hsome, htwo⟩ := Option.map_eq_some_iff.1 hlength
  have hlengthTwo : length = 2 := by
    have hbody : request.body.length = 2 := rfl
    have hnumber : (2 : Int64).toInt = 2 := by decide
    rw [← Int64.toInt_inj, htwo, hbody, hnumber]
    rfl
  rw [hproperties, hsome, hlengthTwo] at hresult
  have hlowered : (request.metadata.entries.map fun entry => (lowered entry.1, entry.2)) =
      [("owner", " é "), ("etag", "")] := by decide +kernel
  rw [hlowered] at hmetadata
  refine ⟨hrequest, hok, metadata, ?_, hmetadata⟩
  rw [hresult]

end ShareWire.Http
