import ShareWire.Proofs.Http.Failure

/-!
# The common fields of requests

An updater adds its fields one after the other, up to the first one that cannot be built. Main statement:
how an updater ends, and what it leaves behind then, in terms of the fields that it is about to add.
-/

namespace ShareWire.Http

open Text (lowerAscii)

/-- A field that is about to be added: its name as it is called in errors, and what comes of building
it. -/
structure Draft where
  spelled : String
  field : Except HeaderFault (HeaderName × HeaderValue)

namespace Draft

/-- The field of a name, if there is one, and of a text. -/
def build (name? : Option HeaderName) (text : String) :
    Except HeaderFault (HeaderName × HeaderValue) :=
  match name? with
  | none => .error .badName
  | some name =>
    match HeaderValue.ofText? text with
    | none => .error .badValue
    | some value => .ok (name, value)

def length (body : Bytes) : Draft where
  spelled := "content-length"
  field := .ok (.contentLength, .ofNat body.length)

def version (text : String) : Draft where
  spelled := "x-ms-version"
  field := build (some .version) text

def userAgent (text : String) : Draft where
  spelled := "user-agent"
  field := build (some .userAgent) text

def metadata (entry : String × String) : Draft where
  spelled := metadataMark ++ entry.1
  field := build (HeaderName.ofText? (metadataMark ++ entry.1)) entry.2

theorem field_metadata (entry : String × String) :
    (metadata entry).field = build (HeaderName.ofText? (metadataMark ++ entry.1)) entry.2 := by
  rw [metadata]

/-- The fields up to the first one that cannot be built. -/
def fields : List Draft → List (HeaderName × HeaderValue)
  | [] => []
  | draft :: drafts =>
    match draft.field with
    | .ok field => field :: fields drafts
    | .error _ => []

/-- The fault of the first field that cannot be built, under the name of that field. -/
def outcome : List Draft → Except ExchangeError PUnit
  | [] => .ok ()
  | draft :: drafts =>
    match draft.field with
    | .ok _ => outcome drafts
    | .error fault => .error (.invalidHeader draft.spelled fault)

end Draft

/-- The fields that an updater is about to add to a request, in order. -/
def Updater.drafts (request : Request) : Updater → List Draft
  | .none => []
  | .standard apiVersion userAgent =>
    (if carriesBody request.method then [.length request.body] else []) ++
      .version apiVersion :: .userAgent userAgent :: request.metadata.entries.map .metadata

/-- A request with more fields behind those that are there. -/
def Request.extend (request : Request) (fields : List (HeaderName × HeaderValue)) : Request :=
  { request with headers := ⟨request.headers.fields ++ fields⟩ }

@[simp] theorem Request.extend_nil (request : Request) : request.extend [] = request := by
  rw [extend, List.append_nil]

@[simp] theorem Request.extend_extend (request : Request) (fields more : List (HeaderName × HeaderValue)) :
    (request.extend fields).extend more = request.extend (fields ++ more) := by
  rw [extend, extend, extend, List.append_assoc]

/-! ## Running drafts -/

namespace Draft

def add (draft : Draft) : RequestM PUnit :=
  match draft.field with
  | .ok field => appendField field.1 field.2
  | .error fault => throw (.invalidHeader draft.spelled fault)

theorem run_forM_add (drafts : List Draft) (request : Request) :
    (forM drafts add).run.run request = (outcome drafts, request.extend (fields drafts)) := by
  induction drafts generalizing request with
  | nil => rw [fields, Request.extend_nil]; rfl
  | cons draft drafts ih =>
    cases h : draft.field with
    | error fault =>
      have hadd : draft.add.run.run request =
          (.error (.invalidHeader draft.spelled fault), request) := by
        rw [add, h]
        rfl
      rw [List.forM_cons, run_bind_error hadd, fields, outcome, h, Request.extend_nil]
    | ok field =>
      have hadd : draft.add.run.run request = (.ok (), request.extend [field]) := by
        rw [add, h]
        rfl
      rw [List.forM_cons, run_bind_ok hadd, ih, fields, outcome, h, Request.extend_extend]
      rfl

theorem add_build (spelled text : String) (name : HeaderName) :
    add ⟨spelled, build (some name) text⟩ = valueOf spelled text >>= appendField name := by
  cases h : HeaderValue.ofText? text with
  | none => simp only [add, build, valueOf, h]; rfl
  | some value => simp only [add, build, valueOf, h]; rfl

theorem add_metadata (entry : String × String) : add (metadata entry) = appendMetadata entry := by
  unfold appendMetadata
  cases h : HeaderName.ofText? (metadataMark ++ entry.1) with
  | none => simp only [add, build, metadata, h]
  | some name => simp only [metadata, h, add_build]

end Draft

theorem Updater.run_eq_forM_add (updater : Updater) (request : Request) :
    updater.run.run.run request = (forM (updater.drafts request) Draft.add).run.run request := by
  cases updater with
  | none => rfl
  | standard apiVersion userAgent =>
    have hget : (get : RequestM Request).run.run request = (.ok request, request) := rfl
    have hmetadata : request.metadata.entries.forM appendMetadata =
        forM (request.metadata.entries.map Draft.metadata) Draft.add := by
      rw [List.forM_map, List.forM_eq_forM]
      exact congrArg _ (funext fun entry => (Draft.add_metadata entry).symm)
    rw [run, run_bind_ok hget, hmetadata, drafts]
    by_cases hbody : carriesBody request.method = true
    · simp only [if_pos hbody, List.cons_append, List.nil_append, List.forM_cons, Draft.version,
        Draft.userAgent, Draft.add_build, bind_assoc]
      rfl
    · simp only [if_neg hbody, List.nil_append, List.forM_cons, Draft.version, Draft.userAgent,
        Draft.add_build, bind_assoc]

theorem Updater.apply_run (updater : Updater) (request : Request) :
    request.apply updater.run = (Draft.outcome (updater.drafts request),
      request.extend (Draft.fields (updater.drafts request))) := by
  rw [Request.apply, run_eq_forM_add, Draft.run_forM_add]

/-! ## Names -/

def CommonName (name : HeaderName) : Prop :=
  name = .contentLength ∨ name = .version ∨ name = .userAgent ∨
    metadataMark.toList <+: name.text.toList

theorem HeaderName.toList_of_ofText? {s : String} {name : HeaderName} (h : ofText? s = some name) :
    name.text.toList = s.toList.map lowerAscii := by
  rw [ofText?] at h
  split at h
  · cases h
    exact String.toList_ofList
  · cases h

namespace Draft

theorem exists_of_mem_fields {drafts : List Draft} {field : HeaderName × HeaderValue}
    (h : field ∈ fields drafts) : ∃ draft ∈ drafts, draft.field = .ok field := by
  induction drafts with
  | nil => cases h
  | cons draft drafts ih =>
    rw [fields] at h
    split at h
    · next first hfirst =>
      rcases List.mem_cons.1 h with rfl | h
      · exact ⟨draft, List.mem_cons_self, hfirst⟩
      · obtain ⟨later, hlater, hfield⟩ := ih h
        exact ⟨later, List.mem_cons_of_mem _ hlater, hfield⟩
    · cases h

theorem name_of_build {name? : Option HeaderName} {text : String} {field : HeaderName × HeaderValue}
    (h : build name? text = .ok field) : name? = some field.1 := by
  unfold build at h
  split at h
  · cases h
  · split at h
    · cases h
    · cases h
      rfl

end Draft

theorem Updater.commonName_of_mem {updater : Updater} {request : Request}
    {field : HeaderName × HeaderValue} (h : field ∈ Draft.fields (updater.drafts request)) :
    CommonName field.1 := by
  obtain ⟨draft, hdraft, hfield⟩ := Draft.exists_of_mem_fields h
  cases updater with
  | none => cases hdraft
  | standard apiVersion userAgent =>
    rcases List.mem_append.1 hdraft with hlength | hdraft
    · split at hlength
      · obtain rfl := List.mem_singleton.1 hlength
        cases hfield
        exact .inl rfl
      · cases hlength
    · rcases List.mem_cons.1 hdraft with rfl | hdraft
      · rw [← Option.some.inj (Draft.name_of_build hfield)]
        exact .inr (.inl rfl)
      · rcases List.mem_cons.1 hdraft with rfl | hmetadata
        · rw [← Option.some.inj (Draft.name_of_build hfield)]
          exact .inr (.inr (.inl rfl))
        · obtain ⟨entry, -, rfl⟩ := List.mem_map.1 hmetadata
          rw [Draft.field_metadata] at hfield
          have htext := HeaderName.toList_of_ofText? (Draft.name_of_build hfield)
          rw [String.toList_append, List.map_append] at htext
          exact .inr (.inr (.inr ⟨_, htext.symm⟩))

end ShareWire.Http
