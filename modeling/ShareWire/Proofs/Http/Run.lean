import Mathlib.Data.List.Basic
import ShareWire.Proofs.Http.DateHeader
import ShareWire.Proofs.Http.Updater

/-!
# Runs of a request

A request can get its header fields several times, as when it is sent again after a failure. Main
statement: fields only ever come behind those that are there, a step that fails keeps what it has added,
and a signer is called once in each step whose common fields could be added.
-/

namespace ShareWire.Http

open Text (encode)
open Time (Instant)

/-! ## Header dates as values -/

theorem HeaderValue.ofText?_of_legal {s : String} (h : (encode s).all isValueByte = true) :
    ofText? s = some ⟨encode s, h⟩ := by
  rw [ofText?, ofBytes?, dif_pos h]

theorem legal_httpDate (t : Instant) : (encode t.httpDate).all isValueByte = true := by
  have hvisible : ∀ c ∈ t.httpDate.toList, ' ' ≤ c ∧ c ≤ '~' := fun c => t.visible_of_mem_httpDate
  obtain ⟨value, _, hbytes⟩ := HeaderValue.exists_ofText? hvisible
  rw [← hbytes]
  exact value.legal

def HeaderValue.ofInstant (t : Instant) : HeaderValue :=
  ⟨encode t.httpDate, legal_httpDate t⟩

theorem valueOf_httpDate (t : Instant) :
    valueOf "x-ms-date" t.httpDate = pure (.ofInstant t) := by
  rw [valueOf, HeaderValue.ofText?_of_legal (legal_httpDate t)]
  rfl

/-! ## Steps -/

/-- What can be done to a request any number of times. -/
inductive Step where
  | update (updater : Updater)
  | sign (updater : Updater) (signer : Signer) (now : Instant)

namespace Step

def updater : Step → Updater
  | update updater => updater
  | sign updater _ _ => updater

def change : Step → RequestM PUnit
  | update updater => updater.run
  | sign updater signer now => signRequest updater signer now

end Step

namespace Request

/-- The request that a step leaves behind, however the step ends. -/
def take (request : Request) (step : Step) : Request :=
  (request.apply step.change).2

/-- The request behind a run. Steps are taken whether or not those before them failed. -/
def after (request : Request) (steps : List Step) : Request :=
  steps.foldl take request

end Request

/-- A step of a run, with the request that it is taken on. -/
structure Taken where
  before : Request
  step : Step

def Request.run (request : Request) : List Step → List Taken
  | [] => []
  | step :: steps => ⟨request, step⟩ :: (request.take step).run steps

/-- The fields that come right before the signature. -/
def stamp (now : Instant) : List (HeaderName × HeaderValue) :=
  [(.date, .ofInstant now), (.contentType, octetStream)]

namespace Taken

/-- The time of a signing step whose updater succeeds. -/
def signedAt? (taken : Taken) : Option Instant :=
  match taken.step with
  | .update _ => none
  | .sign updater _ now =>
    match (taken.before.apply updater.run).1 with
    | .ok _ => some now
    | .error _ => none

/-- The request that the signer is to be called on: all fields but the signature are there. -/
def handed? (taken : Taken) : Option Request :=
  taken.signedAt?.map fun now =>
    (taken.before.apply taken.step.updater.run).2.extend (stamp now)

/-- The fields that a step contributes, the signature aside. -/
def fields (taken : Taken) : List (HeaderName × HeaderValue) :=
  Draft.fields (taken.step.updater.drafts taken.before) ++ taken.signedAt?.toList.flatMap stamp

end Taken

/-! ## Signers -/

/-- How a signer ends, and the request that it leaves behind. -/
def Request.signed (request : Request) (signer : Signer) : Except ExchangeError PUnit × Request :=
  ((signer.run.run request).1.mapError .signing, (signer.run.run request).2)

/-- Two requests that are the same, their authorization aside. -/
structure Request.Agrees (first second : Request) : Prop where
  method : first.method = second.method
  path : first.path = second.path
  metadata : first.metadata = second.metadata
  body : first.body = second.body
  values : ∀ name, name ≠ .authorization → first.headers.values name = second.headers.values name

/-- A signer that changes the authorization at most, also when it refuses. -/
def Signer.OnlyAuthorizes (signer : Signer) : Prop :=
  ∀ request, (signer.run.run request).2.Agrees request

def Step.OnlyAuthorizes : Step → Prop
  | update _ => True
  | sign _ signer _ => signer.OnlyAuthorizes

/-! ## Single steps -/

theorem run_runSigner (signer : Signer) (request : Request) :
    (runSigner signer).run.run request = request.signed signer := by
  have hget : (get : RequestM Request).run.run request = (.ok request, request) := rfl
  rw [runSigner, run_bind_ok hget, Request.signed]
  rcases signer.run.run request with ⟨_ | _, later⟩
  · rfl
  · rfl

theorem apply_signRequest_of_error {request : Request} {updater : Updater} {error : ExchangeError}
    (h : (request.apply updater.run).1 = .error error) (signer : Signer) (now : Instant) :
    request.apply (signRequest updater signer now) = request.apply updater.run := by
  rcases hupdater : updater.run.run.run request with ⟨found | _, later⟩
  · rw [Request.apply, Request.apply, signRequest, run_bind_error hupdater, hupdater]
  · rw [Request.apply, hupdater] at h
    cases h

theorem apply_signRequest_of_ok {request : Request} {updater : Updater}
    (h : (request.apply updater.run).1 = .ok ()) (signer : Signer) (now : Instant) :
    request.apply (signRequest updater signer now) =
      ((request.apply updater.run).2.extend (stamp now)).signed signer := by
  rcases hupdater : updater.run.run.run request with ⟨found | _, later⟩
  · rw [Request.apply, hupdater] at h
    cases h
  · rw [Request.apply, Request.apply, signRequest, run_bind_ok hupdater, hupdater, valueOf_httpDate,
      pure_bind, ← run_runSigner]
    have hdate : (appendField .date (.ofInstant now)).run.run later =
        (.ok (), later.extend [(.date, .ofInstant now)]) := rfl
    have htype (request : Request) : (appendField .contentType octetStream).run.run request =
        (.ok (), request.extend [(.contentType, octetStream)]) := rfl
    rw [run_bind_ok hdate, run_bind_ok (htype _), Request.extend_extend]
    rfl

theorem values_append (fields more : List (HeaderName × HeaderValue)) (name : HeaderName) :
    (Headers.mk (fields ++ more)).values name =
      (Headers.mk fields).values name ++ (Headers.mk more).values name := by
  simp only [Headers.values, List.filter_append, List.map_append]

theorem values_extend (request : Request) (fields : List (HeaderName × HeaderValue))
    (name : HeaderName) : (request.extend fields).headers.values name =
      request.headers.values name ++ (Headers.mk fields).values name :=
  values_append request.headers.fields fields name

namespace Request.Agrees

theorem refl (request : Request) : request.Agrees request :=
  ⟨rfl, rfl, rfl, rfl, fun _ _ => rfl⟩

theorem trans {first second third : Request} (h : first.Agrees second) (h' : second.Agrees third) :
    first.Agrees third :=
  ⟨h.method.trans h'.method, h.path.trans h'.path, h.metadata.trans h'.metadata,
    h.body.trans h'.body, fun name hname => (h.values name hname).trans (h'.values name hname)⟩

theorem extend {first second : Request} (h : first.Agrees second)
    (fields : List (HeaderName × HeaderValue)) : (first.extend fields).Agrees (second.extend fields) :=
  ⟨h.method, h.path, h.metadata, h.body, fun name hname => by
    rw [values_extend, values_extend, h.values name hname]⟩

end Request.Agrees

/-- A step adds its fields and nothing else, the authorization aside. -/
theorem Taken.agrees (taken : Taken) (h : taken.step.OnlyAuthorizes) :
    (taken.before.take taken.step).Agrees (taken.before.extend taken.fields) := by
  obtain ⟨before, step⟩ := taken
  cases step with
  | update updater =>
    have htake : before.take (.update updater) = (before.apply updater.run).2 := rfl
    rw [htake, Updater.apply_run, fields]
    simp only [signedAt?, Option.toList_none, List.flatMap_nil, List.append_nil]
    exact .refl _
  | sign updater signer now =>
    have htake : before.take (.sign updater signer now) =
        (before.apply (signRequest updater signer now)).2 := rfl
    rw [fields]
    cases hupdater : (before.apply updater.run).1 with
    | error error =>
      rw [htake, apply_signRequest_of_error hupdater, Updater.apply_run]
      simp only [signedAt?, hupdater, Option.toList_none, List.flatMap_nil, List.append_nil]
      exact .refl _
    | ok =>
      rw [htake, apply_signRequest_of_ok hupdater]
      have hsigned := h ((before.apply updater.run).2.extend (stamp now))
      rw [Updater.apply_run, Request.extend_extend] at hsigned
      simp only [signedAt?, hupdater, Option.toList_some, List.flatMap_singleton]
      rw [Updater.apply_run, Request.extend_extend]
      exact hsigned

/-! ## Runs -/

/-- A run adds the fields of its steps and nothing else, the authorization aside. -/
theorem Request.agrees_after {steps : List Step} (h : ∀ step ∈ steps, step.OnlyAuthorizes)
    (request : Request) :
    (request.after steps).Agrees (request.extend ((request.run steps).flatMap Taken.fields)) := by
  induction steps generalizing request with
  | nil =>
    rw [run, List.flatMap_nil, extend_nil]
    exact .refl request
  | cons step steps ih =>
    have hfirst := Taken.agrees ⟨request, step⟩ (h step List.mem_cons_self)
    have hlater := ih (fun later hlater => h later (List.mem_cons_of_mem _ hlater))
      (request.take step)
    -- The later steps begin with what the signer left, which agrees with the extended request and no more.
    rw [run, List.flatMap_cons, ← extend_extend]
    exact hlater.trans (hfirst.extend _)

theorem values_mk_flatMap (fields : Taken → List (HeaderName × HeaderValue)) (run : List Taken)
    (name : HeaderName) : (Headers.mk (run.flatMap fields)).values name =
      run.flatMap fun taken => (Headers.mk (fields taken)).values name := by
  induction run with
  | nil => rfl
  | cons taken run ih =>
    rw [List.flatMap_cons, List.flatMap_cons, values_append, ih]

/-! ## Date, type and authorization -/

/-- No updater gives a name that is not common. -/
theorem Updater.values_eq_nil {name : HeaderName} (hname : ¬ CommonName name) (updater : Updater)
    (request : Request) : (Headers.mk (Draft.fields (updater.drafts request))).values name = [] := by
  rw [Headers.values, List.map_eq_nil_iff, List.filter_eq_nil_iff]
  intro field hfield hfieldName
  exact hname (of_decide_eq_true hfieldName ▸ commonName_of_mem hfield)

theorem not_commonName_date : ¬ CommonName .date := by
  unfold CommonName
  decide

theorem not_commonName_contentType : ¬ CommonName .contentType := by
  unfold CommonName
  decide

theorem not_commonName_authorization : ¬ CommonName .authorization := by
  unfold CommonName
  decide

/-- Of a name that is not common there are the values in the stamps. -/
theorem values_run {name : HeaderName} (hname : ¬ CommonName name) {value : Instant → HeaderValue}
    (hvalue : ∀ now, (Headers.mk (stamp now)).values name = [value now]) (run : List Taken) :
    (Headers.mk (run.flatMap Taken.fields)).values name =
      (run.filterMap Taken.signedAt?).map value := by
  have hfields (taken : Taken) : (Headers.mk taken.fields).values name =
      taken.signedAt?.toList.map value := by
    rw [Taken.fields, values_append, Updater.values_eq_nil hname, List.nil_append]
    cases taken.signedAt? with
    | none => rfl
    | some now => simp only [Option.toList_some, List.flatMap_singleton, hvalue, List.map_singleton]
  rw [values_mk_flatMap, List.filterMap_eq_flatMap_toList, List.map_flatMap]
  exact congrArg (run.flatMap ·) (funext hfields)

/-! ## Calls of signers -/

/-- A signer that accepts and refuses what another one does. Instead of a signature it leaves a note of
each request that it is called on, behind the authorizations that are there. -/
def Signer.noting (note : Request → HeaderValue) (signer : Signer) : Signer :=
  ExceptT.mk fun request =>
    ((signer.run.run request).1, request.extend [(.authorization, note request)])

/-- A step of which the signer, if there is one, leaves notes. -/
def Step.noting (note : Request → HeaderValue) : Step → Step
  | update updater => update updater
  | sign updater signer now => sign updater (signer.noting note) now

variable {note : Request → HeaderValue}

theorem Signer.onlyAuthorizes_noting (signer : Signer) : (signer.noting note).OnlyAuthorizes := by
  intro request
  have hrun : ((signer.noting note).run.run request).2 =
      request.extend [(.authorization, note request)] := rfl
  refine ⟨rfl, rfl, rfl, rfl, fun name hname => ?_⟩
  rw [hrun, values_extend]
  simp [Headers.values, hname.symm]

/-- A signing step whose updater succeeds makes one note, and no other step makes any. -/
theorem values_take_noting (request : Request) (step : Step) :
    (request.take (step.noting note)).headers.values .authorization =
      request.headers.values .authorization ++
        (Taken.mk request (step.noting note)).handed?.toList.map note := by
  have hupdated (updater : Updater) :
      (request.apply updater.run).2.headers.values .authorization =
        request.headers.values .authorization := by
    rw [Updater.apply_run, values_extend, Updater.values_eq_nil not_commonName_authorization,
      List.append_nil]
  cases step with
  | update updater =>
    have hnone : (Taken.mk request (.update updater)).handed? = none := rfl
    rw [Step.noting, hnone, Option.toList_none, List.map_nil, List.append_nil]
    exact hupdated updater
  | sign updater signer now =>
    rw [Step.noting, Request.take, Step.change, Taken.handed?, Taken.signedAt?]
    simp only [Step.updater]
    cases hupdater : (request.apply updater.run).1 with
    | error error =>
      rw [apply_signRequest_of_error hupdater, hupdated]
      simp
    | ok =>
      rw [apply_signRequest_of_ok hupdater]
      have hsigned (prepared : Request) : (prepared.signed (signer.noting note)).2 =
          prepared.extend [(.authorization, note prepared)] := rfl
      have hstamp : (Headers.mk (stamp now)).values .authorization = [] := rfl
      have hnote (value : HeaderValue) :
          (Headers.mk [(.authorization, value)]).values .authorization = [value] := rfl
      rw [hsigned, values_extend, values_extend, hstamp, hnote, hupdated, List.append_nil]
      rfl

theorem values_after_noting (request : Request) (steps : List Step) :
    (request.after (steps.map (Step.noting note))).headers.values .authorization =
      request.headers.values .authorization ++
        ((request.run (steps.map (Step.noting note))).filterMap Taken.handed?).map note := by
  induction steps generalizing request with
  | nil => exact (List.append_nil _).symm
  | cons step steps ih =>
    have hlater := ih (request.take (step.noting note))
    rw [values_take_noting] at hlater
    rw [List.map_cons, Request.run, List.filterMap_cons]
    refine hlater.trans ?_
    cases (Taken.mk request (step.noting note)).handed? with
    | none => simp
    | some prepared => simp

/-! ## Main statement -/

/-- Whatever the steps of a run are and however they end, the request keeps all but its header fields,
and each name keeps its values and gets behind them those that the steps contribute, in order. Date and
type come once for each signing step whose updater succeeds. In such a step the signer is run once, on
the request with date and type, and it decides how the step ends; in any other step it has no part. So
signers that leave notes leave one for each of these steps, in order. -/
theorem run_appends (request : Request) {steps : List Step}
    (h : ∀ step ∈ steps, step.OnlyAuthorizes) :
    ((request.after steps).method = request.method ∧ (request.after steps).path = request.path ∧
      (request.after steps).metadata = request.metadata ∧
      (request.after steps).body = request.body) ∧
    (∀ name, name ≠ .authorization → (request.after steps).headers.values name =
      request.headers.values name ++
        (request.run steps).flatMap fun taken => (Headers.mk taken.fields).values name) ∧
    (request.after steps).headers.values .date = request.headers.values .date ++
      ((request.run steps).filterMap Taken.signedAt?).map .ofInstant ∧
    (request.after steps).headers.values .contentType = request.headers.values .contentType ++
      ((request.run steps).filterMap Taken.signedAt?).map (fun _ => octetStream) ∧
    (∀ (before : Request) (updater : Updater) (signer : Signer) (now : Instant),
      (∀ error, (before.apply updater.run).1 = .error error →
        before.apply (signRequest updater signer now) = before.apply updater.run) ∧
      ((before.apply updater.run).1 = .ok () → before.apply (signRequest updater signer now) =
        ((before.apply updater.run).2.extend (stamp now)).signed signer)) ∧
    ∀ note : Request → HeaderValue,
      let noted := steps.map (Step.noting note)
      (request.after noted).headers.values .authorization =
        request.headers.values .authorization ++
          ((request.run noted).filterMap Taken.handed?).map note := by
  have hagrees := request.agrees_after h
  have hvalues (name : HeaderName) (hname : name ≠ .authorization) :
      (request.after steps).headers.values name = request.headers.values name ++
        (Headers.mk ((request.run steps).flatMap Taken.fields)).values name := by
    rw [hagrees.values name hname, values_extend]
  refine ⟨⟨hagrees.method, hagrees.path, hagrees.metadata, hagrees.body⟩, ?_, ?_, ?_, ?_, ?_⟩
  · intro name hname
    rw [hvalues name hname, values_mk_flatMap]
  · rw [hvalues .date (by decide), values_run not_commonName_date fun _ => rfl]
  · rw [hvalues .contentType (by decide), values_run not_commonName_contentType fun _ => rfl]
  · intro before updater signer now
    exact ⟨fun error herror => apply_signRequest_of_error herror signer now,
      fun hok => apply_signRequest_of_ok hok signer now⟩
  · intro note
    exact values_after_noting request steps

/-- An agent that is no header value, a signer that refuses, and a second attempt: the length and the
version of the first step stay, and both signing steps behind it leave a date. -/
theorem run_appends_retry :
    let first : Instant := ⟨1435740577, 0, by decide, by decide, by decide⟩
    let second : Instant := ⟨1435740578, 0, by decide, by decide, by decide⟩
    let version : HeaderValue := ⟨encode "2015-04-05", by decide⟩
    let request : Request := ⟨"PUT", "/share", ∅, ∅, [65, 66]⟩
    let steps : List Step :=
      [.sign (.standard "2015-04-05" "a\nb") (throw "no key") first,
        .sign .none (throw "no key") first,
        .sign (.standard "2015-04-05" "a") (.noting (fun _ => version) (pure ())) second]
    (∀ step ∈ steps, step.OnlyAuthorizes) ∧
    (request.after steps).headers.values .version = [version, version] ∧
    (request.after steps).headers.values .contentLength = [.ofNat 2, .ofNat 2] ∧
    (request.after steps).headers.values .date = [.ofInstant first, .ofInstant second] ∧
    (request.after steps).headers.values .contentType = [octetStream, octetStream] := by
  intro first second version request steps
  have hsteps : ∀ step ∈ steps, step.OnlyAuthorizes := by
    intro step hstep
    simp only [steps, List.mem_cons, List.not_mem_nil, or_false] at hstep
    rcases hstep with rfl | rfl | rfl
    · exact fun request => .refl request
    · exact fun request => .refl request
    · exact Signer.onlyAuthorizes_noting (pure ())
  obtain ⟨-, hvalues, hdate, htype, -⟩ := run_appends request hsteps
  have hsigned : (request.run steps).filterMap Taken.signedAt? = [first, second] := by
    decide +kernel
  refine ⟨hsteps, ?_, ?_, ?_, ?_⟩
  · rw [hvalues .version (by decide)]
    decide +kernel
  · rw [hvalues .contentLength (by decide)]
    decide +kernel
  · rw [hdate, hsigned]
    rfl
  · rw [htype, hsigned]
    rfl

end ShareWire.Http
