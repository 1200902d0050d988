import ShareWire.Proofs.Document.Lookup
import ShareWire.Proofs.Service.Fields
import ShareWire.Service.Decode

/-!
# Round trip of service properties

Settings that are written and read again come back, up to what a comma list and a blank text cannot
tell apart.
-/

namespace ShareWire

open Element (require_of_child? requiredText_of_childText? childText?_of_child?
  optionalText_of_child? optional_of_child? mapM_map childrenNamed_of_forall)
open Markup
open Text (Separable allBlank encode joinCommas joinCommas_eq splitCommas
  splitCommas_joinCommas_eq_iff)

/-! ## What comes back -/

namespace CorsRule

/-- The header list that comes back: absent if the written text is blank. -/
def headersBack : Option (List String) → Option (List String)
  | none => none
  | some headers =>
    if allBlank (joinCommas headers) then none else some (splitCommas (joinCommas headers))

def readBack (r : CorsRule) : CorsRule where
  allowedOrigins := splitCommas (joinCommas r.allowedOrigins)
  allowedMethods := splitCommas (joinCommas r.allowedMethods)
  maxAgeInSeconds := r.maxAgeInSeconds
  exposedHeaders := headersBack r.exposedHeaders
  allowedHeaders := headersBack r.allowedHeaders

/-- Header lists that come back unchanged: absent, or with a text that is not blank and entries that
have no commas. -/
def FaithfulHeaders (headers : Option (List String)) : Prop :=
  ∀ entries ∈ headers, allBlank (joinCommas entries) = false ∧ ∀ s ∈ entries, ',' ∉ s.toList

structure Faithful (r : CorsRule) : Prop where
  allowedOrigins : Separable r.allowedOrigins
  allowedMethods : Separable r.allowedMethods
  exposedHeaders : FaithfulHeaders r.exposedHeaders
  allowedHeaders : FaithfulHeaders r.allowedHeaders

theorem headersBack_eq_self_iff {headers : Option (List String)} :
    headersBack headers = headers ↔ FaithfulHeaders headers := by
  cases headers with
  | none => simp [headersBack, FaithfulHeaders]
  | some entries =>
    rw [headersBack]
    by_cases hblank : allBlank (joinCommas entries) = true
    · simp [FaithfulHeaders, hblank]
    · have hne : entries ≠ [] := by
        rintro rfl
        exact hblank rfl
      rw [if_neg hblank, Option.some_inj, splitCommas_joinCommas_eq_iff]
      simp [FaithfulHeaders, Separable, hblank, hne]

theorem readBack_eq_self_iff {r : CorsRule} : r.readBack = r ↔ r.Faithful := by
  rw [readBack, mk.injEq, splitCommas_joinCommas_eq_iff, splitCommas_joinCommas_eq_iff,
    headersBack_eq_self_iff, headersBack_eq_self_iff]
  constructor
  · rintro ⟨horigins, hmethods, _, hexposed, hallowed⟩
    exact ⟨horigins, hmethods, hexposed, hallowed⟩
  · rintro ⟨horigins, hmethods, hexposed, hallowed⟩
    exact ⟨horigins, hmethods, rfl, hexposed, hallowed⟩

end CorsRule

namespace ServiceProperties

def readBack (p : ServiceProperties) : ServiceProperties :=
  { p with
    cors := p.cors.map (List.map CorsRule.readBack)
    targetVersion := p.targetVersion.filter fun s => !allBlank s }

structure Faithful (p : ServiceProperties) : Prop where
  cors : ∀ rules ∈ p.cors, ∀ r ∈ rules, r.Faithful
  targetVersion : ∀ s ∈ p.targetVersion, allBlank s = false

theorem readBack_eq_self_iff {p : ServiceProperties} : p.readBack = p ↔ p.Faithful := by
  have hrules : p.cors.map (List.map CorsRule.readBack) = p.cors ↔
      ∀ rules ∈ p.cors, ∀ r ∈ rules, r.Faithful := by
    cases p.cors with
    | none => simp
    | some rules =>
      have hmap : rules.map CorsRule.readBack = rules.map id ↔ ∀ r ∈ rules, r.readBack = r :=
        List.map_inj_left
      rw [List.map_id] at hmap
      simp [hmap, CorsRule.readBack_eq_self_iff]
  have hversion : (p.targetVersion.filter fun s => !allBlank s) = p.targetVersion ↔
      ∀ s ∈ p.targetVersion, allBlank s = false := by
    cases p.targetVersion with
    | none => simp
    | some s => by_cases hblank : allBlank s = true <;> simp [Option.filter_some, hblank]
  constructor
  · intro h
    rw [readBack, mk.injEq] at h
    obtain ⟨_, _, _, hcors, htarget⟩ := h
    exact ⟨hrules.1 hcors, hversion.1 htarget⟩
  · rintro ⟨hcors, htarget⟩
    rw [readBack, hrules.2 hcors, hversion.2 htarget]

end ServiceProperties

/-! ## Reading the trees -/

theorem RetentionPolicy.ofElement_fields (name text : String) (p : RetentionPolicy) :
    ofElement ⟨name, text, p.fields⟩ = .ok p := by
  let e : Element := ⟨name, text, p.fields⟩
  have henabled : e.requiredText "Enabled" = .ok (toString p.enabled) :=
    requiredText_of_childText? rfl
  have hchild : e.child? "Days" = p.days.map fun n => ⟨"Days", toString n.toInt, []⟩ := by
    simp [e, fields]
  have hdays : e.optionalText "Days" (readInteger Int32) = .ok (p.days.map id) :=
    optionalText_of_child? hchild fun n _ => readInteger_toString n
  rw [Option.map_id] at hdays
  refine bind_ok henabled (bind_ok hdays ?_)
  rw [readBool_toString]
  rfl

theorem Logging.ofElement_fields (name text : String) (l : Logging) :
    ofElement ⟨name, text, l.fields⟩ = .ok l := by
  let e : Element := ⟨name, text, l.fields⟩
  have hversion : e.requiredText "Version" = .ok l.version := requiredText_of_childText? rfl
  have hdelete : e.requiredText "Delete" = .ok (toString l.delete) := requiredText_of_childText? rfl
  have hread : e.requiredText "Read" = .ok (toString l.read) := requiredText_of_childText? rfl
  have hwrite : e.requiredText "Write" = .ok (toString l.write) := requiredText_of_childText? rfl
  have hpolicy : e.require "RetentionPolicy" =
      .ok ⟨"RetentionPolicy", "", l.retentionPolicy.fields⟩ := require_of_child? rfl
  refine bind_ok hversion (bind_ok hdelete (bind_ok hread (bind_ok hwrite (bind_ok hpolicy
    (bind_ok (RetentionPolicy.ofElement_fields _ _ _) ?_)))))
  simp only [readBool_toString]
  rfl

theorem Metrics.ofElement_fields (name text : String) (m : Metrics) :
    ofElement ⟨name, text, m.fields⟩ = .ok m := by
  let e : Element := ⟨name, text, m.fields⟩
  have hversion : e.requiredText "Version" = .ok m.version := requiredText_of_childText? rfl
  have henabled : e.requiredText "Enabled" = .ok (toString m.enabled) :=
    requiredText_of_childText? rfl
  have hchild : e.child? "IncludeAPIs" =
      m.includeApis.map fun b => ⟨"IncludeAPIs", toString b, []⟩ := by
    simp [e, fields]
  have hapis : (e.childText? "IncludeAPIs").map readBool = m.includeApis := by
    rw [childText?_of_child? hchild, Option.map_map]
    simp [Function.comp_def, readBool_toString]
  have hpolicy : e.require "RetentionPolicy" =
      .ok ⟨"RetentionPolicy", "", m.retentionPolicy.fields⟩ :=
    require_of_child? (by simp [e, fields])
  refine bind_ok hversion (bind_ok henabled (bind_ok hpolicy
    (bind_ok (RetentionPolicy.ofElement_fields _ _ _) ?_)))
  rw [readBool_toString, hapis]
  rfl

theorem CorsRule.ofElement_fields (name text : String) (r : CorsRule) :
    ofElement ⟨name, text, r.fields⟩ = .ok r.readBack := by
  let e : Element := ⟨name, text, r.fields⟩
  have horigins : e.requiredText "AllowedOrigins" = .ok (joinCommas r.allowedOrigins) :=
    requiredText_of_childText? (congrArg some (joinCommas_eq _).symm)
  have hmethods : e.requiredText "AllowedMethods" = .ok (joinCommas r.allowedMethods) :=
    requiredText_of_childText? (congrArg some (joinCommas_eq _).symm)
  have hage : e.requiredText "MaxAgeInSeconds" = .ok (toString r.maxAgeInSeconds.toInt) :=
    requiredText_of_childText? rfl
  have hheaders (name : String) (headers : Option (List String))
      (h : e.childText? name = some (",".intercalate (headers.getD []))) :
      (e.filledText? name).map splitCommas = headersBack headers := by
    rw [Element.filledText?, h, ← joinCommas_eq]
    cases headers with
    | none => rfl
    | some entries =>
      rw [headersBack, Option.getD_some, Option.filter_some]
      by_cases hblank : allBlank (joinCommas entries) = true <;> simp [hblank]
  refine bind_ok horigins (bind_ok hmethods (bind_ok hage
    (bind_ok (readInteger_toString _) ?_)))
  rw [hheaders "ExposedHeaders" r.exposedHeaders rfl, hheaders "AllowedHeaders" r.allowedHeaders rfl]
  rfl

theorem CorsRule.ofElement_list (name text : String) (rules : List CorsRule) :
    ofElement ⟨name, text, rules.map tree⟩ = .ok (rules.map readBack) := by
  have hnamed : Element.childrenNamed ⟨name, text, rules.map tree⟩ "CorsRule" = rules.map tree := by
    refine childrenNamed_of_forall fun c hc => ?_
    obtain ⟨r, _, rfl⟩ := List.mem_map.1 hc
    rfl
  have hall : Element.all CorsRule ⟨name, text, rules.map tree⟩ "CorsRule" =
      .ok (rules.map readBack) := by
    rw [Element.all, hnamed]
    exact mapM_map fun r _ => r.ofElement_fields _ _
  exact hall

theorem ServiceProperties.ofElement_fields (name text : String) (p : ServiceProperties) :
    ofElement ⟨name, text, p.fields⟩ = .ok p.readBack := by
  let e : Element := ⟨name, text, p.fields⟩
  have hlogging : e.optional Logging "Logging" = .ok (p.logging.map id) := by
    refine optional_of_child? ?_ fun l _ => l.ofElement_fields "Logging" ""
    simp [e, fields]
  have hhour : e.optional Metrics "HourMetrics" = .ok (p.hourMetrics.map id) := by
    refine optional_of_child? ?_ fun m _ => m.ofElement_fields "HourMetrics" ""
    simp [e, fields]
  have hminute : e.optional Metrics "MinuteMetrics" = .ok (p.minuteMetrics.map id) := by
    refine optional_of_child? ?_ fun m _ => m.ofElement_fields "MinuteMetrics" ""
    simp [e, fields]
  have hcors : e.optional (List CorsRule) "Cors" = .ok (p.cors.map (List.map CorsRule.readBack)) := by
    refine optional_of_child? ?_ fun rules _ => CorsRule.ofElement_list "Cors" "" rules
    simp [e, fields]
  have hversion : e.childText? "DefaultServiceVersion" = p.targetVersion.map id := by
    refine childText?_of_child? (f := fun s => ⟨"DefaultServiceVersion", s, []⟩) ?_
    simp [e, fields]
  rw [Option.map_id] at hlogging hhour hminute hversion
  refine bind_ok hlogging (bind_ok hhour (bind_ok hminute (bind_ok hcors ?_)))
  rw [Element.filledText?, hversion]
  rfl

/-! ## Round trip -/

/-- Settings under any legal root name come back, up to comma lists and blank texts. What exactly comes
back unchanged is said as well. -/
theorem fromXml_toXml_service {root : String} (hroot : LegalName root) :
    (∀ p : RetentionPolicy, fromXml RetentionPolicy (encode (toXml root p)) = .ok p) ∧
    (∀ l : Logging, fromXml Logging (encode (toXml root l)) = .ok l) ∧
    (∀ m : Metrics, fromXml Metrics (encode (toXml root m)) = .ok m) ∧
    (∀ r : CorsRule, fromXml CorsRule (encode (toXml root r)) = .ok r.readBack ∧
      (fromXml CorsRule (encode (toXml root r)) = .ok r ↔ r.Faithful)) ∧
    ∀ p : ServiceProperties, fromXml ServiceProperties (encode (toXml root p)) = .ok p.readBack ∧
      (fromXml ServiceProperties (encode (toXml root p)) = .ok p ↔ p.Faithful) := by
  have hrule (r : CorsRule) : fromXml CorsRule (encode (toXml root r)) = .ok r.readBack :=
    fromXml_toXml hroot r.toElements_eq r.canonical_of_mem_fields (r.ofElement_fields root "")
  have hservice (p : ServiceProperties) :
      fromXml ServiceProperties (encode (toXml root p)) = .ok p.readBack :=
    fromXml_toXml hroot p.toElements_eq p.canonical_of_mem_fields (p.ofElement_fields root "")
  refine ⟨fun p => ?_, fun l => ?_, fun m => ?_, fun r => ⟨hrule r, ?_⟩, fun p => ⟨hservice p, ?_⟩⟩
  · exact fromXml_toXml hroot p.toElements_eq p.canonical_of_mem_fields (p.ofElement_fields root "")
  · exact fromXml_toXml hroot l.toElements_eq l.canonical_of_mem_fields (l.ofElement_fields root "")
  · exact fromXml_toXml hroot m.toElements_eq m.canonical_of_mem_fields (m.ofElement_fields root "")
  · rw [hrule, Except.ok.injEq, CorsRule.readBack_eq_self_iff]
  · rw [hservice, Except.ok.injEq, ServiceProperties.readBack_eq_self_iff]

/-- An empty list comes back with one empty entry, an entry with a comma as two, a header list of blanks
and a blank version not at all. -/
theorem fromXml_toXml_service_commas :
    fromXml ServiceProperties (encode (toXml "Root" ({
      logging := none
      hourMetrics := none
      minuteMetrics := none
      cors := some [⟨[], ["GET,PUT"], 5, some [" "], some ["x-ms", ""]⟩]
      targetVersion := some " " } : ServiceProperties))) =
      .ok {
        logging := none
        hourMetrics := none
        minuteMetrics := none
        cors := some [⟨[""], ["GET", "PUT"], 5, none, some ["x-ms", ""]⟩]
        targetVersion := none } := by
  have hroot : LegalName "Root" := by decide
  obtain ⟨_, _, _, _, hservice⟩ := fromXml_toXml_service hroot
  exact (hservice _).1

end ShareWire
