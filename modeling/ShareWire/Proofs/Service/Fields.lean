import ShareWire.Proofs.Document.Field
import ShareWire.Proofs.Document.Outline
import ShareWire.Service.Encode

/-!
# Trees of service properties

The tree that the settings of a service denote, written out. It is what the writer makes, a document
can hold it unchanged, and its outline is fixed by which optional settings are there and by the number
of rules.
-/

namespace ShareWire

open Element (outlineAll outlineAll_append outlineAll_map_of_length outlineAll_leaf
  outlineAll_optional outline_congr ofBool_eq ofEntries_eq record_eq)

/-! ## Retention policies -/

namespace RetentionPolicy

def fields (p : RetentionPolicy) : List Element :=
  [⟨"Enabled", toString p.enabled, []⟩] ++ p.days.toList.map fun n => ⟨"Days", toString n.toInt, []⟩

def presence (p : RetentionPolicy) : Bool :=
  p.days.isSome

theorem toElements_eq (p : RetentionPolicy) : toElements p = p.fields := by
  simp only [ToElements.toElements, fields, Option.toList_map, ofBool_eq]
  rfl

theorem canonical_of_mem_fields (p : RetentionPolicy) : ∀ e ∈ p.fields, e.Canonical := by
  intro e he
  simp only [fields, List.mem_append, List.mem_singleton, List.mem_map] at he
  rcases he with rfl | ⟨n, _, rfl⟩ <;> exact .leaf (by decide) _

theorem outline_fields {p q : RetentionPolicy} (h : p.presence = q.presence) :
    outlineAll p.fields = outlineAll q.fields := by
  rw [fields, fields, outlineAll_append, outlineAll_append, outlineAll_leaf _ _ h]
  simp only [outlineAll, Element.outline]

end RetentionPolicy

/-! ## Logging and metrics -/

namespace Logging

def fields (l : Logging) : List Element :=
  [⟨"Version", l.version, []⟩, ⟨"Delete", toString l.delete, []⟩, ⟨"Read", toString l.read, []⟩,
    ⟨"Write", toString l.write, []⟩, ⟨"RetentionPolicy", "", l.retentionPolicy.fields⟩]

def presence (l : Logging) : Bool :=
  l.retentionPolicy.presence

theorem toElements_eq (l : Logging) : toElements l = l.fields := by
  rw [fields, ← RetentionPolicy.toElements_eq, ← ofBool_eq, ← ofBool_eq, ← ofBool_eq]
  rfl

theorem canonical_of_mem_fields (l : Logging) : ∀ e ∈ l.fields, e.Canonical := by
  intro e he
  simp only [fields, List.mem_cons, List.not_mem_nil, or_false] at he
  rcases he with rfl | rfl | rfl | rfl | rfl
  case inr.inr.inr.inr =>
    exact .intro (by decide) (fun _ => rfl) l.retentionPolicy.canonical_of_mem_fields
  all_goals exact .leaf (by decide) _

theorem outline_fields {l m : Logging} (h : l.presence = m.presence) :
    outlineAll l.fields = outlineAll m.fields := by
  have hpolicy := RetentionPolicy.outline_fields h
  simp only [fields, outlineAll, Element.outline, hpolicy]

end Logging

namespace Metrics

def fields (m : Metrics) : List Element :=
  [⟨"Version", m.version, []⟩, ⟨"Enabled", toString m.enabled, []⟩] ++
    (m.includeApis.toList.map fun b => ⟨"IncludeAPIs", toString b, []⟩) ++
    [⟨"RetentionPolicy", "", m.retentionPolicy.fields⟩]

def presence (m : Metrics) : Bool × Bool :=
  (m.includeApis.isSome, m.retentionPolicy.presence)

theorem toElements_eq (m : Metrics) : toElements m = m.fields := by
  have hapis : Element.ofBool "IncludeAPIs" = fun b => ⟨"IncludeAPIs", toString b, []⟩ :=
    funext fun b => ofBool_eq _ b
  rw [fields, ← RetentionPolicy.toElements_eq, ← Option.toList_map, ← hapis, ← ofBool_eq]
  rfl

theorem canonical_of_mem_fields (m : Metrics) : ∀ e ∈ m.fields, e.Canonical := by
  intro e he
  simp only [fields, List.mem_append, List.mem_cons, List.not_mem_nil, or_false, List.mem_map] at he
  rcases he with ((rfl | rfl) | ⟨b, _, rfl⟩) | rfl
  case inr => exact .intro (by decide) (fun _ => rfl) m.retentionPolicy.canonical_of_mem_fields
  all_goals exact .leaf (by decide) _

theorem outline_fields {m n : Metrics} (h : m.presence = n.presence) :
    outlineAll m.fields = outlineAll n.fields := by
  obtain ⟨hapis, hpolicy⟩ := Prod.mk.inj h
  have hpolicy := RetentionPolicy.outline_fields hpolicy
  simp only [fields, outlineAll_append, outlineAll_leaf _ _ hapis, outlineAll, Element.outline, hpolicy]

end Metrics

/-! ## Rules -/

namespace CorsRule

/-- The children that a rule denotes. Both header lists are written also when they are absent. -/
def fields (r : CorsRule) : List Element :=
  [⟨"AllowedOrigins", ",".intercalate r.allowedOrigins, []⟩,
    ⟨"AllowedMethods", ",".intercalate r.allowedMethods, []⟩,
    ⟨"MaxAgeInSeconds", toString r.maxAgeInSeconds.toInt, []⟩,
    ⟨"ExposedHeaders", ",".intercalate (r.exposedHeaders.getD []), []⟩,
    ⟨"AllowedHeaders", ",".intercalate (r.allowedHeaders.getD []), []⟩]

theorem toElements_eq (r : CorsRule) : toElements r = r.fields := by
  simp only [ToElements.toElements, ofEntries_eq]
  rfl

theorem canonical_of_mem_fields (r : CorsRule) : ∀ e ∈ r.fields, e.Canonical := by
  intro e he
  simp only [fields, List.mem_cons, List.not_mem_nil, or_false] at he
  rcases he with rfl | rfl | rfl | rfl | rfl <;> exact .leaf (by decide) _

theorem outline_fields (r s : CorsRule) : outlineAll r.fields = outlineAll s.fields := by
  simp only [fields, outlineAll, Element.outline]

def tree (r : CorsRule) : Element :=
  ⟨"CorsRule", "", r.fields⟩

theorem toElements_list_eq (rules : List CorsRule) : toElements rules = rules.map tree := by
  unfold tree
  rw [← record_eq toElements_eq]
  rfl

theorem outline_tree (r s : CorsRule) : r.tree.outline = s.tree.outline :=
  outline_congr (outline_fields r s) _ _ _

end CorsRule

/-! ## All settings -/

namespace ServiceProperties

def fields (p : ServiceProperties) : List Element :=
  (p.logging.toList.map fun l => ⟨"Logging", "", l.fields⟩) ++
    (p.hourMetrics.toList.map fun m => ⟨"HourMetrics", "", m.fields⟩) ++
    (p.minuteMetrics.toList.map fun m => ⟨"MinuteMetrics", "", m.fields⟩) ++
    (p.cors.toList.map fun rules => ⟨"Cors", "", rules.map CorsRule.tree⟩) ++
    (p.targetVersion.toList.map fun s => ⟨"DefaultServiceVersion", s, []⟩)

/-- Which settings of a service are there, with those inside them, and the number of rules. -/
def presence (p : ServiceProperties) :
    Option Bool × Option (Bool × Bool) × Option (Bool × Bool) × Option Nat × Bool :=
  (p.logging.map Logging.presence, p.hourMetrics.map Metrics.presence,
    p.minuteMetrics.map Metrics.presence, p.cors.map List.length, p.targetVersion.isSome)

theorem toElements_eq (p : ServiceProperties) : toElements p = p.fields := by
  simp only [fields, ← Option.toList_map]
  rw [← record_eq Logging.toElements_eq, ← record_eq Metrics.toElements_eq,
    ← record_eq Metrics.toElements_eq, ← record_eq CorsRule.toElements_list_eq]
  rfl

theorem canonical_of_mem_fields (p : ServiceProperties) : ∀ e ∈ p.fields, e.Canonical := by
  intro e he
  simp only [fields, List.mem_append, List.mem_map] at he
  rcases he with (((⟨l, _, rfl⟩ | ⟨m, _, rfl⟩) | ⟨m, _, rfl⟩) | ⟨rules, _, rfl⟩) | ⟨s, _, rfl⟩
  · exact .intro (by decide) (fun _ => rfl) l.canonical_of_mem_fields
  · exact .intro (by decide) (fun _ => rfl) m.canonical_of_mem_fields
  · exact .intro (by decide) (fun _ => rfl) m.canonical_of_mem_fields
  · refine .intro (by decide) (fun _ => rfl) fun c hc => ?_
    obtain ⟨r, _, rfl⟩ := List.mem_map.1 hc
    exact .intro (by decide) (fun _ => rfl) r.canonical_of_mem_fields
  · exact .leaf (by decide) s

theorem outline_fields {p q : ServiceProperties} (h : p.presence = q.presence) :
    outlineAll p.fields = outlineAll q.fields := by
  simp only [presence, Prod.mk.injEq] at h
  obtain ⟨hlogging, hhour, hminute, hcors, hversion⟩ := h
  have hrules (rules others : List CorsRule) (h : rules.length = others.length) :
      Element.outline ⟨"Cors", "", rules.map CorsRule.tree⟩ =
        Element.outline ⟨"Cors", "", others.map CorsRule.tree⟩ :=
    outline_congr (outlineAll_map_of_length CorsRule.outline_tree h) _ _ _
  simp only [fields, outlineAll_append]
  rw [outlineAll_optional (fun _ _ h => outline_congr (Logging.outline_fields h) _ _ _) hlogging,
    outlineAll_optional (fun _ _ h => outline_congr (Metrics.outline_fields h) _ _ _) hhour,
    outlineAll_optional (fun _ _ h => outline_congr (Metrics.outline_fields h) _ _ _) hminute,
    outlineAll_optional hrules hcors, outlineAll_leaf _ _ hversion]

end ServiceProperties

end ShareWire
