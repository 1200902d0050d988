import ShareWire.Policy.Decode
import ShareWire.Proofs.Document.Lookup
import ShareWire.Proofs.Policy.Fields
import ShareWire.Proofs.Time.Precise

/-!
# Round trip of stored access policies

Policies that are written and read again come back under the same identifiers with the same
permissions. Their instants lose the fraction of a second, and nothing more the second time.
-/

namespace ShareWire

open Element (require_of_child? requiredText_of_childText? childText?_of_child?
  optionalText_of_child? mapM_map childrenNamed_of_forall)
open Markup
open Text (encode)
open Time (Instant)

/-! ## Instants of policies -/

namespace AccessPolicy

/-- The policy with other instants for those that it has. -/
def mapInstants (f : Instant → Instant) (p : AccessPolicy) : AccessPolicy where
  start := p.start.map f
  expiry := p.expiry.map f
  permission := p.permission

structure AllInstants (P : Instant → Prop) (p : AccessPolicy) : Prop where
  start : ∀ t ∈ p.start, P t
  expiry : ∀ t ∈ p.expiry, P t

variable {f g : Instant → Instant} {p : AccessPolicy}

theorem option_map_eq_iff {o : Option Instant} : o.map f = o.map g ↔ ∀ t ∈ o, f t = g t := by
  cases o with
  | none => simp
  | some t => simp

theorem mapInstants_eq_iff : p.mapInstants f = p.mapInstants g ↔ p.AllInstants fun t => f t = g t := by
  rw [mapInstants, mapInstants, mk.injEq, option_map_eq_iff, option_map_eq_iff]
  constructor
  · rintro ⟨hstart, hexpiry, -⟩
    exact ⟨hstart, hexpiry⟩
  · rintro ⟨hstart, hexpiry⟩
    exact ⟨hstart, hexpiry, rfl⟩

theorem mapInstants_id (p : AccessPolicy) : p.mapInstants id = p := by
  rw [mapInstants, Option.map_id_fun, id, id]

theorem mapInstants_mapInstants (f g : Instant → Instant) (p : AccessPolicy) :
    (p.mapInstants f).mapInstants g = p.mapInstants (g ∘ f) := by
  rw [mapInstants, mapInstants, Option.map_map, Option.map_map]
  rfl

theorem allInstants_congr {P Q : Instant → Prop} (h : ∀ t, P t ↔ Q t) :
    p.AllInstants P ↔ p.AllInstants Q :=
  ⟨fun hp => ⟨fun t ht => (h t).1 (hp.start t ht), fun t ht => (h t).1 (hp.expiry t ht)⟩,
    fun hq => ⟨fun t ht => (h t).2 (hq.start t ht), fun t ht => (h t).2 (hq.expiry t ht)⟩⟩

end AccessPolicy

namespace SignedIdentifiers

def mapInstants (f : Instant → Instant) (s : SignedIdentifiers) : SignedIdentifiers where
  entries := s.entries.map fun (id, policy) => (id, policy.mapInstants f)
  ascending := by
    rw [List.map_map]
    exact s.ascending

def AllInstants (P : Instant → Prop) (s : SignedIdentifiers) : Prop :=
  ∀ entry ∈ s.entries, entry.2.AllInstants P

variable {f g : Instant → Instant} {s : SignedIdentifiers}

theorem eq_of_entries {s t : SignedIdentifiers} (h : s.entries = t.entries) : s = t := by
  cases s
  cases t
  cases h
  rfl

theorem entries_mapInstants (f : Instant → Instant) (s : SignedIdentifiers) :
    (s.mapInstants f).entries = s.entries.map fun (id, policy) => (id, policy.mapInstants f) :=
  rfl

theorem mapInstants_eq_iff : s.mapInstants f = s.mapInstants g ↔ s.AllInstants fun t => f t = g t := by
  have hentries : (s.mapInstants f).entries = (s.mapInstants g).entries ↔
      s.AllInstants fun t => f t = g t := by
    rw [entries_mapInstants, entries_mapInstants, List.map_inj_left]
    refine forall₂_congr fun entry _ => ?_
    rw [← AccessPolicy.mapInstants_eq_iff]
    exact ⟨fun h => congrArg Prod.snd h, fun h => Prod.ext rfl h⟩
  rw [← hentries]
  exact ⟨congrArg entries, eq_of_entries⟩

theorem mapInstants_id (s : SignedIdentifiers) : s.mapInstants id = s := by
  refine eq_of_entries ?_
  rw [entries_mapInstants]
  simp only [AccessPolicy.mapInstants_id]
  exact List.map_id' _

theorem mapInstants_mapInstants (f g : Instant → Instant) (s : SignedIdentifiers) :
    (s.mapInstants f).mapInstants g = s.mapInstants (g ∘ f) := by
  refine eq_of_entries ?_
  rw [entries_mapInstants, entries_mapInstants, entries_mapInstants, List.map_map]
  exact List.map_congr_left fun entry _ => Prod.ext rfl (entry.2.mapInstants_mapInstants f g)

theorem allInstants_congr {P Q : Instant → Prop} (h : ∀ t, P t ↔ Q t) :
    s.AllInstants P ↔ s.AllInstants Q :=
  forall₂_congr fun _ _ => AccessPolicy.allInstants_congr h

end SignedIdentifiers

/-! ## Collecting entries -/

/-- A key behind all others comes last. -/
theorem insertAscending_of_forall_lt {α : Type} {key : String} (value : α) {l : List (String × α)}
    (h : ∀ entry ∈ l, entry.1 < key) : insertAscending key value l = l ++ [(key, value)] := by
  induction l with
  | nil => rfl
  | cons entry rest ih =>
    rw [insertAscending, if_pos (h entry (by simp)), ih fun e he => h e (by simp [he])]
    rfl

namespace SignedIdentifiers

theorem entries_foldl_insert {s : SignedIdentifiers} {more : List (String × AccessPolicy)}
    (h : ((s.entries ++ more).map Prod.fst).Pairwise (· < ·)) :
    (more.foldl (fun s entry => s.insert entry.1 entry.2) s).entries = s.entries ++ more := by
  induction more generalizing s with
  | nil => rw [List.append_nil]; rfl
  | cons entry more ih =>
    -- The next entry is behind all that were collected before it.
    have hlast : (s.insert entry.1 entry.2).entries = s.entries ++ [entry] := by
      refine insertAscending_of_forall_lt entry.2 fun e he => ?_
      rw [List.map_append, List.pairwise_append] at h
      exact h.2.2 e.1 (List.mem_map_of_mem he) entry.1 (by simp)
    have hsplit : s.entries ++ entry :: more = (s.insert entry.1 entry.2).entries ++ more := by
      rw [hlast, List.append_assoc]
      rfl
    rw [hsplit] at h
    rw [List.foldl_cons, ih h, hsplit]

theorem ofList_entries (s : SignedIdentifiers) : ofList s.entries = s :=
  eq_of_entries (entries_foldl_insert (s := ∅) s.ascending)

end SignedIdentifiers

/-! ## Reading the trees -/

theorem readTimestamp_isoSeconds (t : Instant) : readTimestamp t.isoSeconds = .ok t.toSecond := by
  rw [readTimestamp, t.ofText_isoSeconds]

theorem AccessPolicy.ofElement_fields (name text : String) (p : AccessPolicy) :
    ofElement ⟨name, text, p.fields⟩ = .ok (p.mapInstants Instant.toSecond) := by
  let e : Element := ⟨name, text, p.fields⟩
  have hinstant (tag : String) (o : Option Instant)
      (h : e.child? tag = o.map fun t => ⟨tag, t.isoSeconds, []⟩) :
      e.optionalText tag readTimestamp = .ok (o.map Instant.toSecond) :=
    optionalText_of_child? h fun t _ => readTimestamp_isoSeconds t
  have hstart := hinstant "Start" p.start
    (by simp [e, fields])
  have hexpiry := hinstant "Expiry" p.expiry
    (by simp [e, fields])
  have hchild : e.child? "Permission" = p.permission.map fun s => ⟨"Permission", s, []⟩ := by
    simp [e, fields]
  have hpermission : e.childText? "Permission" = p.permission := by
    rw [childText?_of_child? hchild]
    exact Option.map_id'
  refine bind_ok hstart (bind_ok hexpiry ?_)
  rw [hpermission]
  rfl

namespace SignedIdentifiers

theorem readEntry_entryTree (entry : String × AccessPolicy) :
    readEntry (entryTree entry) = .ok (entry.1, entry.2.mapInstants Instant.toSecond) := by
  have hid : (entryTree entry).requiredText "Id" = .ok entry.1 := requiredText_of_childText? rfl
  have hpolicy : (entryTree entry).require "AccessPolicy" =
      .ok ⟨"AccessPolicy", "", entry.2.fields⟩ := require_of_child? rfl
  exact bind_ok hid (bind_ok hpolicy (bind_ok (entry.2.ofElement_fields _ _) rfl))

theorem ofElement_fields (name text : String) (s : SignedIdentifiers) :
    ofElement ⟨name, text, s.fields⟩ = .ok (s.mapInstants Instant.toSecond) := by
  have hnamed : Element.childrenNamed ⟨name, text, s.fields⟩ "SignedIdentifier" = s.fields := by
    refine childrenNamed_of_forall fun c hc => ?_
    obtain ⟨entry, _, rfl⟩ := List.mem_map.1 hc
    rfl
  have hentries : (Element.childrenNamed ⟨name, text, s.fields⟩ "SignedIdentifier").mapM readEntry =
      .ok (s.mapInstants Instant.toSecond).entries := by
    rw [hnamed]
    exact mapM_map fun entry _ => readEntry_entryTree entry
  refine bind_ok hentries ?_
  rw [ofList_entries]
  rfl

end SignedIdentifiers

/-! ## Round trip -/

theorem SignedIdentifiers.fromXml_toDocument (s : SignedIdentifiers) :
    fromXml SignedIdentifiers (encode s.toDocument) = .ok (s.mapInstants Instant.toSecond) :=
  fromXml_toXml (by decide) s.toElements_eq s.canonical_of_mem_fields (s.ofElement_fields _ _)

theorem AccessPolicy.fromXml_toXml {root : String} (hroot : LegalName root) (p : AccessPolicy) :
    fromXml AccessPolicy (encode (toXml root p)) = .ok (p.mapInstants Instant.toSecond) :=
  ShareWire.fromXml_toXml hroot p.toElements_eq p.canonical_of_mem_fields (p.ofElement_fields _ _)

/-- Policies come back with the seconds that clocks show at their instants. These are the instants without
their fractions, leap seconds inside a minute aside. So the policies come back unchanged exactly if no
instant has a fraction of a second or lies in such a leap second, and a second round trip changes nothing. -/
theorem fromXml_toXml_policies :
    (∀ s : SignedIdentifiers, ∃ later : SignedIdentifiers,
      fromXml SignedIdentifiers (encode s.toDocument) = .ok later ∧
      later = s.mapInstants Instant.toSecond ∧
      (later = s.mapInstants Instant.truncated ↔ s.AllInstants Instant.LeapEndsMinute) ∧
      (later = s ↔ s.AllInstants fun t => t.fraction = 0 ∧ t.LeapEndsMinute) ∧
      fromXml SignedIdentifiers (encode later.toDocument) = .ok later) ∧
    ∀ root : String, LegalName root → ∀ p : AccessPolicy, ∃ later : AccessPolicy,
      fromXml AccessPolicy (encode (toXml root p)) = .ok later ∧
      later = p.mapInstants Instant.toSecond ∧
      (later = p.mapInstants Instant.truncated ↔ p.AllInstants Instant.LeapEndsMinute) ∧
      (later = p ↔ p.AllInstants fun t => t.fraction = 0 ∧ t.LeapEndsMinute) ∧
      fromXml AccessPolicy (encode (toXml root later)) = .ok later := by
  have htwice : Instant.toSecond ∘ Instant.toSecond = Instant.toSecond := funext Instant.toSecond_toSecond
  constructor
  · intro s
    refine ⟨s.mapInstants Instant.toSecond, s.fromXml_toDocument, rfl, ?_, ?_, ?_⟩
    · rw [SignedIdentifiers.mapInstants_eq_iff]
      exact SignedIdentifiers.allInstants_congr fun _ => Instant.toSecond_eq_truncated_iff
    · conv_lhs => rw [← s.mapInstants_id, SignedIdentifiers.mapInstants_mapInstants]
      rw [SignedIdentifiers.mapInstants_eq_iff]
      exact SignedIdentifiers.allInstants_congr fun _ => Instant.toSecond_eq_self_iff
    · rw [SignedIdentifiers.fromXml_toDocument, SignedIdentifiers.mapInstants_mapInstants, htwice]
  · intro root hroot p
    refine ⟨p.mapInstants Instant.toSecond, p.fromXml_toXml hroot, rfl, ?_, ?_, ?_⟩
    · rw [AccessPolicy.mapInstants_eq_iff]
      exact AccessPolicy.allInstants_congr fun _ => Instant.toSecond_eq_truncated_iff
    · conv_lhs => rw [← p.mapInstants_id, AccessPolicy.mapInstants_mapInstants]
      rw [AccessPolicy.mapInstants_eq_iff]
      exact AccessPolicy.allInstants_congr fun _ => Instant.toSecond_eq_self_iff
    · rw [AccessPolicy.fromXml_toXml hroot, AccessPolicy.mapInstants_mapInstants, htwice]

/-- A policy that begins in the year before year zero and ends in a leap second of the year 10000. -/
theorem fromXml_toXml_policies_leap :
    fromXml SignedIdentifiers (encode (SignedIdentifiers.toDocument
      ⟨[("<a> & b", ⟨some ⟨-62167219201, 5, by decide, by decide, by decide⟩,
        some ⟨253402300859, 1500000000, by decide, by decide, by decide⟩, some "rw"⟩)],
        List.pairwise_singleton _ _⟩)) =
      .ok ⟨[("<a> & b", ⟨some ⟨-62167219201, 0, by decide, by decide, by decide⟩,
        some ⟨253402300859, 1000000000, by decide, by decide, by decide⟩, some "rw"⟩)],
        List.pairwise_singleton _ _⟩ ∧
    fromXml AccessPolicy (encode (toXml "Policy" (⟨none, none, some " "⟩ : AccessPolicy))) =
      .ok ⟨none, none, some " "⟩ := by
  have hroot : LegalName "Policy" := by decide
  obtain ⟨hidentifiers, hpolicy⟩ := fromXml_toXml_policies
  obtain ⟨identifiers, hread, rfl, -⟩ := hidentifiers _
  obtain ⟨policy, hreadPolicy, rfl, -⟩ := hpolicy "Policy" hroot _
  exact ⟨hread, hreadPolicy⟩

/-- A policy that begins in a leap second inside a minute comes back with the second that follows, which is
not the leap second without its fraction. -/
theorem fromXml_toXml_policies_inside_minute :
    let p : AccessPolicy := ⟨some ⟨86164, 1333333333, by decide, by decide, by decide⟩, none, none⟩
    fromXml AccessPolicy (encode (toXml "Policy" p)) =
      .ok ⟨some ⟨86165, 0, by decide, by decide, by decide⟩, none, none⟩ ∧
    fromXml AccessPolicy (encode (toXml "Policy" p)) ≠ .ok (p.mapInstants Instant.truncated) := by
  intro p
  have hsecond : p.mapInstants Instant.toSecond =
      ⟨some ⟨86165, 0, by decide, by decide, by decide⟩, none, none⟩ := by
    decide +kernel
  have hinside : p.mapInstants Instant.toSecond ≠ p.mapInstants Instant.truncated := by decide +kernel
  rw [p.fromXml_toXml (by decide), hsecond]
  exact ⟨rfl, fun h => hinside (hsecond.trans (Except.ok.inj h))⟩

end ShareWire
