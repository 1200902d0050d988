import Mathlib.Data.List.Induction
import Mathlib.Logic.Function.Basic
import ShareWire.Property.Record

/-!
# Runs of assignments

What a record holds after a row of assignments. Each kind of record has places for some of the
properties; a place takes the values of its own property that have the right form, and the last of them
stays. Main statement: this is all that assignments do, so no two properties share a place, and the order
matters between assignments to the same property only.
-/

namespace ShareWire

namespace PropertyValue

/-- The conversion that gives values of this form. -/
def form : PropertyValue → Property.Conversion
  | .text _ => .text
  | .integer _ => .integer
  | .timestamp _ => .timestamp

def text? : PropertyValue → Option String
  | .text s => some s
  | _ => none

def integer? : PropertyValue → Option Int64
  | .integer n => some n
  | _ => none

def timestamp? : PropertyValue → Option Time.Instant
  | .timestamp t => some t
  | _ => none

/-- Whether a value has the form that a property is kept in. -/
def Fits (v : PropertyValue) (p : Property) : Prop :=
  v.form = p.conversion

instance (v : PropertyValue) (p : Property) : Decidable (v.Fits p) :=
  inferInstanceAs (Decidable (v.form = p.conversion))

end PropertyValue

/-- The last value that is assigned to a property in a form that fits it. -/
def lastFitting? (calls : List (Property × PropertyValue)) (p : Property) : Option PropertyValue :=
  (calls.filter fun call => call.1 = p ∧ call.2.Fits p).getLast?.map Prod.snd

/-! ## Records of values -/

open PropertyValue (text? integer? timestamp?)

def ContentSettings.ofValues (value? : Property → Option PropertyValue) : ContentSettings where
  contentType := (value? .contentType).bind text?
  contentEncoding := (value? .contentEncoding).bind text?
  contentLanguage := (value? .contentLanguage).bind text?
  contentDisposition := (value? .contentDisposition).bind text?
  cacheControl := (value? .cacheControl).bind text?
  contentMd5 := (value? .contentMd5).bind text?

def LeaseProperties.ofValues (value? : Property → Option PropertyValue) : LeaseProperties where
  status := (value? .leaseStatus).bind text?
  state := (value? .leaseState).bind text?
  duration := (value? .leaseDuration).bind text?

def CopyProperties.ofValues (value? : Property → Option PropertyValue) : CopyProperties where
  id := (value? .copyId).bind text?
  source := (value? .copySource).bind text?
  status := (value? .copyStatus).bind text?
  progress := (value? .copyProgress).bind text?
  completionTime := (value? .copyCompletionTime).bind text?
  statusDescription := (value? .copyStatusDescription).bind text?

def BlobProperties.ofValues (value? : Property → Option PropertyValue) : BlobProperties where
  blobType := (value? .blobType).bind text?
  lastModified := (value? .lastModified).bind timestamp?
  etag := (value? .etag).bind text?
  contentLength := (value? .contentLength).bind integer?
  contentSettings := .ofValues value?
  lease := .ofValues value?
  copy := .ofValues value?
  pageBlobSequenceNumber := (value? .pageBlobSequenceNumber).bind integer?
  appendBlobCommittedBlockCount := (value? .appendBlobCommittedBlockCount).bind integer?

def FileProperties.ofValues (value? : Property → Option PropertyValue) : FileProperties where
  lastModified := (value? .lastModified).bind timestamp?
  etag := (value? .etag).bind text?
  contentLength := (value? .contentLength).bind integer?
  contentSettings := .ofValues value?
  copy := .ofValues value?

def ShareProperties.ofValues (value? : Property → Option PropertyValue) : ShareProperties where
  lastModified := (value? .lastModified).bind timestamp?
  etag := (value? .etag).bind text?
  quota := none

def DirectoryProperties.ofValues (value? : Property → Option PropertyValue) : DirectoryProperties where
  lastModified := (value? .lastModified).bind timestamp?
  etag := (value? .etag).bind text?

/-! ## Reading back a value -/

namespace PropertyValue

@[simp] theorem bind_text?_map (o : Option String) : (o.map text).bind text? = o := by
  cases o <;> rfl

@[simp] theorem bind_integer?_map (o : Option Int64) : (o.map integer).bind integer? = o := by
  cases o <;> rfl

@[simp] theorem bind_timestamp?_map (o : Option Time.Instant) :
    (o.map timestamp).bind timestamp? = o := by
  cases o <;> rfl

theorem map_text_bind (o : Option PropertyValue) :
    (o.bind text?).map text = o.filter fun v => v.form = .text := by
  rcases o with _ | _ | _ | _ <;> rfl

theorem map_integer_bind (o : Option PropertyValue) :
    (o.bind integer?).map integer = o.filter fun v => v.form = .integer := by
  rcases o with _ | _ | _ | _ <;> rfl

theorem map_timestamp_bind (o : Option PropertyValue) :
    (o.bind timestamp?).map timestamp = o.filter fun v => v.form = .timestamp := by
  rcases o with _ | _ | _ | _ <;> rfl

end PropertyValue

/-! ## Places -/

def FileProperties.slots : List Property :=
  [.lastModified, .etag, .contentLength, .contentType, .cacheControl, .contentEncoding,
    .contentDisposition, .contentLanguage, .contentMd5, .copyId, .copySource, .copyStatus,
    .copyProgress, .copyCompletionTime, .copyStatusDescription]

/-- The properties that records of shares have places for; the quota is none of them. -/
def ShareProperties.slots : List Property :=
  [.lastModified, .etag]

def DirectoryProperties.slots : List Property :=
  [.lastModified, .etag]

/-- Records that consist of places for properties, and of a rest that no assignment reaches. -/
class SlotRecord (α : Type) [PropertyRecord α] where
  slots : List Property
  /-- A record with the given values in its places and with the rest that it has. -/
  put : α → (Property → Option PropertyValue) → α
  put_get? (r : α) : put r (PropertyRecord.get? r) = r
  put_restrict (r : α) (value? : Property → Option PropertyValue) :
    put r (fun p => if p ∈ slots then value? p else none) = put r value?
  get?_put (r : α) (value? : Property → Option PropertyValue) (p : Property) :
    PropertyRecord.get? (put r value?) p =
      if p ∈ slots then (value? p).filter fun v => v.Fits p else none
  /-- A value that fits comes into the place of its property; any other value is let go. -/
  assign_put (r : α) (value? : Property → Option PropertyValue) (p : Property) (v : PropertyValue) :
    PropertyRecord.assign (put r value?) p v =
      put r (if v.Fits p then Function.update value? p (some v) else value?)
  put_none : put PropertyRecord.blank (fun _ => none) = (PropertyRecord.blank : α)

open PropertyValue (map_text_bind map_integer_bind map_timestamp_bind)

instance : SlotRecord BlobProperties where
  slots := Property.all
  put _ value? := .ofValues value?
  put_get? r := by
    show BlobProperties.ofValues r.get? = r
    simp [BlobProperties.ofValues, BlobProperties.get?, ContentSettings.ofValues, ContentSettings.get?,
      LeaseProperties.ofValues, LeaseProperties.get?, CopyProperties.ofValues, CopyProperties.get?,
      Property.part]
  put_restrict _ _ := rfl
  get?_put _ value? p := by
    cases hpart : p.part with
    | contentSettings => cases p <;> cases hpart <;> exact map_text_bind _
    | lease => cases p <;> cases hpart <;> exact map_text_bind _
    | copy => cases p <;> cases hpart <;> exact map_text_bind _
    | root =>
      cases p with
      | lastModified => exact map_timestamp_bind _
      | etag | blobType => exact map_text_bind _
      | contentLength | pageBlobSequenceNumber | appendBlobCommittedBlockCount =>
        exact map_integer_bind _
      | _ => cases hpart
  assign_put _ _ p v := by cases p <;> cases v <;> rfl
  put_none := rfl

instance : SlotRecord FileProperties where
  slots := FileProperties.slots
  put _ value? := .ofValues value?
  put_get? r := by
    show FileProperties.ofValues r.get? = r
    simp [FileProperties.ofValues, FileProperties.get?, ContentSettings.ofValues, ContentSettings.get?,
      CopyProperties.ofValues, CopyProperties.get?, Property.part]
  put_restrict _ _ := rfl
  get?_put _ value? p := by
    cases hpart : p.part with
    | contentSettings => cases p <;> cases hpart <;> exact map_text_bind _
    | lease => cases p <;> cases hpart <;> rfl
    | copy => cases p <;> cases hpart <;> exact map_text_bind _
    | root =>
      cases p with
      | lastModified => exact map_timestamp_bind _
      | etag => exact map_text_bind _
      | contentLength => exact map_integer_bind _
      | blobType | pageBlobSequenceNumber | appendBlobCommittedBlockCount => rfl
      | _ => cases hpart
  assign_put _ _ p v := by cases p <;> cases v <;> rfl
  put_none := rfl

instance : SlotRecord ShareProperties where
  slots := ShareProperties.slots
  put r value? := { ShareProperties.ofValues value? with quota := r.quota }
  put_get? r := by
    show { ShareProperties.ofValues r.get? with quota := r.quota } = r
    simp [ShareProperties.ofValues, ShareProperties.get?]
  put_restrict _ _ := rfl
  get?_put _ value? p := by
    cases p with
    | lastModified => exact map_timestamp_bind _
    | etag => exact map_text_bind _
    | _ => rfl
  assign_put _ _ p v := by cases p <;> cases v <;> rfl
  put_none := rfl

instance : SlotRecord DirectoryProperties where
  slots := DirectoryProperties.slots
  put _ value? := .ofValues value?
  put_get? r := by
    show DirectoryProperties.ofValues r.get? = r
    simp [DirectoryProperties.ofValues, DirectoryProperties.get?]
  put_restrict _ _ := rfl
  get?_put _ value? p := by
    cases p with
    | lastModified => exact map_timestamp_bind _
    | etag => exact map_text_bind _
    | _ => rfl
  assign_put _ _ p v := by cases p <;> cases v <;> rfl
  put_none := rfl

/-! ## Single assignments -/

namespace SlotRecord

open PropertyRecord (blank assign get?)

variable {α : Type} [PropertyRecord α] [SlotRecord α]

/-- What a record holds fits, and stands in a place. -/
theorem get?_eq_ite (r : α) (p : Property) :
    get? r p = if p ∈ slots α then (get? r p).filter fun v => v.Fits p else none := by
  have h := get?_put r (get? r) p
  rwa [put_get?] at h

theorem assign_eq_put (r : α) (p : Property) (v : PropertyValue) :
    assign r p v = put r (if v.Fits p then Function.update (get? r) p (some v) else get? r) := by
  have h := assign_put r (get? r) p v
  rwa [put_get?] at h

theorem put_update_of_not_mem (r : α) (value? : Property → Option PropertyValue) {p : Property}
    (hp : p ∉ slots α) (o : Option PropertyValue) :
    put r (Function.update value? p o) = put r value? := by
  rw [← put_restrict, ← put_restrict r value?]
  refine congrArg (put r) (funext fun q => ?_)
  by_cases hq : q ∈ slots α
  · have hne : q ≠ p := fun h => hp (h ▸ hq)
    rw [Function.update_of_ne hne]
  · rw [if_neg hq, if_neg hq]

theorem assign_of_ignored (r : α) {p : Property} {v : PropertyValue}
    (h : p ∉ slots α ∨ ¬ v.Fits p) : assign r p v = r := by
  by_cases hfits : v.Fits p
  · have hp : p ∉ slots α := h.resolve_right (not_not.2 hfits)
    rw [assign_eq_put, if_pos hfits, put_update_of_not_mem r _ hp, put_get?]
  · rw [assign_eq_put, if_neg hfits, put_get?]

theorem get?_assign_self (r : α) {p : Property} {v : PropertyValue} (hp : p ∈ slots α)
    (hfits : v.Fits p) : get? (assign r p v) p = some v := by
  rw [assign_eq_put, if_pos hfits, get?_put, if_pos hp, Function.update_self]
  exact Option.filter_some_pos (decide_eq_true hfits)

theorem get?_assign_of_ne (r : α) {p q : Property} (hne : q ≠ p) (v : PropertyValue) :
    get? (assign r p v) q = get? r q := by
  by_cases hfits : v.Fits p
  · rw [assign_eq_put, if_pos hfits, get?_put, Function.update_of_ne hne]
    exact (get?_eq_ite r q).symm
  · rw [assign_of_ignored r (.inr hfits)]

theorem assign_comm (r : α) {p q : Property} (hne : p ≠ q) (v w : PropertyValue) :
    assign (assign r p v) q w = assign (assign r q w) p v := by
  have hput (value? : Property → Option PropertyValue) :
      assign (assign (put r value?) p v) q w = assign (assign (put r value?) q w) p v := by
    rw [assign_put, assign_put, assign_put, assign_put]
    by_cases hv : v.Fits p
    · by_cases hw : w.Fits q
      · simp only [if_pos hv, if_pos hw, Function.update_comm hne]
      · simp only [if_pos hv, if_neg hw]
    · simp only [if_neg hv]
  have h := hput (get? r)
  rwa [put_get?] at h

end SlotRecord

/-! ## Runs -/

def assignAll {α : Type} [PropertyRecord α] (r : α) (calls : List (Property × PropertyValue)) : α :=
  calls.foldl (fun r call => PropertyRecord.assign r call.1 call.2) r

theorem lastFitting?_append (calls : List (Property × PropertyValue)) (p : Property)
    (v : PropertyValue) : lastFitting? (calls ++ [(p, v)]) =
      if v.Fits p then Function.update (lastFitting? calls) p (some v) else lastFitting? calls := by
  funext q
  by_cases hq : q = p
  · subst hq
    by_cases hfits : v.Fits q <;> simp [lastFitting?, hfits]
  · by_cases hfits : v.Fits p <;> simp [lastFitting?, hfits, hq, Ne.symm hq]

theorem fits_of_lastFitting? {calls : List (Property × PropertyValue)} {p : Property}
    {v : PropertyValue} (h : lastFitting? calls p = some v) : v.Fits p := by
  obtain ⟨call, hlast, rfl⟩ := Option.map_eq_some_iff.1 h
  have hcall := (List.mem_filter.1 (List.mem_of_getLast? hlast)).2
  obtain ⟨rfl, hfits⟩ := of_decide_eq_true hcall
  exact hfits

namespace SlotRecord

open PropertyRecord (blank assign get?)

variable {α : Type} [PropertyRecord α] [SlotRecord α]

/-- A run from the blank record: each assignment that fits replaces the value before it. -/
theorem assignAll_blank (calls : List (Property × PropertyValue)) :
    assignAll (blank : α) calls = put blank (lastFitting? calls) := by
  induction calls using List.reverseRecOn with
  | nil => exact put_none.symm
  | append_singleton calls call ih =>
    obtain ⟨p, v⟩ := call
    have hlast : assignAll (blank : α) (calls ++ [(p, v)]) = assign (assignAll blank calls) p v :=
      List.foldl_append
    rw [hlast, ih, assign_put, lastFitting?_append]

theorem get?_assignAll_blank (calls : List (Property × PropertyValue)) {p : Property}
    (hp : p ∈ slots α) : get? (assignAll (blank : α) calls) p = lastFitting? calls p := by
  rw [assignAll_blank, get?_put, if_pos hp]
  cases hlast : lastFitting? calls p with
  | none => rfl
  | some v => exact Option.filter_some_pos (decide_eq_true (fits_of_lastFitting? hlast))

end SlotRecord

/-! ## Main statement -/

/-- What assignments do to a kind of records with places for some properties, given the record that
values stand for. -/
structure Assigns (α : Type) [PropertyRecord α] (slots : List Property)
    (ofValues : (Property → Option PropertyValue) → α) : Prop where
  /-- Whatever is assigned to the blank record, it holds the last value of each property that fits, and
  nothing else. -/
  run (calls : List (Property × PropertyValue)) :
    assignAll PropertyRecord.blank calls = ofValues (lastFitting? calls)
  /-- The place of a property has what the record holds of it. -/
  reads (value? : Property → Option PropertyValue) {p : Property} : p ∈ slots →
    PropertyRecord.get? (ofValues value?) p = (value? p).filter fun v => v.Fits p
  place (calls : List (Property × PropertyValue)) {p : Property} : p ∈ slots →
    PropertyRecord.get? (assignAll (PropertyRecord.blank : α) calls) p = lastFitting? calls p
  /-- A value without a place, or of a form that does not fit, changes nothing. -/
  ignored (r : α) {p : Property} {v : PropertyValue} : p ∉ slots ∨ ¬ v.Fits p →
    PropertyRecord.assign r p v = r
  /-- No value comes into the place of another property. -/
  frame (r : α) {p q : Property} (v : PropertyValue) : q ≠ p →
    PropertyRecord.get? (PropertyRecord.assign r p v) q = PropertyRecord.get? r q
  commute (r : α) {p q : Property} (v w : PropertyValue) : p ≠ q →
    PropertyRecord.assign (PropertyRecord.assign r p v) q w =
      PropertyRecord.assign (PropertyRecord.assign r q w) p v
  /-- Two properties have two places: a record can hold any values of both. -/
  separate (r : α) {p q : Property} {v w : PropertyValue} : p ∈ slots → q ∈ slots → p ≠ q →
    v.Fits p → w.Fits q →
      PropertyRecord.get? (PropertyRecord.assign (PropertyRecord.assign r p v) q w) p = some v ∧
      PropertyRecord.get? (PropertyRecord.assign (PropertyRecord.assign r p v) q w) q = some w

theorem SlotRecord.assigns {α : Type} [PropertyRecord α] [SlotRecord α]
    {ofValues : (Property → Option PropertyValue) → α}
    (hput : ∀ value?, put PropertyRecord.blank value? = ofValues value?) :
    Assigns α (slots α) ofValues where
  run calls := (assignAll_blank calls).trans (hput _)
  reads value? p hp := by rw [← hput, get?_put, if_pos hp]
  place calls _ hp := get?_assignAll_blank calls hp
  ignored r _ _ h := assign_of_ignored r h
  frame r _ _ v hne := get?_assign_of_ne r hne v
  commute r _ _ v w hne := assign_comm r hne v w
  separate r p q v w hp hq hne hv hw := by
    have hkept := get?_assign_of_ne (PropertyRecord.assign r p v) hne w
    exact ⟨hkept.trans (get?_assign_self r hp hv), get?_assign_self _ hq hw⟩

/-- Assignments to the records of all four kinds. -/
theorem assignAll_assigns :
    Assigns BlobProperties Property.all BlobProperties.ofValues ∧
    Assigns FileProperties FileProperties.slots FileProperties.ofValues ∧
    Assigns ShareProperties ShareProperties.slots ShareProperties.ofValues ∧
    Assigns DirectoryProperties DirectoryProperties.slots DirectoryProperties.ofValues :=
  ⟨SlotRecord.assigns fun _ => rfl, SlotRecord.assigns fun _ => rfl, SlotRecord.assigns fun _ => rfl,
    SlotRecord.assigns fun _ => rfl⟩

/-- A form that does not fit, a property without a place, and a second value for the same place. -/
example : assignAll PropertyRecord.blank
    [(.etag, .text "a"), (.etag, .integer 1), (.contentLength, .integer 2), (.etag, .text "b")] =
      ({ etag := some "b" } : ShareProperties) := by
  decide

end ShareWire
