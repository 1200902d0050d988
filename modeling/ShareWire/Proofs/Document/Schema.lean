import ShareWire.Document.Decode
import ShareWire.Proofs.Fallible
import ShareWire.Proofs.Text.Numeral

/-!
# Schemas of elements

What an element has to hold for a record to be read from it, in the order in which it is looked at, and
the first defect of an element that does not hold it. Readers that are put together like their schemas
accept the valid elements and report the first defect of the others.
-/

namespace ShareWire

open Text (Denotes FixedWidth LawfulFixedWidth readBounded)
open Time (Instant)

/-! ## Integers of documents -/

inductive IntegerType where
  | int32
  | int64
  | uint64
deriving DecidableEq, Repr

namespace IntegerType

def label : IntegerType → String
  | .int32 => "i32"
  | .int64 => "i64"
  | .uint64 => "u64"

def least : IntegerType → Int
  | .int32 => -2147483648
  | .int64 => -9223372036854775808
  | .uint64 => 0

def greatest : IntegerType → Int
  | .int32 => 2147483647
  | .int64 => 9223372036854775807
  | .uint64 => 18446744073709551615

/-- A type whose values are the integers of a type of documents. -/
class Implements (type : outParam IntegerType) (α : Type) [FixedWidth α] : Prop extends
    LawfulFixedWidth α where
  label_eq : FixedWidth.label α = type.label
  least_eq : FixedWidth.least α = type.least
  greatest_eq : FixedWidth.greatest α = type.greatest

instance : Implements .int32 Int32 := ⟨rfl, rfl, rfl⟩

instance : Implements .int64 Int64 := ⟨rfl, rfl, rfl⟩

instance : Implements .uint64 UInt64 := ⟨rfl, rfl, rfl⟩

theorem bounds (type : IntegerType) : type.least ≤ 0 ∧ 0 ≤ type.greatest := by
  cases type <;> decide

end IntegerType

theorem readInteger_eq {α : Type} [FixedWidth α] (type : IntegerType) [type.Implements α]
    (s : String) : readInteger α s =
      match readBounded .decimal type.least type.greatest (Text.trim s.toList) with
      | .ok n => .ok (FixedWidth.ofInt n)
      | .error fault => .error (.value (.integer type.label s fault)) := by
  rw [readInteger, readDecimal, Text.readInteger, IntegerType.Implements.label_eq (α := α),
    IntegerType.Implements.least_eq (α := α), IntegerType.Implements.greatest_eq (α := α)]
  cases readBounded .decimal type.least type.greatest (Text.trim s.toList) with
  | error fault => rfl
  | ok n => rfl

theorem readInteger_eq_mapError {α : Type} [FixedWidth α] (s : String) : readInteger α s =
    (readDecimal α s).mapError fun fault => .value (.integer (FixedWidth.label α) s fault) := by
  unfold readInteger
  cases readDecimal α s with
  | ok n => rfl
  | error fault => rfl

theorem readInteger_eq_ok_iff_readDecimal {α : Type} [FixedWidth α] {s : String} {n : α} :
    readInteger α s = .ok n ↔ readDecimal α s = .ok n := by
  rw [readInteger_eq_mapError]
  cases readDecimal α s with
  | ok m => simp only [Except.mapError, Except.ok.injEq]
  | error fault => exact iff_of_false (by simp [Except.mapError]) (by simp)

/-- Reading gives the integer that the text denotes. -/
theorem readInteger_eq_ok_iff {α : Type} [FixedWidth α] (type : IntegerType) [type.Implements α]
    {s : String} {n : α} :
    readInteger α s = .ok n ↔ Denotes type.least type.greatest s (FixedWidth.toInt n) := by
  rw [readInteger_eq type, Denotes, ← Text.readBounded_eq_ok_iff type.bounds.1 type.bounds.2]
  constructor
  · intro h
    split at h
    · next v hv =>
      obtain rfl := Except.ok.inj h
      have hrange := (Text.readBounded_eq_ok_iff type.bounds.1 type.bounds.2).1 hv
      rw [← IntegerType.Implements.least_eq (α := α), ← IntegerType.Implements.greatest_eq (α := α)]
        at hrange
      rw [LawfulFixedWidth.toInt_ofInt v hrange.2.1 hrange.2.2, hv]
    · cases h
  · intro h
    rw [h]
    exact congrArg Except.ok (LawfulFixedWidth.ofInt_toInt n)

/-! ## Validity and defects -/

/-- What is asked of an element. A record asks for its fields one after the other, each under its name
and with what is asked of that child. -/
inductive Schema where
  /-- Nothing, or nothing more. -/
  | any
  /-- The text is an integer. -/
  | integer (type : IntegerType)
  | timestamp
  /-- There is a child of the name, and the first one is looked at. -/
  | required (name : String) (content rest : Schema)
  /-- If there is a child of the name, the first one is looked at. -/
  | optional (name : String) (content rest : Schema)
  /-- All children of the name are looked at. -/
  | every (name : String) (content rest : Schema)

namespace Schema

/-- An element that holds what is asked. -/
def Valid : Schema → Element → Prop
  | any, _ => True
  | integer type, e => ∃ n, Denotes type.least type.greatest e.text n
  | timestamp, e => ∃ t, Instant.ofText e.text = .ok t
  | required name content rest, e =>
    (∃ c, e.child? name = some c ∧ content.Valid c) ∧ rest.Valid e
  | optional name content rest, e =>
    (∀ c, e.child? name = some c → content.Valid c) ∧ rest.Valid e
  | every name content rest, e =>
    (∀ c ∈ e.children, c.name = name → content.Valid c) ∧ rest.Valid e

/-- The first defect of an element: all that is asked before it is there. -/
inductive Defect : Schema → Element → DocumentError → Prop where
  | integer {type : IntegerType} {e : Element} {fault : Text.IntegerFault} :
      readBounded .decimal type.least type.greatest (Text.trim e.text.toList) = .error fault →
      Defect (.integer type) e (.value (.integer type.label e.text fault))
  | timestamp {e : Element} {fault : Time.PatternFault} : Instant.ofText e.text = .error fault →
      Defect .timestamp e (.value (.timestamp e.text fault))
  | missing {name : String} {content rest : Schema} {e : Element} : e.child? name = none →
      Defect (.required name content rest) e (.missingElement e.name name)
  | required {name : String} {content rest : Schema} {e c : Element} {error : DocumentError} :
      e.child? name = some c → Defect content c error →
      Defect (.required name content rest) e error
  | behindRequired {name : String} {content rest : Schema} {e c : Element}
      {error : DocumentError} : e.child? name = some c → content.Valid c → Defect rest e error →
      Defect (.required name content rest) e error
  | optional {name : String} {content rest : Schema} {e c : Element} {error : DocumentError} :
      e.child? name = some c → Defect content c error →
      Defect (.optional name content rest) e error
  | behindOptional {name : String} {content rest : Schema} {e : Element} {error : DocumentError} :
      (∀ c, e.child? name = some c → content.Valid c) → Defect rest e error →
      Defect (.optional name content rest) e error
  | every {name : String} {content rest : Schema} {e c : Element} {before after : List Element}
      {error : DocumentError} : e.children = before ++ c :: after → c.name = name →
      (∀ earlier ∈ before, earlier.name = name → content.Valid earlier) → Defect content c error →
      Defect (.every name content rest) e error
  | behindEvery {name : String} {content rest : Schema} {e : Element} {error : DocumentError} :
      (∀ c ∈ e.children, c.name = name → content.Valid c) → Defect rest e error →
      Defect (.every name content rest) e error

end Schema

/-! ## Real defects -/

/-- The elements of a tree. -/
inductive Element.Within : Element → Element → Prop where
  | self (e : Element) : Within e e
  | child {place c e : Element} : c ∈ e.children → Within place c → Within place e

/-- An error that tells what is wrong with an element: a child of the name is not there, or its text is
none of the wanted type. -/
inductive Element.Flaw : Element → DocumentError → Prop where
  | missing {e : Element} {name : String} : (∀ c ∈ e.children, c.name ≠ name) →
      Flaw e (.missingElement e.name name)
  | integer {type : IntegerType} {e : Element} {fault : Text.IntegerFault} :
      (∀ n, ¬ Denotes type.least type.greatest e.text n) →
      Flaw e (.value (.integer type.label e.text fault))
  | timestamp {e : Element} {fault : Time.PatternFault} : (∀ t, Instant.ofText e.text ≠ .ok t) →
      Flaw e (.value (.timestamp e.text fault))

theorem Element.child?_eq_none_iff {e : Element} {name : String} :
    e.child? name = none ↔ ∀ c ∈ e.children, c.name ≠ name := by
  simp [child?]

theorem Element.mem_of_child? {e c : Element} {name : String} (h : e.child? name = some c) :
    c ∈ e.children :=
  List.mem_of_find?_eq_some h

/-- The first defect is somewhere in the element. -/
theorem Schema.Defect.exists_flaw {schema : Schema} {e : Element} {error : DocumentError}
    (h : schema.Defect e error) : ∃ place : Element, place.Within e ∧ place.Flaw error := by
  induction h with
  | @integer type e fault hfault =>
    refine ⟨e, .self e, .integer fun n hn => ?_⟩
    have hread := (Text.readBounded_eq_ok_iff type.bounds.1 type.bounds.2).2 hn
    rw [hfault] at hread
    cases hread
  | @timestamp e fault hfault =>
    refine ⟨e, .self e, .timestamp fun t ht => ?_⟩
    rw [hfault] at ht
    cases ht
  | missing hnone => exact ⟨_, .self _, .missing (Element.child?_eq_none_iff.1 hnone)⟩
  | required hc _ ih | optional hc _ ih =>
    obtain ⟨place, hplace, hflaw⟩ := ih
    exact ⟨place, .child (Element.mem_of_child? hc) hplace, hflaw⟩
  | every hchildren _ _ _ ih =>
    obtain ⟨place, hplace, hflaw⟩ := ih
    have hc := hchildren ▸ List.mem_append_right _ List.mem_cons_self
    exact ⟨place, .child hc hplace, hflaw⟩
  | behindRequired _ _ _ ih | behindOptional _ _ ih | behindEvery _ _ ih => exact ih

/-! ## Children of a name -/

namespace Element

variable {e : Element} {name : String} {p q : Element → Prop}

theorem forall_childrenNamed_iff :
    (∀ c ∈ e.childrenNamed name, p c) ↔ ∀ c ∈ e.children, c.name = name → p c := by
  simp only [childrenNamed, List.forall_mem_filter, decide_eq_true_iff]

/-- A child of a name that is the first one of its kind, among the children of the name and among all. -/
theorem exists_childrenNamed_eq_append_iff :
    (∃ before c after, e.childrenNamed name = before ++ c :: after ∧
      (∀ earlier ∈ before, p earlier) ∧ q c) ↔
    ∃ before c after, e.children = before ++ c :: after ∧ c.name = name ∧
      (∀ earlier ∈ before, earlier.name = name → p earlier) ∧ q c := by
  constructor
  · rintro ⟨_, c, _, hnamed, hbefore, hc⟩
    obtain ⟨before, rest, hchildren, rfl, hrest⟩ := List.filter_eq_append_iff.1 hnamed
    obtain ⟨others, after, rfl, hothers, hname, -⟩ := List.filter_eq_cons_iff.1 hrest
    refine ⟨before ++ others, c, after, by rw [hchildren, List.append_assoc], of_decide_eq_true hname,
      fun earlier hmem hearlier => ?_, hc⟩
    rcases List.mem_append.1 hmem with hmem | hmem
    · exact hbefore earlier (List.mem_filter.2 ⟨hmem, decide_eq_true hearlier⟩)
    · exact absurd (decide_eq_true hearlier) (hothers earlier hmem)
  · rintro ⟨before, c, after, hchildren, hname, hbefore, hc⟩
    refine ⟨before.filter (·.name = name), c, after.filter (·.name = name), ?_, fun earlier hmem => ?_, hc⟩
    · rw [childrenNamed, hchildren, List.filter_append, List.filter_cons, if_pos (decide_eq_true hname)]
    · obtain ⟨hmem, hearlier⟩ := List.mem_filter.1 hmem
      exact hbefore earlier hmem (of_decide_eq_true hearlier)

end Element

/-! ## Readers -/

/-- A reader that accepts the elements that are valid, and reports the first defect of the others. -/
structure Schema.Fits {α : Type} (schema : Schema) (read : Element → Except DocumentError α) :
    Prop where
  ok_iff (e : Element) : (∃ a, read e = .ok a) ↔ schema.Valid e
  error_iff (e : Element) (error : DocumentError) :
    read e = .error error ↔ schema.Defect e error

theorem Schema.Fits.exists_error {α : Type} {schema : Schema}
    {read : Element → Except DocumentError α} (h : schema.Fits read) {e : Element}
    (hinvalid : ¬ schema.Valid e) : ∃ error, read e = .error error := by
  rw [← h.ok_iff] at hinvalid
  cases hread : read e with
  | error error => exact ⟨error, rfl⟩
  | ok a => exact absurd ⟨a, hread⟩ hinvalid

theorem Element.requiredText_bind {α : Type} {e : Element} {name : String}
    {f : String → Except DocumentError α} :
    e.requiredText name >>= f = e.require name >>= fun c => f c.text := by
  rw [requiredText]
  cases e.require name with
  | error error => rfl
  | ok c => rfl

namespace Schema.Fits

variable {α β : Type} {content rest : Schema} {read : Element → Except DocumentError β}
  {next : β → Element → Except DocumentError α} {name : String}

/-! ### Texts -/

theorem any (f : Element → α) : Schema.any.Fits fun e => pure (f e) where
  ok_iff e := ⟨fun _ => trivial, fun _ => ⟨f e, rfl⟩⟩
  error_iff e error := by
    constructor
    · intro h
      cases h
    · intro h
      cases h

theorem integer {type : IntegerType} [FixedWidth β] [type.Implements β] :
    (Schema.integer type).Fits fun e => readInteger β e.text where
  ok_iff e := by
    rw [readInteger_eq type]
    cases hread : readBounded .decimal type.least type.greatest (Text.trim e.text.toList) with
    | error fault =>
      constructor
      · intro ⟨_, h⟩
        cases h
      · intro ⟨n, hn⟩
        rw [(Text.readBounded_eq_ok_iff type.bounds.1 type.bounds.2).2 hn] at hread
        cases hread
    | ok n =>
      have hn := (Text.readBounded_eq_ok_iff type.bounds.1 type.bounds.2).1 hread
      exact ⟨fun _ => ⟨n, hn⟩, fun _ => ⟨_, rfl⟩⟩
  error_iff e error := by
    rw [readInteger_eq type]
    constructor
    · intro h
      split at h
      · cases h
      · next fault hfault =>
        obtain rfl := Except.error.inj h
        exact .integer hfault
    · intro h
      cases h with
      | integer hfault => rw [hfault]

theorem timestamp : Schema.timestamp.Fits fun e => readTimestamp e.text where
  ok_iff e := by
    simp only [readTimestamp]
    cases ht : Instant.ofText e.text with
    | error fault => simp [Valid, ht]
    | ok t => simp [Valid, ht]
  error_iff e error := by
    constructor
    · intro h
      simp only [readTimestamp] at h
      split at h
      · cases h
      · next fault hfault =>
        obtain rfl := Except.error.inj h
        exact .timestamp hfault
    · intro h
      cases h with
      | timestamp hfault => simp only [readTimestamp, hfault]

/-! ### Fields -/

/-- Reading goes on behind a first field if that field is as asked. -/
theorem of_first {schema : Schema} {first : Element → Except DocumentError β}
    (hvalid : ∀ e, schema.Valid e ↔ (∃ b, first e = .ok b) ∧ rest.Valid e)
    (hdefect : ∀ e error, schema.Defect e error ↔
      first e = .error error ∨ (∃ b, first e = .ok b) ∧ rest.Defect e error)
    (hnext : ∀ b, rest.Fits (next b)) : schema.Fits fun e => first e >>= fun b => next b e where
  ok_iff e := by
    rw [hvalid]
    constructor
    · intro ⟨a, h⟩
      obtain ⟨b, hb, ha⟩ := exists_of_bind_ok h
      exact ⟨⟨b, hb⟩, ((hnext b).ok_iff e).1 ⟨a, ha⟩⟩
    · intro ⟨⟨b, hb⟩, hrest⟩
      obtain ⟨a, ha⟩ := ((hnext b).ok_iff e).2 hrest
      exact ⟨a, bind_ok hb ha⟩
  error_iff e error := by
    rw [hdefect, bind_error_iff]
    refine or_congr_right ?_
    constructor
    · intro ⟨b, hb, h⟩
      exact ⟨⟨b, hb⟩, ((hnext b).error_iff e error).1 h⟩
    · intro ⟨⟨b, hb⟩, hrest⟩
      exact ⟨b, hb, ((hnext b).error_iff e error).2 hrest⟩

/-- A field that has to be there. -/
theorem required (hcontent : content.Fits read) (hnext : ∀ b, rest.Fits (next b)) :
    (Schema.required name content rest).Fits fun e =>
      (e.require name >>= read) >>= fun b => next b e := by
  have hnone (e : Element) (hc : e.child? name = none) :
      e.require name >>= read = .error (.missingElement e.name name) := by
    rw [Element.require, hc]
    rfl
  have hsome (e c : Element) (hc : e.child? name = some c) : e.require name >>= read = read c := by
    rw [Element.require, hc]
    rfl
  refine of_first (fun e => and_congr_left fun _ => ?_) (fun e error => ?_) hnext
  · cases hc : e.child? name with
    | none => simp [hnone e hc]
    | some c => simp [hsome e c hc, hcontent.ok_iff]
  · constructor
    · intro h
      cases h with
      | missing hc => exact .inl (hnone e hc)
      | @required _ _ _ _ c _ hc hdefect =>
        exact .inl ((hsome e c hc).trans ((hcontent.error_iff c error).2 hdefect))
      | @behindRequired _ _ _ _ c _ hc hvalid hrest =>
        rw [hsome e c hc]
        exact .inr ⟨(hcontent.ok_iff c).2 hvalid, hrest⟩
    · intro h
      cases hc : e.child? name with
      | none =>
        rw [hnone e hc] at h
        rcases h with h | ⟨⟨b, hb⟩, -⟩
        · obtain rfl := Except.error.inj h
          exact .missing hc
        · cases hb
      | some c =>
        rw [hsome e c hc, hcontent.error_iff, hcontent.ok_iff] at h
        rcases h with hdefect | ⟨hvalid, hrest⟩
        · exact .required hc hdefect
        · exact .behindRequired hc hvalid hrest

/-- A field that may be absent. -/
theorem optional {first : Element → Except DocumentError (Option β)}
    {next : Option β → Element → Except DocumentError α} (hcontent : content.Fits read)
    (hnone : ∀ e, e.child? name = none → first e = .ok none)
    (hsome : ∀ e c, e.child? name = some c → first e = (read c).map some)
    (hnext : ∀ o, rest.Fits (next o)) :
    (Schema.optional name content rest).Fits fun e => first e >>= fun o => next o e := by
  refine of_first (fun e => and_congr_left fun _ => ?_) (fun e error => ?_) hnext
  · cases hc : e.child? name with
    | none => simp [hnone e hc]
    | some c => simp [hsome e c hc, exists_map_ok_iff, hcontent.ok_iff]
  · cases hc : e.child? name with
    | none =>
      constructor
      · intro h
        cases h with
        | optional hsome' => simp [hc] at hsome'
        | behindOptional _ hrest => exact .inr ⟨⟨none, hnone e hc⟩, hrest⟩
      · intro h
        rw [hnone e hc] at h
        rcases h with h | ⟨-, hrest⟩
        · cases h
        · exact .behindOptional (fun c hc' => by simp [hc] at hc') hrest
    | some c =>
      rw [hsome e c hc, map_error_iff, exists_map_ok_iff, hcontent.error_iff, hcontent.ok_iff]
      constructor
      · intro h
        cases h with
        | optional hc' hdefect =>
          obtain rfl := Option.some.inj (hc.symm.trans hc')
          exact .inl hdefect
        | behindOptional hvalid hrest => exact .inr ⟨hvalid c hc, hrest⟩
      · rintro (hdefect | ⟨hvalid, hrest⟩)
        · exact .optional hc hdefect
        · refine .behindOptional (fun d hd => ?_) hrest
          obtain rfl := Option.some.inj (hc.symm.trans hd)
          exact hvalid

/-- A field that may be absent and is taken as it is. -/
theorem optional_any {read : Element → Except DocumentError α} (hrest : rest.Fits read) :
    (Schema.optional name .any rest).Fits read where
  ok_iff e := (hrest.ok_iff e).trans (and_iff_right fun _ _ => trivial).symm
  error_iff e error := by
    rw [hrest.error_iff]
    constructor
    · intro h
      exact .behindOptional (fun _ _ => trivial) h
    · intro h
      cases h with
      | optional _ h => cases h
      | behindOptional _ h => exact h

/-- A field that comes any number of times. -/
theorem every {next : List β → Element → Except DocumentError α} (hcontent : content.Fits read)
    (hnext : ∀ bs, rest.Fits (next bs)) : (Schema.every name content rest).Fits fun e =>
      (e.childrenNamed name).mapM read >>= fun bs => next bs e := by
  -- The first child that is not valid ends the reading of the list, and with it that of the record.
  refine of_first (fun e => and_congr_left fun _ => ?_) (fun e error => ?_) hnext
  · simp only [exists_mapM_ok_iff, hcontent.ok_iff, Element.forall_childrenNamed_iff]
  · simp only [mapM_error_iff, exists_mapM_ok_iff, hcontent.ok_iff, hcontent.error_iff,
      Element.forall_childrenNamed_iff, Element.exists_childrenNamed_eq_append_iff]
    constructor
    · intro h
      cases h with
      | every hchildren hname hbefore hdefect =>
        exact .inl ⟨_, _, _, hchildren, hname, hbefore, hdefect⟩
      | behindEvery hvalid hrest => exact .inr ⟨hvalid, hrest⟩
    · rintro (⟨before, c, after, hchildren, hname, hbefore, hdefect⟩ | ⟨hvalid, hrest⟩)
      · exact .every hchildren hname hbefore hdefect
      · exact .behindEvery hvalid hrest

/-! ### Fields as they are read -/

/-- A child that has to be there. -/
theorem require (hcontent : content.Fits read) (hnext : ∀ b, rest.Fits (next b)) :
    (Schema.required name content rest).Fits fun e =>
      e.require name >>= fun c => read c >>= fun b => next b e := by
  simp only [← bind_assoc]
  exact required hcontent hnext

/-- A text that has to be there and to be of a form. -/
theorem requiredValue {readText : String → Except DocumentError β}
    (hcontent : content.Fits fun c => readText c.text) (hnext : ∀ b, rest.Fits (next b)) :
    (Schema.required name content rest).Fits fun e =>
      e.requiredText name >>= fun text => readText text >>= fun b => next b e := by
  simp only [Element.requiredText_bind]
  exact require hcontent hnext

/-- A text that has to be there and is taken as it is. -/
theorem requiredText {next : String → Element → Except DocumentError α}
    (hnext : ∀ text, rest.Fits (next text)) : (Schema.required name .any rest).Fits fun e =>
      e.requiredText name >>= fun text => next text e := by
  simp only [Element.requiredText_bind]
  exact require (any Element.text) hnext

theorem optionalText {readText : String → Except DocumentError β}
    {next : Option β → Element → Except DocumentError α}
    (hcontent : content.Fits fun c => readText c.text) (hnext : ∀ o, rest.Fits (next o)) :
    (Schema.optional name content rest).Fits fun e =>
      e.optionalText name readText >>= fun o => next o e :=
  optional hcontent (fun e hc => by rw [Element.optionalText, Element.childText?, hc]; rfl)
    (fun e c hc => by rw [Element.optionalText, Element.childText?, hc]; rfl) hnext

theorem optionalRecord [FromElement β] {next : Option β → Element → Except DocumentError α}
    (hcontent : content.Fits (ofElement (α := β))) (hnext : ∀ o, rest.Fits (next o)) :
    (Schema.optional name content rest).Fits fun e =>
      e.optional β name >>= fun o => next o e :=
  optional hcontent (fun e hc => by rw [Element.optional, hc])
    (fun e c hc => by rw [Element.optional, hc]) hnext

theorem all [FromElement β] (hcontent : content.Fits (ofElement (α := β))) :
    (Schema.every name content .any).Fits fun e => e.all β name := by
  have h : (Schema.every name content .any).Fits fun e =>
      (e.childrenNamed name).mapM ofElement >>= fun bs => pure bs :=
    every hcontent fun bs => any fun _ => bs
  simpa only [Element.all, bind_pure] using h

end Schema.Fits

end ShareWire
