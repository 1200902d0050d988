import ShareWire.Proofs.Http.ReadBack

/-!
# Common fields and their items

What an updater adds is decided by the texts that it is given. Main statement: an updater adds a field for
each of its items, up to the first one of which the name or the text is not legal, and no field that it
adds can hold the end of a line.
-/

namespace ShareWire.Http

open Text (encode lowerAscii)

/-! ## Legal texts -/

def tokenMarks : List Char := "!#$%&'*+-.^_`|~".toList

inductive TokenChar (c : Char) : Prop
  | lower (h : 'a' ≤ c ∧ c ≤ 'z')
  | upper (h : 'A' ≤ c ∧ c ≤ 'Z')
  | digit (h : '0' ≤ c ∧ c ≤ '9')
  | mark (h : c ∈ tokenMarks)

/-- A text that is the name of a header field, in any case. -/
structure LegalName (text : String) : Prop where
  nonempty : text ≠ ""
  short : text.length ≤ 65535
  token : ∀ c ∈ text.toList, TokenChar c

/-- A text that is the value of a header field. -/
def LegalValue (text : String) : Prop :=
  ∀ b ∈ encode text, b = 0x09 ∨ (0x20 ≤ b ∧ b ≠ 0x7F)

theorem isValueByte_iff {b : UInt8} : isValueByte b = true ↔ b = 0x09 ∨ (0x20 ≤ b ∧ b ≠ 0x7F) := by
  simp only [isValueByte, Bool.or_eq_true, Bool.and_eq_true, decide_eq_true_eq]

theorem legalValue_iff {text : String} :
    LegalValue text ↔ (encode text).all isValueByte = true := by
  simp only [LegalValue, List.all_eq_true, isValueByte_iff]

theorem isNameChar_iff {c : Char} :
    isNameChar c = true ↔ ('a' ≤ c ∧ c ≤ 'z') ∨ ('0' ≤ c ∧ c ≤ '9') ∨ c ∈ tokenMarks := by
  have hdigit : c.isDigit = true ↔ '0' ≤ c ∧ c ≤ '9' := by
    simp only [Char.isDigit, Bool.and_eq_true, decide_eq_true_eq]
    exact Iff.rfl
  simp only [isNameChar, Bool.or_eq_true, Bool.and_eq_true, decide_eq_true_eq, hdigit,
    List.contains_iff_mem, or_assoc]
  exact Iff.rfl

/-- Letters are folded into lower case. -/
theorem lowerAscii_of_upper {c : Char} (h : 'A' ≤ c ∧ c ≤ 'Z') :
    'a' ≤ lowerAscii c ∧ lowerAscii c ≤ 'z' := by
  have hlow : 65 ≤ c.toNat := h.1
  have hhigh : c.toNat ≤ 90 := h.2
  have hfolded : lowerAscii c = Char.ofNat (c.toNat + 32) := by
    rw [lowerAscii, if_pos]
    simpa only [Bool.and_eq_true, decide_eq_true_eq] using h
  have hcode : (Char.ofNat (c.toNat + 32)).toNat = c.toNat + 32 := by
    rw [Char.ofNat, dif_pos (.inl (by omega))]
    rfl
  rw [hfolded]
  constructor
  · show 97 ≤ (Char.ofNat (c.toNat + 32)).toNat
    omega
  · show (Char.ofNat (c.toNat + 32)).toNat ≤ 122
    omega

theorem lowerAscii_of_not_upper {c : Char} (h : ¬ ('A' ≤ c ∧ c ≤ 'Z')) : lowerAscii c = c := by
  rw [lowerAscii, if_neg]
  simpa only [Bool.and_eq_true, decide_eq_true_eq] using h

/-- A character is one of a token when it is one of a name in lower case. -/
theorem isNameChar_lowerAscii_iff {c : Char} : isNameChar (lowerAscii c) = true ↔ TokenChar c := by
  by_cases hupper : 'A' ≤ c ∧ c ≤ 'Z'
  · exact iff_of_true (isNameChar_iff.2 (.inl (lowerAscii_of_upper hupper))) (.upper hupper)
  · rw [lowerAscii_of_not_upper hupper, isNameChar_iff]
    constructor
    · rintro (hlower | hdigit | hmark)
      · exact .lower hlower
      · exact .digit hdigit
      · exact .mark hmark
    · rintro (hlower | hupper' | hdigit | hmark)
      · exact .inl hlower
      · exact absurd hupper' hupper
      · exact .inr (.inl hdigit)
      · exact .inr (.inr hmark)

theorem HeaderName.isSome_ofText? {text : String} : (ofText? text).isSome ↔ LegalName text := by
  have hlegal : (text.toList.map lowerAscii ≠ [] ∧
      (text.toList.map lowerAscii).length ≤ greatestNameLength ∧
      (text.toList.map lowerAscii).all isNameChar = true) ↔ LegalName text := by
    simp only [List.length_map, ne_eq, List.map_eq_nil_iff, String.toList_eq_nil_iff, List.all_map,
      List.all_eq_true, Function.comp, isNameChar_lowerAscii_iff]
    exact ⟨fun h => ⟨h.1, h.2.1, h.2.2⟩, fun h => ⟨h.nonempty, h.short, h.token⟩⟩
  rw [← hlegal, ofText?]
  simp only [String.toList_ofList]
  split
  · next h => exact iff_of_true rfl h
  · next h => exact iff_of_false Bool.false_ne_true h

theorem HeaderValue.isSome_ofText? {text : String} : (ofText? text).isSome ↔ LegalValue text := by
  rw [legalValue_iff, ofText?, ofBytes?]
  split
  · next h => exact iff_of_true rfl h
  · next h => exact iff_of_false (by simp) h

/-! ## Fields that hold no end of a line -/

/-- A field that stays on its line: its name is a token in lower case, and its value has no control
character other than the tab. -/
structure Harmless (field : HeaderName × HeaderValue) : Prop where
  name : field.1.text ≠ "" ∧ ∀ c ∈ field.1.text.toList, TokenChar c ∧ ¬ ('A' ≤ c ∧ c ≤ 'Z')
  value : ∀ b ∈ field.2.bytes, b < 0x20 ∨ b = 0x7F → b = 0x09

theorem not_upper_of_isNameChar {c : Char} (h : isNameChar c = true) : ¬ ('A' ≤ c ∧ c ≤ 'Z') := by
  have hmarks : (tokenMarks.all fun c => !decide ('A' ≤ c ∧ c ≤ 'Z')) = true := by decide
  intro hupper
  have hhigh : c.toNat ≤ 90 := hupper.2
  have hlow : 65 ≤ c.toNat := hupper.1
  rcases isNameChar_iff.1 h with hlower | hdigit | hmark
  · have : 97 ≤ c.toNat := hlower.1
    omega
  · have : c.toNat ≤ 57 := hdigit.2
    omega
  · simpa [hupper] using List.all_eq_true.1 hmarks c hmark

/-- Nothing but the types of names and values is needed for a field to be harmless. -/
theorem harmless (field : HeaderName × HeaderValue) : Harmless field := by
  obtain ⟨name, value⟩ := field
  refine ⟨⟨?_, fun c hc => ?_⟩, fun b hb hcontrol => ?_⟩
  · exact fun hempty => name.nonempty (String.toList_eq_nil_iff.2 hempty)
  · have hchar : isNameChar c = true := List.all_eq_true.1 name.token c hc
    have hupper := not_upper_of_isNameChar hchar
    have htoken : TokenChar c := by
      rw [← isNameChar_lowerAscii_iff, lowerAscii_of_not_upper hupper]
      exact hchar
    exact ⟨htoken, hupper⟩
  · rcases isValueByte_iff.1 (List.all_eq_true.1 value.legal b hb) with htab | ⟨hlow, hdelete⟩
    · exact htab
    · rcases hcontrol with hcontrol | hcontrol
      · exact absurd hcontrol (UInt8.not_lt.2 hlow)
      · exact absurd hcontrol hdelete

/-! ## Items -/

/-- What a field is to be made of: its name, as it is called in errors, and its text. -/
structure Item where
  spelled : String
  text : String

namespace Item

structure Legal (item : Item) : Prop where
  name : LegalName item.spelled
  text : LegalValue item.text

/-- An item that no field can be made of. The name is looked at first. -/
inductive Refused (item : Item) : HeaderFault → Prop
  | name (hname : ¬ LegalName item.spelled) : Refused item .badName
  | text (hname : LegalName item.spelled) (htext : ¬ LegalValue item.text) : Refused item .badValue

/-- The field that an item is made into. -/
structure WrittenAs (item : Item) (field : HeaderName × HeaderValue) : Prop where
  name : field.1.text = lowered item.spelled
  value : field.2.bytes = encode item.text

theorem Refused.not_legal {item : Item} {fault : HeaderFault} (h : item.Refused fault) :
    ¬ item.Legal := by
  cases h with
  | name hname => exact fun hlegal => hname hlegal.name
  | text _ htext => exact fun hlegal => htext hlegal.text

end Item

/-- The length of the body, for the methods that say it. Their case is significant. -/
def Request.lengthItems (request : Request) : List Item :=
  if request.method ∈ ["PUT", "POST", "MERGE", "DELETE"] then
    [⟨"content-length", toString request.body.length⟩]
  else []

/-- The items of a request, in order. -/
def Request.items (request : Request) (apiVersion userAgent : String) : List Item :=
  request.lengthItems ++ [⟨"x-ms-version", apiVersion⟩, ⟨"user-agent", userAgent⟩] ++
    request.metadata.entries.map fun entry => ⟨"x-ms-meta-" ++ entry.1, entry.2⟩

/-- How the adding of items ends, and the fields that it adds: it stops at the first item that is not
legal. -/
inductive Ends : List Item → Except ExchangeError PUnit → List (HeaderName × HeaderValue) → Prop
  | complete {items fields} (legal : ∀ item ∈ items, item.Legal)
      (written : List.Forall₂ Item.WrittenAs items fields) : Ends items (.ok ()) fields
  | stopped {before after fields} {item : Item} {fault} (legal : ∀ item ∈ before, item.Legal)
      (written : List.Forall₂ Item.WrittenAs before fields) (refused : item.Refused fault) :
      Ends (before ++ item :: after) (.error (.invalidHeader item.spelled fault)) fields

theorem legalName_version : LegalName "x-ms-version" :=
  HeaderName.isSome_ofText?.1 (by decide)

theorem legalName_userAgent : LegalName "user-agent" :=
  HeaderName.isSome_ofText?.1 (by decide)

/-- The length of a body is always legal. -/
theorem Request.legal_of_mem_lengthItems {request : Request} {item : Item}
    (h : item ∈ request.lengthItems) : item.Legal := by
  have hname : LegalName "content-length" := HeaderName.isSome_ofText?.1 (by decide)
  unfold lengthItems at h
  split at h
  · obtain rfl := List.mem_singleton.1 h
    exact ⟨hname, legalValue_iff.2 (HeaderValue.legal_encode_toString request.body.length)⟩
  · cases h

/-- The length of a body and the names that are not metadata are always legal. -/
theorem Request.forall_items_legal_iff (request : Request) (apiVersion userAgent : String) :
    (∀ item ∈ request.items apiVersion userAgent, item.Legal) ↔
      LegalValue apiVersion ∧ LegalValue userAgent ∧ ∀ entry ∈ request.metadata.entries,
        LegalName ("x-ms-meta-" ++ entry.1) ∧ LegalValue entry.2 := by
  have hlength : ∀ item ∈ request.lengthItems, item.Legal := fun item => legal_of_mem_lengthItems
  have hlegal (item : Item) : item.Legal ↔ LegalName item.spelled ∧ LegalValue item.text :=
    ⟨fun h => ⟨h.name, h.text⟩, fun h => ⟨h.1, h.2⟩⟩
  rw [items, List.forall_mem_append, List.forall_mem_append, and_iff_right hlength]
  simp only [List.forall_mem_cons, List.forall_mem_map, hlegal, legalName_version,
    legalName_userAgent, true_and, List.not_mem_nil, false_imp_iff, implies_true, and_true, and_assoc]

namespace Ends

variable {items : List Item} {outcome : Except ExchangeError PUnit}
  {fields : List (HeaderName × HeaderValue)}

theorem cons {item : Item} {field : HeaderName × HeaderValue} (hlegal : item.Legal)
    (hwritten : item.WrittenAs field) (h : Ends items outcome fields) :
    Ends (item :: items) outcome (field :: fields) := by
  cases h with
  | complete legal written =>
    exact .complete (List.forall_mem_cons.2 ⟨hlegal, legal⟩) (.cons hwritten written)
  | stopped legal written refused =>
    rw [← List.cons_append]
    exact .stopped (List.forall_mem_cons.2 ⟨hlegal, legal⟩) (.cons hwritten written) refused

theorem eq_ok_iff (h : Ends items outcome fields) :
    outcome = .ok () ↔ ∀ item ∈ items, item.Legal := by
  cases h with
  | complete legal => exact iff_of_true rfl legal
  | stopped _ _ refused =>
    refine iff_of_false (by simp) fun hlegal => refused.not_legal (hlegal _ ?_)
    exact List.mem_append_right _ List.mem_cons_self

end Ends

/-! ## Drafts of items -/

namespace Draft

def ofItem (item : Item) : Draft where
  spelled := item.spelled
  field := build (HeaderName.ofText? item.spelled) item.text

/-- A field is made of an item that is legal, and of no other. -/
theorem field_ofItem (item : Item) :
    (∃ field, (ofItem item).field = .ok field ∧ item.Legal ∧ item.WrittenAs field) ∨
    ∃ fault, (ofItem item).field = .error fault ∧ item.Refused fault := by
  have hbuild : (ofItem item).field = build (HeaderName.ofText? item.spelled) item.text := rfl
  -- The name is looked at first, so the text counts only if the name is legal.
  cases hname : HeaderName.ofText? item.spelled with
  | none =>
    have hillegal : ¬ LegalName item.spelled := by
      rw [← HeaderName.isSome_ofText?, hname]
      exact Bool.false_ne_true
    exact .inr ⟨.badName, by rw [hbuild, hname]; rfl, .name hillegal⟩
  | some name =>
    have hlegal : LegalName item.spelled := HeaderName.isSome_ofText?.1 (by rw [hname]; rfl)
    cases hvalue : HeaderValue.ofText? item.text with
    | none =>
      have hillegal : ¬ LegalValue item.text := by
        rw [← HeaderValue.isSome_ofText?, hvalue]
        exact Bool.false_ne_true
      exact .inr ⟨.badValue, by simp only [hbuild, hname, build, hvalue], .text hlegal hillegal⟩
    | some value =>
      have htext : LegalValue item.text := HeaderValue.isSome_ofText?.1 (by rw [hvalue]; rfl)
      exact .inl ⟨(name, value), by simp only [hbuild, hname, build, hvalue], ⟨hlegal, htext⟩,
        HeaderName.text_of_ofText? hname, HeaderValue.bytes_of_ofText? hvalue⟩

theorem ends (items : List Item) :
    Ends items (outcome (items.map ofItem)) (fields (items.map ofItem)) := by
  induction items with
  | nil => exact .complete (List.forall_mem_nil _) .nil
  | cons item items ih =>
    rw [List.map_cons, outcome, fields]
    rcases field_ofItem item with ⟨field, hfield, hlegal, hwritten⟩ | ⟨fault, hfield, hrefused⟩
    · rw [hfield]
      exact ih.cons hlegal hwritten
    · rw [hfield]
      exact .stopped (List.forall_mem_nil _) .nil hrefused

/-- The length of a body is always legal. -/
theorem length_eq_ofItem (body : Bytes) :
    length body = ofItem ⟨"content-length", toString body.length⟩ := by
  have hname : HeaderName.ofText? "content-length" = some .contentLength := by decide
  rw [length, ofItem, hname, build,
    HeaderValue.ofText?_of_legal (HeaderValue.legal_encode_toString body.length)]
  rfl

theorem version_eq_ofItem (text : String) : version text = ofItem ⟨"x-ms-version", text⟩ := by
  have hname : HeaderName.ofText? "x-ms-version" = some .version := by decide
  rw [version, ofItem, hname]

theorem userAgent_eq_ofItem (text : String) : userAgent text = ofItem ⟨"user-agent", text⟩ := by
  have hname : HeaderName.ofText? "user-agent" = some .userAgent := by decide
  rw [userAgent, ofItem, hname]

end Draft

theorem Updater.drafts_eq_map_items (request : Request) (apiVersion userAgent : String) :
    (Updater.standard apiVersion userAgent).drafts request =
      (request.items apiVersion userAgent).map .ofItem := by
  have hmetadata (entry : String × String) :
      Draft.metadata entry = .ofItem ⟨"x-ms-meta-" ++ entry.1, entry.2⟩ := rfl
  have hlength : (if carriesBody request.method then [Draft.length request.body] else []) =
      request.lengthItems.map .ofItem := by
    simp only [Request.lengthItems, carriesBody_iff, Draft.length_eq_ofItem]
    split <;> rfl
  rw [drafts, hlength, Draft.version_eq_ofItem, Draft.userAgent_eq_ofItem, funext hmetadata,
    Request.items, List.map_append, List.map_append, List.map_map, List.append_assoc]
  rfl

/-! ## Main statement -/

/-- The standard updater succeeds exactly on legal texts, the names of metadata counted with their mark.
However it ends, it leaves the request as it was and the fields behind those that are there: one for each
item, up to the first one that is not legal, under which it reports the fault. None of these fields can
hold the end of a line. -/
theorem standard_appends_items (request : Request) (apiVersion userAgent : String) :
    let updated := request.apply (Updater.standard apiVersion userAgent).run
    (updated.1 = .ok () ↔ LegalValue apiVersion ∧ LegalValue userAgent ∧
      ∀ entry ∈ request.metadata.entries,
        LegalName ("x-ms-meta-" ++ entry.1) ∧ LegalValue entry.2) ∧
    ∃ fields, updated.2 = request.extend fields ∧
      Ends (request.items apiVersion userAgent) updated.1 fields ∧
      ∀ field ∈ fields, Harmless field := by
  intro updated
  have hupdated := Updater.apply_run (.standard apiVersion userAgent) request
  rw [Updater.drafts_eq_map_items] at hupdated
  have hends : Ends (request.items apiVersion userAgent) updated.1
      (Draft.fields ((request.items apiVersion userAgent).map .ofItem)) := by
    rw [show updated.1 = _ from congrArg Prod.fst hupdated]
    exact Draft.ends _
  exact ⟨hends.eq_ok_iff.trans (Request.forall_items_legal_iff request apiVersion userAgent),
    _, congrArg Prod.snd hupdated, hends, fun field _ => harmless field⟩

/-- A blank in the name of the second entry: the version, the agent and the first entry stay behind. -/
example :
    let request : Request := ⟨"put", "/share", ∅, .ofList [("Owner", "a"), ("a b", "c")], [65]⟩
    let updated := request.apply (Updater.standard "2015-04-05" "tool").run
    updated.1 = .error (.invalidHeader "x-ms-meta-a b" .badName) ∧
      updated.2.headers.fields.map (fun field => field.1.text) =
        ["x-ms-version", "user-agent", "x-ms-meta-owner"] := by
  decide +kernel

end ShareWire.Http
