import ShareWire.Markup.Reading
import ShareWire.Proofs.Text.Utf8

/-!
# Whole constructs

How tags, comments, instructions, character data sections and references are spelled, and that each
spelling is read as its event whatever stands behind it.
-/

namespace ShareWire.Markup

open Text (encode mem_encode_ascii)

/-- Bytes that are read as one event, whatever stands behind them. -/
def Spells (lexeme : Bytes) (event : Event) : Prop :=
  ∃ b tail, lexeme = b :: tail ∧ ∀ rest, readEvent b (tail ++ rest) = .ok (event, rest)

/-! ## End marks -/

def commentEnd : Bytes := [0x2D, 0x2D, 0x3E]

def cdataEnd : Bytes := [0x5D, 0x5D, 0x3E]

def instructionEnd : Bytes := [0x3F, 0x3E]

/-- A mark whose last byte is no other of its bytes cannot begin inside a body and end in the mark
behind that body. -/
theorem infix_of_infix_append {mark body : Bytes} {z : UInt8} (hz : z ∉ mark)
    (h : mark ++ [z] <:+: body ++ mark) : mark ++ [z] <:+: body := by
  obtain ⟨before, after, he⟩ := h
  rcases List.append_eq_append_iff.1 he with ⟨x, hbody, _⟩ | ⟨x, hx, hmark⟩
  · exact ⟨before, x, hbody.symm⟩
  · rcases List.eq_nil_or_concat x with rfl | ⟨ys, y, rfl⟩
    · exact ⟨before, [], by simpa using hx⟩
    · have hlast := congrArg List.getLast? hx
      simp at hlast
      exact absurd (by rw [hmark]; simp [hlast]) hz

theorem not_prefix_append {mark body rest : Bytes} {b z : UInt8} (hz : z ∉ mark)
    (h : ¬ mark ++ [z] <:+: b :: body) :
    ¬ mark ++ [z] <+: b :: (body ++ ((mark ++ [z]) ++ rest)) := by
  intro hp
  have hwhole : (b :: body) ++ mark <+: b :: (body ++ ((mark ++ [z]) ++ rest)) :=
    ⟨z :: rest, by simp⟩
  have hin : mark ++ [z] <+: (b :: body) ++ mark :=
    List.prefix_of_prefix_length_le hp hwhole (by simp)
  exact h (infix_of_infix_append hz hin.isInfix)

/-- A body without the mark is what stands before the mark. -/
theorem breakOn_append (mark : Bytes) {z : UInt8} (hz : z ∉ mark) {body : Bytes}
    (h : ¬ mark ++ [z] <:+: body) (rest : Bytes) :
    breakOn (mark ++ [z]) (body ++ ((mark ++ [z]) ++ rest)) = some (body, rest) := by
  induction body with
  | nil =>
    cases hm : mark ++ [z] with
    | nil => simp at hm
    | cons m ms => simp [breakOn]
  | cons b body ih =>
    have hp : ¬ (mark ++ [z]).isPrefixOf (b :: (body ++ ((mark ++ [z]) ++ rest))) = true := by
      rw [List.isPrefixOf_iff_prefix]
      exact not_prefix_append hz h
    have hbody : ¬ mark ++ [z] <:+: body := fun hi => h (hi.trans (List.suffix_cons b body).isInfix)
    rw [List.cons_append, breakOn, if_neg hp, ih hbody]
    rfl

/-! ## Comments, sections and instructions -/

theorem spells_comment {body : Bytes} (h : ¬ commentEnd <:+: body) :
    Spells ([angleOpen, exclamation, 0x2D, 0x2D] ++ body ++ commentEnd) .comment := by
  refine ⟨angleOpen, [exclamation, 0x2D, 0x2D] ++ body ++ commentEnd, rfl, fun rest => ?_⟩
  have hbreak : breakOn [0x2D, 0x2D, 0x3E] (body ++ (commentEnd ++ rest)) = some (body, rest) :=
    breakOn_append [0x2D, 0x2D] (by decide) h rest
  simp [readEvent, readMarkup, readDeclaration, readComment, hbreak, angleOpen, exclamation, slash]

theorem spells_cdata {content : Bytes} (h : ¬ cdataEnd <:+: content) :
    Spells ([angleOpen, exclamation] ++ cdataWord ++ content ++ cdataEnd) (.cdata content) := by
  refine ⟨angleOpen, [exclamation] ++ cdataWord ++ content ++ cdataEnd, rfl, fun rest => ?_⟩
  have hbreak : breakOn [0x5D, 0x5D, 0x3E] (content ++ (cdataEnd ++ rest)) = some (content, rest) :=
    breakOn_append [0x5D, 0x5D] (by decide) h rest
  simp [readEvent, readMarkup, readDeclaration, readCdata, hbreak, angleOpen, exclamation, slash,
    cdataWord]

theorem spells_instruction {body : Bytes} (h : ¬ instructionEnd <:+: body)
    (hfirst : body.head? ≠ some angleClose) :
    Spells ([angleOpen, questionMark] ++ body ++ instructionEnd)
      (if isXmlDeclaration body then .declaration else .instruction) := by
  refine ⟨angleOpen, [questionMark] ++ body ++ instructionEnd, rfl, fun rest => ?_⟩
  have hbreak : breakOn [0x3F, 0x3E] (body ++ (instructionEnd ++ rest)) = some (body, rest) :=
    breakOn_append [0x3F] (by decide) h rest
  have hopen : [angleClose].isPrefixOf (body ++ (instructionEnd ++ rest)) = false := by
    cases body with
    | nil => rfl
    | cons b body =>
      have hb : angleClose ≠ b := fun he => hfirst (by rw [he]; rfl)
      simp [List.isPrefixOf, hb]
  simp [readEvent, readMarkup, readInstruction, hbreak, hopen, angleOpen, questionMark, exclamation,
    slash]

/-! ## Tags -/

/-- Bytes in which quotation marks pair up and every special byte stands between two of them. In a tag
`>` is special; white space and attributes with quoted values are enclosed bytes. -/
inductive Enclosed (special : Bytes) : Bytes → Prop where
  | nil : Enclosed special []
  | plain {b : UInt8} {rest : Bytes} : b ∉ special → Quote.ofByte? b = none →
      Enclosed special rest → Enclosed special (b :: rest)
  | quoted {quote : Quote} {value rest : Bytes} : quote.byte ∉ value → Enclosed special rest →
      Enclosed special (quote.byte :: (value ++ quote.byte :: rest))

/-- A decidable property of all members of a list, decided member by member. -/
theorem forall_mem_of_all {α : Type} {p : α → Prop} [DecidablePred p] {l : List α}
    (h : (l.all fun a => decide (p a)) = true) : ∀ a ∈ l, p a :=
  fun a ha => of_decide_eq_true (List.all_eq_true.1 h a ha)

theorem Enclosed.of_forall {special bytes : Bytes}
    (h : ∀ b ∈ bytes, b ∉ special ∧ Quote.ofByte? b = none) : Enclosed special bytes := by
  induction bytes with
  | nil => exact .nil
  | cons b rest ih =>
    have hb := h b (by simp)
    exact .plain hb.1 hb.2 (ih fun c hc => h c (by simp [hc]))

theorem Enclosed.append {special xs ys : Bytes} (hx : Enclosed special xs)
    (hy : Enclosed special ys) : Enclosed special (xs ++ ys) := by
  induction hx with
  | nil => exact hy
  | plain hb hq _ ih => exact .plain hb hq ih
  | quoted hv _ ih =>
    rw [List.cons_append, List.append_assoc, List.cons_append]
    exact .quoted hv ih

theorem splitTag_quoted {quote : Quote} {value : Bytes} (h : quote.byte ∉ value) (rest : Bytes) :
    splitTag (some quote) (value ++ quote.byte :: rest) =
      (splitTag none rest).map fun (body, after) => (value ++ quote.byte :: body, after) := by
  induction value with
  | nil => simp [splitTag]
  | cons b value ih =>
    have hb : b ≠ quote.byte := fun he => h (by simp [he])
    rw [List.cons_append, splitTag, if_neg hb, ih fun hm => h (by simp [hm])]
    cases splitTag none rest <;> rfl

theorem Quote.byte_ne_angleClose (quote : Quote) : quote.byte ≠ angleClose := by
  cases quote <;> decide

theorem Quote.ofByte?_byte (quote : Quote) : Quote.ofByte? quote.byte = some quote := by
  cases quote <;> rfl

/-- A tag ends behind its enclosed bytes. -/
theorem Enclosed.splitTag {body : Bytes} (h : Enclosed [angleClose] body) (rest : Bytes) :
    splitTag none (body ++ angleClose :: rest) = .ok (body, rest) := by
  induction h with
  | nil => simp [Markup.splitTag]
  | plain hb hq _ ih =>
    rw [List.cons_append, Markup.splitTag, if_neg (by simpa using hb), hq, ih]
    rfl
  | @quoted quote value rest' hv _ ih =>
    rw [List.cons_append, List.append_assoc, List.cons_append, Markup.splitTag,
      if_neg quote.byte_ne_angleClose, quote.ofByte?_byte, splitTag_quoted hv, ih]
    rfl

def isNameChar (c : Char) : Bool :=
  !(c = ' ' || c = '\t' || c = '\n' || c = '\r' || c = '<' || c = '>' || c = '/' || c = '\x27' ||
    c = '\x22')

/-- A name that tags can carry: not empty, without white space, angle brackets, slashes and quotation
marks, and not beginning with `!` or `?`. -/
structure LegalName (name : String) : Prop where
  nonempty : name.toList ≠ []
  chars : ∀ c ∈ name.toList, isNameChar c = true
  first : name.toList.head? ≠ some '!' ∧ name.toList.head? ≠ some '?'

instance (name : String) : Decidable (LegalName name) :=
  decidable_of_iff (name.toList ≠ [] ∧ name.toList.all isNameChar = true ∧
      name.toList.head? ≠ some '!' ∧ name.toList.head? ≠ some '?')
    ⟨fun h => ⟨h.1, List.all_eq_true.1 h.2.1, h.2.2⟩, fun h => ⟨h.1, List.all_eq_true.2 h.2, h.3⟩⟩

namespace LegalName

variable {name : String}

theorem byte (h : LegalName name) {b : UInt8} (hb : b ∈ encode name) :
    isTagBlank b = false ∧ b ≠ angleClose ∧ b ≠ slash ∧ Quote.ofByte? b = none := by
  have hne (v : UInt8) (hv : v.toNat < 0x80) (hc : isNameChar (Char.ofNat v.toNat) = false) :
      b ≠ v := by
    rintro rfl
    rw [h.chars _ (mem_encode_ascii hv hb)] at hc
    contradiction
  simp [isTagBlank, Quote.ofByte?, angleClose, slash, hne 0x20 (by decide) (by decide),
    hne 0x09 (by decide) (by decide), hne 0x0A (by decide) (by decide),
    hne 0x0D (by decide) (by decide), hne 0x3E (by decide) (by decide),
    hne 0x2F (by decide) (by decide), hne 0x27 (by decide) (by decide),
    hne 0x22 (by decide) (by decide)]

theorem encode_eq_cons (h : LegalName name) : ∃ b rest, encode name = b :: rest ∧ b ≠ slash ∧
    b ≠ exclamation ∧ b ≠ questionMark := by
  obtain ⟨c, cs, hcs⟩ := List.exists_cons_of_ne_nil h.nonempty
  obtain ⟨b, bs, hbs⟩ := List.exists_cons_of_ne_nil (String.utf8EncodeChar_ne_nil (c := c))
  have hencode : encode name = b :: (bs ++ cs.flatMap String.utf8EncodeChar) := by
    simp [encode, hcs, hbs]
  have hne (v : UInt8) (hv : v.toNat < 0x80) (hc : name.toList.head? ≠ some (Char.ofNat v.toNat)) :
      b ≠ v := by
    rintro rfl
    have hn : b.toNat = c.toNat :=
      Text.toNat_eq_of_mem_utf8EncodeChar hv (by rw [hbs]; exact List.mem_cons_self)
    rw [hcs, hn, Char.ofNat_toNat] at hc
    exact hc rfl
  exact ⟨b, _, hencode, (h.byte (by simp [hencode])).2.2.1, hne _ (by decide) h.first.1,
    hne _ (by decide) h.first.2⟩

theorem encode_eq_concat (h : LegalName name) : ∃ bs z, encode name = bs ++ [z] ∧ z ≠ slash ∧
    isTagBlank z = false := by
  rcases List.eq_nil_or_concat (encode name) with hnil | ⟨bs, z, hz⟩
  · obtain ⟨b, rest, he, _⟩ := h.encode_eq_cons
    simp [he] at hnil
  · have hbyte := h.byte (b := z) (by simp [hz])
    exact ⟨bs, z, by simpa using hz, hbyte.2.2.1, hbyte.1⟩

theorem enclosed (h : LegalName name) : Enclosed [angleClose] (encode name) :=
  .of_forall fun _ hb => ⟨by simpa using (h.byte hb).2.1, (h.byte hb).2.2.2⟩

end LegalName

/-- What may stand behind the name of a tag: nothing, or white space and then enclosed bytes. -/
structure TagTail (tail : Bytes) : Prop where
  enclosed : Enclosed [angleClose] tail
  blank : ∀ b ∈ tail.head?, isTagBlank b = true

theorem plain_of_isTagBlank {b : UInt8} (h : isTagBlank b = true) :
    b ∉ [angleClose] ∧ Quote.ofByte? b = none := by
  constructor
  · rw [List.mem_singleton]
    rintro rfl
    revert h
    decide
  · unfold Quote.ofByte?
    rw [if_neg (by rintro rfl; revert h; decide), if_neg (by rintro rfl; revert h; decide)]

theorem TagTail.nil : TagTail [] :=
  ⟨.nil, by simp⟩

theorem TagTail.cons {b : UInt8} {rest : Bytes} (hb : isTagBlank b = true)
    (hrest : Enclosed [angleClose] rest) : TagTail (b :: rest) where
  enclosed := .plain (plain_of_isTagBlank hb).1 (plain_of_isTagBlank hb).2 hrest
  blank := by
    rintro c hc
    obtain rfl := Option.some.inj hc
    exact hb

theorem tagName_append {name : String} (hname : LegalName name) {tail : Bytes}
    (htail : TagTail tail) : tagName (encode name ++ tail) = encode name := by
  have hall : ∀ b ∈ encode name, (!isTagBlank b) = true := fun b hb => by simp [(hname.byte hb).1]
  rw [tagName, List.takeWhile_append_of_pos hall]
  cases tail with
  | nil => simp
  | cons b tail => simp [htail.blank b (by simp)]

theorem readMarkup_tag {name : String} (hname : LegalName name) {tail : Bytes}
    (htail : Enclosed [angleClose] tail) (rest : Bytes) :
    readMarkup (encode name ++ tail ++ angleClose :: rest) =
      .ok (tagEvent (encode name ++ tail), rest) := by
  have hsplit := (hname.enclosed.append htail).splitTag rest
  obtain ⟨b, bs, he, hslash, hexclamation, hquestion⟩ := hname.encode_eq_cons
  rw [he] at hsplit ⊢
  simp only [List.cons_append] at hsplit ⊢
  rw [readMarkup, if_neg hslash, if_neg hexclamation, if_neg hquestion, hsplit]
  rfl

/-- A start tag. Its last byte before `>` is no slash. -/
theorem spells_start {name : String} (hname : LegalName name) {tail : Bytes} (htail : TagTail tail)
    (hlast : tail.getLast? ≠ some slash) :
    Spells ([angleOpen] ++ encode name ++ tail ++ [angleClose]) (.start (encode name)) := by
  refine ⟨angleOpen, encode name ++ tail ++ [angleClose], by simp, fun rest => ?_⟩
  have hevent : tagEvent (encode name ++ tail) = .start (encode name) := by
    have hlast : ∃ z, (encode name ++ tail).getLast? = some z ∧ z ≠ slash := by
      rcases List.eq_nil_or_concat tail with rfl | ⟨tail', z, rfl⟩
      · obtain ⟨bs, z, he, hz, _⟩ := hname.encode_eq_concat
        exact ⟨z, by simp [he], hz⟩
      · exact ⟨z, by simp, by simpa using hlast⟩
    obtain ⟨z, hz, hslash⟩ := hlast
    rw [tagEvent, hz, tagName_append hname htail]
    simp [hslash]
  rw [readEvent, if_pos rfl, List.append_assoc, List.singleton_append,
    readMarkup_tag hname htail.enclosed rest, hevent]

theorem spells_empty {name : String} (hname : LegalName name) {tail : Bytes}
    (htail : TagTail tail) :
    Spells ([angleOpen] ++ encode name ++ tail ++ [slash, angleClose]) (.empty (encode name)) := by
  refine ⟨angleOpen, encode name ++ tail ++ [slash, angleClose], by simp, fun rest => ?_⟩
  have hslash : Enclosed [angleClose] [slash] := .plain (by decide) (by decide) .nil
  have hevent : tagEvent (encode name ++ (tail ++ [slash])) = .empty (encode name) := by
    rw [← List.append_assoc, tagEvent, List.getLast?_concat, List.dropLast_concat,
      tagName_append hname htail]
    simp
  have hread := readMarkup_tag hname (htail.enclosed.append hslash) rest
  rw [hevent] at hread
  rw [readEvent, if_pos rfl, ← hread]
  simp

theorem closeName_append {name : String} (hname : LegalName name) {blanks : Bytes}
    (hblanks : ∀ b ∈ blanks, isTagBlank b = true) :
    closeName (encode name ++ blanks) = encode name := by
  obtain ⟨b, bs, he, _⟩ := hname.encode_eq_cons
  have hb := (hname.byte (b := b) (by simp [he])).1
  have hall : (encode name ++ blanks).all isTagBlank = false := by simp [he, hb]
  rw [closeName, hall, if_neg (by simp), List.reverse_append,
    List.dropWhile_append_of_pos (by simpa using hblanks)]
  obtain ⟨zs, z, hz, _, hblank⟩ := hname.encode_eq_concat
  simp [hz, hblank]

/-- An end tag, with or without white space behind the name. -/
theorem spells_close {name : String} (hname : LegalName name) {blanks : Bytes}
    (hblanks : ∀ b ∈ blanks, isTagBlank b = true) :
    Spells ([angleOpen, slash] ++ encode name ++ blanks ++ [angleClose]) (.close (encode name)) := by
  refine ⟨angleOpen, [slash] ++ encode name ++ blanks ++ [angleClose], by simp, fun rest => ?_⟩
  have henclosed : Enclosed [angleClose] blanks :=
    .of_forall fun b hb => plain_of_isTagBlank (hblanks b hb)
  have hsplit := (hname.enclosed.append henclosed).splitTag rest
  have hmarkup : readMarkup (slash :: (encode name ++ blanks ++ angleClose :: rest)) =
      .ok (.close (encode name), rest) := by
    rw [readMarkup, if_pos rfl, hsplit]
    simp [Except.map, closeName_append hname hblanks]
  rw [readEvent, if_pos rfl, ← hmarkup]
  simp

/-! ## References and runs of characters -/

theorem spells_reference {body : Bytes} (h : ∀ b ∈ body, endsText b = false ∧ b ≠ semicolon) :
    Spells ([ampersand] ++ body ++ [semicolon]) (.reference body) := by
  refine ⟨ampersand, body ++ [semicolon], rfl, fun rest => ?_⟩
  have hall : ∀ b ∈ body, (!(endsText b || decide (b = semicolon))) = true := fun b hb => by
    simp [(h b hb).1, (h b hb).2]
  have hdrop : (body ++ semicolon :: rest).dropWhile
      (fun b => !(endsText b || decide (b = semicolon))) = semicolon :: rest := by
    rw [List.dropWhile_append_of_pos hall]
    simp
  have htake : (body ++ semicolon :: rest).takeWhile
      (fun b => !(endsText b || decide (b = semicolon))) = body := by
    rw [List.takeWhile_append_of_pos hall]
    simp
  rw [readEvent, if_neg (by decide), if_pos rfl, List.append_assoc, List.singleton_append]
  simp only [readReference, hdrop, htake, if_true]

/-- A byte that begins neither markup nor a reference begins a run of characters, which goes on up to
the next byte that does. -/
theorem readEvent_text {b : UInt8} (h : endsText b = false) (rest : Bytes) :
    readEvent b rest = .ok (.text (b :: rest.takeWhile fun c => !endsText c),
      rest.dropWhile fun c => !endsText c) := by
  have hb : b ≠ angleOpen ∧ b ≠ ampersand := by simpa [endsText] using h
  rw [readEvent, if_neg hb.1, if_neg hb.2]

end ShareWire.Markup
