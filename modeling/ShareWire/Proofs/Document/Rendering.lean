import ShareWire.Proofs.Document.Progress
import ShareWire.Proofs.Document.Reference
import ShareWire.Proofs.Markup.Doctype

/-!
# Renderings

All the ways in which a tree can be written as a document: tags with attributes, self-closing tags,
text in pieces of several kinds among the children, comments and instructions anywhere. Main
statement: whichever way is taken, the reader gives back the tree, except that indentation between
children is dropped.
-/

namespace ShareWire

open Text (Base encode)
open Markup

/-! ## Grammar -/

inductive Aside : Bytes → Prop where
  | comment {body : Bytes} : ¬ commentEnd <:+: body →
      Aside ([angleOpen, exclamation, 0x2D, 0x2D] ++ body ++ commentEnd)
  | instruction {body : Bytes} : ¬ instructionEnd <:+: body → body.head? ≠ some angleClose →
      isXmlDeclaration body = false →
      Aside ([angleOpen, questionMark] ++ body ++ instructionEnd)

inductive Prolog : Bytes → Prop where
  | nil : Prolog []
  | blank {b : UInt8} {rest : Bytes} : isBlankByte b = true → Prolog rest → Prolog (b :: rest)
  | aside {bytes rest : Bytes} : Aside bytes → Prolog rest → Prolog (bytes ++ rest)
  | declaration {body rest : Bytes} : ¬ instructionEnd <:+: body → isXmlDeclaration body = true →
      Prolog rest → Prolog ([angleOpen, questionMark] ++ body ++ instructionEnd ++ rest)
  | doctype {word body rest : Bytes} : word.map upperByte = doctypeWord → DoctypeBody body →
      (∃ b ∈ body, isTagBlank b = false) → Prolog rest →
      Prolog ([angleOpen, exclamation] ++ word ++ body ++ [angleClose] ++ rest)

inductive Epilog : Bytes → Prop where
  | nil : Epilog []
  | blank {b : UInt8} {rest : Bytes} : isBlankByte b = true → Epilog rest → Epilog (b :: rest)
  | aside {bytes rest : Bytes} : Aside bytes → Epilog rest → Epilog (bytes ++ rest)

/-- A text as one piece of the content of an element. -/
inductive Piece : String → Bytes → Prop where
  /-- The characters themselves, none of which begins markup or a reference. -/
  | literal {s : String} : (∀ c ∈ s.toList, c ≠ '<' ∧ c ≠ '&') → Piece s (encode s)
  | entity {name : String} {c : Char} : (name, c) ∈ Reference.predefined →
      Piece (.singleton c) ([ampersand] ++ encode name ++ [semicolon])
  | decimal {digits : List Char} {c : Char} : Base.decimal.Digits digits →
      Base.decimal.value 0 digits = c.toNat →
      Piece (.singleton c) ([ampersand] ++ encode (.ofList ('#' :: digits)) ++ [semicolon])
  | hexadecimal {digits : List Char} {c : Char} : Base.hexadecimal.Digits digits →
      Base.hexadecimal.value 0 digits = c.toNat →
      Piece (.singleton c) ([ampersand] ++ encode (.ofList ('#' :: 'x' :: digits)) ++ [semicolon])
  | cdata {s : String} : ¬ cdataEnd <:+: encode s →
      Piece s ([angleOpen, exclamation] ++ cdataWord ++ encode s ++ cdataEnd)

mutual

inductive Written : Element → Bytes → Prop where
  | tagged {name text : String} {children : List Element} {tail content blanks : Bytes} :
      LegalName name → TagTail tail → tail.getLast? ≠ some slash → Content text children content →
      (∀ b ∈ blanks, isTagBlank b = true) →
      Written ⟨name, text, children⟩ ([angleOpen] ++ encode name ++ tail ++ [angleClose] ++ content ++
        ([angleOpen, slash] ++ encode name ++ blanks ++ [angleClose]))
  | selfClosing {name : String} {tail : Bytes} : LegalName name → TagTail tail →
      Written ⟨name, "", []⟩ ([angleOpen] ++ encode name ++ tail ++ [slash, angleClose])

/-- Text and children as the content of an element: pieces of the text, children, comments and
instructions in any mixture that keeps the order of the text and that of the children. -/
inductive Content : String → List Element → Bytes → Prop where
  | nil : Content "" [] []
  | piece {s text : String} {children : List Element} {bytes rest : Bytes} : Piece s bytes →
      Content text children rest → Content (s ++ text) children (bytes ++ rest)
  | child {e : Element} {text : String} {children : List Element} {bytes rest : Bytes} :
      Written e bytes → Content text children rest → Content text (e :: children) (bytes ++ rest)
  | aside {text : String} {children : List Element} {bytes rest : Bytes} : Aside bytes →
      Content text children rest → Content text children (bytes ++ rest)

end

def byteOrderMark : Bytes := [0xEF, 0xBB, 0xBF]

/-- A document with the given root element: perhaps a byte order mark, then the root between what may
stand in front of it and behind it. -/
inductive Rendering (root : Element) : Bytes → Prop where
  | intro {mark prolog body epilog : Bytes} : mark = [] ∨ mark = byteOrderMark → Prolog prolog →
      Written root body → Epilog epilog → Rendering root (mark ++ (prolog ++ (body ++ epilog)))

/-! ## Indentation -/

mutual

/-- A tree without the indentation between children. -/
def Element.settled : Element → Element
  | ⟨name, text, children⟩ =>
    ⟨name, if !children.isEmpty && isIndentation text then "" else text, settledAll children⟩

def Element.settledAll : List Element → List Element
  | [] => []
  | e :: rest => e.settled :: settledAll rest

end

theorem Element.settledAll_isEmpty (es : List Element) : (settledAll es).isEmpty = es.isEmpty := by
  cases es <;> rfl

theorem OpenElement.toElement_settled (name text : String) (children : List Element) :
    OpenElement.toElement { name, text, newest := (Element.settledAll children).reverse } =
      Element.settled ⟨name, text, children⟩ := by
  rw [toElement, Element.settled, List.isEmpty_reverse, Element.settledAll_isEmpty,
    List.reverse_reverse]

/-! ## Reading pieces -/

theorem Aside.spells {bytes : Bytes} (h : Aside bytes) :
    ∃ event, Spells bytes event ∧ (event = .comment ∨ event = .instruction) := by
  cases h with
  | comment hbody => exact ⟨_, spells_comment hbody, .inl rfl⟩
  | instruction hbody hfirst hdeclaration =>
    have hspells := spells_instruction hbody hfirst
    rw [hdeclaration] at hspells
    exact ⟨_, hspells, .inr rfl⟩

theorem Aside.resume {bytes : Bytes} (h : Aside bytes) (opened : List OpenElement) (rest : Bytes) :
    (Progress.within opened).resume (bytes ++ rest) = (Progress.within opened).resume rest := by
  obtain ⟨event, hspells, hevent⟩ := h.spells
  exact Progress.resume_ignored hspells (hevent.elim (fun h => .inr (.inl h))
    fun h => .inr (.inr (.inl h)))

theorem encode_avoids {s : String} {v : UInt8} (hv : v.toNat < 0x80)
    (h : Char.ofNat v.toNat ∉ s.toList) : ∀ b ∈ encode s, b ≠ v := by
  rintro b hb rfl
  exact h (Text.mem_encode_ascii hv hb)

theorem endsText_encode {s : String} (h : ∀ c ∈ s.toList, c ≠ '<' ∧ c ≠ '&') :
    ∀ b ∈ encode s, endsText b = false := by
  intro b hb
  have hopen : b ≠ 0x3C := encode_avoids (by decide) (fun hm => (h _ hm).1 rfl) b hb
  have hamp : b ≠ 0x26 := encode_avoids (by decide) (fun hm => (h _ hm).2 rfl) b hb
  simp [endsText, angleOpen, ampersand, hopen, hamp]

theorem spells_reference_encode (body : String)
    (h : ∀ c ∈ body.toList, c ≠ '<' ∧ c ≠ '&' ∧ c ≠ ';') :
    Spells ([ampersand] ++ encode body ++ [semicolon]) (.reference (encode body)) :=
  spells_reference fun b hb =>
    ⟨endsText_encode (fun c hc => ⟨(h c hc).1, (h c hc).2.1⟩) b hb,
      encode_avoids (by decide) (fun hm => (h _ hm).2.2 rfl) b hb⟩

theorem digit_avoids {base : Base} {c : Char} (h : (base.digit? c).isSome = true) :
    c ≠ '<' ∧ c ≠ '&' ∧ c ≠ ';' := by
  refine ⟨?_, ?_, ?_⟩ <;> (rintro rfl; cases base <;> revert h <;> decide)

theorem spells_predefined {name : String} {c : Char} (h : (name, c) ∈ Reference.predefined) :
    Spells ([ampersand] ++ encode name ++ [semicolon]) (.reference (encode name)) := by
  apply spells_reference_encode name
  simp only [Reference.predefined, List.mem_cons, List.not_mem_nil, or_false, Prod.mk.injEq] at h
  rcases h with ⟨rfl, _⟩ | ⟨rfl, _⟩ | ⟨rfl, _⟩ | ⟨rfl, _⟩ | ⟨rfl, _⟩ <;>
    exact forall_mem_of_all (by decide)

theorem spells_numeric {base : Base} {mark digits : List Char}
    (hmark : ∀ c ∈ mark, c ≠ '<' ∧ c ≠ '&' ∧ c ≠ ';') (hdigits : base.Digits digits) :
    Spells ([ampersand] ++ encode (.ofList (mark ++ digits)) ++ [semicolon])
      (.reference (encode (.ofList (mark ++ digits)))) := by
  apply spells_reference_encode
  rw [String.toList_ofList]
  intro c hc
  rcases List.mem_append.1 hc with hc | hc
  · exact hmark c hc
  · exact digit_avoids (hdigits.digits c hc)

/-- A piece of text is appended to the text of the innermost open element. -/
theorem Piece.resume {s : String} {bytes rest : Bytes} {o : OpenElement} {outer : List OpenElement}
    {root : Element} (h : Piece s bytes)
    (hrest : (Progress.append o outer s).resume rest = .ok root) :
    (Progress.within (o :: outer)).resume (bytes ++ rest) = .ok root := by
  cases h with
  | literal hs =>
    exact Progress.resume_text (endsText_encode hs) (Progress.step_text_open o outer s) rfl hrest
  | entity hname =>
    rw [Progress.resume_reference (spells_predefined hname) (Reference.resolve_predefined hname)]
    exact hrest
  | decimal hdigits hvalue =>
    have hspells := @spells_numeric _ ['#'] _ (forall_mem_of_all (by decide)) hdigits
    have hresolve := Reference.resolve_digits hdigits hvalue
    exact (Progress.resume_reference hspells hresolve).trans hrest
  | hexadecimal hdigits hvalue =>
    have hspells := @spells_numeric _ ['#', 'x'] _ (forall_mem_of_all (by decide)) hdigits
    have hresolve := Reference.resolve_digits hdigits hvalue
    exact (Progress.resume_reference hspells hresolve).trans hrest
  | cdata hs =>
    rw [Progress.resume_cdata (spells_cdata hs)]
    exact hrest

/-! ## Reading elements -/

mutual

/-- An element is attached to the open ones, without its indentation. -/
theorem Written.resume {e : Element} {bytes rest : Bytes} {opened : List OpenElement}
    {root : Element} (h : Written e bytes)
    (hrest : (Progress.attach opened e.settled).resume rest = .ok root) :
    (Progress.within opened).resume (bytes ++ rest) = .ok root := by
  match h with
  | @Written.tagged name text children _ _ _ hname htail hlast hcontent hblanks =>
    rw [List.append_assoc, List.append_assoc,
      Progress.resume_start (spells_start hname htail hlast)]
    -- The new open element has neither text nor children, so it ends up with the content and no more.
    refine hcontent.resume ?_
    rw [String.empty_append, List.append_nil, Progress.resume_close (spells_close hname hblanks),
      OpenElement.toElement_settled]
    exact hrest
  | .selfClosing hname htail =>
    rw [Progress.resume_empty (spells_empty hname htail)]
    exact hrest

/-- Content is added to the innermost open element. -/
theorem Content.resume {text : String} {children : List Element} {bytes rest : Bytes}
    {o : OpenElement} {outer : List OpenElement} {root : Element} (h : Content text children bytes)
    (hrest : (Progress.within ({ o with
      text := o.text ++ text, newest := (Element.settledAll children).reverse ++ o.newest } ::
        outer)).resume rest = .ok root) :
    (Progress.within (o :: outer)).resume (bytes ++ rest) = .ok root := by
  match h with
  | .nil => simpa [Element.settledAll] using hrest
  | .piece hpiece hmore =>
    rw [List.append_assoc]
    refine hpiece.resume (hmore.resume ?_)
    rw [String.append_assoc]
    exact hrest
  | .child hchild hmore =>
    rw [List.append_assoc]
    refine hchild.resume (hmore.resume ?_)
    simpa [Element.settledAll] using hrest
  | .aside haside hmore =>
    rw [List.append_assoc, haside.resume]
    exact hmore.resume hrest

end

/-! ## Reading documents -/

theorem endsText_of_isBlankByte {b : UInt8} (h : isBlankByte b = true) :
    ∀ c ∈ [b], endsText c = false := by
  intro c hc
  obtain rfl := List.mem_singleton.1 hc
  have hopen : c ≠ angleOpen := by rintro rfl; revert h; decide
  have hamp : c ≠ ampersand := by rintro rfl; revert h; decide
  simp [endsText, hopen, hamp]

theorem head_ne_of_isXmlDeclaration {body : Bytes} (h : isXmlDeclaration body = true) :
    body.head? ≠ some angleClose := by
  cases body with
  | nil => simp
  | cons b body =>
    have hb : 0x78 = b := by
      simp only [isXmlDeclaration, xmlWord, List.isPrefixOf, Bool.and_eq_true, beq_iff_eq] at h
      exact h.1.1
    rw [← hb, List.head?_cons]
    decide

theorem Prolog.resume {bytes rest : Bytes} {root : Element} (h : Prolog bytes)
    (hrest : (Progress.within []).resume rest = .ok root) :
    (Progress.within []).resume (bytes ++ rest) = .ok root := by
  induction h with
  | nil => exact hrest
  | @blank b more hb _ ih =>
    have hstep : (Progress.within []).step (.text [b]) = .ok (.within []) := by
      simp [Progress.step, Progress.stepWithin, blankBytes, hb]
    rw [List.cons_append, ← List.singleton_append]
    exact Progress.resume_text (endsText_of_isBlankByte hb) hstep rfl ih
  | aside haside _ ih =>
    rw [List.append_assoc, haside.resume]
    exact ih
  | declaration hbody hdeclaration _ ih =>
    have hspells := spells_instruction hbody (head_ne_of_isXmlDeclaration hdeclaration)
    rw [hdeclaration] at hspells
    rw [List.append_assoc, Progress.resume_ignored hspells (.inl rfl)]
    exact ih
  | doctype hword hbody hname _ ih =>
    rw [List.append_assoc, Progress.resume_ignored (spells_doctype hword hbody hname)
      (.inr (.inr (.inr rfl)))]
    exact ih

theorem Epilog.resume {bytes : Bytes} (h : Epilog bytes) (root : Element) :
    (Progress.after root).resume bytes = .ok root := by
  induction h with
  | nil => exact Progress.resume_nil _
  | @blank b more hb _ ih =>
    have hstep : (Progress.after root).step (.text [b]) = .ok (.after root) := by
      simp [Progress.step, Progress.stepAfter, blankBytes, hb]
    rw [← List.singleton_append]
    exact Progress.resume_text (endsText_of_isBlankByte hb) hstep rfl ih
  | aside haside _ ih =>
    obtain ⟨event, hspells, hevent⟩ := haside.spells
    rw [Progress.resume_ignored_after hspells hevent]
    exact ih

theorem Prolog.head_ne {bytes rest : Bytes} (h : Prolog bytes) (hrest : rest.head? ≠ some 0xEF) :
    (bytes ++ rest).head? ≠ some 0xEF := by
  cases h with
  | nil => exact hrest
  | blank hb _ =>
    rw [List.cons_append, List.head?_cons]
    rintro hc
    cases hc
    revert hb
    decide
  | aside haside _ => cases haside <;> simp [angleOpen]
  | declaration => simp [angleOpen]
  | doctype => simp [angleOpen]

theorem Written.head_ne {e : Element} {bytes : Bytes} (h : Written e bytes) (rest : Bytes) :
    (bytes ++ rest).head? ≠ some 0xEF := by
  cases h <;> simp [angleOpen]

theorem dropByteOrderMark_append (rest : Bytes) :
    dropByteOrderMark (byteOrderMark ++ rest) = rest := by
  rfl

/-- A document without a byte order mark is read as its root. -/
theorem Written.parse {e : Element} {prolog body epilog : Bytes} (h : Written e body)
    (hprolog : Prolog prolog) (hepilog : Epilog epilog) :
    Element.parse (prolog ++ (body ++ epilog)) = .ok e.settled := by
  have hread : (Progress.within []).resume (prolog ++ (body ++ epilog)) = .ok e.settled :=
    hprolog.resume (h.resume (hepilog.resume e.settled))
  rw [← dropByteOrderMark_of_head (hprolog.head_ne (h.head_ne epilog))] at hread
  exact hread

/-- Every rendering of a tree is read as the tree, without the indentation between children. -/
theorem parse_rendering {root : Element} {bytes : Bytes} (h : Rendering root bytes) :
    Element.parse bytes = .ok root.settled := by
  obtain @⟨mark, prolog, body, epilog, hmark, hprolog, hbody, hepilog⟩ := h
  have hread := hbody.parse hprolog hepilog
  rcases hmark with rfl | rfl
  · exact hread
  · have hhead := hprolog.head_ne (hbody.head_ne epilog)
    rw [Element.parse, Reading.ofBytes, dropByteOrderMark_of_head hhead] at hread
    rw [Element.parse, Reading.ofBytes, dropByteOrderMark_append]
    exact hread

/-- A document that uses most of the freedom there is. -/
theorem parse_rendering_mixed :
    Element.parse (byteOrderMark ++ encode
      ("<?xml version='1.0'?>\n<!DOCTYPE a [<!ENTITY x='>'>]>" ++
        "<a x='>'> <!--c--><b >&lt;&#65;&#x42;<![CDATA[<]]>t</b><c/><d> </d></a ><?p?>")) =
      .ok ⟨"a", "", [⟨"b", "<AB<t", []⟩, ⟨"c", "", []⟩, ⟨"d", " ", []⟩]⟩ := by
  have hquoted := @Enclosed.quoted [angleClose] .single (encode ">") [] (by decide) .nil
  have hvalue : Enclosed [angleClose] (encode "x=" ++ _) :=
    (Enclosed.of_forall (forall_mem_of_all (by decide +kernel))).append hquoted
  have hlead : Enclosed [angleClose, 0x5B] (encode " a ") :=
    .of_forall (forall_mem_of_all (by decide +kernel))
  have hentity : encode "ENTITY" ∈ quotingWords := by decide +kernel
  have hblank : TagTail [0x20] := .cons rfl .nil
  have hattribute : TagTail (0x20 :: (encode "x=" ++ _)) := .cons rfl hvalue
  have hsubset := Subset.quoting hentity hattribute.enclosed .nil
  have hword : (encode "DOCTYPE").map upperByte = doctypeWord := by decide +kernel
  have hdoctype := Prolog.doctype hword (.withSubset hlead hsubset List.not_mem_nil)
    ⟨0x61, by decide +kernel, rfl⟩ .nil
  have hdeclaration : isXmlDeclaration (encode "xml version='1.0'") = true := by decide +kernel
  have hprolog := Prolog.declaration (by decide +kernel) hdeclaration
    (@Prolog.blank 0x0A _ rfl hdoctype)
  have htext := Content.piece (@Piece.entity "lt" '<' (by decide +kernel)) <|
    .piece (@Piece.decimal ['6', '5'] 'A' (by decide +kernel) rfl) <|
    .piece (@Piece.hexadecimal ['4', '2'] 'B' (by decide +kernel) rfl) <|
    .piece (@Piece.cdata "<" (by decide +kernel)) <|
    .piece (@Piece.literal "t" (forall_mem_of_all (by decide +kernel))) .nil
  have hspace := @Piece.literal " " (forall_mem_of_all (by decide +kernel))
  have hb := @Written.tagged "b" _ [] _ _ [] (by decide +kernel) hblank (by simp [slash]) htext
    (by simp)
  have hc := @Written.selfClosing "c" [] (by decide +kernel) .nil
  have hd := @Written.tagged "d" _ [] [] _ [] (by decide +kernel) .nil (by simp)
    (.piece hspace .nil) (by simp)
  have hcontent := Content.piece hspace <|
    .aside (@Aside.comment (encode "c") (by decide +kernel)) <|
    .child hb <| .child hc <| .child hd .nil
  have hroot := @Written.tagged "a" _ _ _ _ [0x20] (by decide +kernel) hattribute
    (by decide +kernel) hcontent (by simp [isTagBlank])
  have hepilog := Epilog.aside
    (@Aside.instruction (encode "p") (by decide +kernel) (by decide +kernel) (by decide +kernel)) .nil
  have hread := parse_rendering (.intro (.inr rfl) hprolog hroot hepilog)
  refine Eq.trans (congrArg Element.parse ?_) (hread.trans (congrArg Except.ok ?_))
  · decide +kernel
  · rfl

end ShareWire
