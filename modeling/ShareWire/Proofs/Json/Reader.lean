import ShareWire.Proofs.Json.Grammar
import ShareWire.Proofs.Time.Scan

/-!
# Reading JSON

A reader of JSON texts, in which each part of the grammar has its own function. Main statement: the reader
gives the value that a text denotes, so no text denotes two values.
-/

namespace ShareWire.Json

open Text (Base)
open Time (bind_some takeWhile_append_stop)

/-! ## Characters -/

/-- What stands behind a mark at the beginning. -/
def behind? (mark : Char) : List Char → Option (List Char)
  | [] => none
  | c :: cs => if c = mark then some cs else none

def skipSpace (cs : List Char) : List Char :=
  cs.dropWhile isSpace

def readQuad (cs : List Char) : Option (Nat × List Char) :=
  if Base.hexadecimal.Digits (cs.take 4) ∧ (cs.take 4).length = 4 then
    some (Base.hexadecimal.value 0 (cs.take 4), cs.drop 4)
  else none

/-- Reads the number of a character, or the first number of a pair and then the second one. -/
def readNumber (cs : List Char) : Option (Char × List Char) := do
  let (n, rest) ← readQuad cs
  if 0xD800 ≤ n ∧ n < 0xDC00 then
    let (m, rest) ← readQuad (← behind? 'u' (← behind? '\\' rest))
    if 0xDC00 ≤ m ∧ m < 0xE000 then
      return (Char.ofNat (0x10000 + (n - 0xD800) * 0x400 + (m - 0xDC00)), rest)
    else none
  else if 0xDC00 ≤ n ∧ n < 0xE000 then none
  else return (Char.ofNat n, rest)

def readChar (cs : List Char) : Option (Char × List Char) :=
  match behind? '\\' cs with
  | some (mark :: rest) =>
    if mark = 'u' then readNumber rest else (escapes.lookup mark).map fun c => (c, rest)
  | some [] => none
  | none => cs.head?.bind fun c => if 32 ≤ c.toNat then some (c, cs.tail) else none

/-- Reads characters up to a quotation mark and this mark. -/
def readChars : Nat → List Char → Option (List Char × List Char)
  | 0, _ => none
  | count + 1, cs =>
    match behind? '\x22' cs with
    | some rest => some ([], rest)
    | none => do
      let (c, rest) ← readChar cs
      let (more, rest) ← readChars count rest
      return (c :: more, rest)

/-! ## Numbers and words -/

def isDecimal (c : Char) : Bool :=
  (Base.decimal.digit? c).isSome

def readNat (cs : List Char) : Option (Nat × List Char) :=
  let digits := cs.takeWhile isDecimal
  if digits ≠ [] ∧ (digits.head? = some '0' → digits = ['0']) then
    some (Base.decimal.value 0 digits, cs.dropWhile isDecimal)
  else none

def readInt (cs : List Char) : Option (Int × List Char) :=
  match behind? '-' cs with
  | some rest => (readNat rest).map fun (n, rest) => (-(n : Int), rest)
  | none => (readNat cs).map fun (n, rest) => ((n : Int), rest)

def readWord (cs : List Char) : Option (Json × List Char) :=
  words.findSome? fun (word, j) =>
    if word.toList.isPrefixOf cs then some (j, cs.drop word.toList.length) else none

/-! ## Values -/

section

variable {α : Type}

/-- Reads items that commas stand between, up to a mark and this mark. -/
def readSeries (read : List Char → Option (α × List Char)) (close : Char) :
    Nat → List Char → Option (List α × List Char)
  | 0, _ => none
  | count + 1, cs => do
    let (a, rest) ← read cs
    match behind? ',' rest with
    | some rest => do
      let (more, rest) ← readSeries read close count rest
      return (a :: more, rest)
    | none => return ([a], ← behind? close rest)

/-- Reads what stands behind an opening mark: items, or none, and the closing mark. -/
def readList (read : List Char → Option (α × List Char)) (close : Char) (cs : List Char) :
    Option (List α × List Char) :=
  match behind? close (skipSpace cs) with
  | some rest => some ([], rest)
  | none => readSeries read close cs.length cs

def readElement (read : List Char → Option (α × List Char)) (cs : List Char) :
    Option (α × List Char) := do
  let (a, rest) ← read (skipSpace cs)
  return (a, skipSpace rest)

def readMember (read : List Char → Option (α × List Char)) (cs : List Char) :
    Option ((String × α) × List Char) := do
  let text ← behind? '\x22' (skipSpace cs)
  let (name, rest) ← readChars text.length text
  let (a, rest) ← readElement read (← behind? ':' (skipSpace rest))
  return ((String.ofList name, a), rest)

end

/-- Reads a value. Values are nested no deeper than `depth`. -/
def readValue : Nat → List Char → Option (Json × List Char)
  | 0, _ => none
  | depth + 1, cs =>
    match cs with
    | '\x22' :: text => (readChars text.length text).map fun (s, rest) => (.str (String.ofList s), rest)
    | '[' :: text =>
      (readList (readElement (readValue depth)) ']' text).map fun (items, rest) => (.arr items, rest)
    | '\x7b' :: text =>
      (readList (readMember (readValue depth)) '\x7d' text).map fun (members, rest) =>
        (.obj members, rest)
    | cs => (readWord cs).or ((readInt cs).map fun (n, rest) => (.int n, rest))

def read? (text : String) : Option Json :=
  match readElement (readValue text.length) text.toList with
  | some (j, []) => some j
  | _ => none

/-! ## Reading characters -/

theorem behind?_self (mark : Char) (rest : List Char) : behind? mark (mark :: rest) = some rest :=
  if_pos rfl

theorem behind?_of_ne {mark : Char} {cs : List Char} (h : ∀ c ∈ cs.head?, c ≠ mark) :
    behind? mark cs = none := by
  cases cs with
  | nil => rfl
  | cons c cs => exact if_neg (h c rfl)

theorem Gap.skipSpace_eq {cs rest : List Char} (h : Gap cs rest)
    (hrest : ∀ c ∈ rest.head?, isSpace c = false) : skipSpace cs = rest := by
  induction h with
  | none cs =>
    cases cs with
    | nil => rfl
    | cons c cs => exact List.dropWhile_cons_of_neg (by simp [hrest c rfl])
  | space hc _ ih => exact (List.dropWhile_cons_of_pos hc).trans (ih hrest)

theorem Quad.read {digits : List Char} {n : Nat} (h : Quad digits n) (rest : List Char) :
    readQuad (digits ++ rest) = some (n, rest) := by
  rw [readQuad, List.take_left' h.length, List.drop_left' h.length, h.value]
  exact if_pos ⟨h.digits, h.length⟩

theorem readNumber_number {c : Char} {digits : List Char} (h : Quad digits c.toNat)
    (rest : List Char) : readNumber (digits ++ rest) = some (c, rest) := by
  have hvalid : c.toNat < 0xD800 ∨ 0xDFFF < c.toNat ∧ c.toNat < 0x110000 := c.valid
  rw [readNumber]
  refine bind_some (h.read rest) ?_
  simp only
  rw [if_neg (by omega), if_neg (by omega), Char.ofNat_toNat]
  rfl

theorem readNumber_pair {c : Char} {high low : List Char} {h l : Nat}
    (hhigh : Quad high (0xD800 + h)) (hlow : Quad low (0xDC00 + l)) (hh : h < 0x400) (hl : l < 0x400)
    (hc : c.toNat = 0x10000 + h * 0x400 + l) (rest : List Char) :
    readNumber (high ++ '\\' :: 'u' :: (low ++ rest)) = some (c, rest) := by
  have hnumber : 0x10000 + (0xD800 + h - 0xD800) * 0x400 + (0xDC00 + l - 0xDC00) = c.toNat := by
    omega
  rw [readNumber]
  refine bind_some (hhigh.read _) ?_
  simp only
  rw [if_pos (by omega)]
  refine bind_some (behind?_self _ _) (bind_some (behind?_self _ _) (bind_some (hlow.read rest) ?_))
  simp only
  rw [if_pos (by omega), hnumber, Char.ofNat_toNat]
  rfl

theorem CharText.read {c : Char} {text : List Char} (h : CharText c text) (rest : List Char) :
    readChar (text ++ rest) = some (c, rest) := by
  cases h with
  | plain hlow _ hslash =>
    rw [List.singleton_append, readChar, behind?_of_ne (by simpa using hslash)]
    exact if_pos hlow
  | escape hmark =>
    simp only [escapes, List.mem_cons, Prod.mk.injEq, List.not_mem_nil, or_false] at hmark
    rcases hmark with ⟨rfl, rfl⟩ | ⟨rfl, rfl⟩ | ⟨rfl, rfl⟩ | ⟨rfl, rfl⟩ | ⟨rfl, rfl⟩ | ⟨rfl, rfl⟩ |
      ⟨rfl, rfl⟩ | ⟨rfl, rfl⟩ <;> rfl
  | number hdigits =>
    rw [List.cons_append, List.cons_append, readChar, behind?_self]
    exact readNumber_number hdigits rest
  | pair hhigh hlow hh hl hc =>
    simp only [List.cons_append, List.append_assoc, readChar, behind?_self]
    exact readNumber_pair hhigh hlow hh hl hc rest

theorem CharText.exists_cons {c : Char} {text : List Char} (h : CharText c text) :
    ∃ first more, text = first :: more ∧ first ≠ '\x22' := by
  cases h with
  | plain _ hquote => exact ⟨_, _, rfl, hquote⟩
  | escape | number | pair => exact ⟨_, _, rfl, by decide⟩

theorem CharsText.read {cs text rest : List Char} (h : CharsText cs text ('\x22' :: rest)) {count : Nat}
    (hcount : text.length ≤ count) : readChars count text = some (cs, rest) := by
  generalize hbehind : '\x22' :: rest = behind at h
  induction h generalizing count with
  | nil behind =>
    subst hbehind
    obtain ⟨count, rfl⟩ := Nat.exists_eq_add_one_of_ne_zero (by simp at hcount; omega : count ≠ 0)
    rw [readChars, behind?_self]
  | @cons c cs text more behind hc _ ih =>
    obtain ⟨first, others, hfirst, hquote⟩ := hc.exists_cons
    have hlength : 1 + more.length ≤ (text ++ more).length := by
      rw [hfirst]
      simp
      omega
    obtain ⟨count, rfl⟩ := Nat.exists_eq_add_one_of_ne_zero (by omega : count ≠ 0)
    rw [readChars, behind?_of_ne (by rw [hfirst]; simpa using hquote)]
    exact bind_some (hc.read more) (bind_some (ih (by omega) hbehind) rfl)

/-! ## Reading numbers -/

theorem NatText.digits_isDecimal {n : Nat} {digits : List Char} (h : NatText n digits) :
    ∀ c ∈ digits, isDecimal c = true := by
  cases h with
  | zero => exact List.forall_mem_singleton.2 rfl
  | digits hdigits => exact hdigits.digits

theorem NatText.read {n : Nat} {digits rest : List Char} (h : NatText n digits)
    (hrest : ∀ c ∈ rest.head?, isDecimal c = false) : readNat (digits ++ rest) = some (n, rest) := by
  obtain ⟨htake, hdrop⟩ := takeWhile_append_stop h.digits_isDecimal hrest
  rw [readNat, htake, hdrop]
  cases h with
  | zero => rfl
  | digits hdigits hzero => exact if_pos ⟨hdigits.nonempty, fun h => absurd h hzero⟩

theorem NatText.exists_cons {n : Nat} {digits : List Char} (h : NatText n digits) :
    ∃ c more, digits = c :: more ∧ isDecimal c = true := by
  have hne : digits ≠ [] := by
    cases h with
    | zero => exact List.cons_ne_nil _ _
    | digits hdigits => exact hdigits.nonempty
  obtain ⟨c, more, rfl⟩ := List.exists_cons_of_ne_nil hne
  exact ⟨c, more, rfl, h.digits_isDecimal c List.mem_cons_self⟩

theorem IntText.read {n : Int} {digits rest : List Char} (h : IntText n digits)
    (hrest : ∀ c ∈ rest.head?, isDecimal c = false) : readInt (digits ++ rest) = some (n, rest) := by
  cases h with
  | natural hdigits =>
    obtain ⟨c, more, hcons, hc⟩ := hdigits.exists_cons
    have hminus : c ≠ '-' := by
      rintro rfl
      cases hc
    rw [readInt, behind?_of_ne (by rw [hcons]; simpa using hminus), hdigits.read hrest]
    rfl
  | minus hdigits =>
    rw [readInt, List.cons_append, behind?_self]
    simp only [hdigits.read hrest]
    rfl

/-! ## Where phrases begin and end -/

structure Starts (c : Char) : Prop where
  space : isSpace c = false
  bracket : c ≠ ']'
  brace : c ≠ '\x7d'

theorem starts_of_isDecimal {c : Char} (h : isDecimal c = true) : Starts c := by
  have hspace : isSpace c = false := by
    refine Bool.eq_false_iff.2 fun hspace => ?_
    simp only [isSpace, Bool.or_eq_true, decide_eq_true_eq] at hspace
    rcases hspace with ((rfl | rfl) | rfl) | rfl <;> cases h
  exact ⟨hspace, fun hc => (by cases hc; cases h), fun hc => (by cases hc; cases h)⟩

theorem IntText.exists_cons {n : Int} {digits : List Char} (h : IntText n digits) :
    ∃ c more, digits = c :: more ∧ (c = '-' ∨ isDecimal c = true) := by
  cases h with
  | natural hdigits =>
    obtain ⟨c, more, hcons, hc⟩ := hdigits.exists_cons
    exact ⟨c, more, hcons, .inr hc⟩
  | minus => exact ⟨_, _, rfl, .inl rfl⟩

theorem Writes.starts_value {j : Json} {cs rest : List Char} (h : Writes (.value j) cs rest) :
    ∃ c more, cs = c :: more ∧ Starts c := by
  cases h with
  | word hword =>
    simp only [words, List.mem_cons, Prod.mk.injEq, List.not_mem_nil, or_false] at hword
    rcases hword with ⟨rfl, -⟩ | ⟨rfl, -⟩ | ⟨rfl, -⟩ <;> exact ⟨_, _, rfl, by decide, by decide, by decide⟩
  | int hdigits =>
    obtain ⟨c, more, rfl, hc⟩ := hdigits.exists_cons
    refine ⟨c, _, rfl, ?_⟩
    rcases hc with rfl | hc
    · exact ⟨by decide, by decide, by decide⟩
    · exact starts_of_isDecimal hc
  | str | noItems | arr | noMembers | obj => exact ⟨_, _, rfl, by decide, by decide, by decide⟩

theorem Gap.skipSpace_starts {cs more : List Char} {c : Char} (h : Gap cs (c :: more))
    (hc : isSpace c = false) : skipSpace cs = c :: more :=
  h.skipSpace_eq fun _ hd => Option.some.inj hd ▸ hc

theorem Writes.starts_element {j : Json} {cs rest : List Char} (h : Writes (.element j) cs rest) :
    ∃ c more, skipSpace cs = c :: more ∧ Starts c := by
  cases h with
  | element hgap hvalue =>
    obtain ⟨c, more, rfl, hc⟩ := hvalue.starts_value
    exact ⟨c, more, hgap.skipSpace_starts hc.space, hc⟩

/-- Items are not taken for none. -/
theorem Writes.starts_items {items : List Json} {cs rest : List Char}
    (h : Writes (.items items) cs rest) : ∃ c more, skipSpace cs = c :: more ∧ Starts c := by
  cases h with
  | lastItem hitem | item hitem => exact hitem.starts_element

theorem Writes.starts_member {name : String} {j : Json} {cs rest : List Char}
    (h : Writes (.member name j) cs rest) : ∃ c more, skipSpace cs = c :: more ∧ Starts c := by
  cases h with
  | member hgap => exact ⟨_, _, hgap.skipSpace_starts rfl, by decide, by decide, by decide⟩

/-- Members are not taken for none. -/
theorem Writes.starts_members {members : List (String × Json)} {cs rest : List Char}
    (h : Writes (.members members) cs rest) : ∃ c more, skipSpace cs = c :: more ∧ Starts c := by
  cases h with
  | lastMember hmember | moreMembers hmember => exact hmember.starts_member

theorem Gap.length_le {cs rest : List Char} (h : Gap cs rest) : rest.length ≤ cs.length := by
  induction h with
  | none => exact Nat.le_refl _
  | space _ _ ih => exact Nat.le_succ_of_le ih

theorem CharsText.length_le {cs text rest : List Char} (h : CharsText cs text rest) :
    rest.length ≤ text.length := by
  induction h with
  | nil => exact Nat.le_refl _
  | cons _ _ ih =>
    rw [List.length_append]
    omega

theorem Writes.length_le {phrase : Phrase} {cs rest : List Char} (h : Writes phrase cs rest) :
    rest.length ≤ cs.length := by
  induction h with
  | word | int => simp
  | str htext =>
    have := htext.length_le
    simp at this ⊢
    omega
  | noItems hgap | noMembers hgap =>
    have := hgap.length_le
    simp at this ⊢
    omega
  | arr _ ih | obj _ ih =>
    simp at ih ⊢
    omega
  | element hgap _ hbehind ih =>
    have := hgap.length_le
    have := hbehind.length_le
    omega
  | lastItem _ ih | lastMember _ ih => exact ih
  | item _ _ ih ihmore | moreMembers _ _ ih ihmore =>
    simp at ih
    omega
  | member hgap htext hbehind _ ih =>
    have := hgap.length_le
    have := htext.length_le
    have := hbehind.length_le
    simp at *
    omega

/-! ## Reading values -/

/-- A text behind which no value goes on. -/
def Stops (rest : List Char) : Prop :=
  ∀ c ∈ rest.head?, isSpace c = false ∧ isDecimal c = false

/-- The function for a phrase gives the phrase that a text stands for and what stands behind it. -/
def Phrase.ReadFrom (cs rest : List Char) : Phrase → Prop
  | .value j => ∀ depth, cs.length ≤ depth → (∀ c ∈ rest.head?, isDecimal c = false) →
      readValue depth cs = some (j, rest)
  | .element j => ∀ depth, cs.length ≤ depth → Stops rest →
      readElement (readValue depth) cs = some (j, rest)
  | .items js => ∀ depth count behind, cs.length ≤ depth → cs.length ≤ count → rest = ']' :: behind →
      readSeries (readElement (readValue depth)) ']' count cs = some (js, behind)
  | .member name j => ∀ depth, cs.length ≤ depth → Stops rest →
      readMember (readValue depth) cs = some ((name, j), rest)
  | .members ms => ∀ depth count behind, cs.length ≤ depth → cs.length ≤ count → rest = '\x7d' :: behind →
      readSeries (readMember (readValue depth)) '\x7d' count cs = some (ms, behind)

theorem Gap.stops_decimal {behind rest : List Char} (h : Gap behind rest) (hrest : Stops rest) :
    ∀ c ∈ behind.head?, isDecimal c = false := by
  cases h with
  | none => exact fun c hc => (hrest c hc).2
  | space hspace =>
    intro c hc
    obtain rfl := Option.some.inj hc
    exact Bool.eq_false_iff.2 fun h =>
      Bool.false_ne_true ((starts_of_isDecimal h).space.symm.trans hspace)

theorem stops_cons {c : Char} (hspace : isSpace c = false) (hdecimal : isDecimal c = false)
    (rest : List Char) : Stops (c :: rest) :=
  fun _ hc => Option.some.inj hc ▸ ⟨hspace, hdecimal⟩

section

variable {α : Type} {read : List Char → Option (α × List Char)} {close : Char} {count : Nat}
  {cs behind : List Char}

theorem readElement_eq {a : α} {c : Char} {more rest : List Char} (hgap : Gap cs (c :: more))
    (hc : isSpace c = false) (hread : read (c :: more) = some (a, behind)) (hbehind : Gap behind rest)
    (hrest : Stops rest) : readElement read cs = some (a, rest) := by
  rw [readElement, hgap.skipSpace_starts hc]
  refine bind_some hread ?_
  simp only [hbehind.skipSpace_eq fun c hc => (hrest c hc).1]
  rfl

theorem readMember_eq {name : String} {a : α} {text value rest : List Char}
    (hgap : Gap cs ('\x22' :: text)) (htext : CharsText name.toList text ('\x22' :: behind))
    (hbehind : Gap behind (':' :: value)) (hread : readElement read value = some (a, rest)) :
    readMember read cs = some ((name, a), rest) := by
  rw [readMember, hgap.skipSpace_starts rfl]
  refine bind_some (behind?_self _ _) (bind_some (htext.read (Nat.le_refl _)) ?_)
  simp only [hbehind.skipSpace_starts rfl]
  refine bind_some (behind?_self _ _) (bind_some hread ?_)
  simp only [String.ofList_toList]
  rfl

theorem readSeries_last {a : α} (hread : read cs = some (a, close :: behind)) (hclose : close ≠ ',')
    (hcount : (close :: behind).length ≤ count) :
    readSeries read close count cs = some ([a], behind) := by
  rw [List.length_cons] at hcount
  obtain ⟨count, rfl⟩ := Nat.exists_eq_add_one_of_ne_zero (by omega : count ≠ 0)
  rw [readSeries]
  refine bind_some hread ?_
  simp only [behind?_of_ne (show ∀ c ∈ (close :: behind).head?, c ≠ ',' by simpa using hclose)]
  exact bind_some (behind?_self close behind) rfl

theorem readSeries_more {a : α} {more : List Char} {as : List α} (hread : read cs = some (a, ',' :: more))
    (hcount : (',' :: more).length ≤ count) (hmore : ∀ count, more.length ≤ count →
      readSeries read close count more = some (as, behind)) :
    readSeries read close count cs = some (a :: as, behind) := by
  rw [List.length_cons] at hcount
  obtain ⟨count, rfl⟩ := Nat.exists_eq_add_one_of_ne_zero (by omega : count ≠ 0)
  rw [readSeries]
  refine bind_some hread ?_
  simp only [behind?_self]
  exact bind_some (hmore count (by omega)) rfl

theorem readList_nil (h : Gap cs (close :: behind)) (hclose : isSpace close = false) :
    readList read close cs = some ([], behind) := by
  rw [readList, h.skipSpace_starts hclose, behind?_self]

theorem readList_series {first : Char} {more : List Char} (h : skipSpace cs = first :: more)
    (hfirst : first ≠ close) : readList read close cs = readSeries read close cs.length cs := by
  rw [readList, h, behind?_of_ne (by simpa using hfirst)]

end

/-- A value that begins with no mark is a word or an integer. -/
theorem readValue_bare {depth : Nat} {c : Char} {cs : List Char}
    (h : c ≠ '\x22' ∧ c ≠ '[' ∧ c ≠ '\x7b') : readValue (depth + 1) (c :: cs) =
      (readWord (c :: cs)).or ((readInt (c :: cs)).map fun (n, rest) => (.int n, rest)) := by
  obtain ⟨hquote, hbracket, hbrace⟩ := h
  unfold readValue
  split
  · next heq => exact absurd (List.cons.inj heq).1 hquote
  · next heq => exact absurd (List.cons.inj heq).1 hbracket
  · next heq => exact absurd (List.cons.inj heq).1 hbrace
  · rfl

theorem exists_cons_of_word {word : String} {j : Json} (h : (word, j) ∈ words) :
    ∃ c more, word.toList = c :: more ∧ c ≠ '\x22' ∧ c ≠ '[' ∧ c ≠ '\x7b' := by
  simp only [words, List.mem_cons, Prod.mk.injEq, List.not_mem_nil, or_false] at h
  rcases h with ⟨rfl, -⟩ | ⟨rfl, -⟩ | ⟨rfl, -⟩ <;> exact ⟨_, _, rfl, by decide⟩

theorem readWord_self {word : String} {j : Json} (h : (word, j) ∈ words) (rest : List Char) :
    readWord (word.toList ++ rest) = some (j, rest) := by
  simp only [words, List.mem_cons, Prod.mk.injEq, List.not_mem_nil, or_false] at h
  rcases h with ⟨rfl, rfl⟩ | ⟨rfl, rfl⟩ | ⟨rfl, rfl⟩ <;> rfl

theorem readWord_of_number {c : Char} (h : c = '-' ∨ isDecimal c = true) (cs : List Char) :
    readWord (c :: cs) = none := by
  have hletter : 'n' ≠ c ∧ 't' ≠ c ∧ 'f' ≠ c := by
    refine ⟨?_, ?_, ?_⟩ <;> rintro rfl <;> rcases h with h | h <;> cases h
  have hnull : "null".toList = ['n', 'u', 'l', 'l'] := rfl
  have htrue : "true".toList = ['t', 'r', 'u', 'e'] := rfl
  have hfalse : "false".toList = ['f', 'a', 'l', 's', 'e'] := rfl
  simp [readWord, words, hnull, htrue, hfalse, hletter]

/-- A character is a level of nesting at most. -/
theorem exists_depth {c : Char} {cs : List Char} {depth : Nat} (h : (c :: cs).length ≤ depth) :
    ∃ below, depth = below + 1 ∧ cs.length ≤ below := by
  rw [List.length_cons] at h
  exact ⟨depth - 1, by omega, by omega⟩

theorem readValue_word {word : String} {j : Json} {rest : List Char} {depth : Nat}
    (h : (word, j) ∈ words) (hdepth : (word.toList ++ rest).length ≤ depth) :
    readValue depth (word.toList ++ rest) = some (j, rest) := by
  have hread := readWord_self h rest
  obtain ⟨c, more, hcons, hc⟩ := exists_cons_of_word h
  rw [hcons, List.cons_append] at hdepth hread ⊢
  obtain ⟨below, rfl, -⟩ := exists_depth hdepth
  rw [readValue_bare hc, hread]
  rfl

theorem readValue_int {n : Int} {digits rest : List Char} {depth : Nat} (h : IntText n digits)
    (hdepth : (digits ++ rest).length ≤ depth) (hrest : ∀ c ∈ rest.head?, isDecimal c = false) :
    readValue depth (digits ++ rest) = some (.int n, rest) := by
  have hread := h.read hrest
  obtain ⟨c, more, rfl, hc⟩ := h.exists_cons
  have hbare : c ≠ '\x22' ∧ c ≠ '[' ∧ c ≠ '\x7b' := by
    refine ⟨?_, ?_, ?_⟩ <;> rintro rfl <;> rcases hc with hc | hc <;> cases hc
  rw [List.cons_append] at hdepth hread ⊢
  obtain ⟨below, rfl, -⟩ := exists_depth hdepth
  rw [readValue_bare hbare, readWord_of_number hc, hread]
  rfl

theorem Writes.read {phrase : Phrase} {cs rest : List Char} (h : Writes phrase cs rest) :
    phrase.ReadFrom cs rest := by
  induction h with
  | word hword => exact fun depth hdepth _ => readValue_word hword hdepth
  | int hdigits => exact fun depth hdepth hrest => readValue_int hdigits hdepth hrest
  | @str s text rest htext =>
    intro depth hdepth _
    obtain ⟨below, rfl, -⟩ := exists_depth hdepth
    show (readChars text.length text).map _ = _
    simp only [htext.read (Nat.le_refl _), Option.map_some, String.ofList_toList]
  | noItems hgap =>
    intro depth hdepth _
    obtain ⟨below, rfl, -⟩ := exists_depth hdepth
    show (readList _ ']' _).map _ = _
    rw [readList_nil hgap rfl]
    rfl
  | arr hitems ih =>
    intro depth hdepth _
    obtain ⟨below, rfl, hbelow⟩ := exists_depth hdepth
    obtain ⟨first, more, hskip, hfirst⟩ := hitems.starts_items
    show (readList _ ']' _).map _ = _
    rw [readList_series hskip hfirst.bracket, ih below _ _ hbelow (Nat.le_refl _) rfl]
    rfl
  | noMembers hgap =>
    intro depth hdepth _
    obtain ⟨below, rfl, -⟩ := exists_depth hdepth
    show (readList _ '\x7d' _).map _ = _
    rw [readList_nil hgap rfl]
    rfl
  | obj hmembers ih =>
    intro depth hdepth _
    obtain ⟨below, rfl, hbelow⟩ := exists_depth hdepth
    obtain ⟨first, more, hskip, hfirst⟩ := hmembers.starts_members
    show (readList _ '\x7d' _).map _ = _
    rw [readList_series hskip hfirst.brace, ih below _ _ hbelow (Nat.le_refl _) rfl]
    rfl
  | element hgap hvalue hbehind ih =>
    intro depth hdepth hstops
    obtain ⟨c, more, rfl, hc⟩ := hvalue.starts_value
    have hread := ih depth (hgap.length_le.trans hdepth) (hbehind.stops_decimal hstops)
    exact readElement_eq hgap hc.space hread hbehind hstops
  | lastItem hitem ih =>
    rintro depth count behind hdepth hcount rfl
    exact readSeries_last (ih depth hdepth (stops_cons rfl rfl behind)) (by decide)
      (hitem.length_le.trans hcount)
  | item hitem _ ih ihmore =>
    intro depth count behind hdepth hcount hrest
    have hlength := hitem.length_le
    refine readSeries_more (ih depth hdepth (stops_cons rfl rfl _)) (hlength.trans hcount) ?_
    exact fun count hcount => ihmore depth count behind
      ((Nat.le_of_succ_le hlength).trans hdepth) hcount hrest
  | member hgap htext hbehind _ ih =>
    intro depth hdepth hstops
    have hgapLength := hgap.length_le
    have htextLength := htext.length_le
    have hbehindLength := hbehind.length_le
    simp only [List.length_cons] at hgapLength htextLength hbehindLength
    exact readMember_eq hgap htext hbehind (ih depth (by omega) hstops)
  | lastMember hmember ih =>
    rintro depth count behind hdepth hcount rfl
    exact readSeries_last (ih depth hdepth (stops_cons rfl rfl behind)) (by decide)
      (hmember.length_le.trans hcount)
  | moreMembers hmember _ ih ihmore =>
    intro depth count behind hdepth hcount hrest
    have hlength := hmember.length_le
    refine readSeries_more (ih depth hdepth (stops_cons rfl rfl _)) (hlength.trans hcount) ?_
    exact fun count hcount => ihmore depth count behind
      ((Nat.le_of_succ_le hlength).trans hdepth) hcount hrest

/-- The reader gives the value that a text denotes. -/
theorem Denotes.read? {text : String} {j : Json} (h : Denotes text j) : read? text = some j := by
  have hread := Writes.read h text.length (Nat.le_of_eq String.length_toList) (fun _ hc => nomatch hc)
  rw [Json.read?, hread]

/-- A text denotes one value at most. -/
theorem Denotes.unique {text : String} {j k : Json} (h : Denotes text j) (h' : Denotes text k) :
    j = k :=
  Option.some.inj (h.read?.symm.trans h'.read?)

end ShareWire.Json
