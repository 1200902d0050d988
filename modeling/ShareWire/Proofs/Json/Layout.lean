import ShareWire.Proofs.Json.Grammar

/-!
# The layout of printed JSON

The texts of values with one item or member to a line, indented by two spaces for each level of nesting, and with
as few escapes as there can be. Main statement: the text that is printed of a value is laid out in this way, and
no other text is.
-/

namespace ShareWire.Json

/-! ## Layout -/

def marks : List (Char × Char) :=
  [('\x22', '\x22'), ('\\', '\\'), ('b', '\x08'), ('f', '\x0c'), ('n', '\n'), ('r', '\r'), ('t', '\t')]

def lowerHexDigits : List Char :=
  "0123456789abcdef".toList

/-- A character between quotation marks. It is escaped only if it has a mark or is a control character. -/
inductive Escaped (c : Char) : List Char → Prop where
  | plain : 32 ≤ c.toNat → (∀ mark, (mark, c) ∉ marks) → Escaped c [c]
  | mark {mark : Char} : (mark, c) ∈ marks → Escaped c ['\\', mark]
  | number {high low : Char} {h l : Nat} : (∀ mark, (mark, c) ∉ marks) →
      lowerHexDigits[h]? = some high → lowerHexDigits[l]? = some low → c.toNat = 16 * h + l →
      c.toNat < 32 → Escaped c ['\\', 'u', '0', '0', high, low]

/-- A text between quotation marks. -/
inductive Quoted : List Char → List Char → Prop where
  | nil : Quoted [] []
  | cons {c : Char} {cs text rest : List Char} : Escaped c text → Quoted cs rest →
      Quoted (c :: cs) (text ++ rest)

/-- The end of a line, and two spaces for each level in front of the next one. -/
def lineStart (level : Nat) : List Char :=
  '\n' :: List.replicate (2 * level) ' '

mutual

/-- The text of a value at a level of nesting. -/
inductive Laid : Nat → Json → List Char → Prop where
  | null {level : Nat} : Laid level .null ['n', 'u', 'l', 'l']
  | true {level : Nat} : Laid level (.bool true) ['t', 'r', 'u', 'e']
  | false {level : Nat} : Laid level (.bool false) ['f', 'a', 'l', 's', 'e']
  | int {level : Nat} (n : Int) : Laid level (.int n) (toString n).toList
  | str {level : Nat} {s : String} {cs : List Char} : Quoted s.toList cs →
      Laid level (.str s) ('\x22' :: (cs ++ ['\x22']))
  | noItems {level : Nat} : Laid level (.arr []) ['[', ']']
  | noMembers {level : Nat} : Laid level (.obj []) ['\x7b', '\x7d']
  | arr {level : Nat} {items : List Json} {lines : List Char} : LaidItems (level + 1) items lines →
      Laid level (.arr items) ('[' :: (lines ++ lineStart level ++ [']']))
  | obj {level : Nat} {members : List (String × Json)} {lines : List Char} :
      LaidMembers (level + 1) members lines →
      Laid level (.obj members) ('\x7b' :: (lines ++ lineStart level ++ ['\x7d']))

/-- Items on lines of their own, with commas between them. -/
inductive LaidItems : Nat → List Json → List Char → Prop where
  | last {level : Nat} {j : Json} {text : List Char} : Laid level j text →
      LaidItems level [j] (lineStart level ++ text)
  | more {level : Nat} {j : Json} {items : List Json} {text lines : List Char} : Laid level j text →
      LaidItems level items lines → LaidItems level (j :: items) (lineStart level ++ text ++ ',' :: lines)

inductive LaidMembers : Nat → List (String × Json) → List Char → Prop where
  | last {level : Nat} {name : String} {j : Json} {cs text : List Char} : Quoted name.toList cs →
      Laid level j text →
      LaidMembers level [(name, j)] (lineStart level ++ '\x22' :: (cs ++ '\x22' :: ':' :: ' ' :: text))
  | more {level : Nat} {name : String} {j : Json} {members : List (String × Json)}
      {cs text lines : List Char} : Quoted name.toList cs → Laid level j text →
      LaidMembers level members lines → LaidMembers level ((name, j) :: members)
        (lineStart level ++ '\x22' :: (cs ++ '\x22' :: ':' :: ' ' :: text) ++ ',' :: lines)

end

/-! ## Escapes -/

theorem forall_not_mem_marks_iff {c : Char} : (∀ mark, (mark, c) ∉ marks) ↔
    c ≠ '\x22' ∧ c ≠ '\\' ∧ c ≠ '\x08' ∧ c ≠ '\x0c' ∧ c ≠ '\n' ∧ c ≠ '\r' ∧ c ≠ '\t' := by
  simp [marks, forall_and]

theorem getElem?_lowerHexDigits_iff {n : Nat} {digit : Char} :
    lowerHexDigits[n]? = some digit ↔ n < 16 ∧ digit = hexDigit n := by
  have hall : ∀ n < 16, lowerHexDigits[n]? = some (hexDigit n) := by decide
  constructor
  · intro h
    have hlt : n < 16 := (List.getElem?_eq_some_iff.1 h).1
    exact ⟨hlt, Option.some.inj (h.symm.trans (hall n hlt))⟩
  · rintro ⟨hlt, rfl⟩
    exact hall n hlt

theorem Escaped.eq_escapeChar {c : Char} {text : List Char} (h : Escaped c text) : text = escapeChar c := by
  cases h with
  | plain hhigh hmarks =>
    obtain ⟨h1, h2, h3, h4, h5, h6, h7⟩ := forall_not_mem_marks_iff.1 hmarks
    simp only [escapeChar, h1, h2, h3, h4, h5, h6, h7, Nat.not_lt.2 hhigh, if_false]
  | mark hmark =>
    simp only [marks, List.mem_cons, Prod.mk.injEq, List.not_mem_nil, or_false] at hmark
    rcases hmark with ⟨rfl, rfl⟩ | ⟨rfl, rfl⟩ | ⟨rfl, rfl⟩ | ⟨rfl, rfl⟩ | ⟨rfl, rfl⟩ | ⟨rfl, rfl⟩ | ⟨rfl, rfl⟩
    all_goals rfl
  | @number high low h l hmarks hhigh hlow hvalue hlt =>
    obtain ⟨h1, h2, h3, h4, h5, h6, h7⟩ := forall_not_mem_marks_iff.1 hmarks
    obtain ⟨-, rfl⟩ := getElem?_lowerHexDigits_iff.1 hhigh
    obtain ⟨hl, rfl⟩ := getElem?_lowerHexDigits_iff.1 hlow
    have hdiv : c.toNat / 16 = h := by omega
    have hmod : c.toNat % 16 = l := by omega
    simp only [escapeChar, h1, h2, h3, h4, h5, h6, h7, hlt, hdiv, hmod, if_false, if_true]

theorem escaped_escapeChar (c : Char) : Escaped c (escapeChar c) := by
  have mark {d mark : Char} (h : c = d) (hmark : (mark, d) ∈ marks) : Escaped c ['\\', mark] :=
    h ▸ .mark hmark
  unfold escapeChar
  -- The characters that have a mark of their own.
  iterate 7
    split
    case isTrue h => exact mark h (by decide)
  next h1 h2 h3 h4 h5 h6 h7 =>
    have hmarks := forall_not_mem_marks_iff.2 ⟨h1, h2, h3, h4, h5, h6, h7⟩
    split
    · next hlt =>
      exact .number hmarks (getElem?_lowerHexDigits_iff.2 ⟨by omega, rfl⟩)
        (getElem?_lowerHexDigits_iff.2 ⟨by omega, rfl⟩) (by omega) hlt
    · next hge => exact .plain (Nat.not_lt.1 hge) hmarks

theorem quoted_iff {cs text : List Char} : Quoted cs text ↔ text = cs.flatMap escapeChar := by
  constructor
  · intro h
    induction h with
    | nil => rfl
    | cons hfirst _ ih => rw [hfirst.eq_escapeChar, ih, List.flatMap_cons]
  · rintro rfl
    induction cs with
    | nil => exact .nil
    | cons c cs ih => exact .cons (escaped_escapeChar c) ih

theorem quote_toList (s : String) {cs : List Char} (h : Quoted s.toList cs) :
    (quote s).toList = '\x22' :: (cs ++ ['\x22']) := by
  rw [quote, String.toList_ofList, quoted_iff.1 h]
  rfl

theorem newLine_toList (level : Nat) : (newLine level).toList = lineStart level := by
  rw [newLine, String.toList_ofList]
  rfl

/-! ## Printed values -/

/-- The items of an array, each printed behind a comma, hold the lines of the array behind the first one. -/
theorem print_arr_toList {level : Nat} {items : List Json} {lines : List Char}
    (h : (printItems (level + 1) items).toList = ',' :: lines) :
    (print level (.arr items)).toList = '[' :: (lines ++ lineStart level ++ [']']) := by
  cases items with
  | nil => cases h
  | cons item items =>
    have hitems := printItems_append (level + 1) item items (lineStart level ++ [']'])
    rw [h, List.cons_append, newLine_toList] at hitems
    have hprint := print_items_append level item items []
    rw [List.append_nil, newLine_toList, newLine_toList, ← (List.cons.inj hitems).2] at hprint
    rw [hprint, List.append_assoc]

theorem print_obj_toList {level : Nat} {members : List (String × Json)} {lines : List Char}
    (h : (printMembers (level + 1) members).toList = ',' :: lines) :
    (print level (.obj members)).toList = '\x7b' :: (lines ++ lineStart level ++ ['\x7d']) := by
  cases members with
  | nil => cases h
  | cons member members =>
    obtain ⟨name, value⟩ := member
    have hmembers := printMembers_append (level + 1) name value members (lineStart level ++ ['\x7d'])
    rw [h, List.cons_append, newLine_toList] at hmembers
    have hprint := print_members_append level name value members []
    rw [List.append_nil, newLine_toList, newLine_toList, ← (List.cons.inj hmembers).2] at hprint
    rw [hprint, List.append_assoc]

theorem printItems_toList (level : Nat) (item : Json) (items : List Json) :
    (printItems level (item :: items)).toList =
      ',' :: (lineStart level ++ (print level item).toList ++ (printItems level items).toList) := by
  have h := printItems_append level item items []
  rwa [List.append_nil, List.append_nil, newLine_toList, ← List.append_assoc] at h

/-- A member behind a comma, with the text of its name. -/
theorem printMembers_toList (level : Nat) {name : String} {cs : List Char} (h : Quoted name.toList cs)
    (value : Json) (members : List (String × Json)) :
    (printMembers level ((name, value) :: members)).toList =
      ',' :: (lineStart level ++ '\x22' :: (cs ++ '\x22' :: ':' :: ' ' :: (print level value).toList) ++
        (printMembers level members).toList) := by
  have hprint := printMembers_append level name value members []
  rw [List.append_nil, List.append_nil, newLine_toList, quote_toList name h] at hprint
  simpa only [List.append_assoc, List.cons_append, List.nil_append] using hprint

mutual

/-- There is one text for each value. -/
theorem Laid.eq_print {level : Nat} {j : Json} {text : List Char} :
    Laid level j text → (print level j).toList = text
  | .int _ => by rw [print]
  | .null | .true | .false | .noItems | .noMembers => by
    rw [print]
    rfl
  | .str h => by rw [print, quote_toList _ h]
  | .arr h => print_arr_toList h.eq_print
  | .obj h => print_obj_toList h.eq_print

theorem LaidItems.eq_print {level : Nat} {items : List Json} {lines : List Char} :
    LaidItems level items lines → (printItems level items).toList = ',' :: lines
  | .last h => by
    rw [printItems_toList, h.eq_print, printItems, String.toList_empty, List.append_nil]
  | .more h hitems => by
    rw [printItems_toList, h.eq_print, hitems.eq_print]

theorem LaidMembers.eq_print {level : Nat} {members : List (String × Json)} {lines : List Char} :
    LaidMembers level members lines → (printMembers level members).toList = ',' :: lines
  | .last hname h => by
    rw [printMembers_toList level hname, h.eq_print, printMembers, String.toList_empty, List.append_nil]
  | .more hname h hmembers => by
    rw [printMembers_toList level hname, h.eq_print, hmembers.eq_print]

end

mutual

/-- What is printed is laid out. -/
theorem laid_print (level : Nat) : ∀ j : Json, Laid level j (print level j).toList
  | .null => by
    rw [print]
    exact .null
  | .bool true => by
    rw [print]
    exact .true
  | .bool false => by
    rw [print]
    exact .false
  | .int n => by
    rw [print]
    exact .int n
  | .str s => by
    have h := quoted_iff.2 (Eq.refl (s.toList.flatMap escapeChar))
    rw [print, quote_toList s h]
    exact .str h
  | .arr [] => by
    rw [print]
    exact .noItems
  | .obj [] => by
    rw [print]
    exact .noMembers
  | .arr (item :: items) => by
    obtain ⟨lines, hlines, h⟩ := laidItems_print (level + 1) item items
    rw [print_arr_toList hlines]
    exact .arr h
  | .obj ((name, value) :: members) => by
    obtain ⟨lines, hlines, h⟩ := laidMembers_print (level + 1) name value members
    rw [print_obj_toList hlines]
    exact .obj h
termination_by j => sizeOf j

theorem laidItems_print (level : Nat) (item : Json) : ∀ items : List Json,
    ∃ lines, (printItems level (item :: items)).toList = ',' :: lines ∧
      LaidItems level (item :: items) lines
  | [] => by
    refine ⟨_, printItems_toList level item [], ?_⟩
    rw [printItems, String.toList_empty, List.append_nil]
    exact .last (laid_print level item)
  | next :: items => by
    obtain ⟨lines, hlines, h⟩ := laidItems_print level next items
    refine ⟨_, printItems_toList level item (next :: items), ?_⟩
    rw [hlines]
    exact .more (laid_print level item) h
termination_by items => 1 + sizeOf item + sizeOf items

theorem laidMembers_print (level : Nat) (name : String) (value : Json) :
    ∀ members : List (String × Json),
      ∃ lines, (printMembers level ((name, value) :: members)).toList = ',' :: lines ∧
        LaidMembers level ((name, value) :: members) lines
  | [] => by
    have hname := quoted_iff.2 (Eq.refl (name.toList.flatMap escapeChar))
    refine ⟨_, printMembers_toList level hname value [], ?_⟩
    rw [printMembers, String.toList_empty, List.append_nil]
    exact .last hname (laid_print level value)
  | (nextName, next) :: members => by
    have hname := quoted_iff.2 (Eq.refl (name.toList.flatMap escapeChar))
    obtain ⟨lines, hlines, h⟩ := laidMembers_print level nextName next members
    refine ⟨_, printMembers_toList level hname value ((nextName, next) :: members), ?_⟩
    rw [hlines]
    exact .more hname (laid_print level value) h
termination_by members => 1 + sizeOf value + sizeOf members

end

/-- The text of a value is laid out, and nothing else is. -/
theorem laid_iff {j : Json} {text : String} : Laid 0 j text.toList ↔ text = j.pretty := by
  constructor
  · intro h
    exact String.toList_injective h.eq_print.symm
  · rintro rfl
    exact laid_print 0 j

end ShareWire.Json
