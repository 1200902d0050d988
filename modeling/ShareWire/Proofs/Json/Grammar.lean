import ShareWire.Json.Basic
import ShareWire.Proofs.Text.Integer

/-!
# JSON texts

The grammar of JSON with numbers that are integers, as a relation between values and their texts, together
with what stands behind these. Main statement: the text that is printed of a value denotes the value.
-/

namespace ShareWire.Json

open Text (Base)

/-! ## Grammar -/

def isSpace (c : Char) : Bool :=
  c = ' ' || c = '\n' || c = '\r' || c = '\t'

/-- The second text stands in the first one behind white space, or is the same. -/
inductive Gap : List Char → List Char → Prop where
  | none (cs : List Char) : Gap cs cs
  | space {c : Char} {cs rest : List Char} : isSpace c = true → Gap cs rest → Gap (c :: cs) rest

/-- What can stand behind a backslash, with the characters that are meant. -/
def escapes : List (Char × Char) :=
  [('\x22', '\x22'), ('\\', '\\'), ('/', '/'), ('b', '\x08'), ('f', '\x0c'), ('n', '\n'), ('r', '\r'),
    ('t', '\t')]

/-- Four hexadecimal digits that denote a number. -/
structure Quad (cs : List Char) (n : Nat) : Prop where
  digits : Base.hexadecimal.Digits cs
  length : cs.length = 4
  value : Base.hexadecimal.value 0 cs = n

/-- The texts of a character between quotation marks. A character with a number of more than sixteen bits
can be written as a pair. -/
inductive CharText (c : Char) : List Char → Prop where
  | plain : 32 ≤ c.toNat → c ≠ '\x22' → c ≠ '\\' → CharText c [c]
  | escape {mark : Char} : (mark, c) ∈ escapes → CharText c ['\\', mark]
  | number {digits : List Char} : Quad digits c.toNat → CharText c ('\\' :: 'u' :: digits)
  | pair {high low : List Char} {h l : Nat} : Quad high (0xD800 + h) → Quad low (0xDC00 + l) →
      h < 0x400 → l < 0x400 → c.toNat = 0x10000 + h * 0x400 + l →
      CharText c ('\\' :: 'u' :: (high ++ '\\' :: 'u' :: low))

inductive CharsText : List Char → List Char → List Char → Prop where
  | nil (rest : List Char) : CharsText [] rest rest
  | cons {c : Char} {cs text more rest : List Char} : CharText c text → CharsText cs more rest →
      CharsText (c :: cs) (text ++ more) rest

/-- The digits of a natural number, without leading zeros. -/
inductive NatText : Nat → List Char → Prop where
  | zero : NatText 0 ['0']
  | digits {digits : List Char} : Base.decimal.Digits digits → digits.head? ≠ some '0' →
      NatText (Base.decimal.value 0 digits) digits

inductive IntText : Int → List Char → Prop where
  | natural {n : Nat} {digits : List Char} : NatText n digits → IntText n digits
  | minus {n : Nat} {digits : List Char} : NatText n digits → IntText (-n) ('-' :: digits)

def words : List (String × Json) :=
  [("null", .null), ("true", .bool true), ("false", .bool false)]

/-- What a part of a text can stand for. -/
inductive Phrase where
  | value (j : Json)
  /-- A value with white space around it. -/
  | element (j : Json)
  | items (items : List Json)
  | member (name : String) (j : Json)
  | members (members : List (String × Json))

/-- A text begins with a part that stands for a phrase, and the second text is what stands behind it. -/
inductive Writes : Phrase → List Char → List Char → Prop where
  | word {word : String} {j : Json} {rest : List Char} : (word, j) ∈ words →
      Writes (.value j) (word.toList ++ rest) rest
  | int {n : Int} {digits rest : List Char} : IntText n digits →
      Writes (.value (.int n)) (digits ++ rest) rest
  | str {s : String} {cs rest : List Char} : CharsText s.toList cs ('\x22' :: rest) →
      Writes (.value (.str s)) ('\x22' :: cs) rest
  | noItems {cs rest : List Char} : Gap cs (']' :: rest) → Writes (.value (.arr [])) ('[' :: cs) rest
  | arr {items : List Json} {cs rest : List Char} : Writes (.items items) cs (']' :: rest) →
      Writes (.value (.arr items)) ('[' :: cs) rest
  | noMembers {cs rest : List Char} : Gap cs ('\x7d' :: rest) →
      Writes (.value (.obj [])) ('\x7b' :: cs) rest
  | obj {members : List (String × Json)} {cs rest : List Char} :
      Writes (.members members) cs ('\x7d' :: rest) → Writes (.value (.obj members)) ('\x7b' :: cs) rest
  | element {j : Json} {cs text behind rest : List Char} : Gap cs text → Writes (.value j) text behind →
      Gap behind rest → Writes (.element j) cs rest
  | lastItem {j : Json} {cs rest : List Char} : Writes (.element j) cs rest →
      Writes (.items [j]) cs rest
  | item {j : Json} {items : List Json} {cs more rest : List Char} :
      Writes (.element j) cs (',' :: more) → Writes (.items items) more rest →
      Writes (.items (j :: items)) cs rest
  | member {name : String} {j : Json} {cs text behind value rest : List Char} :
      Gap cs ('\x22' :: text) → CharsText name.toList text ('\x22' :: behind) →
      Gap behind (':' :: value) → Writes (.element j) value rest → Writes (.member name j) cs rest
  | lastMember {name : String} {j : Json} {cs rest : List Char} : Writes (.member name j) cs rest →
      Writes (.members [(name, j)]) cs rest
  | moreMembers {name : String} {j : Json} {members : List (String × Json)}
      {cs more rest : List Char} : Writes (.member name j) cs (',' :: more) →
      Writes (.members members) more rest → Writes (.members ((name, j) :: members)) cs rest

/-- A whole text that denotes a value. -/
def Denotes (text : String) (j : Json) : Prop :=
  Writes (.element j) text.toList []

/-! ## Printed characters and numbers -/

theorem quad_hexDigit {n : Nat} (h : n < 32) : Quad ['0', '0', hexDigit (n / 16), hexDigit (n % 16)] n := by
  have hall : ∀ n < 32,
      Base.hexadecimal.Digits ['0', '0', hexDigit (n / 16), hexDigit (n % 16)] ∧
      Base.hexadecimal.value 0 ['0', '0', hexDigit (n / 16), hexDigit (n % 16)] = n := by
    decide
  exact ⟨(hall n h).1, rfl, (hall n h).2⟩

theorem charText_escapeChar (c : Char) : CharText c (escapeChar c) := by
  have escape {d mark : Char} (h : c = d) (hmark : (mark, d) ∈ escapes) : CharText c ['\\', mark] :=
    h ▸ .escape hmark
  unfold escapeChar
  -- The characters that have a mark of their own.
  iterate 7
    split
    case isTrue h => exact escape h (by decide)
  split
  case isTrue h => exact .number (quad_hexDigit h)
  next hquote hslash _ _ _ _ _ hlow => exact .plain (Nat.not_lt.1 hlow) hquote hslash

theorem charsText_escaped (cs rest : List Char) : CharsText cs (cs.flatMap escapeChar ++ rest) rest := by
  induction cs with
  | nil => exact .nil rest
  | cons c cs ih =>
    rw [List.flatMap_cons, List.append_assoc]
    exact .cons (charText_escapeChar c) ih

theorem quote_append (s : String) (rest : List Char) :
    (quote s).toList ++ rest = '\x22' :: (s.toList.flatMap escapeChar ++ '\x22' :: rest) := by
  rw [quote, String.toList_ofList]
  simp

theorem head?_toDigits_ne {n : Nat} (h : 0 < n) : (Nat.toDigits 10 n).head? ≠ some '0' := by
  induction n using Nat.strongRecOn with
  | ind n ih =>
    by_cases hlt : n < 10
    · have hall : ∀ n < 10, 0 < n → Nat.digitChar n ≠ '0' := by decide
      rw [Nat.toDigits_of_lt_base hlt, List.head?_cons]
      exact fun hc => hall n hlt h (Option.some.inj hc)
    · obtain ⟨c, cs, hcons⟩ := List.exists_cons_of_ne_nil (Nat.toDigits_ne_nil (b := 10) (n := n / 10))
      have hhead := ih (n / 10) (by omega) (by omega)
      rw [hcons] at hhead
      rwa [Nat.toDigits_of_base_le (by decide) (by omega), hcons]

theorem natText_toDigits (n : Nat) : NatText n (Nat.toDigits 10 n) := by
  by_cases h : n = 0
  · exact h ▸ .zero
  · have hdigits := NatText.digits (Text.decimal_digits_toDigits n) (head?_toDigits_ne (Nat.pos_of_ne_zero h))
    rwa [Text.decimal_value_toDigits] at hdigits

theorem intText_toString (n : Int) : IntText n (toString n).toList := by
  rw [Text.toString_toList]
  split
  · have hminus := IntText.minus (natText_toDigits n.natAbs)
    rwa [show -(n.natAbs : Int) = n by omega] at hminus
  · have hnatural := IntText.natural (natText_toDigits n.natAbs)
    rwa [show (n.natAbs : Int) = n by omega] at hnatural

theorem gap_newLine (level : Nat) (rest : List Char) : Gap ((newLine level).toList ++ rest) rest := by
  rw [newLine, String.toList_ofList, List.cons_append]
  refine .space rfl ?_
  induction 2 * level with
  | zero => exact .none rest
  | succ width ih =>
    rw [List.replicate_succ, List.cons_append]
    exact .space rfl ih

/-! ## Printed values -/

theorem print_items_append (level : Nat) (item : Json) (items : List Json) (rest : List Char) :
    (print level (.arr (item :: items))).toList ++ rest =
      '[' :: ((newLine (level + 1)).toList ++ ((print (level + 1) item).toList ++
        ((printItems (level + 1) items).toList ++ ((newLine level).toList ++ ']' :: rest)))) := by
  have hopen : "[".toList = ['['] := rfl
  have hclose : "]".toList = [']'] := rfl
  simp only [print, String.toList_append, hopen, hclose, List.append_assoc, List.cons_append,
    List.nil_append]

theorem print_members_append (level : Nat) (name : String) (value : Json)
    (members : List (String × Json)) (rest : List Char) :
    (print level (.obj ((name, value) :: members))).toList ++ rest =
      '\x7b' :: ((newLine (level + 1)).toList ++ ((quote name).toList ++
        (':' :: ' ' :: ((print (level + 1) value).toList ++
          ((printMembers (level + 1) members).toList ++ ((newLine level).toList ++ '\x7d' :: rest)))))) := by
  have hopen : "\x7b".toList = ['\x7b'] := rfl
  have hclose : "\x7d".toList = ['\x7d'] := rfl
  have hcolon : ": ".toList = [':', ' '] := rfl
  simp only [print, String.toList_append, hopen, hclose, hcolon, List.append_assoc, List.cons_append,
    List.nil_append]

theorem printItems_append (level : Nat) (item : Json) (items : List Json) (rest : List Char) :
    (printItems level (item :: items)).toList ++ rest =
      ',' :: ((newLine level).toList ++ ((print level item).toList ++
        ((printItems level items).toList ++ rest))) := by
  have hcomma : ",".toList = [','] := rfl
  simp only [printItems, String.toList_append, hcomma, List.append_assoc, List.cons_append,
    List.nil_append]

theorem printMembers_append (level : Nat) (name : String) (value : Json)
    (members : List (String × Json)) (rest : List Char) :
    (printMembers level ((name, value) :: members)).toList ++ rest =
      ',' :: ((newLine level).toList ++ ((quote name).toList ++ (':' :: ' ' ::
        ((print level value).toList ++ ((printMembers level members).toList ++ rest))))) := by
  have hcomma : ",".toList = [','] := rfl
  have hcolon : ": ".toList = [':', ' '] := rfl
  simp only [printMembers, String.toList_append, hcomma, hcolon, List.append_assoc, List.cons_append,
    List.nil_append]

/-- A member as it is printed, with a value that is. -/
theorem writes_member {level : Nat} {name : String} {j : Json} {cs behind rest : List Char}
    (h : Writes (.value j) cs behind) (hbehind : Gap behind rest) :
    Writes (.member name j) ((newLine level).toList ++ ((quote name).toList ++ (':' :: ' ' :: cs)))
      rest := by
  rw [quote_append]
  exact .member (gap_newLine level _) (charsText_escaped _ _) (.none _)
    (.element (.space rfl (.none cs)) h hbehind)

mutual

theorem writes_print (level : Nat) (rest : List Char) :
    (j : Json) → Writes (.value j) ((print level j).toList ++ rest) rest
  | .null => by
    rw [print]
    exact .word (by simp [words])
  | .bool b => by
    rw [print]
    cases b <;> exact .word (by simp [words])
  | .int n => by
    rw [print]
    exact .int (intText_toString n)
  | .str s => by
    rw [print, quote_append]
    exact .str (charsText_escaped _ _)
  | .arr [] => by
    rw [print, show "[]".toList = ['[', ']'] from rfl]
    exact .noItems (.none _)
  | .obj [] => by
    rw [print, show "\x7b\x7d".toList = ['\x7b', '\x7d'] from rfl]
    exact .noMembers (.none _)
  | .arr (item :: items) => by
    rw [print_items_append]
    exact .arr (writes_items level (']' :: rest) item items)
  | .obj ((name, value) :: members) => by
    rw [print_members_append]
    exact .obj (writes_members level ('\x7d' :: rest) name value members)
termination_by j => sizeOf j

theorem writes_items (level : Nat) (rest : List Char) (item : Json) :
    (items : List Json) → Writes (.items (item :: items)) ((newLine (level + 1)).toList ++
      ((print (level + 1) item).toList ++ ((printItems (level + 1) items).toList ++
        ((newLine level).toList ++ rest)))) rest
  | [] => by
    rw [printItems, String.toList_empty, List.nil_append]
    exact .lastItem (.element (gap_newLine _ _) (writes_print (level + 1) _ item) (gap_newLine _ _))
  | next :: items => by
    rw [printItems_append]
    exact .item (.element (gap_newLine _ _) (writes_print (level + 1) _ item) (.none _))
      (writes_items level rest next items)
termination_by items => 1 + sizeOf item + sizeOf items

theorem writes_members (level : Nat) (rest : List Char) (name : String) (value : Json) :
    (members : List (String × Json)) → Writes (.members ((name, value) :: members))
      ((newLine (level + 1)).toList ++ ((quote name).toList ++ (':' :: ' ' ::
        ((print (level + 1) value).toList ++ ((printMembers (level + 1) members).toList ++
          ((newLine level).toList ++ rest)))))) rest
  | [] => by
    rw [printMembers, String.toList_empty, List.nil_append]
    exact .lastMember (writes_member (writes_print (level + 1) _ value) (gap_newLine _ _))
  | (next, more) :: members => by
    rw [printMembers_append]
    exact .moreMembers (writes_member (writes_print (level + 1) _ value) (.none _))
      (writes_members level rest next more members)
termination_by members => 1 + sizeOf value + sizeOf members

end

/-- The text that is printed of a value is JSON, and denotes the value. -/
theorem denotes_pretty (j : Json) : Denotes j.pretty j := by
  have hprint := writes_print 0 [] j
  rw [List.append_nil] at hprint
  exact .element (.none _) hprint (.none _)

end ShareWire.Json
