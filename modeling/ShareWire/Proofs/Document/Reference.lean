import ShareWire.Document.Reference
import ShareWire.Proofs.Fallible
import ShareWire.Proofs.Text.Numeral
import ShareWire.Proofs.Text.Utf8

/-!
# Laws of references

The five names and the decimal and hexadecimal numbers of a character stand for that character, also
with leading zeros. There are no other references.
-/

namespace ShareWire.Reference

open Text (Base FixedWidth Numeral encode readInteger)

def predefined : List (String × Char) :=
  [("lt", '<'), ("gt", '>'), ("amp", '&'), ("apos", '\x27'), ("quot", '\x22')]

theorem resolve_predefined {name : String} {c : Char} (h : (name, c) ∈ predefined) :
    resolve name = .ok c := by
  simp only [predefined, List.mem_cons, List.not_mem_nil, or_false, Prod.mk.injEq] at h
  rcases h with ⟨rfl, rfl⟩ | ⟨rfl, rfl⟩ | ⟨rfl, rfl⟩ | ⟨rfl, rfl⟩ | ⟨rfl, rfl⟩ <;> rfl

/-! ## Numbers -/

def numberMark : Base → List Char
  | .decimal => ['#']
  | .hexadecimal => ['#', 'x']

def numberBody (base : Base) (digits : List Char) : String :=
  String.ofList (numberMark base ++ digits)

theorem numbered_of_numeral {base : Base} {cs : List Char} {c : Char} (h : Numeral base 0 cs c.toNat)
    (body : String) : numbered body base cs = .ok c := by
  have hvalid : c.toNat < 0xD800 ∨ 0xDFFF < c.toNat ∧ c.toNat < 0x110000 := c.valid
  have hbounded : Text.readBounded base (FixedWidth.least UInt32) (FixedWidth.greatest UInt32) cs =
      .ok (c.toNat : Int) := by
    refine (Text.readBounded_eq_ok_iff (by decide) (by decide)).2 ⟨h, Int.natCast_nonneg _, ?_⟩
    show (c.toNat : Int) ≤ 4294967295
    omega
  have hread : readInteger UInt32 base cs = .ok (UInt32.ofNat c.toNat) := by
    rw [readInteger, hbounded]
    rfl
  have hnat : (UInt32.ofNat c.toNat).toNat = c.toNat := by
    rw [UInt32.toNat_ofNat', Nat.mod_eq_of_lt (by omega)]
  rw [numbered, hread]
  simp only [hnat, Char.ofNat_toNat]
  exact if_pos hvalid

/-- A decimal number is not taken for a hexadecimal one. -/
theorem head_ne_of_numeral {cs : List Char} {v : Int} (h : Numeral .decimal 0 cs v) (more : List Char) :
    cs ≠ 'x' :: more := by
  rintro rfl
  cases h with
  | bare hdigits =>
    have hdigit := hdigits.digits 'x' List.mem_cons_self
    revert hdigit
    decide

theorem resolve_numberBody {base : Base} {cs : List Char} {c : Char} (h : Numeral base 0 cs c.toNat) :
    resolve (numberBody base cs) = .ok c := by
  rw [resolve, numberBody, String.toList_ofList]
  cases base with
  | hexadecimal => exact numbered_of_numeral h _
  | decimal =>
    split
    · next rest hbody => exact absurd (List.cons.inj hbody).2 (head_ne_of_numeral h rest)
    · next rest hbody =>
      rw [← (List.cons.inj hbody).2]
      exact numbered_of_numeral h _
    · next hbody => exact absurd rfl (hbody cs)

/-- The digits of the number of a character stand for it. -/
theorem resolve_digits {base : Base} {digits : List Char} {c : Char} (hdigits : base.Digits digits)
    (hvalue : base.value 0 digits = c.toNat) : resolve (numberBody base digits) = .ok c :=
  resolve_numberBody (hvalue ▸ .bare hdigits)

/-! ## Bodies of references -/

/-- The bodies of references with the characters that they stand for: the predefined names, and the
numbers of characters. A number may have a plus sign. -/
inductive Stands : String → Char → Prop where
  | named {name : String} {c : Char} : (name, c) ∈ predefined → Stands name c
  | decimal {cs : List Char} {c : Char} : Numeral .decimal 0 cs c.toNat →
      Stands (String.ofList ('#' :: cs)) c
  | hexadecimal {cs : List Char} {c : Char} : Numeral .hexadecimal 0 cs c.toNat →
      Stands (String.ofList ('#' :: 'x' :: cs)) c

theorem numeral_of_numbered {body : String} {base : Base} {cs : List Char} {c : Char}
    (h : numbered body base cs = .ok c) : Numeral base 0 cs c.toNat := by
  unfold numbered at h
  split at h
  · contradiction
  · next n hread =>
    obtain ⟨v, hv, hn⟩ := exists_of_map_ok hread
    obtain ⟨hnumeral, hlow, hhigh⟩ := Text.numeral_of_readBounded (by decide) (by decide) hv
    have hlow : 0 ≤ v := hlow
    have hhigh : v ≤ 4294967295 := hhigh
    have hvalue : (n.toNat : Int) = v := by
      rw [← hn]
      show ((UInt32.ofNat v.toNat).toNat : Int) = v
      rw [UInt32.toNat_ofNat', Nat.mod_eq_of_lt (by omega), Int.toNat_of_nonneg hlow]
    split at h
    · next hvalid =>
      cases h
      rw [Text.toNat_charOfNat hvalid, hvalue]
      exact hnumeral
    · contradiction

theorem predefined_of_named? {body : String} {c : Char} (h : named? body = some c) :
    (body, c) ∈ predefined := by
  unfold named? at h
  repeat' split at h
  all_goals first | contradiction | (cases h; subst body; decide)

theorem stands_of_resolve {body : String} {c : Char} (h : resolve body = .ok c) : Stands body c := by
  unfold resolve at h
  split at h
  · next cs hcs =>
    rw [← String.ofList_toList (s := body), hcs]
    exact .hexadecimal (numeral_of_numbered h)
  · next cs hcs =>
    rw [← String.ofList_toList (s := body), hcs]
    exact .decimal (numeral_of_numbered h)
  · split at h
    · next hnamed =>
      cases h
      exact .named (predefined_of_named? hnamed)
    · contradiction

/-- No body of a reference is shorter than two characters. -/
theorem Stands.two_le_length {body : String} {c : Char} (h : Stands body c) :
    2 ≤ (encode body).length := by
  have hencode (d e : Char) (cs : List Char) : 2 ≤ (encode (String.ofList (d :: e :: cs))).length := by
    rw [Text.encode_ofList_cons, Text.encode_ofList_cons, List.length_append, List.length_append]
    have hd := List.length_pos_of_ne_nil (String.utf8EncodeChar_ne_nil (c := d))
    have he := List.length_pos_of_ne_nil (String.utf8EncodeChar_ne_nil (c := e))
    omega
  cases h with
  | named hname =>
    simp only [predefined, List.mem_cons, List.not_mem_nil, or_false, Prod.mk.injEq] at hname
    rcases hname with ⟨rfl, -⟩ | ⟨rfl, -⟩ | ⟨rfl, -⟩ | ⟨rfl, -⟩ | ⟨rfl, -⟩ <;> decide
  | decimal hnumeral =>
    obtain ⟨d, cs, rfl⟩ := List.exists_cons_of_ne_nil hnumeral.nonempty
    exact hencode '#' d cs
  | @hexadecimal cs => exact hencode '#' 'x' cs

end ShareWire.Reference
