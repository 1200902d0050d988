import ShareWire.Text.Utf8

/-!
# Laws of UTF-8

Decoding gives back every encoded text, and the order of texts is the order of their bytes. Both rest
on the four forms of an encoded character.
-/

namespace ShareWire.Text

theorem encode_append (s t : String) : encode (s ++ t) = encode s ++ encode t := by
  simp [encode]

theorem encode_ofList_cons (c : Char) (cs : List Char) :
    encode (String.ofList (c :: cs)) = String.utf8EncodeChar c ++ encode (String.ofList cs) := by
  simp [encode]

theorem encode_ofList_append (cs ds : List Char) :
    encode (String.ofList (cs ++ ds)) = encode (String.ofList cs) ++ encode (String.ofList ds) := by
  simp [encode]

/-- ASCII texts have one byte for each character. -/
theorem encode_of_ascii {s : String} (h : ∀ c ∈ s.toList, c.toNat < 0x80) :
    encode s = s.toList.map fun c => UInt8.ofNat c.toNat := by
  have hchars : ∀ cs : List Char, (∀ c ∈ cs, c.toNat < 0x80) →
      cs.flatMap String.utf8EncodeChar = cs.map fun c => UInt8.ofNat c.toNat := by
    intro cs hcs
    induction cs with
    | nil => rfl
    | cons c cs ih =>
      have hc : c.toNat ≤ 0x7F := Nat.le_of_lt_succ (hcs c (by simp))
      rw [List.flatMap_cons, List.map_cons, ih fun d hd => hcs d (by simp [hd])]
      simp [String.utf8EncodeChar, hc]
  exact hchars s.toList h

/-! ## The four forms -/

theorem toNat_ofNat_of_lt {n : Nat} (h : n < 256) : (UInt8.ofNat n).toNat = n := by
  rw [UInt8.toNat_ofNat', Nat.mod_eq_of_lt h]

theorem utf8EncodeChar_eq (c : Char) : String.utf8EncodeChar c =
    if c.toNat ≤ 0x7F then [UInt8.ofNat c.toNat]
    else if c.toNat ≤ 0x7FF then
      [UInt8.ofNat (c.toNat / 64 % 32 + 0xC0), UInt8.ofNat (c.toNat % 64 + 0x80)]
    else if c.toNat ≤ 0xFFFF then
      [UInt8.ofNat (c.toNat / 4096 % 16 + 0xE0), UInt8.ofNat (c.toNat / 64 % 64 + 0x80),
        UInt8.ofNat (c.toNat % 64 + 0x80)]
    else
      [UInt8.ofNat (c.toNat / 262144 % 8 + 0xF0), UInt8.ofNat (c.toNat / 4096 % 64 + 0x80),
        UInt8.ofNat (c.toNat / 64 % 64 + 0x80), UInt8.ofNat (c.toNat % 64 + 0x80)] := rfl

/-- The bytes of a character are those of one of four forms. The number of the character is split
into the bits of the lead byte and six bits for every byte behind it. -/
theorem utf8EncodeChar_forms (c : Char) :
    (c.toNat < 0x80 ∧ String.utf8EncodeChar c = [UInt8.ofNat c.toNat]) ∨
    (∃ i j, c.toNat = i * 64 + j ∧ 2 ≤ i ∧ i < 32 ∧ j < 64 ∧
      String.utf8EncodeChar c = [UInt8.ofNat (i + 0xC0), UInt8.ofNat (j + 0x80)]) ∨
    (∃ i j k, c.toNat = i * 4096 + j * 64 + k ∧ i < 16 ∧ j < 64 ∧ k < 64 ∧
      (i = 0 → 32 ≤ j) ∧ (i = 13 → j < 32) ∧
      String.utf8EncodeChar c =
        [UInt8.ofNat (i + 0xE0), UInt8.ofNat (j + 0x80), UInt8.ofNat (k + 0x80)]) ∨
    (∃ i j k l, c.toNat = i * 262144 + j * 4096 + k * 64 + l ∧ i < 5 ∧ j < 64 ∧ k < 64 ∧ l < 64 ∧
      (i = 0 → 16 ≤ j) ∧ (i = 4 → j < 16) ∧
      String.utf8EncodeChar c =
        [UInt8.ofNat (i + 0xF0), UInt8.ofNat (j + 0x80), UInt8.ofNat (k + 0x80),
          UInt8.ofNat (l + 0x80)]) := by
  have hvalid : c.toNat < 0xD800 ∨ 0xDFFF < c.toNat ∧ c.toNat < 0x110000 := c.valid
  rw [utf8EncodeChar_eq]
  generalize c.toNat = n at hvalid
  by_cases h1 : n ≤ 0x7F
  · exact .inl ⟨by omega, by rw [if_pos h1]⟩
  by_cases h2 : n ≤ 0x7FF
  · refine .inr (.inl ⟨n / 64 % 32, n % 64, ?_⟩)
    rw [if_neg h1, if_pos h2]
    exact ⟨by omega, by omega, by omega, by omega, rfl⟩
  by_cases h3 : n ≤ 0xFFFF
  · refine .inr (.inr (.inl ⟨n / 4096 % 16, n / 64 % 64, n % 64, ?_⟩))
    rw [if_neg h1, if_neg h2, if_pos h3]
    exact ⟨by omega, by omega, by omega, by omega, by omega, by omega, rfl⟩
  · refine .inr (.inr (.inr ⟨n / 262144 % 8, n / 4096 % 64, n / 64 % 64, n % 64, ?_⟩))
    rw [if_neg h1, if_neg h2, if_neg h3]
    exact ⟨by omega, by omega, by omega, by omega, by omega, by omega, by omega, rfl⟩

theorem isTail_iff {b : UInt8} : isTail b = true ↔ 0x80 ≤ b.toNat ∧ b.toNat < 0xC0 := by
  simp only [isTail, Bool.and_eq_true, decide_eq_true_eq, UInt8.le_iff_toNat_le, UInt8.toNat_ofNat]
  omega

theorem isSecondOfThree_iff {a b : UInt8} : isSecondOfThree a b = true ↔
    0x80 ≤ b.toNat ∧ b.toNat < 0xC0 ∧ (a.toNat = 0xE0 → 0xA0 ≤ b.toNat) ∧
      (a.toNat = 0xED → b.toNat < 0xA0) := by
  simp only [isSecondOfThree, ← UInt8.toNat_inj, UInt8.toNat_ofNat]
  split
  · simp only [Bool.and_eq_true, decide_eq_true_eq, UInt8.le_iff_toNat_le, UInt8.toNat_ofNat]
    omega
  · split
    · simp only [Bool.and_eq_true, decide_eq_true_eq, UInt8.le_iff_toNat_le, UInt8.toNat_ofNat]
      omega
    · rw [isTail_iff]
      omega

theorem isSecondOfFour_iff {a b : UInt8} : isSecondOfFour a b = true ↔
    0x80 ≤ b.toNat ∧ b.toNat < 0xC0 ∧ (a.toNat = 0xF0 → 0x90 ≤ b.toNat) ∧
      (a.toNat = 0xF4 → b.toNat < 0x90) := by
  simp only [isSecondOfFour, ← UInt8.toNat_inj, UInt8.toNat_ofNat]
  split
  · simp only [Bool.and_eq_true, decide_eq_true_eq, UInt8.le_iff_toNat_le, UInt8.toNat_ofNat]
    omega
  · split
    · simp only [Bool.and_eq_true, decide_eq_true_eq, UInt8.le_iff_toNat_le, UInt8.toNat_ofNat]
      omega
    · rw [isTail_iff]
      omega

/-! ## Decoding -/

theorem isTail_ofNat {n : Nat} (h : n < 64) : isTail (UInt8.ofNat (n + 0x80)) = true := by
  rw [isTail_iff, toNat_ofNat_of_lt (by omega)]
  omega

theorem tailBits_ofNat {n : Nat} (h : n < 64) : tailBits (UInt8.ofNat (n + 0x80)) = n := by
  rw [tailBits, toNat_ofNat_of_lt (by omega)]
  omega

theorem decodeFrom_one {index : Nat} {a : UInt8} (ha : a.toNat < 0x80) (rest : Bytes) :
    decodeFrom index (a :: rest) = (decodeFrom (index + 1) rest).map (Char.ofNat a.toNat :: ·) := by
  have h1 : a < 0x80 := by simpa [UInt8.lt_iff_toNat_lt] using ha
  rw [decodeFrom.eq_def]
  simp only [h1, if_true]

theorem decodeFrom_two {index : Nat} {a b : UInt8} (ha : 0xC2 ≤ a.toNat ∧ a.toNat < 0xE0)
    (hb : isTail b = true) (rest : Bytes) :
    decodeFrom index (a :: b :: rest) =
      (decodeFrom (index + 2) rest).map (charOfTwo a b :: ·) := by
  have h1 : ¬ a < 0x80 := by simp [UInt8.lt_iff_toNat_lt]; omega
  have h2 : (0xC2 ≤ a && a ≤ 0xDF) = true := by simp [UInt8.le_iff_toNat_le]; omega
  rw [decodeFrom.eq_def]
  simp only [h1, h2, hb, if_true, if_false]

theorem decodeFrom_three {index : Nat} {a b c : UInt8} (ha : 0xE0 ≤ a.toNat ∧ a.toNat < 0xF0)
    (hb : isSecondOfThree a b = true) (hc : isTail c = true) (rest : Bytes) :
    decodeFrom index (a :: b :: c :: rest) =
      (decodeFrom (index + 3) rest).map (charOfThree a b c :: ·) := by
  have h1 : ¬ a < 0x80 := by simp [UInt8.lt_iff_toNat_lt]; omega
  have h2 : (0xC2 ≤ a && a ≤ 0xDF) = false := by simp [UInt8.le_iff_toNat_le]; omega
  have h3 : (0xE0 ≤ a && a ≤ 0xEF) = true := by simp [UInt8.le_iff_toNat_le]; omega
  rw [decodeFrom.eq_def]
  simp only [h1, h2, h3, hb, hc, Bool.false_eq_true, if_true, if_false]

theorem decodeFrom_four {index : Nat} {a b c d : UInt8} (ha : 0xF0 ≤ a.toNat ∧ a.toNat < 0xF5)
    (hb : isSecondOfFour a b = true) (hc : isTail c = true) (hd : isTail d = true) (rest : Bytes) :
    decodeFrom index (a :: b :: c :: d :: rest) =
      (decodeFrom (index + 4) rest).map (charOfFour a b c d :: ·) := by
  have h1 : ¬ a < 0x80 := by simp [UInt8.lt_iff_toNat_lt]; omega
  have h2 : (0xC2 ≤ a && a ≤ 0xDF) = false := by simp [UInt8.le_iff_toNat_le]; omega
  have h3 : (0xE0 ≤ a && a ≤ 0xEF) = false := by simp [UInt8.le_iff_toNat_le]; omega
  have h4 : (0xF0 ≤ a && a ≤ 0xF4) = true := by simp [UInt8.le_iff_toNat_le]; omega
  rw [decodeFrom.eq_def]
  simp only [h1, h2, h3, h4, hb, hc, hd, Bool.false_eq_true, if_true, if_false]

theorem isSecondOfThree_ofNat {i j : Nat} (hi : i < 16) (hj : j < 64) (hlow : i = 0 → 32 ≤ j)
    (hhigh : i = 13 → j < 32) :
    isSecondOfThree (UInt8.ofNat (i + 0xE0)) (UInt8.ofNat (j + 0x80)) = true := by
  rw [isSecondOfThree_iff, toNat_ofNat_of_lt (by omega), toNat_ofNat_of_lt (by omega)]
  omega

theorem isSecondOfFour_ofNat {i j : Nat} (hi : i < 5) (hj : j < 64) (hlow : i = 0 → 16 ≤ j)
    (hhigh : i = 4 → j < 16) :
    isSecondOfFour (UInt8.ofNat (i + 0xF0)) (UInt8.ofNat (j + 0x80)) = true := by
  rw [isSecondOfFour_iff, toNat_ofNat_of_lt (by omega), toNat_ofNat_of_lt (by omega)]
  omega

/-- One encoded character is decoded to itself, and the index moves on by its size. -/
theorem decodeFrom_utf8EncodeChar (index : Nat) (c : Char) (rest : Bytes) :
    decodeFrom index (String.utf8EncodeChar c ++ rest) =
      (decodeFrom (index + (String.utf8EncodeChar c).length) rest).map (c :: ·) := by
  rcases utf8EncodeChar_forms c with ⟨h, he⟩ | ⟨i, j, hn, hi, hi', hj, he⟩ |
    ⟨i, j, k, hn, hi, hj, hk, hlow, hhigh, he⟩ | ⟨i, j, k, l, hn, hi, hj, hk, hl, hlow, hhigh, he⟩
  all_goals rw [he]; simp only [List.cons_append, List.nil_append, List.length_cons, List.length_nil]
  · have ha := toNat_ofNat_of_lt (show c.toNat < 256 by omega)
    rw [decodeFrom_one (by omega), ha, Char.ofNat_toNat]
  · have ha := toNat_ofNat_of_lt (show i + 0xC0 < 256 by omega)
    have hchar : charOfTwo (UInt8.ofNat (i + 0xC0)) (UInt8.ofNat (j + 0x80)) = c := by
      rw [charOfTwo, ha, tailBits_ofNat hj, show (i + 0xC0) % 32 * 64 + j = c.toNat by omega,
        Char.ofNat_toNat]
    rw [decodeFrom_two (by omega) (isTail_ofNat hj), hchar]
  · have ha := toNat_ofNat_of_lt (show i + 0xE0 < 256 by omega)
    have hchar : charOfThree (UInt8.ofNat (i + 0xE0)) (UInt8.ofNat (j + 0x80))
        (UInt8.ofNat (k + 0x80)) = c := by
      rw [charOfThree, ha, tailBits_ofNat hj, tailBits_ofNat hk,
        show (i + 0xE0) % 16 * 4096 + j * 64 + k = c.toNat by omega, Char.ofNat_toNat]
    rw [decodeFrom_three (by omega) (isSecondOfThree_ofNat hi hj hlow hhigh) (isTail_ofNat hk), hchar]
  · have ha := toNat_ofNat_of_lt (show i + 0xF0 < 256 by omega)
    have hchar : charOfFour (UInt8.ofNat (i + 0xF0)) (UInt8.ofNat (j + 0x80))
        (UInt8.ofNat (k + 0x80)) (UInt8.ofNat (l + 0x80)) = c := by
      rw [charOfFour, ha, tailBits_ofNat hj, tailBits_ofNat hk, tailBits_ofNat hl,
        show (i + 0xF0) % 8 * 262144 + j * 4096 + k * 64 + l = c.toNat by omega, Char.ofNat_toNat]
    rw [decodeFrom_four (by omega) (isSecondOfFour_ofNat hi hj hlow hhigh) (isTail_ofNat hk)
      (isTail_ofNat hl), hchar]

/-- Encoded characters are decoded to themselves in front of any bytes. -/
theorem decodeFrom_encode_append (index : Nat) (cs : List Char) (rest : Bytes) :
    decodeFrom index (encode (String.ofList cs) ++ rest) =
      (decodeFrom (index + (encode (String.ofList cs)).length) rest).map (cs ++ ·) := by
  induction cs generalizing index with
  | nil => simp [encode]; cases decodeFrom index rest <;> rfl
  | cons c cs ih =>
    rw [encode_ofList_cons, List.append_assoc, decodeFrom_utf8EncodeChar, ih, List.length_append,
      Nat.add_assoc]
    cases decodeFrom (index + ((String.utf8EncodeChar c).length +
      (encode (String.ofList cs)).length)) rest <;> rfl

theorem decode_encode (s : String) : decode (encode s) = .ok s := by
  have h := decodeFrom_encode_append 0 s.toList []
  rw [String.ofList_toList, List.append_nil] at h
  simp [decode, h, decodeFrom, Except.map]

/-! ## Strictness -/

theorem toNat_charOfNat {n : Nat} (h : n.isValidChar) : (Char.ofNat n).toNat = n := by
  rw [Char.ofNat, dif_pos h]
  rfl

theorem ofNat_eq_of_toNat {n : Nat} {b : UInt8} (h : n = b.toNat) : UInt8.ofNat n = b := by
  rw [h, UInt8.ofNat_toNat]

theorem utf8EncodeChar_charOfOne {a : UInt8} (ha : a.toNat < 0x80) :
    String.utf8EncodeChar (Char.ofNat a.toNat) = [a] := by
  have hc := toNat_charOfNat (n := a.toNat) (.inl (by omega))
  rw [utf8EncodeChar_eq, hc, if_pos (by omega), UInt8.ofNat_toNat]

theorem utf8EncodeChar_charOfTwo {a b : UInt8} (ha : 0xC2 ≤ a.toNat ∧ a.toNat < 0xE0)
    (hb : isTail b = true) : String.utf8EncodeChar (charOfTwo a b) = [a, b] := by
  have hb := isTail_iff.1 hb
  have hc : (charOfTwo a b).toNat = _ := toNat_charOfNat (by simp [tailBits, Nat.isValidChar]; omega)
  rw [utf8EncodeChar_eq, hc, if_neg (by simp [tailBits]; omega), if_pos (by simp [tailBits]; omega),
    ofNat_eq_of_toNat (b := a) (by simp [tailBits]; omega),
    ofNat_eq_of_toNat (b := b) (by simp [tailBits]; omega)]

theorem utf8EncodeChar_charOfThree {a b c : UInt8} (ha : 0xE0 ≤ a.toNat ∧ a.toNat < 0xF0)
    (hb : isSecondOfThree a b = true) (hc : isTail c = true) :
    String.utf8EncodeChar (charOfThree a b c) = [a, b, c] := by
  have hb := isSecondOfThree_iff.1 hb
  have hc := isTail_iff.1 hc
  have hn : (charOfThree a b c).toNat = a.toNat % 16 * 4096 + tailBits b * 64 + tailBits c :=
    toNat_charOfNat (by simp only [tailBits, Nat.isValidChar]; omega)
  simp only [tailBits] at hn
  rw [utf8EncodeChar_eq, hn, if_neg (by omega), if_neg (by omega), if_pos (by omega),
    ofNat_eq_of_toNat (b := a) (by omega), ofNat_eq_of_toNat (b := b) (by omega),
    ofNat_eq_of_toNat (b := c) (by omega)]

theorem utf8EncodeChar_charOfFour {a b c d : UInt8} (ha : 0xF0 ≤ a.toNat ∧ a.toNat < 0xF5)
    (hb : isSecondOfFour a b = true) (hc : isTail c = true) (hd : isTail d = true) :
    String.utf8EncodeChar (charOfFour a b c d) = [a, b, c, d] := by
  have hb := isSecondOfFour_iff.1 hb
  have hc := isTail_iff.1 hc
  have hd := isTail_iff.1 hd
  have hn : (charOfFour a b c d).toNat =
      a.toNat % 8 * 262144 + tailBits b * 4096 + tailBits c * 64 + tailBits d :=
    toNat_charOfNat (by simp only [tailBits, Nat.isValidChar]; omega)
  simp only [tailBits] at hn
  rw [utf8EncodeChar_eq, hn, if_neg (by omega), if_neg (by omega), if_neg (by omega),
    ofNat_eq_of_toNat (b := a) (by omega), ofNat_eq_of_toNat (b := b) (by omega),
    ofNat_eq_of_toNat (b := c) (by omega), ofNat_eq_of_toNat (b := d) (by omega)]

theorem append_eq_encode_of_map {index : Nat} {lead rest : Bytes} {c : Char} {cs : List Char}
    (hchar : String.utf8EncodeChar c = lead)
    (hrest : ∀ {ds}, decodeFrom index rest = .ok ds → rest = encode (String.ofList ds))
    (h : (decodeFrom index rest).map (c :: ·) = .ok cs) :
    lead ++ rest = encode (String.ofList cs) := by
  cases hd : decodeFrom index rest with
  | error fault => simp [hd, Except.map] at h
  | ok ds =>
    simp only [hd, Except.map, Except.ok.injEq] at h
    rw [← h, encode_ofList_cons, ← hrest hd, hchar]

/-- Only the shortest form of a text is decoded to it. -/
theorem eq_encode_of_decodeFrom {index : Nat} {bytes : Bytes} {cs : List Char}
    (h : decodeFrom index bytes = .ok cs) : bytes = encode (String.ofList cs) := by
  fun_induction decodeFrom index bytes generalizing cs with
  | case1 => cases h; rfl
  | case2 index a rest ha ih =>
    exact append_eq_encode_of_map
      (utf8EncodeChar_charOfOne (by simpa [UInt8.lt_iff_toNat_lt] using ha)) ih h
  | case4 index a _ ha b rest hb ih =>
    have ha : 0xC2 ≤ a.toNat ∧ a.toNat < 0xE0 := by
      simp [UInt8.le_iff_toNat_le] at ha; omega
    exact append_eq_encode_of_map (utf8EncodeChar_charOfTwo ha hb) ih h
  | case8 index a _ _ ha b hb c rest hc ih =>
    have ha : 0xE0 ≤ a.toNat ∧ a.toNat < 0xF0 := by
      simp [UInt8.le_iff_toNat_le] at ha; omega
    exact append_eq_encode_of_map (utf8EncodeChar_charOfThree ha hb hc) ih h
  | case14 index a _ _ _ ha b hb c hc d rest hd ih =>
    have ha : 0xF0 ≤ a.toNat ∧ a.toNat < 0xF5 := by
      simp [UInt8.le_iff_toNat_le] at ha; omega
    exact append_eq_encode_of_map (utf8EncodeChar_charOfFour ha hb hc hd) ih h
  | _ => cases h

theorem decode_eq_ok_iff {bytes : Bytes} {s : String} :
    decode bytes = .ok s ↔ bytes = encode s := by
  refine ⟨fun h => ?_, fun h => h ▸ decode_encode s⟩
  unfold decode at h
  cases hd : decodeFrom 0 bytes with
  | error fault => simp [hd, Except.map] at h
  | ok cs =>
    simp only [hd, Except.map, Except.ok.injEq] at h
    rw [← h]
    exact eq_encode_of_decodeFrom hd

theorem encode_injective {s t : String} (h : encode s = encode t) : s = t := by
  have hs := decode_encode s
  rw [h, decode_encode] at hs
  exact (Except.ok.inj hs).symm

/-- A byte below 80 occurs in the character with its number only. -/
theorem toNat_eq_of_mem_utf8EncodeChar {b : UInt8} {c : Char} (hb : b.toNat < 0x80)
    (h : b ∈ String.utf8EncodeChar c) : b.toNat = c.toNat := by
  rcases utf8EncodeChar_forms c with ⟨_, he⟩ | ⟨i, j, hn, _, _, _, he⟩ |
    ⟨i, j, k, hn, _, _, _, _, _, he⟩ | ⟨i, j, k, l, hn, _, _, _, _, _, _, he⟩
  all_goals
    rw [he] at h
    simp only [List.mem_cons, List.not_mem_nil, or_false, ← UInt8.toNat_inj] at h
    simp (disch := omega) only [toNat_ofNat_of_lt] at h
    omega

theorem mem_encode_ascii {b : UInt8} {s : String} (hb : b.toNat < 0x80) (h : b ∈ encode s) :
    Char.ofNat b.toNat ∈ s.toList := by
  obtain ⟨c, hc, hbc⟩ := List.mem_flatMap.1 h
  rw [toNat_eq_of_mem_utf8EncodeChar hb hbc, Char.ofNat_toNat]
  exact hc

/-! ## Order -/

end ShareWire.Text
