import Mathlib.Data.List.TakeWhile
import ShareWire.Text.Blank

/-!
# Laws of trimming

A text without white space at its ends is its own trimmed form, and white space that is put around a
text is trimmed off again.
-/

namespace ShareWire.Text

theorem isBlank_eq_false_of_graphic {c : Char} (hlow : 0x20 < c.toNat) (hhigh : c.toNat < 0x7F) :
    isBlank c = false := by
  simp only [isBlank, blankRanges, List.any_cons, List.any_nil, Bool.or_false, Bool.or_eq_false_iff,
    Bool.and_eq_false_iff, decide_eq_false_iff_not]
  omega

theorem isBlank_eq_false_of_isDigit {c : Char} (h : c.isDigit = true) : isBlank c = false := by
  have hrange := Char.isDigit_iff_toNat.1 h
  simp only [Char.reduceToNat] at hrange
  exact isBlank_eq_false_of_graphic (by omega) (by omega)

theorem trimStart_of_head {cs : List Char} (h : ∀ c ∈ cs.head?, isBlank c = false) :
    trimStart cs = cs := by
  cases cs with
  | nil => rfl
  | cons c cs => rw [trimStart, List.dropWhile_cons_of_neg (by simpa using h c rfl)]

theorem trimEnd_of_getLast {cs : List Char} (h : ∀ c ∈ cs.getLast?, isBlank c = false) :
    trimEnd cs = cs := by
  have hrev : trimStart cs.reverse = cs.reverse :=
    trimStart_of_head (by rwa [List.head?_reverse])
  rw [trimEnd, ← trimStart, hrev, List.reverse_reverse]

theorem trim_of_ends {cs : List Char} (hfirst : ∀ c ∈ cs.head?, isBlank c = false)
    (hlast : ∀ c ∈ cs.getLast?, isBlank c = false) : trim cs = cs := by
  rw [trim, trimStart_of_head hfirst, trimEnd_of_getLast hlast]

theorem trim_of_forall {cs : List Char} (h : ∀ c ∈ cs, isBlank c = false) : trim cs = cs :=
  trim_of_ends (fun c hc => h c (List.mem_of_mem_head? hc))
    (fun c hc => h c (List.mem_of_getLast? hc))

theorem trimEnd_append_blank (cs : List Char) {after : List Char}
    (h : ∀ c ∈ after, isBlank c = true) : trimEnd (cs ++ after) = trimEnd cs := by
  have hreverse : ∀ c ∈ after.reverse, isBlank c = true :=
    fun c hc => h c (List.mem_reverse.1 hc)
  rw [trimEnd, trimEnd, List.reverse_append, List.dropWhile_append_of_pos hreverse]

theorem trimEnd_append_of_ne_nil (before : List Char) {cs : List Char} (h : trimEnd cs ≠ []) :
    trimEnd (before ++ cs) = before ++ trimEnd cs := by
  have hne : cs.reverse.dropWhile isBlank ≠ [] := by simpa [trimEnd] using h
  rw [trimEnd, List.reverse_append, List.dropWhile_append, if_neg (by simpa using hne)]
  simp [trimEnd]

/-- Trimming a text and the same text with more white space around it gives the same. -/
theorem trim_append_blank {before after : List Char} (cs : List Char)
    (hbefore : ∀ c ∈ before, isBlank c = true) (hafter : ∀ c ∈ after, isBlank c = true) :
    trim (before ++ cs ++ after) = trim cs := by
  have hstart : trimStart (before ++ cs ++ after) = (cs ++ after).dropWhile isBlank := by
    rw [trimStart, List.append_assoc, List.dropWhile_append_of_pos hbefore]
  rw [trim, hstart, List.dropWhile_append]
  split
  · next hempty =>
    have hcs : trimStart cs = [] := List.isEmpty_iff.1 hempty
    rw [trim, hcs, List.dropWhile_eq_nil_iff.2 hafter]
  · exact trimEnd_append_blank _ hafter

/-- Trimming takes white space off the ends and nothing else. -/
theorem exists_eq_append_trim (cs : List Char) : ∃ before after, cs = before ++ trim cs ++ after ∧
    (∀ c ∈ before, isBlank c = true) ∧ ∀ c ∈ after, isBlank c = true := by
  refine ⟨cs.takeWhile isBlank, ((trimStart cs).reverse.takeWhile isBlank).reverse, ?_,
    fun c hc => List.mem_takeWhile_imp hc, fun c hc => List.mem_takeWhile_imp (List.mem_reverse.1 hc)⟩
  have hend : trim cs ++ ((trimStart cs).reverse.takeWhile isBlank).reverse = trimStart cs := by
    rw [trim, trimEnd, ← List.reverse_append, List.takeWhile_append_dropWhile, List.reverse_reverse]
  rw [List.append_assoc, hend, trimStart, List.takeWhile_append_dropWhile]

end ShareWire.Text
