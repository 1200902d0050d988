import ShareWire.Text.Commas

/-!
# Splitting and joining comma lists

Splitting undoes joining for lists that are not empty and whose entries have no commas, and for no
others.
-/

namespace ShareWire.Text

theorem splitAtCommas_eq (cs : List Char) : splitAtCommas cs = cs.splitOn ',' := by
  induction cs with
  | nil => rfl
  | cons c cs ih =>
    rw [splitAtCommas, List.splitOn_cons_eq_if_modifyHead, ih]
    by_cases hc : c = ','
    · rw [if_pos hc, if_pos (by rw [hc]; rfl)]
    · rw [if_neg hc, if_neg (by simpa using hc)]
      obtain ⟨word, words, hwords⟩ := List.exists_cons_of_ne_nil (List.splitOn_ne_nil ',' cs)
      rw [hwords]
      rfl

theorem splitAtCommas_ne_nil (cs : List Char) : splitAtCommas cs ≠ [] := by
  rw [splitAtCommas_eq]
  exact List.splitOn_ne_nil ',' cs

theorem comma_not_mem_of_mem_splitAtCommas {cs word : List Char} (h : word ∈ splitAtCommas cs) :
    ',' ∉ word := by
  induction cs generalizing word with
  | nil =>
    obtain rfl := List.mem_singleton.1 h
    simp
  | cons c cs ih =>
    rw [splitAtCommas] at h
    split at h
    · rcases List.mem_cons.1 h with rfl | h
      · simp
      · exact ih h
    · next hc =>
      obtain ⟨first, words, hwords⟩ := List.exists_cons_of_ne_nil (splitAtCommas_ne_nil cs)
      rw [hwords] at h
      rcases List.mem_cons.1 h with rfl | h
      · have hfirst : ',' ∉ first := ih (by rw [hwords]; simp)
        simpa using ⟨Ne.symm hc, hfirst⟩
      · exact ih (by rw [hwords]; simp [h])

theorem joinCommas_eq (entries : List String) : joinCommas entries = ",".intercalate entries := by
  rw [← String.toList_inj, String.toList_intercalate, joinCommas, String.toList_ofList]
  rfl

/-- Lists that come back from their text: not empty, and no entry has a comma. -/
def Separable (entries : List String) : Prop :=
  entries ≠ [] ∧ ∀ s ∈ entries, ',' ∉ s.toList

theorem separable_splitCommas (s : String) : Separable (splitCommas s) := by
  constructor
  · rw [splitCommas, ne_eq, List.map_eq_nil_iff]
    exact splitAtCommas_ne_nil s.toList
  · intro entry hentry
    obtain ⟨word, hword, rfl⟩ := List.mem_map.1 hentry
    rw [String.toList_ofList]
    exact comma_not_mem_of_mem_splitAtCommas hword

theorem joinCommas_splitCommas (s : String) : joinCommas (splitCommas s) = s := by
  rw [← String.toList_inj, joinCommas, String.toList_ofList, splitCommas, List.map_map]
  simp [Function.comp_def, splitAtCommas_eq, List.intercalate_splitOn]

/-- Splitting gives a list back exactly if it is separable. -/
theorem splitCommas_joinCommas_eq_iff {entries : List String} :
    splitCommas (joinCommas entries) = entries ↔ Separable entries := by
  constructor
  · intro h
    rw [← h]
    exact separable_splitCommas _
  · rintro ⟨hne, hcommas⟩
    have hwords : ∀ word ∈ entries.map String.toList, ',' ∉ word := by
      intro word hword
      obtain ⟨s, hs, rfl⟩ := List.mem_map.1 hword
      exact hcommas s hs
    have hsplit := List.splitOn_intercalate ',' hwords (by simpa using hne)
    rw [splitCommas, joinCommas, String.toList_ofList, splitAtCommas_eq, hsplit, List.map_map]
    simp [Function.comp_def]

end ShareWire.Text
